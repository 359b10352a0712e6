import SealedPayroll.Proofs.Payment.PayBatch
import SealedPayroll.Proofs.Registry.Effects
import SealedPayroll.Proofs.Session.Regime

/-!
# The companies

Companies are numbered as they come, each is stored under its number, and none
is ever removed (`Ledger.Enumerated`). Their counts of employees change, but
their administrators stay.
-/

namespace SealedPayroll

open SealedPayroll.Action (Footprint Keeps)

variable {σ : Type} {l k : Ledger} {company : Company}

/-- The companies are those with the numbers below the count, each under its own. -/
structure Ledger.Enumerated (l : Ledger) : Prop where
  numbered : l.Numbered
  counted : ∀ id, (∃ company, l.companies.get? id = some company) ↔ 0 ≤ id ∧ id < l.companyCount

/-- The administrator of a company. -/
def Ledger.admin? (l : Ledger) (id : Int) : Option Principal := (l.companies.get? id).map (·.admin)

namespace Ledger

theorem admin?_of_company {id : Int} (h : l.companies.get? id = some company) :
    l.admin? id = some company.admin := by
  rw [admin?, h]
  rfl

/-- There is one company of a number, so whoever has signed as its administrator is the one that
is on record. -/
theorem signed_of_record {authority : Authority} {id : Int} {admin : Principal}
    (onRecord : l.admin? id = some admin) (signed : authority.allows admin = true)
    (company : Company) (found : l.companies.get? id = some company) :
    authority.allows company.admin = true := by
  cases (admin?_of_company found).symm.trans onRecord
  exact signed

namespace Enumerated

theorem empty : Ledger.empty.Enumerated where
  numbered _ _ h := nomatch h
  counted id := by
    constructor
    · rintro ⟨_, found⟩
      cases found
    · rintro ⟨positive, below⟩
      exact absurd below (Int.not_lt.mpr positive)

theorem of_same (h : l.Enumerated) (hc : k.companies = l.companies)
    (hn : k.companyCount = l.companyCount) : k.Enumerated := by
  obtain ⟨numbered, counted⟩ := h
  constructor
  · rwa [Numbered, hc]
  · rwa [hc, hn]

/-- The next number is free. -/
theorem next (h : l.Enumerated) : l.companies.get? l.companyCount = none := by
  rcases found : l.companies.get? l.companyCount with _ | company
  · rfl
  · have below := (h.counted _).mp ⟨company, found⟩
    exact absurd below.2 (Int.lt_irrefl _)

theorem numbered_insert (h : l.Enumerated) (company : Company) (id : Int) (found : Company)
    (hf : (l.companies.insert company.id company).get? id = some found) : found.id = id := by
  rw [Table.get?_insert] at hf
  split at hf
  · rename_i same
    cases hf
    exact same
  · exact h.numbered id found hf

theorem register (h : l.Enumerated) (hc : company.id = l.companyCount) :
    (l.register company).Enumerated where
  numbered := h.numbered_insert company
  counted id := by
    have counted := h.counted id
    simp only [Ledger.register, setCompanyCount, putCompany, Table.get?_insert]
    by_cases same : company.id = id
    · simp only [if_pos same, Nat.cast_succ]
      constructor
      · intro _
        omega
      · intro _
        exact ⟨company, rfl⟩
    · rw [if_neg same, counted, Nat.cast_succ]
      omega

theorem staff {id : Int} (h : l.Enumerated) (hc : l.companies.get? id = some company)
    (count : Int) : (l.staff company count).Enumerated where
  numbered := h.numbered_insert { company with employeeCount := count }
  counted other := by
    have own : company.id = id := h.numbered id company hc
    have counted := h.counted other
    simp only [Ledger.staff, putCompany, Table.get?_insert, own]
    split
    · rename_i same
      rw [← counted, ← same]
      constructor
      · intro _
        exact ⟨company, hc⟩
      · intro _
        exact ⟨_, rfl⟩
    · exact counted

end Enumerated

end Ledger

-- ---------------------------------------------------------------------------
-- Runs
-- ---------------------------------------------------------------------------

/-- The companies stay numbered, there are as many or more, and nothing of a company changes but
its count of employees. -/
structure Ledger.Succeeds (l k : Ledger) : Prop where
  enumerated : k.Enumerated
  count : l.companyCount ≤ k.companyCount
  companies : ∀ id company, l.companies.get? id = some company →
    ∃ count, k.companies.get? id = some { company with employeeCount := count }

/-- A ledger in which the companies are numbered is followed by another one. -/
abbrev StaysEnumerated (l k : Ledger) : Prop := l.Enumerated → l.Succeeds k

namespace Ledger.Succeeds

theorem of_same (h : l.Enumerated) (hc : k.companies = l.companies)
    (hn : k.companyCount = l.companyCount) : l.Succeeds k where
  enumerated := h.of_same hc hn
  count := Nat.le_of_eq hn.symm
  companies id company found := ⟨company.employeeCount, by rw [hc, found]⟩

theorem swept {clock : Clock} (h : Ledger.Swept clock l k) {before : Ledger}
    (hs : before.Succeeds l) : before.Succeeds k :=
  h.imp (fun hs => ⟨hs.enumerated.of_same rfl rfl, hs.count, hs.companies⟩) hs

theorem trans {m : Ledger} (h₁ : l.Succeeds k) (h₂ : k.Succeeds m) : l.Succeeds m where
  enumerated := h₂.enumerated
  count := Nat.le_trans h₁.count h₂.count
  companies id company found := by
    obtain ⟨between, found⟩ := h₁.companies id company found
    obtain ⟨last, found⟩ := h₂.companies id _ found
    exact ⟨last, found⟩

theorem register (h : l.Enumerated) (hc : company.id = l.companyCount) :
    l.Succeeds (l.register company) where
  enumerated := h.register hc
  count := Nat.le_succ _
  companies id old found := by
    refine ⟨old.employeeCount, ?_⟩
    rw [Ledger.register, setCompanyCount, putCompany, Table.get?_insert, if_neg, found]
    rintro rfl
    rw [hc, h.next] at found
    cases found

theorem staff {own : Int} (h : l.Enumerated) (hc : l.companies.get? own = some company)
    (count : Int) : l.Succeeds (l.staff company count) where
  enumerated := h.staff hc count
  count := Nat.le_refl _
  companies id old found := by
    rw [Ledger.staff, putCompany, Table.get?_insert]
    split
    · rename_i same
      rw [← same, h.numbered own company hc, hc] at found
      cases found
      exact ⟨count, rfl⟩
    · exact ⟨old.employeeCount, found⟩

theorem admins (h : l.Succeeds k) (id : Int) (admin : Principal) (ha : l.admin? id = some admin) :
    k.admin? id = some admin := by
  obtain ⟨company, found, rfl⟩ := Option.map_eq_some_iff.mp ha
  obtain ⟨count, later⟩ := h.companies id company found
  rw [admin?, later]
  rfl

end Ledger.Succeeds

theorem Affair.staysEnumerated {base : Deployment σ} {direct : Prop} {parts : List Ledger.Part}
    {α : Type} {action : Action σ α} (h : Affair base direct parts action) :
    Keeps StaysEnumerated action := by
  intro host enumerated
  have footprint := h.footprint
  have still : host.ledger.Succeeds host.ledger := .of_same enumerated rfl rfl
  cases h with
  | register admin treasury =>
    apply (Registry.register_failsEarly admin treasury).holds_after still
    intro id later hr
    obtain ⟨rfl, swept⟩ := Registry.of_register_ok hr
    exact .swept swept (.register enumerated rfl)
  | enrol company employee commitment =>
    apply (Registry.enrol_failsEarly company employee commitment).holds_after still
    intro binding later hr
    obtain ⟨company, found, -, -, -, -, swept⟩ := Registry.of_enrol_ok hr
    have bound : host.ledger.Succeeds (host.ledger.bind employee binding binding.record) :=
      .of_same enumerated rfl rfl
    exact .swept swept (bound.trans (.staff bound.enumerated found _))
  | release company employee =>
    apply (Registry.release_failsEarly company employee).holds_after still
    intro _ later hr
    obtain ⟨company, binding, found, -, -, swept⟩ := Registry.of_release_ok hr
    have unbound : host.ledger.Succeeds (host.ledger.unbind employee) :=
      .of_same enumerated rfl rfl
    exact .swept swept (unbound.trans (.staff unbound.enumerated found _))
  | _ =>
    exact .of_same enumerated (footprint.agree .companies (by decide) rfl host)
      (footprint.agree .companyCount (by decide) rfl host)

theorem Reachable.enumerated {base d : Deployment σ} {host : Host σ}
    (h : Reachable base d host) : host.ledger.Enumerated :=
  (Regime.Reachable.of_public h).holds Regime.orderly_public .empty
    (fun _ _ _ he => he.of_same rfl rfl)
    fun _ _ _ ha host he => (ha.staysEnumerated host he).enumerated

end SealedPayroll
