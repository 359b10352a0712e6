import Mathlib.Algebra.BigOperators.Ring.Finset
import SealedPayroll.Proofs.Registry.Companies

/-!
# The staff of a company

The registry keeps a count of employees with each company, and could as well
count the bindings to it (`Ledger.workforce`). The two agree wherever a run is,
even if somebody has taken commitment records away and a change of commitment
has failed half-way: of a binding, nothing can change but its commitment and
the time of the last payment (`Ledger.Staffed`).
-/

namespace SealedPayroll

open SealedPayroll.Action (Footprint Keeps)
open SealedPayroll.Registry (employed?)

variable {σ : Type}

-- ---------------------------------------------------------------------------
-- Counting employees
-- ---------------------------------------------------------------------------

namespace Ledger

/-- How many bindings there are to a company. -/
def workforce (l : Ledger) (id : Int) : Nat := l.bindings.values.countP (·.company = id)

theorem length_employees (l : Ledger) (id : Int) :
    (Registry.employees l id).length = l.workforce id := by
  rw [Registry.employees, List.length_mergeSort, workforce, List.countP_eq_length_filter]

variable {l k : Ledger} {id : Int} {name : Principal} {binding old : Binding}
  {record : CommitmentRecord} {company : Company}

theorem workforce_bind (free : l.bindings.get? name = none) :
    (l.bind name binding record).workforce id =
      l.workforce id + if binding.company = id then 1 else 0 := by
  have counted := l.bindings.countP_insert (·.company = id) name binding
  rw [free] at counted
  simp only [Option.any_none, Bool.toNat_false, Nat.add_zero] at counted
  rw [workforce, Ledger.bind, putCommitment, putBinding, counted, workforce]
  split <;> simp [*]

theorem workforce_rebind (held : l.bindings.get? name = some old)
    (same : binding.company = old.company) :
    (l.putBinding name binding).workforce id = l.workforce id := by
  have counted := l.bindings.countP_insert (·.company = id) name binding
  rw [held, Option.any_some, same] at counted
  exact Nat.add_right_cancel counted

theorem workforce_unbind (id : Int) (held : l.bindings.get? name = some old) :
    (l.unbind name).workforce id + (if old.company = id then 1 else 0) = l.workforce id := by
  have counted := l.bindings.countP_erase (·.company = id) name
  rw [held, Option.any_some] at counted
  rw [workforce, workforce, ← counted, bindings_unbind]
  split <;> simp [*]

/-- Nobody works for a company that nobody is bound to. -/
theorem workforce_eq_zero
    (nobody : ∀ name binding, l.bindings.get? name = some binding → binding.company ≠ id) :
    l.workforce id = 0 := by
  refine List.countP_eq_zero.mpr fun binding member => ?_
  obtain ⟨name, held⟩ := Table.mem_values_iff.mp member
  simpa using nobody name binding held

end Ledger

-- ---------------------------------------------------------------------------
-- The invariant
-- ---------------------------------------------------------------------------

/-- A binding that stands under the name of its employee, holds a commitment and leads to a
company. -/
structure Binding.Sound (l : Ledger) (name : Principal) (binding : Binding) : Prop where
  named : binding.employee = name
  sized : binding.commitment.length = 32
  housed : ∃ company, l.companies.get? binding.company = some company

/-- A binding stays sound as long as its company is there. -/
theorem Binding.Sound.of_housed {l k : Ledger} {name : Principal} {binding : Binding}
    (h : binding.Sound l name) (kept : ∀ company, l.companies.get? binding.company = some company →
      ∃ later, k.companies.get? binding.company = some later) : binding.Sound k name := by
  obtain ⟨named, sized, company, housed⟩ := h
  exact ⟨named, sized, kept company housed⟩

/-- The companies are numbered, the bindings are sound, and each company has as many employees as
it says. -/
structure Ledger.Staffed (l : Ledger) : Prop where
  enumerated : l.Enumerated
  bound : ∀ name binding, l.bindings.get? name = some binding → binding.Sound l name
  counted : ∀ id company, l.companies.get? id = some company →
    company.employeeCount = l.workforce id

namespace Ledger.Staffed

variable {l k : Ledger} {id : Int} {name : Principal} {binding old : Binding}
  {record : CommitmentRecord} {company : Company}

theorem empty : Ledger.empty.Staffed where
  enumerated := .empty
  bound _ _ held := nomatch held
  counted _ _ found := nomatch found

theorem of_same (h : l.Staffed) (hb : k.bindings = l.bindings) (hc : k.companies = l.companies)
    (hn : k.companyCount = l.companyCount) : k.Staffed := by
  refine ⟨h.enumerated.of_same hc hn, fun name binding held => ?_, fun id company found => ?_⟩
  · exact (h.bound name binding (hb ▸ held)).of_housed fun company housed => ⟨company, hc ▸ housed⟩
  · rw [Ledger.workforce, hb]
    exact h.counted id company (hc ▸ found)

theorem evict (h : l.Staffed) (timestamp sequence : Int) : (l.evict timestamp sequence).Staffed :=
  h.of_same rfl rfl rfl

/-- A new company has nobody yet. -/
theorem register (h : l.Staffed) (hc : company.id = l.companyCount)
    (none : company.employeeCount = 0) : (l.register company).Staffed := by
  have succeeds := Ledger.Succeeds.register h.enumerated hc
  refine ⟨succeeds.enumerated, fun name binding held => ?_, fun id found hf => ?_⟩
  · refine (h.bound name binding held).of_housed fun employer housed => ?_
    obtain ⟨count, later⟩ := succeeds.companies _ _ housed
    exact ⟨_, later⟩
  · simp only [Ledger.register, setCompanyCount, putCompany, Table.get?_insert] at hf
    split at hf
    · rename_i own
      cases hf
      rw [none, ← own]
      refine (Int.natCast_eq_zero.mpr (workforce_eq_zero fun name binding held => ?_)).symm
      rintro same
      obtain ⟨employer, housed⟩ := (h.bound name binding held).housed
      rw [same, hc, h.enumerated.next] at housed
      cases housed
    · exact h.counted id found hf

/-- A change of the bindings that brings the count of one company up to date. -/
theorem staff (h : l.Staffed) (hf : l.companies.get? id = some company) {count : Int}
    (hc : k.companies = l.companies) (hn : k.companyCount = l.companyCount)
    (bound : ∀ name binding, k.bindings.get? name = some binding → binding.Sound l name)
    (here : count = k.workforce id)
    (elsewhere : ∀ other, other ≠ id → k.workforce other = l.workforce other) :
    (k.staff company count).Staffed := by
  have found : k.companies.get? id = some company := hc ▸ hf
  have succeeds := Ledger.Succeeds.staff (h.enumerated.of_same hc hn) found count
  refine ⟨succeeds.enumerated, fun name binding held => ?_, fun other employer he => ?_⟩
  · refine (bound name binding held).of_housed fun employer housed => ?_
    obtain ⟨_, later⟩ := succeeds.companies _ _ (hc ▸ housed)
    exact ⟨_, later⟩
  · have own : company.id = id := h.enumerated.numbered id company hf
    simp only [Ledger.staff, putCompany, Table.get?_insert, own, hc] at he
    split at he
    · rename_i same
      cases he
      exact same ▸ here
    · rename_i different
      have kept := elsewhere other (Ne.symm different)
      exact (h.counted other employer he).trans (congrArg Nat.cast kept.symm)

theorem enrol (h : l.Staffed) (hf : l.companies.get? id = some company)
    (free : l.bindings.get? name = none) (own : binding.company = id)
    (named : binding.employee = name) (sized : binding.commitment.length = 32) :
    ((l.bind name binding record).staff company (company.employeeCount + 1)).Staffed := by
  refine h.staff hf rfl rfl (fun other held hb => ?_) ?_ fun other ho => ?_
  · simp only [Ledger.bind, putCommitment, putBinding, Table.get?_insert] at hb
    split at hb
    · rename_i same
      cases hb
      exact ⟨named.trans same, sized, company, own ▸ hf⟩
    · exact h.bound other held hb
  · rw [workforce_bind free, if_pos own, h.counted id company hf]
    rfl
  · rw [workforce_bind free, if_neg (own ▸ Ne.symm ho), Nat.add_zero]

theorem release (h : l.Staffed) (hf : l.companies.get? id = some company)
    (held : employed? l id name = some old) :
    ((l.unbind name).staff company (company.employeeCount - 1)).Staffed := by
  obtain ⟨bound, own⟩ := Option.filter_eq_some_iff.mp held
  have own : old.company = id := of_decide_eq_true own
  refine h.staff hf rfl rfl (fun other binding hb => ?_) ?_ fun other ho => ?_
  · simp only [bindings_unbind, Table.get?_erase] at hb
    split at hb
    · cases hb
    · exact h.bound other binding hb
  · have counted := workforce_unbind id bound
    rw [if_pos own] at counted
    rw [h.counted id company hf, ← counted]
    omega
  · have counted := workforce_unbind other bound
    rwa [if_neg (own ▸ Ne.symm ho), Nat.add_zero] at counted

/-- A binding is brought up to date, which moves nobody. -/
theorem rebind (h : l.Staffed) (held : l.bindings.get? name = some old)
    (company : binding.company = old.company) (employee : binding.employee = old.employee)
    (sized : binding.commitment.length = 32) :
    (l.putBinding name binding).Staffed := by
  refine ⟨h.enumerated.of_same rfl rfl, fun other found hb => ?_, fun id employer hf => ?_⟩
  · rw [putBinding, Table.get?_insert] at hb
    split at hb
    · rename_i same
      cases hb
      obtain ⟨named, -, housed⟩ := h.bound name old held
      exact ⟨employee.trans (named.trans same), sized, company ▸ housed⟩
    · exact (h.bound other found hb).of_housed fun company housed => ⟨company, housed⟩
  · rw [workforce_rebind held company]
    exact h.counted id employer hf

/-- Every employee counts for one company. -/
theorem sum_counts (h : l.Staffed) :
    (l.companies.values.map (·.employeeCount)).sum = l.bindings.values.length := by
  let employers := l.bindings.values.map (·.company)
  let ids := l.companies.entries.map Prod.fst
  have counts : l.companies.values.map (·.employeeCount) =
      (ids.map fun id => employers.count id).map Nat.cast := by
    simp only [ids, Table.values, List.map_map]
    refine List.map_congr_left fun entry member => ?_
    refine (h.counted _ _ (Table.get?_eq_some_iff.mpr member)).trans ?_
    simp only [workforce, employers, List.count_eq_countP, List.countP_map]
    rfl
  have known : ∀ id ∈ (employers : Multiset Int), id ∈ ids.toFinset := by
    simp only [Multiset.mem_coe, employers, List.mem_map, List.mem_toFinset]
    rintro id ⟨binding, member, rfl⟩
    obtain ⟨name, held⟩ := Table.mem_values_iff.mp member
    obtain ⟨company, found⟩ := (h.bound name binding held).housed
    exact List.mem_map_of_mem (Table.get?_eq_some_iff.mp found)
  have counted : (ids.map fun id => employers.count id).sum = employers.length := by
    have all := Multiset.sum_count_eq_card known
    simpa only [Multiset.coe_count, Multiset.coe_card, List.sum_toFinset _ l.companies.nodup,
      ids] using all
  rw [counts, ← Nat.cast_list_sum, counted, List.length_map]

end Ledger.Staffed

-- ---------------------------------------------------------------------------
-- Runs
-- ---------------------------------------------------------------------------

/-- From a ledger that is staffed one that is staffed is reached. -/
abbrev StaysStaffed (l k : Ledger) : Prop := l.Staffed → k.Staffed

theorem StaysStaffed.chained : Chained StaysStaffed :=
  .of_invariant fun _ timestamp sequence h => h.evict timestamp sequence

theorem StaysStaffed.besides {α : Type} {action : Action σ α} {parts : List Ledger.Part}
    (h : Footprint parts action) (hb : .bindings ∉ parts) (hc : .companies ∉ parts)
    (hn : .companyCount ∉ parts) : Keeps StaysStaffed action :=
  fun host staffed => staffed.of_same (h.agree .bindings hb rfl host)
    (h.agree .companies hc rfl host) (h.agree .companyCount hn rfl host)

namespace Registry

variable {id : Int} {name : Principal} {commitment : Bytes}

theorem register_staffed (admin treasury : Principal) :
    Keeps StaysStaffed (register admin treasury : Action σ Int) := by
  intro host staffed
  apply (register_failsEarly admin treasury).holds_after staffed
  intro id later hr
  obtain ⟨rfl, swept⟩ := of_register_ok hr
  exact swept.imp (fun h => h.evict _ _) (staffed.register rfl rfl)

theorem enrol_staffed (id : Int) (name : Principal) (commitment : Bytes) :
    Keeps StaysStaffed (enrol id name commitment : Action σ Binding) := by
  intro host staffed
  apply (enrol_failsEarly id name commitment).holds_after staffed
  intro binding later hr
  obtain ⟨company, found, -, free, ⟨-, sized⟩, rfl, swept⟩ := of_enrol_ok hr
  exact swept.imp (fun h => h.evict _ _) (staffed.enrol found free rfl rfl sized)

theorem release_staffed (id : Int) (name : Principal) :
    Keeps StaysStaffed (release id name : Action σ Unit) := by
  intro host staffed
  apply (release_failsEarly id name).holds_after staffed
  intro _ later hr
  obtain ⟨company, binding, found, -, held, swept⟩ := of_release_ok hr
  exact swept.imp (fun h => h.evict _ _) (staffed.release found held)

theorem recordPayment_staffed (id : Int) (name : Principal) (timestamp : Int) :
    Keeps StaysStaffed (recordPayment id name timestamp : Action σ Binding) := by
  intro host staffed
  apply (recordPayment_failsEarly id name timestamp).holds_after staffed
  intro _ later hr
  obtain ⟨company, binding, -, -, held, swept⟩ := of_recordPayment_ok hr
  have bound := (Option.filter_eq_some_iff.mp held).1
  exact swept.imp (fun h => h.evict _ _)
    (staffed.rebind bound rfl rfl (staffed.bound name binding bound).sized)

/-- A change of commitment brings the binding up to date first, and if the commitment store has no
record then, the binding stays changed for whoever catches the failure. -/
theorem updateCommitment_staffed (id : Int) (name : Principal) (commitment : Bytes) :
    Keeps StaysStaffed (updateCommitment id name commitment : Action σ CommitmentRecord) := by
  have chained := StaysStaffed.chained
  refine chained.transaction <| chained.bind (chained.quiet (administered_quiet id)) fun _ =>
    chained.bind_expect fun binding host held staffed => ?_
  rw [Action.bind_build]
  split
  · rename_i valid
    obtain ⟨⟨-, sized⟩, rfl⟩ := Binding.make_eq_valid.mp valid
    have bound := (Option.filter_eq_some_iff.mp held).1
    let updated : Binding := { binding with commitment := commitment }
    have rebound : (host.ledger.putBinding name updated).Staffed :=
      staffed.rebind bound rfl rfl sized
    exact StaysStaffed.besides (CommitmentStore.update_footprint name commitment) (by decide)
      (by decide) (by decide) { host with ledger := _, writes := host.writes + 1 } rebound
  · exact staffed

end Registry

theorem Payroll.enter_staffed (company : Company) (period : Int) (entry : Payroll.Entry) :
    Keeps StaysStaffed (Payroll.enter company period entry : Action σ PaymentRecord) := by
  have chained := StaysStaffed.chained
  refine chained.bind (.besides (Nullifiers.use_footprint _) (by decide) (by decide) (by decide))
    fun _ => chained.bind (chained.quiet (.read _)) fun paid => ?_
  split
  · exact chained.quiet (.refuse _)
  · refine chained.bind (chained.quiet (.read _)) fun _ =>
      chained.bind (chained.quiet (.build _ _)) fun record => ?_
    -- booking the payment writes neither bindings nor companies
    refine chained.bind (fun _ staffed => staffed.of_same rfl rfl rfl) fun _ =>
      chained.bind (fun _ staffed => staffed.of_same rfl rfl rfl) fun _ =>
      chained.bind (Registry.recordPayment_staffed _ _ _) fun _ => chained.quiet (.pure _)

theorem Affair.staysStaffed {base : Deployment σ} {direct : Prop} {parts : List Ledger.Part}
    {α : Type} {action : Action σ α} (h : Affair base direct parts action) :
    Keeps StaysStaffed action := by
  have footprint := h.footprint
  cases h with
  | register => exact Registry.register_staffed _ _
  | enrol => exact Registry.enrol_staffed _ _ _
  | release => exact Registry.release_staffed _ _
  | updateCommitment => exact Registry.updateCommitment_staffed _ _ _
  | recordPayment => exact Registry.recordPayment_staffed _ _ _
  | enter => exact Payroll.enter_staffed _ _ _
  | _ => exact .besides footprint (by decide) (by decide) (by decide)

theorem Reachable.staffed {base d : Deployment σ} {host : Host σ} (h : Reachable base d host) :
    host.ledger.Staffed :=
  (Regime.Reachable.of_public h).holds Regime.orderly_public .empty
    (fun _ _ _ hs => hs.evict _ _) fun _ _ _ ha => ha.staysStaffed

/-- Wherever a run is, the companies are those with the numbers below the count, every binding
leads to one of them, and the counts of employees are the numbers of bindings. -/
theorem Reachable.headcounts {base d : Deployment σ} {host : Host σ} (h : Reachable base d host) :
    (∀ id, (∃ company, host.ledger.companies.get? id = some company) ↔
        0 ≤ id ∧ id < host.ledger.companyCount) ∧
      (∀ id company, host.ledger.companies.get? id = some company →
        company.id = id ∧ 0 ≤ company.employeeCount ∧
          company.employeeCount =
            (host.ledger.bindings.values.filter (·.company = id)).length ∧
          company.employeeCount = (Registry.employees host.ledger id).length) ∧
      (∀ name binding, host.ledger.bindings.get? name = some binding →
        binding.employee = name ∧ binding.commitment.length = 32 ∧
          ∃ company, host.ledger.companies.get? binding.company = some company) ∧
      (host.ledger.companies.values.map (·.employeeCount)).sum =
        host.ledger.bindings.values.length := by
  have staffed := h.staffed
  refine ⟨staffed.enumerated.counted, fun id company found => ?_, fun name binding held => ?_,
    staffed.sum_counts⟩
  · have counted := staffed.counted id company found
    refine ⟨staffed.enumerated.numbered id company found, ?_, ?_, ?_⟩
    · rw [counted]
      exact Int.natCast_nonneg _
    · rw [counted, Ledger.workforce, List.countP_eq_length_filter]
    · rw [counted, Ledger.length_employees]
  · obtain ⟨named, sized, housed⟩ := staffed.bound name binding held
    exact ⟨named, sized, housed⟩

namespace Sample

/-- A commitment record is taken away, which makes a change of commitment fail half-way. The failure
is caught, and a second company enrols somebody in the same transaction. -/
def stripping : Action Unit Unit := do
  let _ ← Call.run deployment (.commitments (.remove "worker"))
  Host.transaction do
    let _ ← (Call.run deployment
      (.registry (.updateCommitment 0 "worker" (.replicate 32 1)))).outcome
    let _ ← Call.run deployment (.registry (.register "boss" "vault"))
    let _ ← Call.run deployment (.registry (.enrol 1 "clerk" commitment))

/-- The change that failed has left its mark on the binding, and the counts are right. -/
theorem stripped_headcounts :
    let stripped := stripping.after staffed
    (stripped.ledger.bindings.get? "worker").map (·.commitment) = some (.replicate 32 1) ∧
      stripped.ledger.commitments.get? "worker" = none ∧
      (∃ company, stripped.ledger.companies.get? 1 = some company ∧
        company.employeeCount = (Registry.employees stripped.ledger 1).length) ∧
      stripped.ledger.companies.get? 2 = none ∧
      (stripped.ledger.companies.values.map (·.employeeCount)).sum = 2 := by
  have program : Program deployment stripping :=
    .bind (.base (.call _)) fun _ => .transaction (.bind (.outcome (.base (.call _))) fun _ =>
      .bind (.base (.call _)) fun _ => .bind (.base (.call _)) fun _ => .pure _)
  have reached : Reachable deployment deployment (stripping.after staffed) :=
    staffed_reachable.passes (.ran program (.here _ _))
  obtain ⟨numbered, counted, -, total⟩ := reached.headcounts
  obtain ⟨company, found⟩ := (numbered 1).mpr (by decide +kernel)
  refine ⟨by decide +kernel, by decide +kernel, ⟨company, found, ?_⟩, by decide +kernel, ?_⟩
  · exact (counted 1 company found).2.2.2
  · rw [total]
    decide +kernel

end Sample

end SealedPayroll
