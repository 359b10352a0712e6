import SealedPayroll.Proofs.Audit.Issue
import SealedPayroll.Proofs.Registry.Companies
import SealedPayroll.Proofs.Registry.InStep

/-!
# What a company holds

What the ledger has of a company: its record, and everything that is stored
with its number. Each change of the ledger is confined to one company
(`Ledger.Confined`), and the registry asks the administrator of that company
first. So an operation heeds those who have not signed: what their companies
hold stays as it is (`Host.Heeds`), whether the operation answers or fails.
-/

namespace SealedPayroll

open SealedPayroll.Action (Quiet FailsEarly)

variable {σ : Type}

/-- What there is of a company. View keys count until they expire. -/
@[ext]
structure Holdings where
  company : Option Company
  bindings : Table Principal Binding
  commitments : Table Principal CommitmentRecord
  payments : Table (Principal × Int) PaymentRecord
  paid : Int
  keyCounter : Principal → Nat
  viewKeys : Table String (Expiring ViewKey)

namespace Ledger

def holdings (l : Ledger) (clock : Clock) (id : Int) : Holdings where
  company := l.companies.get? id
  bindings := l.bindings.filter fun _ binding => binding.company = id
  commitments := l.commitments.filter fun _ record => record.company = some id
  payments := l.payments.filter fun _ record => record.company = id
  paid := l.totalPaid id
  keyCounter := l.keyCounter id
  viewKeys := l.viewKeys.filter fun _ entry =>
    entry.value.company = id && entry.isLive clock.timestamp clock.sequence

/-- At most what one company holds is different. -/
def Confined (clock : Clock) (id : Int) (l k : Ledger) : Prop :=
  ∀ other, other ≠ id → k.holdings clock other = l.holdings clock other

variable {clock : Clock} {id : Int} {l k m : Ledger}

/-- What has expired does not count anyway. -/
theorem holdings_evict (l : Ledger) (clock : Clock) (id : Int) :
    (l.evict clock.timestamp clock.sequence).holdings clock id = l.holdings clock id := by
  apply Holdings.ext <;> try rfl
  simp only [holdings, evict]
  apply Table.filter_filter_of_imp
  intro _ entry counts
  exact (Bool.and_eq_true_iff.mp counts).2

namespace Confined

theorem refl (clock : Clock) (id : Int) (l : Ledger) : Confined clock id l l := fun _ _ => rfl

theorem trans (h₁ : Confined clock id l k) (h₂ : Confined clock id k m) :
    Confined clock id l m :=
  fun other ho => (h₂ other ho).trans (h₁ other ho)

theorem swept (h : Confined clock id l k) (hs : Swept clock k m) : Confined clock id l m :=
  hs.imp (fun confined other ho => (holdings_evict _ _ _).trans (confined other ho)) h

theorem company (l : Ledger) (company : Company) :
    Confined clock company.id l (l.putCompany company.id company) := by
  intro other ho
  apply Holdings.ext <;> try rfl
  exact (Table.get?_insert ..).trans (if_neg (Ne.symm ho))

/-- An employee of a company, or a new one, gets another binding there. -/
theorem binding {name : Principal} {binding : Binding} (hb : binding.company = id)
    (bound : ∀ old, l.bindings.get? name = some old → old.company = id) :
    Confined clock id l (l.putBinding name binding) := by
  intro other ho
  apply Holdings.ext <;> try rfl
  simp only [holdings]
  apply Table.filter_insert_outside
  · simpa [hb] using Ne.symm ho
  · intro old found
    simpa [bound old found] using Ne.symm ho

theorem record {name : Principal} {record : CommitmentRecord} (hr : record.company = some id)
    (stored : ∀ old, l.commitments.get? name = some old → old.company = some id) :
    Confined clock id l (l.putCommitment name record) := by
  intro other ho
  apply Holdings.ext <;> try rfl
  simp only [holdings]
  apply Table.filter_insert_outside
  · simpa [hr] using Ne.symm ho
  · intro old found
    simpa [stored old found] using Ne.symm ho

theorem register (l : Ledger) (company : Company) :
    Confined clock company.id l (l.register company) :=
  Confined.company l company

theorem staff (l : Ledger) {company : Company} (hc : company.id = id) (count : Int) :
    Confined clock id l (l.staff company count) :=
  hc ▸ Confined.company l { company with employeeCount := count }

theorem bind {name : Principal} {binding : Binding} {record : CommitmentRecord}
    (hb : binding.company = id) (hr : record.company = some id)
    (bound : ∀ old, l.bindings.get? name = some old → old.company = id)
    (stored : ∀ old, l.commitments.get? name = some old → old.company = some id) :
    Confined clock id l (l.bind name binding record) :=
  (Confined.binding hb bound).trans (Confined.record hr stored)

theorem unbind {name : Principal}
    (bound : ∀ old, l.bindings.get? name = some old → old.company = id)
    (stored : ∀ old, l.commitments.get? name = some old → old.company = some id) :
    Confined clock id l (l.unbind name) := by
  intro other ho
  apply Holdings.ext <;> try rfl
  all_goals
    simp only [holdings]
    apply Table.filter_erase_outside
    intro old found
  · simpa [bound old found] using Ne.symm ho
  · simpa [stored old found] using Ne.symm ho

theorem post {record : PaymentRecord} (hr : record.company = id)
    (new : l.payments.get? (record.employee, record.period) = none) :
    Confined clock id l (l.post record) := by
  intro other ho
  apply Holdings.ext <;> try rfl
  · simp only [holdings]
    apply Table.filter_insert_outside
    · simpa [hr] using Ne.symm ho
    · intro old found
      cases new.symm.trans found
  · rw [hr.symm] at ho
    simp only [holdings, totalPaid, Ledger.post, putTotal, putPayment, Table.get?_insert,
      if_neg (Ne.symm ho)]

theorem grant {key : ViewKey} (hk : key.company = id)
    (held : ∀ old, l.viewKeys.get? key.id = some old → old.value.company = id) :
    Confined clock id l (l.grant key) := by
  intro other ho
  apply Holdings.ext <;> try rfl
  · funext auditor
    apply (keyCounter_grant ..).trans
    exact if_neg fun same => ho (same.1.symm.trans hk)
  · simp only [holdings]
    apply Table.filter_insert_outside
    · simp [ViewKey.entry, hk, Ne.symm ho]
    · intro old found
      simp [held old found, Ne.symm ho]

theorem revoke {key : String}
    (held : ∀ old, l.viewKeys.get? key = some old → old.value.company = id) :
    Confined clock id l (l.revoke key) := by
  intro other ho
  apply Holdings.ext <;> try rfl
  simp only [holdings]
  apply Table.filter_erase_outside
  intro old found
  simp [held old found, Ne.symm ho]

end Confined

end Ledger

/-- From one host to another, companies whose administrator has not signed in the first keep what
they hold. -/
def Host.Heeds (host later : Host σ) : Prop :=
  ∀ id company, host.ledger.companies.get? id = some company →
    host.authority.allows company.admin = false →
      later.ledger.holdings host.clock id = host.ledger.holdings host.clock id

open Ledger (Confined Swept)

variable {α β : Type} {host later : Host σ} {id : Int} {k : Ledger} {past : List StaffEvent}

namespace Host.Heeds

theorem of_same (h : later.ledger = host.ledger) : host.Heeds later :=
  fun _ _ _ _ => by rw [h]

theorem of_quiet {action : Action σ α} (h : Quiet action) : host.Heeds (action.after host) :=
  of_same (h.still host).ledger

/-- A failure that comes early heeds everybody, so only answers matter. -/
theorem of_answers {action : Action σ α} (h : FailsEarly (fun _ => true) action)
    (answered : ∀ a later, action.run host = (.ok a, later) → host.Heeds later) :
    host.Heeds (action.after host) := by
  rcases hr : action.run host with ⟨failure | a, later⟩ <;> rw [Action.after, hr]
  · exact .of_same (h.ledger hr)
  · exact answered a later hr

theorem map {action : Action σ α} (h : host.Heeds (action.after host)) (f : α → β) :
    host.Heeds ((f <$> action).after host) := by
  rwa [Action.after_map]

/-- A change that no company holds anything of. -/
theorem of_aside (hs : Swept host.clock k later.ledger)
    (same : ∀ id, k.holdings host.clock id = host.ledger.holdings host.clock id) :
    host.Heeds later := by
  intro id _ _ _
  apply hs.imp (I := fun m => m.holdings host.clock id = host.ledger.holdings host.clock id)
  · exact fun kept => (Ledger.holdings_evict _ _ _).trans kept
  · exact same id

/-- A change that is confined to a company whose administrator has signed, or to no company. -/
theorem of_confined (h : Confined host.clock id host.ledger later.ledger)
    (signed : ∀ company, host.ledger.companies.get? id = some company →
      host.authority.allows company.admin = true) : host.Heeds later := by
  intro other company hc unsigned
  apply h
  rintro rfl
  rw [signed company hc] at unsigned
  cases unsigned

end Host.Heeds

-- ---------------------------------------------------------------------------
-- The registry
-- ---------------------------------------------------------------------------

/-- Whoever is employed has one binding, to the company in question. -/
theorem Registry.of_employed {l : Ledger} {name : Principal} {binding : Binding}
    (h : employed? l id name = some binding) :
    binding.company = id ∧ ∀ old, l.bindings.get? name = some old → old.company = id := by
  obtain ⟨bound, same⟩ := Option.filter_eq_some_iff.mp h
  have own : binding.company = id := of_decide_eq_true same
  refine ⟨own, fun old ho => ?_⟩
  cases bound.symm.trans ho
  exact own

/-- The record of whoever is employed is tagged with the company. -/
theorem InStep.tagged {l : Ledger} {name : Principal} {binding : Binding} (h : InStep past l)
    (hb : Registry.employed? l id name = some binding) (record : CommitmentRecord)
    (hs : l.commitments.get? name = some record) : record.company = some id := by
  obtain ⟨found, hf, twins⟩ := h.of_employed hb
  cases hs.symm.trans hf
  rw [twins.company, (Registry.of_employed hb).1]

namespace Registry

variable {name admin treasury : Principal} {commitment : Bytes}

theorem signed_of {company : Company} (found : host.ledger.companies.get? id = some company)
    (signed : host.authority.allows company.admin = true) (other : Company)
    (ho : host.ledger.companies.get? id = some other) :
    host.authority.allows other.admin = true :=
  Ledger.signed_of_record (Ledger.admin?_of_company found) signed other ho

theorem register_heeds (enumerated : host.ledger.Enumerated) (admin treasury : Principal) :
    host.Heeds ((register admin treasury).after host) := by
  refine .of_answers (register_failsEarly admin treasury) fun id later hr => ?_
  obtain ⟨rfl, swept⟩ := of_register_ok hr
  refine .of_confined ((Confined.register _ _).swept swept) fun company found => ?_
  cases enumerated.next.symm.trans found

theorem enrol_heeds (numbered : host.ledger.Numbered) (inStep : InStep past host.ledger) (id : Int)
    (name : Principal) (commitment : Bytes) :
    host.Heeds ((enrol id name commitment).after host) := by
  refine .of_answers (enrol_failsEarly id name commitment) fun binding later hr => ?_
  obtain ⟨company, found, signed, free, -, made, swept⟩ := of_enrol_ok hr
  have same : company.id = id := numbered _ _ found
  have bound : Confined host.clock id host.ledger
      (host.ledger.bind name binding binding.record) := by
    refine .bind (made ▸ rfl) (made ▸ rfl) ?_ ?_
    · intro old hb
      cases free.symm.trans hb
    · intro old hs
      cases (inStep.of_unbound free).symm.trans hs
  exact .of_confined ((bound.trans (.staff _ same _)).swept swept) (signed_of found signed)

theorem release_heeds (numbered : host.ledger.Numbered) (inStep : InStep past host.ledger)
    (id : Int) (name : Principal) : host.Heeds ((release id name).after host) := by
  refine .of_answers (release_failsEarly id name) fun _ later hr => ?_
  obtain ⟨company, binding, found, signed, employed, swept⟩ := of_release_ok hr
  have same : company.id = id := numbered _ _ found
  have unbound : Confined host.clock id host.ledger (host.ledger.unbind name) :=
    .unbind (of_employed employed).2 (inStep.tagged employed)
  exact .of_confined ((unbound.trans (.staff _ same _)).swept swept) (signed_of found signed)

theorem updateCommitment_heeds (inStep : InStep past host.ledger) (id : Int) (name : Principal)
    (commitment : Bytes) : host.Heeds ((updateCommitment id name commitment).after host) := by
  rcases hr : (updateCommitment id name commitment).run host with ⟨failure | record, later⟩ <;>
    rw [Action.after, hr]
  · exact .of_same (updateCommitment_failed inStep hr).1
  · obtain ⟨company, binding, stored, found, signed, employed, hs, made, swept⟩ :=
      of_updateCommitment_ok hr
    have bound : Confined host.clock id host.ledger
        (host.ledger.bind name { binding with commitment := commitment } record) :=
      .bind (of_employed employed).1 (made ▸ inStep.tagged employed stored hs)
        (of_employed employed).2 (inStep.tagged employed)
    exact .of_confined (bound.swept swept) (signed_of found signed)

theorem recordPayment_heeds (id : Int) (name : Principal) (timestamp : Int) (host : Host σ) :
    host.Heeds ((recordPayment id name timestamp).after host) := by
  refine .of_answers (recordPayment_failsEarly id name timestamp) fun updated later hr => ?_
  obtain ⟨company, binding, found, signed, employed, swept⟩ := of_recordPayment_ok hr
  obtain ⟨own, bound⟩ := of_employed employed
  have noted := (Confined.binding (by exact own) bound).swept swept
  exact .of_confined noted (signed_of found signed)

end Registry

end SealedPayroll
