import SealedPayroll.Proofs.Registry.Effects
import SealedPayroll.Proofs.Session.Regime

/-!
# Bindings and commitment records

The registry and the commitment store each keep the commitment of an employee.
As long as nobody writes to the store past the registry, they are in step
(`InStep`): there is a binding iff there is a record, and the two say the same.
The version of the record counts the changes since the last enrolment, so the
invariant speaks of the history of the run (`StaffTold`).
-/

namespace SealedPayroll

open SealedPayroll.Action (Footprint Keeps Telling)
open SealedPayroll.Registry (employed?)

variable {σ : Type}

-- ---------------------------------------------------------------------------
-- Histories
-- ---------------------------------------------------------------------------

/-- What a history tells of employees. -/
inductive StaffEvent where
  | enrolled (employee : Principal)
  | updated (employee : Principal)
  deriving DecidableEq

namespace StaffEvent

/-- The count of changes after one more event. -/
def tally (name : Principal) (count : Nat) : StaffEvent → Nat
  | enrolled employee => if employee = name then 0 else count
  | updated employee => if employee = name then count + 1 else count

/-- How often the commitment of an employee was changed since the last enrolment. -/
def updates (name : Principal) (events : List StaffEvent) : Nat := events.foldl (tally name) 0

@[simp] theorem updates_append (name : Principal) (events : List StaffEvent) (event : StaffEvent) :
    updates name (events ++ [event]) = tally name (updates name events) event := by
  rw [updates, List.foldl_append]
  rfl

end StaffEvent

/-- What affairs tell of employees: an enrolment or a change of commitment that is answered. -/
inductive StaffTold : ⦃α : Type⦄ → Action σ α → Host σ → List StaffEvent → Prop
  | besides {α : Type} {action : Action σ α} {host : Host σ} {parts : List Ledger.Part} :
      Footprint parts action → .bindings ∉ parts → .commitments ∉ parts → StaffTold action host []
  | enrolled {company : Int} {employee : Principal} {commitment : Bytes} {host later : Host σ}
      {binding : Binding} :
      (Registry.enrol company employee commitment).run host = (.ok binding, later) →
      StaffTold (Registry.enrol company employee commitment) host [.enrolled employee]
  | unenrolled {company : Int} {employee : Principal} {commitment : Bytes} {host later : Host σ}
      {failure : Failure} :
      (Registry.enrol company employee commitment).run host = (.error failure, later) →
      StaffTold (Registry.enrol company employee commitment) host []
  | updated {company : Int} {employee : Principal} {commitment : Bytes} {host later : Host σ}
      {record : CommitmentRecord} :
      (Registry.updateCommitment company employee commitment).run host = (.ok record, later) →
      StaffTold (Registry.updateCommitment company employee commitment) host [.updated employee]
  | unchanged {company : Int} {employee : Principal} {commitment : Bytes} {host later : Host σ}
      {failure : Failure} :
      (Registry.updateCommitment company employee commitment).run host = (.error failure, later) →
      StaffTold (Registry.updateCommitment company employee commitment) host []
  | released (company : Int) (employee : Principal) (host : Host σ) :
      StaffTold (Registry.release company employee) host []
  | noted (company : Int) (employee : Principal) (timestamp : Int) (host : Host σ) :
      StaffTold (Registry.recordPayment company employee timestamp) host []
  | entered (company : Company) (period : Int) (entry : Payroll.Entry) (host : Host σ) :
      StaffTold (Payroll.enter company period entry) host []

theorem Affair.staffTold {base : Deployment σ} {parts : List Ledger.Part} {α : Type}
    {action : Action σ α} (h : Affair base False parts action) (host : Host σ) :
    ∃ events, StaffTold action host events := by
  have footprint := h.footprint
  cases h with
  | commit direct => exact direct.elim
  | enrol company employee commitment =>
    rcases hr : (Registry.enrol company employee commitment).run host with
      ⟨failure | binding, later⟩
    · exact ⟨[], .unenrolled hr⟩
    · exact ⟨_, .enrolled hr⟩
  | updateCommitment company employee commitment =>
    rcases hr : (Registry.updateCommitment company employee commitment).run host with
      ⟨failure | record, later⟩
    · exact ⟨[], .unchanged hr⟩
    · exact ⟨_, .updated hr⟩
  | release => exact ⟨[], .released _ _ _⟩
  | recordPayment => exact ⟨[], .noted _ _ _ _⟩
  | enter => exact ⟨[], .entered _ _ _ _⟩
  | _ => exact ⟨[], .besides footprint (by decide) (by decide)⟩

-- ---------------------------------------------------------------------------
-- The invariant
-- ---------------------------------------------------------------------------

/-- The binding and the commitment record of an employee say the same, and the version counts the
changes of the commitment. -/
structure Twins (past : List StaffEvent) (name : Principal) (binding : Binding)
    (record : CommitmentRecord) : Prop where
  named : name ≠ "" ∧ binding.employee = name ∧ record.employee = name
  company : record.company = some binding.company
  commitment : record.commitment = binding.commitment
  created : record.createdAt = binding.enrolledAt
  version : record.version = 1 + StaffEvent.updates name past

/-- Registry and commitment store are in step: of every employee they have a binding and a record
that say the same, or neither. -/
def InStep (past : List StaffEvent) (l : Ledger) : Prop :=
  ∀ name, Option.Rel (Twins past name) (l.bindings.get? name) (l.commitments.get? name)

variable {past events : List StaffEvent} {l k : Ledger} {name : Principal} {binding : Binding}
  {record : CommitmentRecord} {host later : Host σ}

theorem Twins.of_updates (h : Twins past name binding record)
    (same : StaffEvent.updates name events = StaffEvent.updates name past) :
    Twins events name binding record := by
  obtain ⟨named, company, commitment, created, version⟩ := h
  rw [← same] at version
  exact ⟨named, company, commitment, created, version⟩

/-- The time of the last payment does not matter. -/
theorem Twins.note (h : Twins past name binding record) (timestamp : Int) :
    Twins past name { binding with lastPaymentAt := some timestamp } record :=
  ⟨h.named, h.company, h.commitment, h.created, h.version⟩

namespace InStep

theorem empty : InStep [] .empty := fun _ => .none

theorem evict (h : InStep past l) (timestamp sequence : Int) :
    InStep past (l.evict timestamp sequence) :=
  h

theorem of_same (h : InStep past l) (hb : k.bindings = l.bindings)
    (hc : k.commitments = l.commitments) : InStep past k := by
  intro name
  rw [hb, hc]
  exact h name

/-- Whoever has a binding has a record. -/
theorem of_bound (h : InStep past l) (hb : l.bindings.get? name = some binding) :
    ∃ record, l.commitments.get? name = some record ∧ Twins past name binding record := by
  have rel := h name
  rw [hb] at rel
  generalize l.commitments.get? name = stored at rel ⊢
  cases rel with
  | some twins => exact ⟨_, rfl, twins⟩

/-- Whoever has no binding has no record. -/
theorem of_unbound (h : InStep past l) (hb : l.bindings.get? name = none) :
    l.commitments.get? name = none := by
  have rel := h name
  rw [hb] at rel
  generalize l.commitments.get? name = stored at rel ⊢
  cases rel
  rfl

theorem of_employed {id : Int} (h : InStep past l) (hb : employed? l id name = some binding) :
    ∃ record, l.commitments.get? name = some record ∧ Twins past name binding record :=
  h.of_bound (Option.filter_eq_some_iff.mp hb).1

/-- Binding and record are written together, and nobody else's changes are counted. -/
theorem bind (h : InStep past l) (twins : Twins events name binding record)
    (others : ∀ other, other ≠ name →
      StaffEvent.updates other events = StaffEvent.updates other past) :
    InStep events (l.bind name binding record) := by
  intro other
  simp only [Ledger.bind, Ledger.putBinding, Ledger.putCommitment, Table.get?_insert]
  by_cases he : name = other
  · subst he
    rw [if_pos rfl, if_pos rfl]
    exact .some twins
  · rw [if_neg he, if_neg he]
    have rel := h other
    generalize l.bindings.get? other = bound at rel ⊢
    generalize l.commitments.get? other = stored at rel ⊢
    cases rel with
    | none => exact .none
    | some found => exact .some (found.of_updates (others other (Ne.symm he)))

theorem unbind (h : InStep past l) (name : Principal) : InStep past (l.unbind name) := by
  intro other
  simp only [Ledger.bindings_unbind, Ledger.commitments_unbind, Table.get?_erase]
  split
  · exact .none
  · exact h other

theorem note (h : InStep past l) (hb : l.bindings.get? name = some binding) (timestamp : Int) :
    InStep past (l.putBinding name { binding with lastPaymentAt := some timestamp }) := by
  intro other
  simp only [Ledger.putBinding, Table.get?_insert]
  split
  · rename_i he
    subst he
    obtain ⟨record, hr, twins⟩ := h.of_bound hb
    rw [hr]
    exact .some (twins.note timestamp)
  · exact h other

end InStep

-- ---------------------------------------------------------------------------
-- Operations
-- ---------------------------------------------------------------------------

/-- From a ledger that is in step one is reached that is. -/
abbrev StaysInStep (past : List StaffEvent) (l k : Ledger) : Prop := InStep past l → InStep past k

theorem StaysInStep.chained (past : List StaffEvent) : Chained (StaysInStep past) :=
  .of_invariant fun _ timestamp sequence h => h.evict timestamp sequence

theorem StaysInStep.besides {α : Type} {action : Action σ α} {parts : List Ledger.Part}
    (h : Footprint parts action) (hb : .bindings ∉ parts) (hc : .commitments ∉ parts) :
    Keeps (StaysInStep past) action :=
  fun host inStep =>
    inStep.of_same (h.agree .bindings hb rfl host) (h.agree .commitments hc rfl host)

namespace Registry

variable {id : Int} {commitment : Bytes} {failure : Failure}

theorem release_inStep (id : Int) (name : Principal) :
    Keeps (StaysInStep past) (release id name : Action σ Unit) := by
  intro host inStep
  apply (release_failsEarly id name).holds_after inStep
  intro _ later hr
  obtain ⟨company, binding, -, -, -, swept⟩ := of_release_ok hr
  exact swept.imp (fun h => h.evict _ _) (inStep.unbind name)

theorem recordPayment_inStep (id : Int) (name : Principal) (timestamp : Int) :
    Keeps (StaysInStep past) (recordPayment id name timestamp : Action σ Binding) := by
  intro host inStep
  apply (recordPayment_failsEarly id name timestamp).holds_after inStep
  intro _ later hr
  obtain ⟨company, binding, -, -, bound, swept⟩ := of_recordPayment_ok hr
  exact swept.imp (fun h => h.evict _ _)
    (inStep.note (Option.filter_eq_some_iff.mp bound).1 timestamp)

theorem enrol_inStep (h : (enrol id name commitment).run host = (.ok binding, later))
    (inStep : InStep past host.ledger) : InStep (past ++ [.enrolled name]) later.ledger := by
  obtain ⟨company, -, -, -, ⟨named, -⟩, rfl, swept⟩ := of_enrol_ok h
  refine swept.imp (fun h => h.evict _ _) (inStep.bind ?_ fun other ho => ?_)
  · refine ⟨⟨named, rfl, rfl⟩, rfl, rfl, rfl, ?_⟩
    simp [StaffEvent.tally, Binding.record]
  · simp [StaffEvent.tally, Ne.symm ho]

theorem updateCommitment_inStep
    (h : (updateCommitment id name commitment).run host = (.ok record, later))
    (inStep : InStep past host.ledger) : InStep (past ++ [.updated name]) later.ledger := by
  obtain ⟨company, binding, stored, -, -, bound, hs, rfl, swept⟩ := of_updateCommitment_ok h
  obtain ⟨found, hf, twins⟩ := inStep.of_employed bound
  cases hs.symm.trans hf
  refine swept.imp (fun h => h.evict _ _) (inStep.bind ?_ fun other ho => ?_)
  · refine ⟨twins.named, twins.company, rfl, twins.created, ?_⟩
    simp only [CommitmentRecord.revised, twins.version, StaffEvent.updates_append,
      StaffEvent.tally, if_pos]
    omega
  · simp [StaffEvent.tally, Ne.symm ho]

/-- Where registry and store are in step, a change of commitment that fails changes nothing, and it
does not fail because they are not. -/
theorem updateCommitment_failed (inStep : InStep past host.ledger)
    (h : (updateCommitment id name commitment).run host = (.error failure, later)) :
    later.ledger = host.ledger ∧ failure.fault.refuses PayrollError.isDrift = false := by
  refine of_updateCommitment_error (fun binding bound => ?_) h
  obtain ⟨record, found, twins⟩ := inStep.of_employed bound
  refine ⟨record, found, twins.named.2.2 ▸ twins.named.1, ?_⟩
  rw [twins.version]
  omega

end Registry

theorem Payroll.enter_inStep (company : Company) (period : Int) (entry : Payroll.Entry) :
    Keeps (StaysInStep past) (Payroll.enter company period entry : Action σ PaymentRecord) := by
  have chained := StaysInStep.chained past
  refine chained.bind (.besides (Nullifiers.use_footprint _) (by decide) (by decide)) fun _ =>
    chained.bind (chained.quiet (.read _)) fun paid => ?_
  split
  · exact chained.quiet (.refuse _)
  · refine chained.bind (chained.quiet (.read _)) fun _ =>
      chained.bind (chained.quiet (.build _ _)) fun record => ?_
    -- booking the payment writes to neither of the two
    refine chained.bind (fun _ inStep => inStep) fun _ =>
      chained.bind (fun _ inStep => inStep) fun _ =>
      chained.bind (Registry.recordPayment_inStep _ _ _) fun _ => chained.quiet (.pure _)

/-- Whatever is told, registry and store stay in step with it. -/
theorem StaffTold.bears : Telling.Bears (σ := σ) StaffTold InStep where
  evict timestamp sequence h := h.evict timestamp sequence
  step := by
    intro α action host past events h inStep
    cases h with
    | besides footprint hb hc =>
      rw [List.append_nil]
      exact StaysInStep.besides footprint hb hc host inStep
    | enrolled hr =>
      rw [Action.after, hr]
      exact Registry.enrol_inStep hr inStep
    | unenrolled hr =>
      rw [Action.after, hr, (Registry.enrol_failsEarly _ _ _).ledger hr, List.append_nil]
      exact inStep
    | updated hr =>
      rw [Action.after, hr]
      exact Registry.updateCommitment_inStep hr inStep
    | unchanged hr =>
      rw [Action.after, hr, (Registry.updateCommitment_failed inStep hr).1, List.append_nil]
      exact inStep
    | released company employee =>
      rw [List.append_nil]
      exact Registry.release_inStep company employee host inStep
    | noted company employee timestamp =>
      rw [List.append_nil]
      exact Registry.recordPayment_inStep company employee timestamp host inStep
    | entered company period entry =>
      rw [List.append_nil]
      exact Payroll.enter_inStep company period entry host inStep

theorem Recounts.inStep {start : Host σ} (initial : start.Initial)
    (h : Recounts StaffTold start events host) : InStep events host.ledger := by
  have started : InStep [] start.ledger := by
    rw [initial.ledger]
    exact .empty
  exact h.bears StaffTold.bears started

theorem Regime.Reachable.exists_inStep {base d : Deployment σ}
    (h : Regime.Reachable Mediated base d host) : ∃ events, InStep events host.ledger := by
  obtain ⟨start, events, initial, history⟩ :=
    h.recounts orderly_mediated fun _ _ _ affair => affair.staffTold
  exact ⟨events, history.inStep initial⟩

end SealedPayroll
