import SealedPayroll.Proofs.Groth16.Detached
import SealedPayroll.Proofs.Groth16.Structural
import SealedPayroll.Proofs.Operation.Early
import SealedPayroll.Proofs.Payment.PayBatch
import SealedPayroll.Proofs.Registry.InStep

/-!
# Payments find bindings and records in step

A settlement looks up the binding and the commitment record of an employee and
compares the two. Where registry and store are in step it never stumbles over
that, whatever else is wrong with a batch, and neither does any entry after the
first. Transfers go to the plain token ledger here.
-/

namespace SealedPayroll

open SealedPayroll.Action (Keeps Spared)
open SealedPayroll.PayrollError (isDrift)

variable {σ α β : Type} {bad : PayrollError → Bool} {I : Ledger → Prop} {past : List StaffEvent}

-- ---------------------------------------------------------------------------
-- Refusals that an invariant rules out
-- ---------------------------------------------------------------------------

/-- Fails with no refusal of some kind where the ledger satisfies an invariant. -/
def Action.SparedIn (I : Ledger → Prop) (bad : PayrollError → Bool) (action : Action σ α) : Prop :=
  ∀ host, I host.ledger → ∀ failure later, action.run host = (.error failure, later) →
    failure.fault.refuses bad = false

namespace Action.SparedIn

theorem of_spared {action : Action σ α} (h : Spared bad action) : SparedIn I bad action :=
  fun _ _ => h _

theorem bind {first : Action σ α} {next : α → Action σ β} (hf : SparedIn I bad first)
    (hk : Keeps (fun l k => I l → I k) first) (hn : ∀ a, SparedIn I bad (next a)) :
    SparedIn I bad (first >>= next) := by
  intro host hi failure later h
  rcases bind_eq_error.mp h with hr | ⟨a, between, h₁, hr⟩
  · exact hf host hi failure later hr
  · exact hn a between (hk.run h₁ hi) failure later hr

theorem transaction {body : Action σ α} (hb : SparedIn I bad body) :
    SparedIn I bad (Host.transaction body) := by
  intro host hi failure later h
  obtain ⟨raised, inner, hr, he, -⟩ := Host.of_transaction_error h
  rw [← he]
  exact hb { host with depth := host.depth + 1 } hi raised inner hr

end Action.SparedIn

open SealedPayroll.Action (SparedIn)

-- ---------------------------------------------------------------------------
-- Settlements
-- ---------------------------------------------------------------------------

theorem Tokens.transfer_spared (sender recipient : Principal) (amount : Int) :
    Spared isDrift (transfer sender recipient amount : Action σ Unit) := by
  unfold transfer
  split
  · exact .refuse rfl
  · refine .transaction <| .bind (.requireAuth _ fun _ => rfl) fun _ => .bind (.read _) fun _ => ?_
    split
    · exact .refuse rfl
    · exact .bind (.write _) fun _ => .bind (.read _) fun _ => .write _

theorem recipientHash_detached {bad : PayrollError → Bool}
    (hb : ∀ fault, bad (.invalidCommitmentInput fault) = false) (employee : Principal) :
    Detached bad (recipientHash employee) := by
  refine Detached.map ?_ _
  unfold recipientPreimage
  split
  · exact .error (hb _)
  · exact .ok _

namespace Payroll

variable {d : Deployment σ}

theorem Batch.defect?_ne_drift {config : ExecutorConfig} {batch : Batch} {error : PayrollError}
    (h : batch.defect? config = some error) : isDrift error = false := by
  unfold defect? at h
  repeat' split at h
  all_goals
    cases h
    try rfl

theorem screen_spared (d : Deployment σ) (batch : Batch) : Spared isDrift (screen d batch) := by
  unfold screen
  split
  · rename_i error defect
    exact .refuse (Batch.defect?_ne_drift defect)
  · refine .bind (.read _) fun key => ?_
    split
    · exact .refuse rfl
    · exact Registry.administered_spared _ rfl fun _ _ => rfl

/-- The record of whoever is employed is found, with the commitment of the binding. -/
theorem approve_sparedIn (hb : d.backend.Detached isDrift) (company : Company) (index : Nat)
    (entry : Entry) : SparedIn (InStep past) isDrift (approve d company index entry) := by
  intro host inStep failure later h
  rcases Action.bind_eq_error.mp h with h₁ | ⟨binding, _, h₁, h⟩
  · exact Spared.expect _ rfl _ _ _ h₁
  obtain ⟨bound, rfl⟩ := Action.expect_eq_ok.mp h₁
  obtain ⟨record, found, twins⟩ := inStep.of_employed bound
  rcases Action.bind_eq_error.mp h with h₂ | ⟨stored, _, h₂, h⟩
  · cases h₂.symm.trans (Action.expect_eq_ok.mpr ⟨found, rfl⟩)
  obtain ⟨hs, rfl⟩ := Action.expect_eq_ok.mp h₂
  cases hs.symm.trans found
  rw [if_neg (Decidable.not_not.mpr twins.commitment.symm)] at h
  refine Spared.bind (.ofExcept (recipientHash_detached (fun _ => rfl) _)) (fun recipient => ?_) _ _ _ h
  refine .bind (Verifier.verify_spared hb rfl _ _) fun accepted => ?_
  split
  · exact .pure _
  · exact .refuse rfl

theorem enter_spared_drift (company : Company) (period : Int) (entry : Entry) :
    Spared isDrift (enter company period entry : Action σ PaymentRecord) := by
  refine .bind (Nullifiers.use_spared _ rfl) fun _ => .bind (.read _) fun paid => ?_
  split
  · exact .refuse rfl
  · refine .bind (.read _) fun _ => .bind (.build _ _) fun record => .bind (.write _) fun _ =>
      .bind (.write _) fun _ => .bind ?_ fun _ => .pure _
    exact .transaction <| .bind (Registry.administered_spared _ rfl fun _ _ => rfl) fun _ =>
      .bind (.expect _ rfl) fun _ => .bind (.write _) fun _ => .pure _

/-- Settlements leave registry and store in step. -/
theorem settles_inStep (ht : d.tokens = .plain) :
    Settles (fun _ a => Keeps (StaysInStep past) a) d where
  quiet hq := (StaysInStep.chained past).quiet hq
  publish _ _ := .besides (.base (.publish _ _)) List.not_mem_nil List.not_mem_nil
  enter := enter_inStep
  transfer sender recipient amount := by
    rw [ht]
    exact .base (.besides (Tokens.transfer_footprint _ _ _) (by decide) (by decide))

theorem settle_sparedIn (ht : d.tokens = .plain) (hb : d.backend.Detached isDrift)
    (company : Company) (period : Int) (index : Nat) (entry : Entry) :
    SparedIn (InStep past) isDrift (settle d company period index entry) := by
  have chained := StaysInStep.chained past
  refine .bind (approve_sparedIn hb _ _ _) (chained.quiet (approve_quiet _ _ _ _)) fun _ => ?_
  refine .bind (.of_spared (enter_spared_drift _ _ _)) (enter_inStep _ _ _) fun record =>
    .of_spared ?_
  rw [ht]
  refine .bind (Tokens.transfer_spared _ _ _) fun _ => ?_
  split
  · exact .bind (fun _ _ _ h => nomatch h) fun _ => .pure _
  · exact .pure _

theorem settleFrom_sparedIn (ht : d.tokens = .plain) (hb : d.backend.Detached isDrift)
    (company : Company) (period : Int) (index : Nat) (entries : List Entry) :
    SparedIn (InStep past) isDrift (settleFrom d company period index entries) := by
  have keeps (index : Nat) (entry : Entry) :
      Keeps (StaysInStep past) (settle d company period index entry) :=
    (StaysInStep.chained past).built (fun _ _ h => h) ((settles_inStep ht).settle _ _ _ _)
  induction entries generalizing index with
  | nil => exact .of_spared (.pure _)
  | cons entry rest ih =>
    refine .bind (settle_sparedIn ht hb _ _ _ _) (keeps _ _) fun record => ?_
    intro host inStep failure later h
    rcases Action.bind_eq_error.mp h with hr | ⟨records, between, -, hr⟩
    · exact ih _ host inStep failure later hr
    · cases hr

theorem payBatch_sparedIn (ht : d.tokens = .plain) (hb : d.backend.Detached isDrift)
    (batch : Batch) : SparedIn (InStep past) isDrift (payBatch d batch) := by
  have keeps : Keeps (StaysInStep past) (screen d batch) :=
    (StaysInStep.chained past).quiet (screen_quiet d batch)
  apply SparedIn.transaction
  exact .bind (.of_spared (screen_spared d batch)) keeps fun _ => settleFrom_sparedIn ht hb _ _ _ _

end Payroll

-- ---------------------------------------------------------------------------
-- Runs
-- ---------------------------------------------------------------------------

/-- Wherever a run is that does not write to the commitment store past the registry, the two are in
step with the history of the run. So no batch that is paid over the plain token ledger, and no
change of commitment, is refused because they are not. -/
theorem Regime.Reachable.in_step {base d : Deployment σ} {host : Host σ}
    (h : Regime.Reachable Mediated base d host) :
    (∃ start events, start.Initial ∧ Recounts StaffTold start events host) ∧
      (∀ start events, start.Initial → Recounts StaffTold start events host →
        InStep events host.ledger) ∧
      (∀ e : Deployment σ, e.tokens = .plain → e.backend.Detached isDrift → ∀ batch failure later,
        (Payroll.payBatch e batch).run host = (.error failure, later) →
          failure.fault.refuses isDrift = false) ∧
      ∀ company employee commitment failure later,
        (Registry.updateCommitment company employee commitment).run host =
            (.error failure, later) → failure.fault.refuses isDrift = false := by
  have recounted := h.recounts orderly_mediated fun _ _ _ ha => ha.staffTold
  obtain ⟨start, events, initial, history⟩ := recounted
  have inStep := history.inStep initial
  refine ⟨⟨start, events, initial, history⟩, fun _ _ hi hr => hr.inStep hi, ?_, ?_⟩
  · intro e ht hb batch
    exact Payroll.payBatch_sparedIn ht hb batch host inStep
  · intro company employee commitment failure later failed
    exact (Registry.updateCommitment_failed inStep failed).2

namespace Sample

/-- Changes the commitment of the employee in a transaction that fails, and then once more. -/
def revising : Action Unit Unit := do
  let change : Action Unit Answer :=
    Call.run deployment (.registry (.updateCommitment 0 "worker" (.replicate 32 1)))
  let _ ← (Host.transaction do
    let _ ← change
    Action.raise (.interrupted "boom") : Action Unit Unit).outcome
  let _ ← change

/-- Of the two changes, only the second counts, and the record is at its second version. -/
theorem revised_in_step :
    ∃ start events, start.Initial ∧ Recounts StaffTold start events (revising.after staffed) ∧
      StaffEvent.updates "worker" events = 1 := by
  have program : Action.Built (Mediated deployment) revising :=
    .bind (.outcome (.transaction (.bind (.base (.call _ rfl)) fun _ =>
      .base (.aside (.raise _) (.quiet (.raise _)))))) fun _ =>
        .bind (.base (.call _ rfl)) fun _ => .pure _
  have reached := staffed_mediated.passes (.ran program (.here _ _))
  obtain ⟨⟨start, events, initial, history⟩, inStep, -, -⟩ := reached.in_step
  have bound : (revising.after staffed).ledger.bindings.get? "worker" =
      some ⟨0, "worker", .replicate 32 1, 0, none⟩ := by decide +kernel
  obtain ⟨record, found, twins⟩ := (inStep start events initial history).of_bound bound
  have version : record.version = 2 := by
    have stored : (revising.after staffed).ledger.commitments.get? "worker" =
        some ⟨"worker", some 0, .replicate 32 1, 2, 0, 0⟩ := by decide +kernel
    cases found.symm.trans stored
    rfl
  refine ⟨start, events, initial, history, ?_⟩
  have counted := twins.version
  omega

end Sample

end SealedPayroll
