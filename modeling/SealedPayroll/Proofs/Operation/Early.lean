import SealedPayroll.Proofs.Audit.Issue
import SealedPayroll.Proofs.Registry.Effects
import SealedPayroll.Proofs.Session.Public
import SealedPayroll.Proofs.Token.Effects

/-!
# Refusals that come early

A validation refusal is meant to come before anything was stored or published.
`Early` says so of an action wherever it runs: it is made of steps that leave
the host alone, followed by steps that are `Spared` such refusals. Every public
call is early unless it pays (`Call.early`). Which host a call of the latter
kind needs is not covered here, nor are refusals of other families.
-/

namespace SealedPayroll

open SealedPayroll.Action (FailsEarly)

variable {σ α : Type}

def PayrollError.isValidation (error : PayrollError) : Bool := error.family = .validation

open PayrollError (isValidation)

namespace Action

/-- Fails with a validation refusal only before it has stored or published anything. -/
abbrev Early (action : Action σ α) : Prop := FailsEarly (Fault.refuses isValidation) action

end Action

open SealedPayroll.Action (Spared Early)

-- ---------------------------------------------------------------------------
-- The registry and the commitment store
-- ---------------------------------------------------------------------------

theorem CommitmentStore.store_spared (employee : Principal) (commitment : Bytes)
    (company : Option Int) :
    Spared isValidation
      (CommitmentStore.store employee commitment company : Action σ CommitmentRecord) :=
  .transaction <| .bind (.read _) fun _ => .bind (.build _ _) fun _ =>
    .bind (.write _) fun _ => .pure _

theorem CommitmentStore.revise_spared (employee : Principal) (commitment : Bytes) :
    Spared isValidation
      (CommitmentStore.revise employee commitment : Action σ CommitmentRecord) :=
  .bind (.expect _ rfl) fun _ => .bind (.read _) fun _ =>
    .bind (.build _ _) fun _ => .bind (.write _) fun _ => .pure _

theorem CommitmentStore.reviseAll_spared : (updates : List (Principal × Bytes)) →
    Spared isValidation
      (CommitmentStore.reviseAll updates : Action σ (List CommitmentRecord))
  | [] => .pure _
  | _ :: rest =>
    .bind (revise_spared _ _) fun _ => .bind (reviseAll_spared rest) fun _ => .pure _

theorem Registry.updateCommitment_early (company : Int) (employee : Principal)
    (commitment : Bytes) :
    Early (Registry.updateCommitment company employee commitment : Action σ CommitmentRecord) :=
  .transaction <| .bind (administered_quiet _) fun _ => .bind (.expect _ _) fun _ =>
    .spared <| .bind (.build _ _) fun _ => .bind (.write _) fun _ =>
      .transaction (CommitmentStore.revise_spared _ _)

-- ---------------------------------------------------------------------------
-- Nullifiers and verification key
-- ---------------------------------------------------------------------------

theorem Nullifiers.use_spared {bad : PayrollError → Bool} (value : Bytes)
    (hu : bad (.nullifierAlreadyUsed value) = false) :
    Spared bad (Nullifiers.use value : Action σ NullifierRecord) := by
  refine .transaction <| .bind (.read _) fun used => ?_
  split
  · exact .refuse hu
  · exact .bind (.read _) fun _ => .bind (.build _ _) fun _ => .bind (.write _) fun _ => .pure _

theorem Verifier.setKey_failsEarly {bad : Fault → Bool} (key : VerificationKey) :
    FailsEarly bad (Verifier.setKey key : Action σ Unit) := by
  refine .transaction <| .bind (.read _) fun present => ?_
  split
  · exact .quiet (.refuse _)
  · exact .never (.write _)

/-- The key is set where there was none. -/
theorem Verifier.of_setKey_ok {host later : Host σ} {key : VerificationKey} {u : Unit}
    (h : (setKey key).run host = (.ok u, later)) :
    host.ledger.verificationKey = none ∧
      Ledger.Swept host.clock (host.ledger.setVerificationKey key) later.ledger := by
  obtain ⟨inner, hr, -, swept⟩ := Host.of_transaction_ok h
  obtain ⟨present, _, h₁, hr⟩ := Action.bind_eq_ok.mp hr
  obtain ⟨rfl, rfl⟩ := Action.read_eq_ok.mp h₁
  split at hr
  · exact (Action.refuse_eq_ok.mp hr).elim
  · rename_i absent
    cases hr
    exact ⟨by simpa using absent, swept⟩

-- ---------------------------------------------------------------------------
-- Public calls
-- ---------------------------------------------------------------------------

/-- The company that a call pays for, if it pays. -/
def Call.payer? : Call → Option Int
  | .payments (.pay company _ _) => some company
  | .payments (.payBatch batch) => some batch.company
  | _ => none

theorem RegistryCall.early (call : RegistryCall) : Early (call.run : Action σ Answer) := by
  cases call with
  | register => exact (Registry.register_failsEarly _ _).map _
  | enrol => exact (Registry.enrol_failsEarly _ _ _).map _
  | release => exact (Registry.release_failsEarly _ _).map _
  | updateCommitment => exact (Registry.updateCommitment_early _ _ _).map _
  | recordPayment => exact (Registry.recordPayment_failsEarly _ _ _).map _
  | getCompany => exact (FailsEarly.quiet (.expect _ _)).map _
  | getEmployee => exact (FailsEarly.quiet (.expect _ _)).map _
  | _ => exact .quiet (.read _)

theorem CommitmentCall.early (d : Deployment σ) (call : CommitmentCall) : Early (call.run d) := by
  cases call with
  | store => exact (FailsEarly.spared (CommitmentStore.store_spared _ _ _)).map _
  | update => exact (FailsEarly.spared (.transaction (CommitmentStore.revise_spared _ _))).map _
  | updateAll => exact (FailsEarly.spared (.transaction (CommitmentStore.reviseAll_spared _))).map _
  | remove => exact (FailsEarly.never (CommitmentStore.remove_unfailing _)).map _
  | get => exact (FailsEarly.quiet (.expect _ _)).map _
  | has => exact .quiet (.read _)
  | compute => exact (FailsEarly.quiet (.ofExcept _)).map _
  | verify => exact (FailsEarly.quiet (.bind (.expect _ _) fun _ => .ofExcept _)).map _
  | opens => exact (FailsEarly.quiet (.ofExcept _)).map _
  | scheme => exact .quiet (.pure _)

theorem VerifierCall.early (d : Deployment σ) (call : VerifierCall) : Early (call.run d) := by
  cases call with
  | setKey => exact (Verifier.setKey_failsEarly _).map _
  | hasKey => exact .quiet (.read _)
  | verify => exact (FailsEarly.quiet (Verifier.verify_quiet _ _ _)).map _
  | verifyPayment => exact (FailsEarly.quiet (Verifier.verify_quiet _ _ _)).map _
  | verifyRange => exact (FailsEarly.quiet (Verifier.verifyRange_quiet _ _ _ _ _)).map _
  | verifyBatch => exact (FailsEarly.quiet (Verifier.verifyBatch_quiet _ _ _ _ _)).map _

theorem AuditCall.early (d : Deployment σ) (call : AuditCall) : Early (call.run d) := by
  cases call with
  | issue => exact (ViewKeys.issue_failsEarly _ _).map _
  | revoke => exact (ViewKeys.revoke_failsEarly _ _).map _
  | get => exact (FailsEarly.quiet (.expect _ _)).map _
  | verifyCommitment =>
    exact (FailsEarly.quiet (Disclosure.verifyCommitment_quiet _ _ _ _ _ _ _)).map _
  | verifyEmployee => exact (FailsEarly.quiet (Disclosure.verifyEmployee_quiet _ _ _ _ _ _)).map _
  | report => exact (FailsEarly.quiet (Disclosure.report_quiet _ _ _ _ _)).map _
  | _ => exact .quiet (.read _)

/-- Every call that does not pay is early, where transfers go to the plain token ledger. -/
theorem Call.early {d : Deployment σ} (ht : d.tokens = .plain) (call : Call)
    (hp : call.payer? = none) : Early (call.run d) := by
  cases call with
  | registry call => exact call.early
  | commitments call => exact call.early d
  | verifier call => exact call.early d
  | audit call => exact call.early d
  | nullifiers call =>
    cases call with
    | use => exact (FailsEarly.spared (Nullifiers.use_spared _ rfl)).map _
    | _ => exact .quiet (.read _)
  | tokens call =>
    cases call with
    | mint => exact (Tokens.mint_failsEarly _ _ _).map _
    | balance => exact (FailsEarly.quiet (.read _)).map _
    | transfer sender recipient amount =>
      simp only [Call.run, TokenCall.run, ht]
      exact (Tokens.transfer_failsEarly _ _ _).map _
  | payments call =>
    cases call with
    | pay => cases hp
    | payBatch => cases hp
    | get => exact (FailsEarly.quiet (.expect _ _)).map _
    | announcements =>
      exact .bind (.read _) fun _ => (FailsEarly.quiet (.ofExcept _)).map _
    | _ => exact .quiet (.read _)

end SealedPayroll
