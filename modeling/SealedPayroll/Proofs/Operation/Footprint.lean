import SealedPayroll.Audit.Disclosure
import SealedPayroll.Proofs.Ledger.Write
import SealedPayroll.Proofs.Record.Fields

/-!
# Footprints of the operations

Which parts of the ledger each operation of the payroll writes to. The
operations of a settlement that do not touch the token ledger are here too;
the transfer itself depends on the deployment.
-/

namespace SealedPayroll

open SealedPayroll.Action (Quiet Footprint Built)

variable {σ : Type}

-- ---------------------------------------------------------------------------
-- Lookups and checks
-- ---------------------------------------------------------------------------

theorem Registry.administered_quiet (id : Int) :
    Quiet (Registry.administered id : Action σ Company) :=
  .bind (.expect _ _) fun _ => .bind (.requireAuth _) fun _ => .pure _

theorem Verifier.verify_quiet (backend : PairingBackend) (proof : Proof) (inputs : List Bytes) :
    Quiet (Verifier.verify backend proof inputs : Action σ Bool) :=
  .bind (.expect _ _) fun _ =>
    .bind (.change fun _ => ⟨rfl, rfl, rfl, rfl, rfl⟩) fun _ => .ofExcept _

theorem Verifier.verifyRange_quiet (backend : PairingBackend) (proof : Proof) (commitment : Bytes)
    (least greatest : Int) :
    Quiet (Verifier.verifyRange backend proof commitment least greatest : Action σ Bool) := by
  unfold Verifier.verifyRange
  split
  · exact .pure _
  · exact .bind (.ofExcept _) fun _ => .bind (.ofExcept _) fun _ => verify_quiet _ _ _

theorem Verifier.verifyEach_quiet (backend : PairingBackend) :
    (rows : List (Proof × Bytes × Bytes × Bytes)) →
      Quiet (Verifier.verifyEach backend rows : Action σ Bool)
  | [] => .pure _
  | (proof, commitment, nullifier, recipient) :: rest => by
    refine .bind (verify_quiet _ _ _) fun accepted => ?_
    split
    · exact verifyEach_quiet backend rest
    · exact .pure _

theorem Verifier.verifyBatch_quiet (backend : PairingBackend) (proofs : List Proof)
    (commitments nullifiers recipients : List Bytes) :
    Quiet (Verifier.verifyBatch backend proofs commitments nullifiers recipients :
      Action σ Bool) := by
  unfold Verifier.verifyBatch
  split
  · exact verifyEach_quiet _ _
  · exact .pure _

theorem Payroll.screen_quiet (d : Deployment σ) (batch : Payroll.Batch) :
    Quiet (Payroll.screen d batch) := by
  unfold Payroll.screen
  split
  · exact .refuse _
  · refine .bind (.read _) fun key => ?_
    split
    · exact .refuse _
    · exact Registry.administered_quiet _

theorem Payroll.approve_quiet (d : Deployment σ) (company : Company) (index : Nat)
    (entry : Payroll.Entry) : Quiet (Payroll.approve d company index entry) := by
  refine .bind (.expect _ _) fun binding => .bind (.expect _ _) fun stored => ?_
  split
  · exact .refuse _
  · refine .bind (.ofExcept _) fun recipient => .bind (Verifier.verify_quiet _ _ _) fun accepted => ?_
    split
    · exact .pure _
    · exact .refuse _

theorem ViewKeys.checkGranter_quiet (d : Deployment σ) (company : Int) (admin : Principal) :
    Quiet (ViewKeys.checkGranter d company admin) := by
  unfold ViewKeys.checkGranter
  split
  · refine .bind (.expect _ _) fun company => ?_
    split
    · exact .pure _
    · exact .refuse _
  · exact .pure _

theorem Disclosure.present_quiet (id : String) (auditor : Principal) :
    Quiet (Disclosure.present id auditor : Action σ ViewKey) := by
  refine .bind (.requireAuth _) fun _ => .bind (.expect _ _) fun key => ?_
  split
  · exact .refuse _
  · refine .bind (.read _) fun active => ?_
    split
    · exact .pure _
    · exact .refuse _

theorem Disclosure.verifyCommitment_quiet (d : Deployment σ) (id : String) (auditor : Principal)
    (commitment : Bytes) (amount : Int) (blinding : Bytes) (restriction : Option Scope) :
    Quiet (Disclosure.verifyCommitment d id auditor commitment amount blinding restriction) := by
  refine .bind (present_quiet _ _) fun key => ?_
  dsimp only
  split
  · exact .ofExcept _
  · exact .refuse _

theorem Disclosure.verifyEmployee_quiet (d : Deployment σ) (id : String)
    (auditor employee : Principal) (amount : Int) (blinding : Bytes) :
    Quiet (Disclosure.verifyEmployee d id auditor employee amount blinding) := by
  refine .bind (present_quiet _ _) fun key => ?_
  split
  · refine .bind (.expect _ _) fun record => ?_
    split
    · exact .ofExcept _
    · exact .refuse _
  · exact .refuse _

theorem Disclosure.report_quiet (d : Deployment σ) (id : String) (auditor : Principal)
    (start stop : Int) : Quiet (Disclosure.report d id auditor start stop) := by
  refine .bind (present_quiet _ _) fun key => ?_
  split
  · exact .refuse _
  · split
    · split
      · refine .bind (.read _) fun settled => ?_
        dsimp only
        split
        · exact .bind (.read _) fun employed => .build _ _
        · exact .bind (.expect _ _) fun company => .build _ _
      · exact .build _ _
    · exact .refuse _

-- ---------------------------------------------------------------------------
-- The registry and the commitment store
-- ---------------------------------------------------------------------------

theorem CommitmentStore.store_footprint (employee : Principal) (commitment : Bytes)
    (company : Option Int) :
    Footprint [.commitments]
      (CommitmentStore.store employee commitment company : Action σ CommitmentRecord) :=
  .transaction <| .bind (.quiet (.read _)) fun _ => .bind (.quiet (.build _ _)) fun _ =>
    .bind (.write (.commitment _ _) (by simp)) fun _ => .pure _

theorem CommitmentStore.revise_footprint (employee : Principal) (commitment : Bytes) :
    Footprint [.commitments]
      (CommitmentStore.revise employee commitment : Action σ CommitmentRecord) :=
  .bind (.quiet (.expect _ _)) fun _ => .bind (.quiet (.read _)) fun _ =>
    .bind (.quiet (.build _ _)) fun _ =>
      .bind (.write (.commitment _ _) (by simp)) fun _ => .pure _

theorem CommitmentStore.update_footprint (employee : Principal) (commitment : Bytes) :
    Footprint [.commitments]
      (CommitmentStore.update employee commitment : Action σ CommitmentRecord) :=
  .transaction (revise_footprint _ _)

theorem CommitmentStore.reviseAll_footprint : (updates : List (Principal × Bytes)) →
    Footprint [.commitments] (CommitmentStore.reviseAll updates : Action σ (List CommitmentRecord))
  | [] => .pure _
  | _ :: rest =>
    .bind (revise_footprint _ _) fun _ => .bind (reviseAll_footprint rest) fun _ => .pure _

theorem CommitmentStore.updateAll_footprint (updates : List (Principal × Bytes)) :
    Footprint [.commitments]
      (CommitmentStore.updateAll updates : Action σ (List CommitmentRecord)) :=
  .transaction (reviseAll_footprint _)

theorem CommitmentStore.remove_footprint (employee : Principal) :
    Footprint [.commitments] (CommitmentStore.remove employee : Action σ Bool) := by
  refine .transaction <| .bind (.quiet (.read _)) fun present => ?_
  split
  · exact .bind (.write (.uncommit _) (by simp)) fun _ => .pure _
  · exact .pure _

theorem Registry.register_footprint (admin treasury : Principal) :
    Footprint [.companies, .companyCount]
      (Registry.register admin treasury : Action σ Int) := by
  refine .transaction <| .bind (.quiet (.requireAuth _)) fun _ =>
    .bind (.quiet (.read _)) fun count => .bind (.quiet (.read _)) fun now => ?_
  rw [Action.bind_build]
  split
  · rename_i company hc
    have hid : company.id = count := by rw [(Company.make_eq_valid.mp hc).2]
    rw [← hid]
    exact .bind (.write (.company _) (by simp)) fun _ =>
      .bind (.write (.companyCount _) (by simp)) fun _ => .pure _
  · exact .quiet (.raise _)

theorem Registry.enrol_footprint (company : Int) (employee : Principal) (commitment : Bytes) :
    Footprint [.bindings, .commitments, .companies]
      (Registry.enrol company employee commitment : Action σ Binding) := by
  refine .transaction <| .bind (.quiet (administered_quiet _)) fun company =>
    .bind (.quiet (.read _)) fun existing => ?_
  split
  · exact .quiet (.refuse _)
  · exact .bind (.quiet (.read _)) fun _ => .bind (.quiet (.build _ _)) fun binding =>
      .bind (.write (.binding _ _) (by simp)) fun _ =>
        .bind ((CommitmentStore.store_footprint _ _ _).widen (by simp)) fun _ =>
          .bind (.write (.company _) (by simp)) fun _ => .pure _

theorem Registry.release_footprint (company : Int) (employee : Principal) :
    Footprint [.bindings, .commitments, .companies]
      (Registry.release company employee : Action σ Unit) :=
  .transaction <| .bind (.quiet (administered_quiet _)) fun _ =>
    .bind (.quiet (.expect _ _)) fun _ =>
      .bind (.write (.unbind _) (by simp)) fun _ =>
        .bind ((CommitmentStore.remove_footprint _).widen (by simp)) fun _ =>
          .write (.company _) (by simp)

theorem Registry.updateCommitment_footprint (company : Int) (employee : Principal)
    (commitment : Bytes) :
    Footprint [.bindings, .commitments]
      (Registry.updateCommitment company employee commitment : Action σ CommitmentRecord) :=
  .transaction <| .bind (.quiet (administered_quiet _)) fun _ =>
    .bind (.quiet (.expect _ _)) fun _ => .bind (.quiet (.build _ _)) fun _ =>
      .bind (.write (.binding _ _) (by simp)) fun _ =>
        (CommitmentStore.update_footprint _ _).widen (by simp)

theorem Registry.recordPayment_footprint (company : Int) (employee : Principal) (timestamp : Int) :
    Footprint [.bindings]
      (Registry.recordPayment company employee timestamp : Action σ Binding) :=
  .transaction <| .bind (.quiet (administered_quiet _)) fun _ =>
    .bind (.quiet (.expect _ _)) fun _ =>
      .bind (.write (.binding _ _) (by simp)) fun _ => .pure _

-- ---------------------------------------------------------------------------
-- Verification key, tokens and view keys
-- ---------------------------------------------------------------------------

theorem Verifier.setKey_footprint (key : VerificationKey) :
    Footprint [.verificationKey] (Verifier.setKey key : Action σ Unit) := by
  refine .transaction <| .bind (.quiet (.read _)) fun present => ?_
  split
  · exact .quiet (.refuse _)
  · exact .write (.verificationKey _) (by simp)

theorem Tokens.mint_footprint (minter : Option Principal) (recipient : Principal) (amount : Int) :
    Footprint [.balances] (Tokens.mint minter recipient amount : Action σ Unit) := by
  unfold Tokens.mint
  split
  · exact .quiet (.refuse _)
  · refine .transaction ?_
    split
    · exact .bind (.quiet (.requireAuth _)) fun _ => .bind (.quiet (.read _)) fun _ =>
        .write (.balance _ _) (by simp)
    · exact .bind (.quiet (.read _)) fun _ => .write (.balance _ _) (by simp)

theorem Tokens.transfer_footprint (sender recipient : Principal) (amount : Int) :
    Footprint [.balances] (Tokens.transfer sender recipient amount : Action σ Unit) := by
  unfold Tokens.transfer
  split
  · exact .quiet (.refuse _)
  · refine .transaction <| .bind (.quiet (.requireAuth _)) fun _ =>
      .bind (.quiet (.read _)) fun available => ?_
    split
    · exact .quiet (.refuse _)
    · exact .bind (.write (.balance _ _) (by simp)) fun _ =>
        .bind (.quiet (.read _)) fun _ => .write (.balance _ _) (by simp)

theorem ViewKeys.issue_footprint (d : Deployment σ) (request : ViewKeys.Request) :
    Footprint [.keyCounters, .viewKeys] (ViewKeys.issue d request) := by
  unfold ViewKeys.issue
  dsimp only
  split
  · exact .quiet (.refuse _)
  · refine .transaction <| .bind (.quiet (.requireAuth _)) fun _ =>
      .bind (.quiet (checkGranter_quiet _ _ _)) fun _ => .bind (.quiet (.read _)) fun count =>
        .bind (.quiet (.read _)) fun now => ?_
    split <;>
      exact .bind (.quiet (.read _)) fun _ => .bind (.quiet (.ofExcept _)) fun _ =>
        .bind (.quiet (.build _ _)) fun _ => .bind (.write (.keyCounter _ _ _) (by simp)) fun _ =>
          .bind (.write (.viewKey _ _) (by simp)) fun _ => .pure _

theorem ViewKeys.revoke_footprint (admin : Principal) (id : String) :
    Footprint [.viewKeys] (ViewKeys.revoke admin id : Action σ Unit) := by
  refine .transaction <| .bind (.quiet (.requireAuth _)) fun _ =>
    .bind (.quiet (.expect _ _)) fun key => ?_
  split
  · exact .write (.revoke _) (by simp)
  · exact .quiet (.refuse _)

-- ---------------------------------------------------------------------------
-- Settlement
-- ---------------------------------------------------------------------------

theorem Nullifiers.use_footprint (value : Bytes) :
    Footprint [.nullifiers] (Nullifiers.use value : Action σ NullifierRecord) := by
  refine .transaction <| .bind (.quiet (.read _)) fun used => ?_
  split
  · exact .quiet (.refuse _)
  · exact .bind (.quiet (.read _)) fun _ => .bind (.quiet (.build _ _)) fun _ =>
      .bind (.write (.nullifier _ _) (by simp)) fun _ => .pure _

theorem Payroll.book_footprint (company : Company) (period : Int) (entry : Payroll.Entry) :
    Footprint [.payments, .totals, .bindings]
      (Payroll.book company period entry : Action σ PaymentRecord) := by
  refine .bind (.quiet (.read _)) fun paid => ?_
  split
  · exact .quiet (.refuse _)
  · exact .bind (.quiet (.read _)) fun _ => .bind (.quiet (.build _ _)) fun _ =>
      .bind (.write (.payment _ _ _) (by simp)) fun _ =>
        .bind (.write (.total _ _) (by simp)) fun _ =>
          .bind ((Registry.recordPayment_footprint _ _ _).widen (by simp)) fun _ => .pure _

theorem Payroll.enter_footprint (company : Company) (period : Int) (entry : Payroll.Entry) :
    Footprint [.nullifiers, .payments, .totals, .bindings]
      (Payroll.enter company period entry : Action σ PaymentRecord) :=
  .bind ((Nullifiers.use_footprint _).widen (by simp)) fun _ =>
    (book_footprint _ _ _).widen (by simp)

end SealedPayroll
