import SealedPayroll.Proofs.Host.Published
import SealedPayroll.Proofs.Operation.Affair
import SealedPayroll.Proofs.Operation.Early

/-!
# Bystanders of a payment

A public call that does not pay publishes nothing and writes no payment. That
it publishes nothing does not follow from its footprint, which speaks of the
ledger only, so each operation is looked at once more. Settlements, which do
publish, are not covered.
-/

namespace SealedPayroll

open SealedPayroll.Action (Footprint Silent)

variable {σ : Type}

-- ---------------------------------------------------------------------------
-- The registry and the commitment store
-- ---------------------------------------------------------------------------

theorem CommitmentStore.store_silent (employee : Principal) (commitment : Bytes)
    (company : Option Int) :
    Silent (CommitmentStore.store employee commitment company : Action σ CommitmentRecord) :=
  .transaction <| .bind (.quiet (.read _)) fun _ => .bind (.quiet (.build _ _)) fun _ =>
    .bind (.write _) fun _ => .pure _

theorem CommitmentStore.revise_silent (employee : Principal) (commitment : Bytes) :
    Silent (CommitmentStore.revise employee commitment : Action σ CommitmentRecord) :=
  .bind (.quiet (.expect _ _)) fun _ => .bind (.quiet (.read _)) fun _ =>
    .bind (.quiet (.build _ _)) fun _ => .bind (.write _) fun _ => .pure _

theorem CommitmentStore.update_silent (employee : Principal) (commitment : Bytes) :
    Silent (CommitmentStore.update employee commitment : Action σ CommitmentRecord) :=
  .transaction (revise_silent _ _)

theorem CommitmentStore.reviseAll_silent : (updates : List (Principal × Bytes)) →
    Silent (CommitmentStore.reviseAll updates : Action σ (List CommitmentRecord))
  | [] => .pure _
  | _ :: rest =>
    .bind (revise_silent _ _) fun _ => .bind (reviseAll_silent rest) fun _ => .pure _

theorem CommitmentStore.remove_silent (employee : Principal) :
    Silent (CommitmentStore.remove employee : Action σ Bool) := by
  refine .transaction <| .bind (.quiet (.read _)) fun present => ?_
  split
  · exact .bind (.write _) fun _ => .pure _
  · exact .pure _

theorem Registry.register_silent (admin treasury : Principal) :
    Silent (Registry.register admin treasury : Action σ Int) :=
  .transaction <| .bind (.quiet (.requireAuth _)) fun _ => .bind (.quiet (.read _)) fun _ =>
    .bind (.quiet (.read _)) fun _ => .bind (.quiet (.build _ _)) fun _ =>
      .bind (.write _) fun _ => .bind (.write _) fun _ => .pure _

theorem Registry.enrol_silent (company : Int) (employee : Principal) (commitment : Bytes) :
    Silent (Registry.enrol company employee commitment : Action σ Binding) := by
  refine .transaction <| .bind (.quiet (administered_quiet _)) fun company =>
    .bind (.quiet (.read _)) fun existing => ?_
  split
  · exact .quiet (.refuse _)
  · exact .bind (.quiet (.read _)) fun _ => .bind (.quiet (.build _ _)) fun _ =>
      .bind (.write _) fun _ => .bind (CommitmentStore.store_silent _ _ _) fun _ =>
        .bind (.write _) fun _ => .pure _

theorem Registry.release_silent (company : Int) (employee : Principal) :
    Silent (Registry.release company employee : Action σ Unit) :=
  .transaction <| .bind (.quiet (administered_quiet _)) fun _ =>
    .bind (.quiet (.expect _ _)) fun _ => .bind (.write _) fun _ =>
      .bind (CommitmentStore.remove_silent _) fun _ => .write _

theorem Registry.updateCommitment_silent (company : Int) (employee : Principal)
    (commitment : Bytes) :
    Silent (Registry.updateCommitment company employee commitment : Action σ CommitmentRecord) :=
  .transaction <| .bind (.quiet (administered_quiet _)) fun _ =>
    .bind (.quiet (.expect _ _)) fun _ => .bind (.quiet (.build _ _)) fun _ =>
      .bind (.write _) fun _ => CommitmentStore.update_silent _ _

theorem Registry.recordPayment_silent (company : Int) (employee : Principal) (timestamp : Int) :
    Silent (Registry.recordPayment company employee timestamp : Action σ Binding) :=
  .transaction <| .bind (.quiet (administered_quiet _)) fun _ =>
    .bind (.quiet (.expect _ _)) fun _ => .bind (.write _) fun _ => .pure _

-- ---------------------------------------------------------------------------
-- Nullifiers, verification key, tokens and view keys
-- ---------------------------------------------------------------------------

theorem Nullifiers.use_silent (value : Bytes) :
    Silent (Nullifiers.use value : Action σ NullifierRecord) := by
  refine .transaction <| .bind (.quiet (.read _)) fun used => ?_
  split
  · exact .quiet (.refuse _)
  · exact .bind (.quiet (.read _)) fun _ => .bind (.quiet (.build _ _)) fun _ =>
      .bind (.write _) fun _ => .pure _

theorem Verifier.setKey_silent (key : VerificationKey) :
    Silent (Verifier.setKey key : Action σ Unit) := by
  refine .transaction <| .bind (.quiet (.read _)) fun present => ?_
  split
  · exact .quiet (.refuse _)
  · exact .write _

theorem Tokens.mint_silent (minter : Option Principal) (recipient : Principal) (amount : Int) :
    Silent (Tokens.mint minter recipient amount : Action σ Unit) := by
  unfold Tokens.mint
  split
  · exact .quiet (.refuse _)
  · refine .transaction ?_
    split
    · exact .bind (.quiet (.requireAuth _)) fun _ => .bind (.quiet (.read _)) fun _ => .write _
    · exact .bind (.quiet (.read _)) fun _ => .write _

theorem Tokens.transfer_silent (sender recipient : Principal) (amount : Int) :
    Silent (Tokens.transfer sender recipient amount : Action σ Unit) := by
  unfold Tokens.transfer
  split
  · exact .quiet (.refuse _)
  · refine .transaction <| .bind (.quiet (.requireAuth _)) fun _ =>
      .bind (.quiet (.read _)) fun available => ?_
    split
    · exact .quiet (.refuse _)
    · exact .bind (.write _) fun _ => .bind (.quiet (.read _)) fun _ => .write _

theorem ViewKeys.issue_silent (d : Deployment σ) (request : ViewKeys.Request) :
    Silent (ViewKeys.issue d request) := by
  unfold ViewKeys.issue
  dsimp only
  split
  · exact .quiet (.refuse _)
  · refine .transaction <| .bind (.quiet (.requireAuth _)) fun _ =>
      .bind (.quiet (checkGranter_quiet _ _ _)) fun _ => .bind (.quiet (.read _)) fun count =>
        .bind (.quiet (.read _)) fun now => ?_
    split <;>
      exact .bind (.quiet (.read _)) fun _ => .bind (.quiet (.ofExcept _)) fun _ =>
        .bind (.quiet (.build _ _)) fun _ => .bind (.write _) fun _ =>
          .bind (.write _) fun _ => .pure _

theorem ViewKeys.revoke_silent (admin : Principal) (id : String) :
    Silent (ViewKeys.revoke admin id : Action σ Unit) := by
  refine .transaction <| .bind (.quiet (.requireAuth _)) fun _ =>
    .bind (.quiet (.expect _ _)) fun key => ?_
  split
  · exact .write _
  · exact .quiet (.refuse _)

-- ---------------------------------------------------------------------------
-- Public calls
-- ---------------------------------------------------------------------------

/-- The parts of the ledger besides the payments. -/
def besidesPayments : List Ledger.Part := .nullifiers :: besidesBooks

/-- Publishes nothing and writes no payment. -/
structure Bystanding {α : Type} (action : Action σ α) : Prop where
  silent : Silent action
  footprint : Footprint besidesPayments action

theorem Bystanding.of_quiet {α : Type} {action : Action σ α} (h : Action.Quiet action) :
    Bystanding action :=
  ⟨.quiet h, .quiet h⟩

theorem RegistryCall.silent (call : RegistryCall) : Silent (call.run : Action σ Answer) := by
  cases call with
  | register => exact .map (Registry.register_silent _ _) _
  | enrol => exact .map (Registry.enrol_silent _ _ _) _
  | release => exact .map (Registry.release_silent _ _) _
  | updateCommitment => exact .map (Registry.updateCommitment_silent _ _ _) _
  | recordPayment => exact .map (Registry.recordPayment_silent _ _ _) _
  | getCompany => exact .map (.quiet (.expect _ _)) _
  | getEmployee => exact .map (.quiet (.expect _ _)) _
  | _ => exact .quiet (.read _)

theorem CommitmentCall.silent (d : Deployment σ) (call : CommitmentCall) :
    Silent (call.run d) := by
  cases hw : call.writes with
  | false => exact .quiet (CommitmentCall.quiet hw)
  | true =>
    cases call with
    | store => exact .map (CommitmentStore.store_silent _ _ _) _
    | update => exact .map (CommitmentStore.update_silent _ _) _
    | updateAll => exact .map (.transaction (CommitmentStore.reviseAll_silent _)) _
    | remove => exact .map (CommitmentStore.remove_silent _) _
    | _ => cases hw

theorem VerifierCall.silent (d : Deployment σ) (call : VerifierCall) : Silent (call.run d) := by
  cases call with
  | setKey => exact .map (Verifier.setKey_silent _) _
  | hasKey => exact .quiet (.read _)
  | verify => exact .map (.quiet (Verifier.verify_quiet _ _ _)) _
  | verifyPayment => exact .map (.quiet (Verifier.verify_quiet _ _ _)) _
  | verifyRange => exact .map (.quiet (Verifier.verifyRange_quiet _ _ _ _ _)) _
  | verifyBatch => exact .map (.quiet (Verifier.verifyBatch_quiet _ _ _ _ _)) _

theorem AuditCall.silent (d : Deployment σ) (call : AuditCall) : Silent (call.run d) := by
  cases call with
  | issue => exact .map (ViewKeys.issue_silent _ _) _
  | revoke => exact .map (ViewKeys.revoke_silent _ _) _
  | get => exact .map (.quiet (.expect _ _)) _
  | verifyCommitment => exact .map (.quiet (Disclosure.verifyCommitment_quiet _ _ _ _ _ _ _)) _
  | verifyEmployee => exact .map (.quiet (Disclosure.verifyEmployee_quiet _ _ _ _ _ _)) _
  | report => exact .map (.quiet (Disclosure.report_quiet _ _ _ _ _)) _
  | _ => exact .quiet (.read _)

theorem StorageCall.silent (call : StorageCall) : Silent (call.run : Action σ Answer) := by
  have discard (isPresent : Ledger → Bool) (f : Ledger → Ledger) :
      Silent (discard isPresent f : Action σ Answer) := by
    refine .bind (.quiet (.read _)) fun present => ?_
    split
    · exact .bind (.write _) fun _ => .pure _
    · exact .pure _
  cases call with
  | set => exact .map (.write _) _
  | setExpiring => exact .map (.write _) _
  | remove => exact discard _ _
  | removeExpiring => exact discard _ _
  | evict => exact .map .evict _
  | _ => exact .quiet (.read _)

theorem StorageCall.bystanding {call : StorageCall} (apart : call.IsForeign) :
    Bystanding (call.run : Action σ Answer) :=
  ⟨call.silent, (footprint apart).widen (by simp [besidesPayments, besidesBooks])⟩

theorem TokenCall.bystanding {d : Deployment σ} (ht : d.tokens = .plain) (call : TokenCall) :
    Bystanding (call.run d) := by
  have widen {α : Type} {action : Action σ α} (h : Footprint [.balances] action) :
      Footprint besidesPayments action := h.widen (by simp [besidesPayments, besidesBooks])
  cases call with
  | mint => exact ⟨.map (Tokens.mint_silent _ _ _) _, .map (widen (Tokens.mint_footprint _ _ _)) _⟩
  | balance => exact .of_quiet (.map (.read _) _)
  | transfer =>
    simp only [TokenCall.run, ht]
    exact ⟨.map (Tokens.transfer_silent _ _ _) _, .map (widen (Tokens.transfer_footprint _ _ _)) _⟩

/-- A call that does not pay leaves payments and events alone. -/
theorem Call.bystanding {d : Deployment σ} (ht : d.tokens = .plain) (call : Call)
    (hp : call.payer? = none) : Bystanding (call.run d) := by
  cases call with
  | registry call =>
    exact ⟨call.silent, call.footprint.widen (by simp [besidesPayments, besidesBooks])⟩
  | commitments call =>
    exact ⟨call.silent d, (call.footprint d).widen (by simp [besidesPayments, besidesBooks])⟩
  | verifier call =>
    exact ⟨call.silent d, (call.footprint d).widen (by simp [besidesPayments, besidesBooks])⟩
  | audit call =>
    exact ⟨call.silent d, (call.footprint d).widen (by simp [besidesPayments, besidesBooks])⟩
  | tokens call => exact call.bystanding ht
  | nullifiers call =>
    cases call with
    | use =>
      exact ⟨.map (Nullifiers.use_silent _) _,
        .map ((Nullifiers.use_footprint _).widen (by simp [besidesPayments])) _⟩
    | _ => exact .of_quiet (.read _)
  | payments call =>
    cases call with
    | pay => cases hp
    | payBatch => cases hp
    | get => exact .of_quiet (.map (.expect _ _) _)
    | announcements => exact .of_quiet (.bind (.read _) fun _ => .map (.ofExcept _) _)
    | _ => exact .of_quiet (.read _)

end SealedPayroll
