import SealedPayroll.Proofs.Operation.Components

/-!
# Affairs

The operations of a payroll, each with the parts of the ledger that it writes
to. Other than `Operation`, which takes an operation for whatever arguments, an
affair is one of a given deployment: it mints as that deployment mints and
issues keys as it does. Writes to the commitment store that go past the
registry count only if they are admitted.
-/

namespace SealedPayroll

open SealedPayroll.Action (Quiet Footprint Built)

variable {σ α : Type}

/-- The parts of the ledger that anybody may write to; payments use nullifiers up as well. -/
def asides : List Ledger.Part := [.nullifiers, .verificationKey, .foreign, .foreignExpiring]

inductive Affair (base : Deployment σ) (direct : Prop) :
    List Ledger.Part → ⦃α : Type⦄ → Action σ α → Prop
  | aside {α : Type} {action : Action σ α} : Footprint asides action →
      Affair base direct asides action
  | commit {α : Type} {action : Action σ α} : direct → Footprint [.commitments] action →
      Affair base direct [.commitments] action
  | register (admin treasury : Principal) :
      Affair base direct [.companies, .companyCount] (Registry.register admin treasury)
  | enrol (company : Int) (employee : Principal) (commitment : Bytes) :
      Affair base direct [.bindings, .commitments, .companies]
        (Registry.enrol company employee commitment)
  | release (company : Int) (employee : Principal) :
      Affair base direct [.bindings, .commitments, .companies] (Registry.release company employee)
  | updateCommitment (company : Int) (employee : Principal) (commitment : Bytes) :
      Affair base direct [.bindings, .commitments]
        (Registry.updateCommitment company employee commitment)
  | recordPayment (company : Int) (employee : Principal) (timestamp : Int) :
      Affair base direct [.bindings] (Registry.recordPayment company employee timestamp)
  | mint (recipient : Principal) (amount : Int) :
      Affair base direct [.balances] (Tokens.mint base.minter recipient amount)
  | transfer (sender recipient : Principal) (amount : Int) :
      Affair base direct [.balances] (Tokens.transfer sender recipient amount)
  | issue {d : Deployment σ} (request : ViewKeys.Request) :
      d.config = base.config → d.auditSeesRegistry = base.auditSeesRegistry →
      Affair base direct [.keyCounters, .viewKeys] (ViewKeys.issue d request)
  | revoke (admin : Principal) (id : String) :
      Affair base direct [.viewKeys] (ViewKeys.revoke admin id)
  | enter (company : Company) (period : Int) (entry : Payroll.Entry) :
      Affair base direct [.nullifiers, .payments, .totals, .bindings]
        (Payroll.enter company period entry)

variable {base d : Deployment σ} {direct : Prop}

theorem Affair.footprint {parts : List Ledger.Part} {action : Action σ α}
    (h : Affair base direct parts action) : Footprint parts action := by
  cases h with
  | aside h => exact h
  | commit _ h => exact h
  | register => exact Registry.register_footprint _ _
  | enrol => exact Registry.enrol_footprint _ _ _
  | release => exact Registry.release_footprint _ _
  | updateCommitment => exact Registry.updateCommitment_footprint _ _ _
  | recordPayment => exact Registry.recordPayment_footprint _ _ _
  | mint => exact Tokens.mint_footprint _ _ _
  | transfer => exact Tokens.transfer_footprint _ _ _
  | issue => exact ViewKeys.issue_footprint _ _
  | revoke => exact ViewKeys.revoke_footprint _ _
  | enter => exact Payroll.enter_footprint _ _ _

/-- An action that is an affair, whatever it writes to. -/
def IsAffair (base : Deployment σ) (direct : Prop) ⦃α : Type⦄ (action : Action σ α) : Prop :=
  ∃ parts, Affair base direct parts action

namespace IsAffair

theorem aside {parts : List Ledger.Part} {action : Action σ α} (h : Footprint parts action)
    (hp : parts ⊆ asides) : IsAffair base direct action :=
  ⟨asides, .aside (h.widen hp)⟩

theorem quiet {action : Action σ α} (h : Quiet action) : IsAffair base direct action :=
  ⟨asides, .aside (.quiet h)⟩

end IsAffair

/-- An action that is made of affairs. -/
abbrev Affairs (base : Deployment σ) (direct : Prop) (action : Action σ α) : Prop :=
  Built (IsAffair base direct) action

-- ---------------------------------------------------------------------------
-- Public calls
-- ---------------------------------------------------------------------------

/-- Whether a call writes to the commitment store. -/
def CommitmentCall.writes : CommitmentCall → Bool
  | store _ _ _ | update _ _ | updateAll _ | remove _ => true
  | _ => false

/-- Whether a call writes to the commitment store past the registry. -/
def Call.bypasses : Call → Bool
  | .commitments call => call.writes
  | _ => false

theorem CommitmentCall.quiet {call : CommitmentCall} (h : call.writes = false) :
    Quiet (call.run d) := by
  cases call with
  | store => cases h
  | update => cases h
  | updateAll => cases h
  | remove => cases h
  | get => exact .map (.expect _ _) _
  | has => exact .read _
  | compute => exact .map (.ofExcept _) _
  | verify => exact .map (.bind (.expect _ _) fun _ => .ofExcept _) _
  | opens => exact .map (.ofExcept _) _
  | scheme => exact .pure _

theorem RegistryCall.affairs (call : RegistryCall) : Affairs base direct call.run := by
  cases call with
  | register => exact .map (.base ⟨_, .register _ _⟩) _
  | enrol => exact .map (.base ⟨_, .enrol _ _ _⟩) _
  | release => exact .map (.base ⟨_, .release _ _⟩) _
  | updateCommitment => exact .map (.base ⟨_, .updateCommitment _ _ _⟩) _
  | recordPayment => exact .map (.base ⟨_, .recordPayment _ _ _⟩) _
  | getCompany => exact .map (.base (.quiet (.expect _ _))) _
  | getEmployee => exact .map (.base (.quiet (.expect _ _))) _
  | _ => exact .base (.quiet (.read _))

/-- A deployment that mints and issues keys as another one does, and whose transfers are made of
affairs. -/
structure Deployment.Conforms (base : Deployment σ) (direct : Prop) (d : Deployment σ) : Prop where
  config : d.config = base.config
  minter : d.minter = base.minter
  audit : d.auditSeesRegistry = base.auditSeesRegistry
  transfer : ∀ sender recipient amount,
    Affairs base direct (d.tokens.transfer sender recipient amount)

theorem Deployment.Conforms.settles (h : base.Conforms direct d) :
    Payroll.Settles (IsAffair base direct) d where
  quiet := .quiet
  publish _ _ := ⟨_, .aside (.base (.publish _ _))⟩
  enter _ _ _ := ⟨_, .enter _ _ _⟩
  transfer := h.transfer

theorem PaymentCall.affairs (h : base.Conforms direct d) (call : PaymentCall) :
    Affairs base direct (call.run d) := by
  cases call with
  | pay => exact .map (h.settles.pay _ _ _) _
  | payBatch => exact .map (h.settles.payBatch _) _
  | get => exact .map (.base (.quiet (.expect _ _))) _
  | announcements =>
    exact .bind (.base (.quiet (.read _))) fun _ => .map (.base (.quiet (.ofExcept _))) _
  | _ => exact .base (.quiet (.read _))

theorem AuditCall.affairs (h : base.Conforms direct d) (call : AuditCall) :
    Affairs base direct (call.run d) := by
  cases call with
  | issue => exact .map (.base ⟨_, .issue _ h.config h.audit⟩) _
  | revoke => exact .map (.base ⟨_, .revoke _ _⟩) _
  | get => exact .map (.base (.quiet (.expect _ _))) _
  | verifyCommitment =>
    exact .map (.base (.quiet (Disclosure.verifyCommitment_quiet _ _ _ _ _ _ _))) _
  | verifyEmployee => exact .map (.base (.quiet (Disclosure.verifyEmployee_quiet _ _ _ _ _ _))) _
  | report => exact .map (.base (.quiet (Disclosure.report_quiet _ _ _ _ _))) _
  | _ => exact .base (.quiet (.read _))

/-- Every public call is made of affairs, those that bypass the registry if they are admitted. -/
theorem Call.affairs (h : base.Conforms direct d) (call : Call)
    (hc : call.bypasses = true → direct) : Affairs base direct (call.run d) := by
  cases call with
  | registry call => exact call.affairs
  | commitments call =>
    cases hw : call.writes with
    | true => exact .base ⟨_, .commit (hc hw) (call.footprint d)⟩
    | false => exact .base (.quiet (CommitmentCall.quiet hw))
  | nullifiers call =>
    cases call with
    | use => exact .map (.base (.aside (Nullifiers.use_footprint _) (by simp [asides]))) _
    | _ => exact .base (.quiet (.read _))
  | verifier call => exact .base (.aside (call.footprint d) (by simp [asides]))
  | tokens call =>
    cases call with
    | mint =>
      simp only [Call.run, TokenCall.run, h.minter]
      exact .map (.base ⟨_, .mint _ _⟩) _
    | balance => exact .map (.base (.quiet (.read _))) _
    | transfer => exact .map (h.transfer _ _ _) _
  | payments call => exact call.affairs h
  | audit call => exact call.affairs h

/-- What a caller can do besides calling the payroll stays out of its tables. -/
theorem Public.call_or_aside {motive : ⦃α : Type⦄ → Action σ α → Prop}
    (call : ∀ call : Call, motive (call.run d))
    (aside : ∀ ⦃α : Type⦄ (a : Action σ α), Public d a → Footprint [.foreign, .foreignExpiring] a →
      motive a) {action : Action σ α} (h : Public d action) : motive action := by
  have h' := h
  cases h with
  | call c => exact call c
  | clock c => exact aside _ h' (.quiet c.quiet)
  | signature c => exact aside _ h' (.quiet c.quiet)
  | storage apart => exact aside _ h' (StorageCall.footprint apart)
  | publish topics data => exact aside _ h' (.base (.publish _ _))
  | read view => exact aside _ h' (.quiet (.read _))
  | attach f => exact aside _ h' (.quiet (.change fun _ => ⟨rfl, rfl, rfl, rfl, rfl⟩))
  | raise fault => exact aside _ h' (.quiet (.raise _))

end SealedPayroll
