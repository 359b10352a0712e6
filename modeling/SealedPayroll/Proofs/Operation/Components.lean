import SealedPayroll.Proofs.Session.Public

/-!
# What each component writes to

The calls of one component write to that component's parts of the ledger
only; the registry also keeps the commitments in step. Settlements write to
most parts and call the token ledger, and are not covered: `Undertaking` sets
them apart, so that what is said of a settlement can be put together with
what the footprints say of everything else.
-/

namespace SealedPayroll

open SealedPayroll.Action (Quiet Footprint Built)

variable {σ α : Type}

-- ---------------------------------------------------------------------------
-- Components
-- ---------------------------------------------------------------------------

theorem RegistryCall.footprint (call : RegistryCall) :
    Footprint [.companyCount, .companies, .bindings, .commitments]
      (call.run : Action σ Answer) := by
  cases call with
  | register => exact .map ((Registry.register_footprint _ _).widen (by simp)) _
  | enrol => exact .map ((Registry.enrol_footprint _ _ _).widen (by simp)) _
  | release => exact .map ((Registry.release_footprint _ _).widen (by simp)) _
  | updateCommitment => exact .map ((Registry.updateCommitment_footprint _ _ _).widen (by simp)) _
  | recordPayment => exact .map ((Registry.recordPayment_footprint _ _ _).widen (by simp)) _
  | getCompany => exact .map (.quiet (.expect _ _)) _
  | getEmployee => exact .map (.quiet (.expect _ _)) _
  | _ => exact .quiet (.read _)

theorem CommitmentCall.footprint (d : Deployment σ) (call : CommitmentCall) :
    Footprint [.commitments] (call.run d) := by
  cases call with
  | store => exact .map (CommitmentStore.store_footprint _ _ _) _
  | update => exact .map (CommitmentStore.update_footprint _ _) _
  | updateAll => exact .map (CommitmentStore.updateAll_footprint _) _
  | remove => exact .map (CommitmentStore.remove_footprint _) _
  | get => exact .map (.quiet (.expect _ _)) _
  | has => exact .quiet (.read _)
  | compute => exact .map (.quiet (.ofExcept _)) _
  | verify => exact .map (.quiet (.bind (.expect _ _) fun _ => .ofExcept _)) _
  | opens => exact .map (.quiet (.ofExcept _)) _
  | scheme => exact .pure _

theorem VerifierCall.footprint (d : Deployment σ) (call : VerifierCall) :
    Footprint [.verificationKey] (call.run d) := by
  cases call with
  | setKey => exact .map (Verifier.setKey_footprint _) _
  | hasKey => exact .quiet (.read _)
  | verify => exact .map (.quiet (Verifier.verify_quiet _ _ _)) _
  | verifyPayment => exact .map (.quiet (Verifier.verify_quiet _ _ _)) _
  | verifyRange => exact .map (.quiet (Verifier.verifyRange_quiet _ _ _ _ _)) _
  | verifyBatch => exact .map (.quiet (Verifier.verifyBatch_quiet _ _ _ _ _)) _

theorem AuditCall.footprint (d : Deployment σ) (call : AuditCall) :
    Footprint [.keyCounters, .viewKeys] (call.run d) := by
  cases call with
  | issue => exact .map (ViewKeys.issue_footprint _ _) _
  | revoke => exact .map ((ViewKeys.revoke_footprint _ _).widen (by simp)) _
  | get => exact .map (.quiet (.expect _ _)) _
  | verifyCommitment => exact .map (.quiet (Disclosure.verifyCommitment_quiet _ _ _ _ _ _ _)) _
  | verifyEmployee => exact .map (.quiet (Disclosure.verifyEmployee_quiet _ _ _ _ _ _)) _
  | report => exact .map (.quiet (Disclosure.report_quiet _ _ _ _ _)) _
  | _ => exact .quiet (.read _)

theorem StorageCall.footprint {call : StorageCall} (apart : call.IsForeign) :
    Footprint [.foreign, .foreignExpiring] (call.run : Action σ Answer) := by
  have discard {part : Ledger.Part} {f : Ledger → Ledger} (hw : Ledger.Write part f)
      (hp : part ∈ [.foreign, .foreignExpiring]) (isPresent : Ledger → Bool) :
      Footprint [.foreign, .foreignExpiring] (discard isPresent f : Action σ Answer) := by
    refine .bind (.quiet (.read _)) fun present => ?_
    split
    · exact .bind (.write hw hp) fun _ => .pure _
    · exact .pure _
  cases call with
  | set space key value => exact .map (.write (.foreign (apart space rfl) key value) (by simp)) _
  | setExpiring space key entry =>
    exact .map (.write (.foreignExpiring fun t => t.put space key entry) (by simp)) _
  | remove space key =>
    exact discard (.unforeign (apart space rfl) key) (by simp) (·.foreign.contains space key)
  | removeExpiring space key =>
    exact discard (.foreignExpiring fun t => t.erase space key) (by simp)
      (·.foreignExpiring.contains space key)
  | evict => exact .map (.base .evict) _
  | _ => exact .quiet (.read _)

-- ---------------------------------------------------------------------------
-- Public calls without their settlements
-- ---------------------------------------------------------------------------

/-- What public calls are made of: actions that leave the books alone, uses of nullifiers,
transfers and settlements. -/
inductive Undertaking (d : Deployment σ) : ⦃α : Type⦄ → Action σ α → Prop
  | besides {α : Type} {action : Action σ α} : Footprint besidesBooks action → Undertaking d action
  | use (value : Bytes) : Undertaking d (Nullifiers.use value)
  | transfer (sender recipient : Principal) (amount : Int) :
      Undertaking d (d.tokens.transfer sender recipient amount)
  | pay (company : Int) (entry : Payroll.Entry) (period : Int) :
      Undertaking d (Payroll.pay d company entry period)
  | payBatch (batch : Payroll.Batch) : Undertaking d (Payroll.payBatch d batch)

theorem Undertaking.quiet {d : Deployment σ} {action : Action σ α} (h : Quiet action) :
    Undertaking d action :=
  .besides (.quiet h)

theorem Call.undertaken (d : Deployment σ) (call : Call) : Built (Undertaking d) (call.run d) := by
  cases call with
  | registry call => exact .base (.besides (call.footprint.widen (by simp [besidesBooks])))
  | commitments call => exact .base (.besides ((call.footprint d).widen (by simp [besidesBooks])))
  | verifier call => exact .base (.besides ((call.footprint d).widen (by simp [besidesBooks])))
  | audit call => exact .base (.besides ((call.footprint d).widen (by simp [besidesBooks])))
  | nullifiers call =>
    cases call with
    | use => exact .map (.base (.use _)) _
    | _ => exact .base (.quiet (.read _))
  | tokens call =>
    cases call with
    | mint =>
      exact .base (.besides (.map ((Tokens.mint_footprint _ _ _).widen (by simp [besidesBooks])) _))
    | balance => exact .base (.quiet (.read _))
    | transfer => exact .map (.base (.transfer _ _ _)) _
  | payments call =>
    cases call with
    | pay => exact .map (.base (.pay _ _ _)) _
    | payBatch => exact .map (.base (.payBatch _)) _
    | get => exact .map (.base (.quiet (.expect _ _))) _
    | announcements =>
      exact .bind (.base (.quiet (.read _))) fun _ => .map (.base (.quiet (.ofExcept _))) _
    | _ => exact .base (.quiet (.read _))

theorem Public.undertaken {d : Deployment σ} {action : Action σ α} (h : Public d action) :
    Built (Undertaking d) action := by
  cases h with
  | call call => exact call.undertaken d
  | clock call => exact .base (.quiet call.quiet)
  | signature call => exact .base (.quiet call.quiet)
  | storage apart =>
    exact .base (.besides ((StorageCall.footprint apart).widen (by simp [besidesBooks])))
  | publish topics data => exact .base (.besides (.base (.publish _ _)))
  | read view => exact .base (.quiet (.read _))
  | attach f => exact .base (.quiet (.change fun _ => ⟨rfl, rfl, rfl, rfl, rfl⟩))
  | raise fault => exact .base (.quiet (.raise _))

end SealedPayroll
