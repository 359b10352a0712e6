import SealedPayroll.Proofs.Operation.Footprint
import SealedPayroll.Session.Call
import SealedPayroll.Session.HostCall

/-!
# Operations

The steps from which every public call is made, whatever the token ledger
does. An operation runs without interruption: only a settlement is made of
several, since the token ledger may run anything between them.
-/

namespace SealedPayroll

open SealedPayroll.Action (Quiet Footprint Built)

variable {σ : Type}

inductive Operation : ⦃α : Type⦄ → Action σ α → Prop
  | quiet {α : Type} {action : Action σ α} : Quiet action → Operation action
  | publish (topics data : List Datum) : Operation (Host.publish topics data)
  | evict : Operation Host.evictExpired
  | foreign {space : String} (apart : space ∉ payrollSpaces) (key value : Datum) :
      Operation (Action.write fun l => l.putForeign space key value)
  | unforeign {space : String} (apart : space ∉ payrollSpaces) (key : Datum) :
      Operation (Action.write fun l => l.dropForeign space key)
  | foreignExpiring (f : ForeignTable (Expiring Datum) → ForeignTable (Expiring Datum)) :
      Operation (Action.write fun l => { l with foreignExpiring := f l.foreignExpiring })
  | register (admin treasury : Principal) : Operation (Registry.register admin treasury)
  | enrol (company : Int) (employee : Principal) (commitment : Bytes) :
      Operation (Registry.enrol company employee commitment)
  | release (company : Int) (employee : Principal) : Operation (Registry.release company employee)
  | updateCommitment (company : Int) (employee : Principal) (commitment : Bytes) :
      Operation (Registry.updateCommitment company employee commitment)
  | recordPayment (company : Int) (employee : Principal) (timestamp : Int) :
      Operation (Registry.recordPayment company employee timestamp)
  | store (employee : Principal) (commitment : Bytes) (company : Option Int) :
      Operation (CommitmentStore.store employee commitment company)
  | update (employee : Principal) (commitment : Bytes) :
      Operation (CommitmentStore.update employee commitment)
  | updateAll (updates : List (Principal × Bytes)) : Operation (CommitmentStore.updateAll updates)
  | remove (employee : Principal) : Operation (CommitmentStore.remove employee)
  | setKey (key : VerificationKey) : Operation (Verifier.setKey key)
  | mint (minter : Option Principal) (recipient : Principal) (amount : Int) :
      Operation (Tokens.mint minter recipient amount)
  | transfer (sender recipient : Principal) (amount : Int) :
      Operation (Tokens.transfer sender recipient amount)
  | issue (d : Deployment σ) (request : ViewKeys.Request) : Operation (ViewKeys.issue d request)
  | revoke (admin : Principal) (id : String) : Operation (ViewKeys.revoke admin id)
  | use (value : Bytes) : Operation (Nullifiers.use value)
  | enter (company : Company) (period : Int) (entry : Payroll.Entry) :
      Operation (Payroll.enter company period entry)

/-- The parts of the ledger that only settlements and uses of nullifiers write to. -/
def books : List Ledger.Part := [.nullifiers, .payments]

/-- The parts of the ledger that settlements and uses of nullifiers, and issuing and revoking view
keys, are not the only ones to write to. -/
def remainder : List Ledger.Part :=
  [.companyCount, .companies, .bindings, .commitments, .verificationKey, .balances, .totals,
    .foreign, .foreignExpiring]

/-- The parts of the ledger besides the books. -/
def besidesBooks : List Ledger.Part :=
  [.companyCount, .companies, .bindings, .commitments, .verificationKey, .balances, .totals,
    .keyCounters, .foreign, .viewKeys, .foreignExpiring]

/-- The parts of the ledger besides the keyring. -/
def besidesKeyring : List Ledger.Part := books ++ remainder

/-- An operation leaves the books and the keyring alone, or changes one of them in one of two
ways. -/
theorem Operation.cases_parts {motive : ⦃α : Type⦄ → Action σ α → Prop}
    (other : ∀ ⦃α : Type⦄ (a : Action σ α), Footprint remainder a → motive a)
    (use : ∀ value, motive (Nullifiers.use value))
    (enter : ∀ company period entry, motive (Payroll.enter company period entry))
    (issue : ∀ (d : Deployment σ) request, motive (ViewKeys.issue d request))
    (revoke : ∀ admin id, motive (ViewKeys.revoke admin id))
    {α : Type} {action : Action σ α} (h : Operation action) : motive action := by
  cases h with
  | quiet hq => exact other _ (.quiet hq)
  | publish topics data => exact other _ (.base (.publish _ _))
  | evict => exact other _ (.base .evict)
  | foreign apart => exact other _ (.write (.foreign apart _ _) (by simp [remainder]))
  | unforeign apart => exact other _ (.write (.unforeign apart _) (by simp [remainder]))
  | foreignExpiring f => exact other _ (.write (.foreignExpiring f) (by simp [remainder]))
  | register => exact other _ ((Registry.register_footprint _ _).widen (by simp [remainder]))
  | enrol => exact other _ ((Registry.enrol_footprint _ _ _).widen (by simp [remainder]))
  | release => exact other _ ((Registry.release_footprint _ _).widen (by simp [remainder]))
  | updateCommitment =>
    exact other _ ((Registry.updateCommitment_footprint _ _ _).widen (by simp [remainder]))
  | recordPayment =>
    exact other _ ((Registry.recordPayment_footprint _ _ _).widen (by simp [remainder]))
  | store => exact other _ ((CommitmentStore.store_footprint _ _ _).widen (by simp [remainder]))
  | update => exact other _ ((CommitmentStore.update_footprint _ _).widen (by simp [remainder]))
  | updateAll => exact other _ ((CommitmentStore.updateAll_footprint _).widen (by simp [remainder]))
  | remove => exact other _ ((CommitmentStore.remove_footprint _).widen (by simp [remainder]))
  | setKey => exact other _ ((Verifier.setKey_footprint _).widen (by simp [remainder]))
  | mint => exact other _ ((Tokens.mint_footprint _ _ _).widen (by simp [remainder]))
  | transfer => exact other _ ((Tokens.transfer_footprint _ _ _).widen (by simp [remainder]))
  | issue d request => exact issue d request
  | revoke admin id => exact revoke admin id
  | use value => exact use value
  | enter company period entry => exact enter company period entry

/-- An operation leaves the books alone, or uses up a nullifier, or enters a payment. -/
theorem Operation.cases_books {motive : ⦃α : Type⦄ → Action σ α → Prop}
    (other : ∀ ⦃α : Type⦄ (a : Action σ α), Footprint besidesBooks a → motive a)
    (use : ∀ value, motive (Nullifiers.use value))
    (enter : ∀ company period entry, motive (Payroll.enter company period entry))
    {α : Type} {action : Action σ α} (h : Operation action) : motive action := by
  refine h.cases_parts (fun _ _ ha => other _ (ha.widen ?_)) use enter (fun _ _ => other _ ?_)
    fun _ _ => other _ ?_
  · simp [remainder, besidesBooks]
  · exact (ViewKeys.issue_footprint _ _).widen (by simp [besidesBooks])
  · exact (ViewKeys.revoke_footprint _ _).widen (by simp [besidesBooks])

/-- An operation leaves the keyring alone, or issues a key, or revokes one. -/
theorem Operation.cases_keyring {motive : ⦃α : Type⦄ → Action σ α → Prop}
    (other : ∀ ⦃α : Type⦄ (a : Action σ α), Footprint besidesKeyring a → motive a)
    (issue : ∀ (d : Deployment σ) request, motive (ViewKeys.issue d request))
    (revoke : ∀ admin id, motive (ViewKeys.revoke admin id))
    {α : Type} {action : Action σ α} (h : Operation action) : motive action := by
  refine h.cases_parts (fun _ _ ha => other _ (ha.widen ?_)) (fun _ => other _ ?_)
    (fun _ _ _ => other _ ?_) issue revoke
  · exact List.subset_append_right _ _
  · exact (Nullifiers.use_footprint _).widen (by simp [besidesKeyring, books])
  · exact (Payroll.enter_footprint _ _ _).widen (by simp [besidesKeyring, books, remainder])

/-- Operations change the ledger by the writes listed in `Ledger.Write`. -/
theorem Operation.footprint {α : Type} {action : Action σ α} (h : Operation action) :
    Footprint (books ++ besidesBooks) action := by
  refine cases_books (motive := fun _ a => Footprint (books ++ besidesBooks) a) ?_ ?_ ?_ h
  · intro _ _ h
    exact h.widen (by simp [books, besidesBooks])
  · intro _
    exact (Nullifiers.use_footprint _).widen (by simp [books, besidesBooks])
  · intro _ _ _
    exact (Payroll.enter_footprint _ _ _).widen (by simp [books, besidesBooks])

-- ---------------------------------------------------------------------------
-- Public calls
-- ---------------------------------------------------------------------------

/-- A deployment whose token ledger is made of operations. -/
def Deployment.Operational (d : Deployment σ) : Prop :=
  ∀ sender recipient amount, Built Operation (d.tokens.transfer sender recipient amount)

theorem Deployment.operational_of_plain {d : Deployment σ} (ht : d.tokens = .plain) :
    d.Operational := by
  intro sender recipient amount
  rw [ht]
  exact .base (.transfer _ _ _)

theorem RegistryCall.built (call : RegistryCall) :
    Built Operation (call.run : Action σ Answer) := by
  cases call with
  | register => exact .map (.base (.register _ _)) _
  | enrol => exact .map (.base (.enrol _ _ _)) _
  | release => exact .map (.base (.release _ _)) _
  | updateCommitment => exact .map (.base (.updateCommitment _ _ _)) _
  | recordPayment => exact .map (.base (.recordPayment _ _ _)) _
  | getCompany => exact .map (.base (.quiet (.expect _ _))) _
  | getEmployee => exact .map (.base (.quiet (.expect _ _))) _
  | _ => exact .base (.quiet (.read _))

theorem CommitmentCall.built (d : Deployment σ) (call : CommitmentCall) :
    Built Operation (call.run d) := by
  cases call with
  | store => exact .map (.base (.store _ _ _)) _
  | update => exact .map (.base (.update _ _)) _
  | updateAll => exact .map (.base (.updateAll _)) _
  | remove => exact .map (.base (.remove _)) _
  | get => exact .map (.base (.quiet (.expect _ _))) _
  | has => exact .base (.quiet (.read _))
  | compute => exact .map (.base (.quiet (.ofExcept _))) _
  | verify =>
    exact .map (.base (.quiet (.bind (.expect _ _) fun _ => .ofExcept _))) _
  | opens => exact .map (.base (.quiet (.ofExcept _))) _
  | scheme => exact .pure _

theorem NullifierCall.built (call : NullifierCall) :
    Built Operation (call.run : Action σ Answer) := by
  cases call with
  | use => exact .map (.base (.use _)) _
  | _ => exact .base (.quiet (.read _))

theorem VerifierCall.built (d : Deployment σ) (call : VerifierCall) :
    Built Operation (call.run d) := by
  cases call with
  | setKey => exact .map (.base (.setKey _)) _
  | hasKey => exact .base (.quiet (.read _))
  | verify => exact .map (.base (.quiet (Verifier.verify_quiet _ _ _))) _
  | verifyPayment => exact .map (.base (.quiet (Verifier.verify_quiet _ _ _))) _
  | verifyRange => exact .map (.base (.quiet (Verifier.verifyRange_quiet _ _ _ _ _))) _
  | verifyBatch => exact .map (.base (.quiet (Verifier.verifyBatch_quiet _ _ _ _ _))) _

theorem TokenCall.built {d : Deployment σ} (hd : d.Operational) (call : TokenCall) :
    Built Operation (call.run d) := by
  cases call with
  | mint => exact .map (.base (.mint _ _ _)) _
  | balance => exact .map (.base (.quiet (.read _))) _
  | transfer => exact .map (hd _ _ _) _

namespace Payroll

variable {P : ⦃α : Type⦄ → Action σ α → Prop} {d : Deployment σ}

/-- A deployment in which the steps of a settlement are in `P`, or made of actions in `P`. -/
structure Settles (P : ⦃α : Type⦄ → Action σ α → Prop) (d : Deployment σ) : Prop where
  quiet : ∀ {α : Type} {action : Action σ α}, Quiet action → P action
  publish : ∀ topics data, P (Host.publish topics data)
  enter : ∀ company period entry, P (Payroll.enter company period entry)
  transfer : ∀ sender recipient amount, Built P (d.tokens.transfer sender recipient amount)

namespace Settles

theorem settle (h : Settles P d) (company : Company) (period : Int) (index : Nat) (entry : Entry) :
    Built P (Payroll.settle d company period index entry) := by
  refine .bind (.base (h.quiet (approve_quiet _ _ _ _))) fun _ =>
    .bind (.base (h.enter _ _ _)) fun record => .bind (h.transfer _ _ _) fun _ => ?_
  split
  · exact .bind (.base (h.publish _ _)) fun _ => .pure _
  · exact .pure _

theorem settleFrom (h : Settles P d) (company : Company) (period : Int) (index : Nat)
    (entries : List Entry) : Built P (Payroll.settleFrom d company period index entries) := by
  induction entries generalizing index with
  | nil => exact .pure _
  | cons entry rest ih => exact .bind (h.settle _ _ _ _) fun _ => .bind (ih _) fun _ => .pure _

theorem payBatch (h : Settles P d) (batch : Batch) : Built P (Payroll.payBatch d batch) :=
  .transaction <| .bind (.base (h.quiet (screen_quiet _ _))) fun _ => h.settleFrom _ _ _ _

theorem pay (h : Settles P d) (company : Int) (entry : Entry) (period : Int) :
    Built P (Payroll.pay d company entry period) :=
  .transaction <| .bind (.base (h.quiet (screen_quiet _ _))) fun _ => h.settle _ _ _ _

end Settles

theorem settles_operations (hd : d.Operational) : Settles Operation d where
  quiet := .quiet
  publish := .publish
  enter := .enter
  transfer := hd

theorem settle_built (hd : d.Operational) (company : Company) (period : Int) (index : Nat)
    (entry : Entry) : Built Operation (settle d company period index entry) :=
  (settles_operations hd).settle _ _ _ _

theorem settleFrom_built (hd : d.Operational) (company : Company) (period : Int) (index : Nat)
    (entries : List Entry) : Built Operation (settleFrom d company period index entries) :=
  (settles_operations hd).settleFrom _ _ _ _

/-- What a batch may write to inside its transaction. -/
theorem settlement_footprint (hd : d.Operational) (batch : Batch) :
    Footprint (books ++ besidesBooks)
      (screen d batch >>= fun company => settleFrom d company batch.period 0 batch.entries) :=
  .bind (.quiet (screen_quiet _ _)) fun _ =>
    (settleFrom_built hd _ _ _ _).trans fun _ _ ho => ho.footprint

theorem payBatch_built (hd : d.Operational) (batch : Batch) :
    Built Operation (payBatch d batch) :=
  (settles_operations hd).payBatch _

theorem pay_built (hd : d.Operational) (company : Int) (entry : Entry) (period : Int) :
    Built Operation (pay d company entry period) :=
  (settles_operations hd).pay _ _ _

end Payroll

theorem PaymentCall.built {d : Deployment σ} (hd : d.Operational) (call : PaymentCall) :
    Built Operation (call.run d) := by
  cases call with
  | pay => exact .map (Payroll.pay_built hd _ _ _) _
  | payBatch => exact .map (Payroll.payBatch_built hd _) _
  | get => exact .map (.base (.quiet (.expect _ _))) _
  | announcements =>
    exact .bind (.base (.quiet (.read _))) fun _ => .map (.base (.quiet (.ofExcept _))) _
  | _ => exact .base (.quiet (.read _))

theorem AuditCall.built (d : Deployment σ) (call : AuditCall) : Built Operation (call.run d) := by
  cases call with
  | issue => exact .map (.base (.issue _ _)) _
  | revoke => exact .map (.base (.revoke _ _)) _
  | get => exact .map (.base (.quiet (.expect _ _))) _
  | verifyCommitment =>
    exact .map (.base (.quiet (Disclosure.verifyCommitment_quiet _ _ _ _ _ _ _))) _
  | verifyEmployee => exact .map (.base (.quiet (Disclosure.verifyEmployee_quiet _ _ _ _ _ _))) _
  | report => exact .map (.base (.quiet (Disclosure.report_quiet _ _ _ _ _))) _
  | _ => exact .base (.quiet (.read _))

/-- Every public call is made of operations. -/
theorem Call.built {d : Deployment σ} (hd : d.Operational) (call : Call) :
    Built Operation (call.run d) := by
  cases call with
  | registry call => exact call.built
  | commitments call => exact call.built d
  | nullifiers call => exact call.built
  | verifier call => exact call.built d
  | tokens call => exact call.built hd
  | payments call => exact call.built hd
  | audit call => exact call.built d

-- ---------------------------------------------------------------------------
-- Calls to the host
-- ---------------------------------------------------------------------------

theorem ClockCall.quiet (call : ClockCall) : Quiet (call.run : Action σ Answer) := by
  have move (next : Clock → Except Fault Clock) :
      Quiet (ClockCall.move next : Action σ Answer) := by
    constructor
    · intro host
      simp only [Action.after, Action.run, ClockCall.move]
      split <;> exact ⟨rfl, rfl, rfl, rfl, rfl⟩
    · intro host failure h
      simp only [Action.run, ClockCall.move] at h
      split at h <;> cases h
      rfl
  cases call with
  | advance seconds ledgers => exact move (·.advance seconds ledgers)
  | setTimestamp timestamp => exact move (·.setTimestamp timestamp)
  | setSequence sequence => exact move (·.setSequence sequence)
  | read => exact .read _

theorem SignatureCall.quiet (call : SignatureCall) : Quiet (call.run : Action σ Answer) := by
  have change (f : Authority → Authority) : Quiet (SignatureCall.change f : Action σ Answer) :=
    ⟨fun _ => ⟨rfl, rfl, rfl, rfl, rfl⟩, fun _ _ h => (nomatch h)⟩
  cases call with
  | authorize principals => exact change (·.authorize principals)
  | deauthorize principals => exact change (·.deauthorize principals)
  | setEveryone enabled => exact change fun authority => { authority with everyone := enabled }
  | require => exact .bind (.requireAuth _) fun _ => .pure _
  | checked => exact .read _
  | forget => exact change fun authority => { authority with checked := [] }

theorem StorageCall.built {call : StorageCall} (apart : call.IsForeign) :
    Built Operation (call.run : Action σ Answer) := by
  cases call with
  | set space key value => exact .map (.base (.foreign (apart space rfl) key value)) _
  | setExpiring space key entry =>
    exact .map (.base (.foreignExpiring fun t => t.put space key entry)) _
  | evict => exact .map (.base .evict) _
  | remove space =>
    refine .bind (.base (.quiet (.read _))) fun present => ?_
    split
    · exact .bind (.base (.unforeign (apart space rfl) _)) fun _ => .pure _
    · exact .pure _
  | removeExpiring =>
    refine .bind (.base (.quiet (.read _))) fun present => ?_
    split
    · exact .bind (.base (.foreignExpiring fun t => t.erase _ _)) fun _ => .pure _
    · exact .pure _
  | _ => exact .base (.quiet (.read _))

end SealedPayroll
