import SealedPayroll.Audit.Disclosure
import SealedPayroll.Session.Answer

/-!
# Public calls

Every call that the parts of a deployment offer, as data, grouped by the part
that takes it, and what it does. `Call.run` only chooses the action; what the
action does is said where the part is defined.
-/

namespace SealedPayroll

-- ---------------------------------------------------------------------------
-- The calls
-- ---------------------------------------------------------------------------

inductive RegistryCall where
  | register (admin treasury : Principal)
  | enrol (company : Int) (employee : Principal) (commitment : Bytes)
  | release (company : Int) (employee : Principal)
  | updateCommitment (company : Int) (employee : Principal) (commitment : Bytes)
  | recordPayment (company : Int) (employee : Principal) (timestamp : Int)
  | getCompany (id : Int)
  | hasCompany (id : Int)
  | getEmployee (company : Int) (employee : Principal)
  | find (employee : Principal)
  | isEmployee (company : Int) (employee : Principal)
  | employees (company : Int)
  | count

inductive CommitmentCall where
  | store (employee : Principal) (commitment : Bytes) (company : Option Int)
  | update (employee : Principal) (commitment : Bytes)
  | updateAll (updates : List (Principal × Bytes))
  | remove (employee : Principal)
  | get (employee : Principal)
  | has (employee : Principal)
  | compute (amount : Int) (blinding : Bytes)
  | verify (employee : Principal) (amount : Int) (blinding : Bytes)
  | opens (commitment : Bytes) (amount : Int) (blinding : Bytes)
  | scheme

inductive NullifierCall where
  | use (value : Bytes)
  | isUsed (value : Bytes)
  | get (value : Bytes)

inductive VerifierCall where
  | setKey (key : VerificationKey)
  | hasKey
  | verify (proof : Proof) (inputs : List Bytes)
  | verifyPayment (proof : Proof) (commitment nullifier recipient : Bytes)
  | verifyRange (proof : Proof) (commitment : Bytes) (least greatest : Int)
  | verifyBatch (proofs : List Proof) (commitments nullifiers recipients : List Bytes)

inductive TokenCall where
  | mint (recipient : Principal) (amount : Int)
  | balance (holder : Principal)
  | transfer (sender recipient : Principal) (amount : Int)

inductive PaymentCall where
  | pay (company : Int) (entry : Payroll.Entry) (period : Int)
  | payBatch (batch : Payroll.Batch)
  | get (employee : Principal) (period : Int)
  | isPaid (employee : Principal) (period : Int)
  | total (company : Int)
  | list (company : Int) (since til : Option Int)
  | announcements (filter : Option EventFilter)

inductive AuditCall where
  | issue (request : ViewKeys.Request)
  | grantsAccess (key : String) (auditor : Principal)
  | revoke (admin : Principal) (key : String)
  | get (key : String)
  | list (company : Int) (activeOnly : Bool)
  | verifyCommitment (key : String) (auditor : Principal) (commitment : Bytes) (amount : Int)
      (blinding : Bytes) (restriction : Option Scope)
  | verifyEmployee (key : String) (auditor employee : Principal) (amount : Int) (blinding : Bytes)
  | report (key : String) (auditor : Principal) (start stop : Int)

inductive Call where
  | registry (call : RegistryCall)
  | commitments (call : CommitmentCall)
  | nullifiers (call : NullifierCall)
  | verifier (call : VerifierCall)
  | tokens (call : TokenCall)
  | payments (call : PaymentCall)
  | audit (call : AuditCall)

-- ---------------------------------------------------------------------------
-- What they do
-- ---------------------------------------------------------------------------

variable {σ : Type}

def RegistryCall.run : RegistryCall → Action σ Answer
  | register admin treasury => .int <$> Registry.register admin treasury
  | enrol company employee commitment => .binding <$> Registry.enrol company employee commitment
  | release company employee => (fun _ => .nothing) <$> Registry.release company employee
  | updateCommitment company employee commitment =>
    .commitment <$> Registry.updateCommitment company employee commitment
  | recordPayment company employee timestamp =>
    .binding <$> Registry.recordPayment company employee timestamp
  | getCompany id => .company <$> Registry.company id
  | hasCompany id => .read fun host => .bool (host.ledger.companies.contains id)
  | getEmployee company employee => .binding <$> Registry.employee company employee
  | find employee =>
    .read fun host => Answer.optional .binding (host.ledger.bindings.get? employee)
  | isEmployee company employee =>
    .read fun host => .bool (Registry.isEmployee host.ledger company employee)
  | employees company => .read fun host => .bindings (Registry.employees host.ledger company)
  | count => .read fun host => .int host.ledger.companyCount

def CommitmentCall.run (d : Deployment σ) : CommitmentCall → Action σ Answer
  | store employee commitment company =>
    .commitment <$> CommitmentStore.store employee commitment company
  | update employee commitment => .commitment <$> CommitmentStore.update employee commitment
  | updateAll updates => .commitments <$> CommitmentStore.updateAll updates
  | remove employee => .bool <$> CommitmentStore.remove employee
  | get employee => .commitment <$> CommitmentStore.get employee
  | has employee => .read fun host => .bool (host.ledger.commitments.contains employee)
  | compute amount blinding => .bytes <$> Action.ofExcept (d.scheme.commit amount blinding)
  | verify employee amount blinding =>
    .bool <$> CommitmentStore.verify d.scheme employee amount blinding
  | opens commitment amount blinding =>
    .bool <$> Action.ofExcept (d.scheme.opens commitment amount blinding)
  | scheme => pure (.text d.scheme.name)

def NullifierCall.run : NullifierCall → Action σ Answer
  | use value => .nullifier <$> Nullifiers.use value
  | isUsed value => .read fun host => .bool (Nullifiers.isUsed host.ledger value)
  | get value => .read fun host => Answer.optional .nullifier (host.ledger.nullifiers.get? value)

def VerifierCall.run (d : Deployment σ) : VerifierCall → Action σ Answer
  | setKey key => (fun _ => .nothing) <$> Verifier.setKey key
  | hasKey => .read fun host => .bool host.ledger.verificationKey.isSome
  | verify proof inputs => .bool <$> Verifier.verify d.backend proof inputs
  | verifyPayment proof commitment nullifier recipient =>
    .bool <$> Verifier.verifyPayment d.backend proof commitment nullifier recipient
  | verifyRange proof commitment least greatest =>
    .bool <$> Verifier.verifyRange d.backend proof commitment least greatest
  | verifyBatch proofs commitments nullifiers recipients =>
    .bool <$> Verifier.verifyBatch d.backend proofs commitments nullifiers recipients

def TokenCall.run (d : Deployment σ) : TokenCall → Action σ Answer
  | mint recipient amount => (fun _ => .nothing) <$> Tokens.mint d.minter recipient amount
  | balance holder => .int <$> Tokens.balance holder
  | transfer sender recipient amount =>
    (fun _ => .nothing) <$> d.tokens.transfer sender recipient amount

def PaymentCall.run (d : Deployment σ) : PaymentCall → Action σ Answer
  | pay company entry period => .payment <$> Payroll.pay d company entry period
  | payBatch batch => .payments <$> Payroll.payBatch d batch
  | get employee period => .payment <$> Payroll.payment employee period
  | isPaid employee period => .read fun host => .bool (Payroll.isPaid host.ledger employee period)
  | total company => .read fun host => .int (host.ledger.totalPaid company)
  | list company since til =>
    .read fun host => .payments (Payroll.payments host.ledger company since til)
  | announcements filter => do
    let events ← .read (·.events)
    .announcements <$> Action.ofExcept (paymentEvents filter events)

def AuditCall.run (d : Deployment σ) : AuditCall → Action σ Answer
  | issue request => .viewKey <$> ViewKeys.issue d request
  | grantsAccess key auditor =>
    .read fun host => .bool (ViewKeys.grantsAccess host key auditor)
  | revoke admin key => (fun _ => .nothing) <$> ViewKeys.revoke admin key
  | get key => .viewKey <$> ViewKeys.get key
  | list company activeOnly =>
    .read fun host => .viewKeys (ViewKeys.list host.ledger host.clock company activeOnly)
  | verifyCommitment key auditor commitment amount blinding restriction =>
    .bool <$> Disclosure.verifyCommitment d key auditor commitment amount blinding restriction
  | verifyEmployee key auditor employee amount blinding =>
    .bool <$> Disclosure.verifyEmployee d key auditor employee amount blinding
  | report key auditor start stop => .report <$> Disclosure.report d key auditor start stop

def Call.run (d : Deployment σ) : Call → Action σ Answer
  | registry call => call.run
  | commitments call => call.run d
  | nullifiers call => call.run
  | verifier call => call.run d
  | tokens call => call.run d
  | payments call => call.run d
  | audit call => call.run d

end SealedPayroll
