import SealedPayroll.Audit.ViewKey
import SealedPayroll.Commitment.Record
import SealedPayroll.ForeignTable
import SealedPayroll.Groth16.Key
import SealedPayroll.Payment.Record
import SealedPayroll.Registry.Record

/-!
# The ledger

Everything that the payroll stores, table by table, in two tiers: durable
tables, and tables of entries that expire. The last table of each tier holds
what callers outside the payroll store, under a namespace of theirs. A ledger
is a value, so keeping one is taking a snapshot.

The durable tier keeps the entries of all its tables in one order, in which
their keys came in: a payment and a total share the namespace `executor`, and
going through that namespace shows which of the two came first. `arrivals` is
that order, and a durable write names the key under which it writes. In the
expiring tier each namespace has one kind of key, which its table puts in
order.
-/

namespace SealedPayroll

-- ---------------------------------------------------------------------------
-- Keys
-- ---------------------------------------------------------------------------

/-- The keys of the durable tier. -/
inductive StoreKey where
  | companyCount
  | company (id : Int)
  | binding (employee : Principal)
  | commitment (employee : Principal)
  | nullifier (value : Bytes)
  | verificationKey
  | balance (holder : Principal)
  | payment (employee : Principal) (period : Int)
  | total (company : Int)
  | keyCounter (company : Int) (auditor : Principal)
  /-- A key of a caller outside the payroll, in key form. -/
  | foreign (space : String) (key : Datum)
  deriving DecidableEq

/-- The namespace of a key. -/
def StoreKey.space : StoreKey → String
  | .companyCount | .company _ | .binding _ => "registry"
  | .commitment _ => "commitment"
  | .nullifier _ => "nullifier"
  | .verificationKey => "verifier"
  | .balance _ => "token"
  | .payment _ _ | .total _ => "executor"
  | .keyCounter _ _ => "audit"
  | .foreign space _ => space

/-- The namespaces of the payroll itself; the last one is that of view keys, which expire. -/
def payrollSpaces : List String :=
  ["registry", "commitment", "nullifier", "verifier", "token", "executor", "audit", "audit_key"]

-- ---------------------------------------------------------------------------
-- Ledgers
-- ---------------------------------------------------------------------------

structure Expiring (ν : Type) where
  value : ν
  expiresAt : Int
  basis : ExpiryBasis
  deriving DecidableEq

def Expiring.isLive {ν : Type} (entry : Expiring ν) (timestamp sequence : Int) : Bool :=
  entry.basis.isLive entry.expiresAt timestamp sequence

structure Ledger where
  companyCount : Nat
  companies : Table Int Company
  bindings : Table Principal Binding
  commitments : Table Principal CommitmentRecord
  nullifiers : Table Bytes NullifierRecord
  verificationKey : Option VerificationKey
  balances : Table Principal Int
  payments : Table (Principal × Int) PaymentRecord
  totals : Table Int Int
  keyCounters : Table (Int × Principal) Nat
  foreign : ForeignTable Datum
  /-- The keys of the durable tier, in the order in which they came in. -/
  arrivals : Table StoreKey Unit
  viewKeys : Table String (Expiring ViewKey)
  foreignExpiring : ForeignTable (Expiring Datum)

namespace Ledger

def empty : Ledger where
  companyCount := 0
  companies := .empty
  bindings := .empty
  commitments := .empty
  nullifiers := .empty
  verificationKey := none
  balances := .empty
  payments := .empty
  totals := .empty
  keyCounters := .empty
  foreign := .empty
  arrivals := .empty
  viewKeys := .empty
  foreignExpiring := .empty

/-- The ledger without the entries that have expired at a clock reading. -/
def evict (ledger : Ledger) (timestamp sequence : Int) : Ledger :=
  { ledger with
    viewKeys := ledger.viewKeys.filter fun _ entry => entry.isLive timestamp sequence
    foreignExpiring := ledger.foreignExpiring.filter fun entry =>
      entry.isLive timestamp sequence }

def expiredCount (ledger : Ledger) (timestamp sequence : Int) : Nat :=
  (ledger.viewKeys.values.filter fun entry => !entry.isLive timestamp sequence).length +
    (ledger.foreignExpiring.values.filter fun entry => !entry.isLive timestamp sequence).length

-- ---------------------------------------------------------------------------
-- Durable writes
-- ---------------------------------------------------------------------------

section
variable (ledger : Ledger)

/-- The order of keys once a key has been written: a new one comes last. -/
def arrived (key : StoreKey) : Table StoreKey Unit := ledger.arrivals.insert key ()

/-- The order of keys once a key has been removed. -/
def departed (key : StoreKey) : Table StoreKey Unit := ledger.arrivals.erase key

def setCompanyCount (count : Nat) : Ledger :=
  { ledger with companyCount := count, arrivals := ledger.arrived .companyCount }

def putCompany (id : Int) (company : Company) : Ledger :=
  { ledger with
    companies := ledger.companies.insert id company, arrivals := ledger.arrived (.company id) }

def putBinding (employee : Principal) (binding : Binding) : Ledger :=
  { ledger with
    bindings := ledger.bindings.insert employee binding
    arrivals := ledger.arrived (.binding employee) }

def dropBinding (employee : Principal) : Ledger :=
  { ledger with
    bindings := ledger.bindings.erase employee, arrivals := ledger.departed (.binding employee) }

def putCommitment (employee : Principal) (record : CommitmentRecord) : Ledger :=
  { ledger with
    commitments := ledger.commitments.insert employee record
    arrivals := ledger.arrived (.commitment employee) }

def dropCommitment (employee : Principal) : Ledger :=
  { ledger with
    commitments := ledger.commitments.erase employee
    arrivals := ledger.departed (.commitment employee) }

def putNullifier (value : Bytes) (record : NullifierRecord) : Ledger :=
  { ledger with
    nullifiers := ledger.nullifiers.insert value record
    arrivals := ledger.arrived (.nullifier value) }

def setVerificationKey (key : VerificationKey) : Ledger :=
  { ledger with verificationKey := some key, arrivals := ledger.arrived .verificationKey }

def putBalance (holder : Principal) (balance : Int) : Ledger :=
  { ledger with
    balances := ledger.balances.insert holder balance
    arrivals := ledger.arrived (.balance holder) }

def putPayment (employee : Principal) (period : Int) (record : PaymentRecord) : Ledger :=
  { ledger with
    payments := ledger.payments.insert (employee, period) record
    arrivals := ledger.arrived (.payment employee period) }

def putTotal (company : Int) (total : Int) : Ledger :=
  { ledger with
    totals := ledger.totals.insert company total, arrivals := ledger.arrived (.total company) }

def putKeyCounter (company : Int) (auditor : Principal) (count : Nat) : Ledger :=
  { ledger with
    keyCounters := ledger.keyCounters.insert (company, auditor) count
    arrivals := ledger.arrived (.keyCounter company auditor) }

def putForeign (space : String) (key value : Datum) : Ledger :=
  { ledger with
    foreign := ledger.foreign.put space key value
    arrivals := ledger.arrived (.foreign space key.keyForm) }

def dropForeign (space : String) (key : Datum) : Ledger :=
  { ledger with
    foreign := ledger.foreign.erase space key
    arrivals := ledger.departed (.foreign space key.keyForm) }

end

-- ---------------------------------------------------------------------------
-- Reading
-- ---------------------------------------------------------------------------

def balance (ledger : Ledger) (holder : Principal) : Int :=
  (ledger.balances.get? holder).getD 0

def totalPaid (ledger : Ledger) (company : Int) : Int :=
  (ledger.totals.get? company).getD 0

def keyCounter (ledger : Ledger) (company : Int) (auditor : Principal) : Nat :=
  (ledger.keyCounters.get? (company, auditor)).getD 0

end Ledger

end SealedPayroll
