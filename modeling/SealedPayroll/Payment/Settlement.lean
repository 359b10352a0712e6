import SealedPayroll.Commitment.Nullifiers
import SealedPayroll.Deployment
import SealedPayroll.Event.Payment
import SealedPayroll.Groth16.Verifier
import SealedPayroll.Payment.Digest
import SealedPayroll.Registry.Basic

/-!
# Settlement

A batch pays employees of one company for one period, all of them or none.
What can be seen from the batch alone is checked first, then the company and
its administrator. Each entry is settled in turn: the binding and the stored
commitment have to agree and the proof to be accepted; the nullifier is used
up, the payment recorded, and only then are tokens moved. Nothing that the
token ledger does on that occasion can therefore use the same nullifier or
pay the same employee for the same period.
-/

namespace SealedPayroll.Payroll

variable {σ : Type}

-- ---------------------------------------------------------------------------
-- Batches
-- ---------------------------------------------------------------------------

structure Entry where
  employee : Principal
  amount : Int
  proof : Proof
  nullifier : Bytes
  deriving DecidableEq, Repr

/-- A batch as it is handed in, with its columns side by side. -/
structure Batch where
  company : Int
  employees : List Principal
  amounts : List Int
  proofs : List Proof
  nullifiers : List Bytes
  period : Int
  deriving DecidableEq, Repr

namespace Batch

def ofEntries (company : Int) (entries : List Entry) (period : Int) : Batch where
  company := company
  employees := entries.map (·.employee)
  amounts := entries.map (·.amount)
  proofs := entries.map (·.proof)
  nullifiers := entries.map (·.nullifier)
  period := period

/-- The rows of four columns, as far as all of them go. -/
def rows : List Principal → List Int → List Proof → List Bytes → List Entry
  | employee :: employees, amount :: amounts, proof :: proofs, nullifier :: nullifiers =>
    ⟨employee, amount, proof, nullifier⟩ :: rows employees amounts proofs nullifiers
  | _, _, _, _ => []

def entries (batch : Batch) : List Entry :=
  rows batch.employees batch.amounts batch.proofs batch.nullifiers

def lengths (batch : Batch) : List (String × Int) :=
  [("employees", batch.employees.length), ("amounts", batch.amounts.length),
    ("proofs", batch.proofs.length), ("nullifiers", batch.nullifiers.length)]

def isAligned (batch : Batch) : Bool :=
  batch.amounts.length = batch.employees.length && batch.proofs.length = batch.employees.length &&
    batch.nullifiers.length = batch.employees.length

/-- What is wrong with a batch taken by itself. -/
def defect? (config : ExecutorConfig) (batch : Batch) : Option PayrollError :=
  if !batch.isAligned then some (.lengthMismatch batch.lengths)
  else if config.maxBatchSize < batch.employees.length then
    some (.batchTooLarge batch.employees.length config.maxBatchSize)
  else
    match batch.amounts.find? (· ≤ 0) with
    | some amount => some (.invalidAmount amount)
    | none => if batch.period < 0 then some (.invalidPeriod (.negative batch.period)) else none

end Batch

-- ---------------------------------------------------------------------------
-- Settling
-- ---------------------------------------------------------------------------

/-- The company of a batch that may be settled. -/
def screen (d : Deployment σ) (batch : Batch) : Action σ Company := do
  if let some error := batch.defect? d.config.executor then .refuse error
  else
    if (← .read (·.ledger.verificationKey)).isNone then
      .refuse (.notInitialized Verifier.componentName)
    else Registry.administered batch.company

def isPaid (ledger : Ledger) (employee : Principal) (period : Int) : Bool :=
  ledger.payments.contains (employee, period)

/-- Checks the binding, the stored commitment and the proof of an entry. -/
def approve (d : Deployment σ) (company : Company) (index : Nat) (entry : Entry) :
    Action σ Unit := do
  let binding ← Registry.employee company.id entry.employee
  let stored ← CommitmentStore.get entry.employee
  if binding.commitment ≠ stored.commitment then .refuse (.commitmentMismatch entry.employee)
  else
    let recipient ← .ofExcept (recipientHash entry.employee)
    if ← Verifier.verifyPayment d.backend entry.proof stored.commitment entry.nullifier recipient
    then return ()
    else .refuse (.invalidProof entry.employee (some index))

/-- Records the payment of an entry, unless the employee has been paid for the period. -/
def book (company : Company) (period : Int) (entry : Entry) : Action σ PaymentRecord := do
  if ← .read fun host => isPaid host.ledger entry.employee period then
    .refuse (.alreadyPaid entry.employee period)
  else
    let record ← .build .payment
      (PaymentRecord.make company.id entry.employee entry.amount entry.nullifier (← Host.now)
        period)
    .write fun ledger => ledger.putPayment entry.employee period record
    .write fun ledger =>
      ledger.putTotal company.id (ledger.totalPaid company.id + entry.amount)
    let _ ← Registry.recordPayment company.id entry.employee record.timestamp
    return record

/-- Uses the nullifier of an entry up and enters the payment into the books. -/
def enter (company : Company) (period : Int) (entry : Entry) : Action σ PaymentRecord := do
  let _ ← Nullifiers.use entry.nullifier
  book company period entry

def settle (d : Deployment σ) (company : Company) (period : Int) (index : Nat) (entry : Entry) :
    Action σ PaymentRecord := do
  approve d company index entry
  let record ← enter company period entry
  -- all is on the books by now, whatever the transfer runs besides
  d.tokens.transfer company.treasury entry.employee entry.amount
  if d.config.executor.emitEvents then
    let _ ← Host.publish (PaymentEvent.topics company.id)
      (PaymentEvent.payload entry.employee entry.amount period)
    return record
  else return record

/-- Settles the entries from position `index` on. -/
def settleFrom (d : Deployment σ) (company : Company) (period : Int) :
    (index : Nat) → List Entry → Action σ (List PaymentRecord)
  | _, [] => return []
  | index, entry :: rest => do
    let record ← settle d company period index entry
    let records ← settleFrom d company period (index + 1) rest
    return record :: records

def payBatch (d : Deployment σ) (batch : Batch) : Action σ (List PaymentRecord) :=
  Host.transaction do
    let company ← screen d batch
    settleFrom d company batch.period 0 batch.entries

def pay (d : Deployment σ) (company : Int) (entry : Entry) (period : Int) :
    Action σ PaymentRecord :=
  Host.transaction do
    let company ← screen d (.ofEntries company [entry] period)
    settle d company period 0 entry

-- ---------------------------------------------------------------------------
-- Looking up
-- ---------------------------------------------------------------------------

def payment (employee : Principal) (period : Int) : Action σ PaymentRecord :=
  .expect (·.ledger.payments.get? (employee, period)) (.paymentNotFound employee period)

/-- The order of payments: by time, then by period, then by employee. -/
def settledBefore (a b : PaymentRecord) : Bool :=
  a.timestamp < b.timestamp || (a.timestamp == b.timestamp &&
    (a.period < b.period || (a.period == b.period && a.employee ≤ b.employee)))

/-- The payments of a company within a window, in order. -/
def payments (ledger : Ledger) (company : Int) (since til : Option Int) : List PaymentRecord :=
  (ledger.payments.values.filter fun record =>
    record.company = company && EventFilter.inWindow since til record.timestamp).mergeSort
      settledBefore

end SealedPayroll.Payroll
