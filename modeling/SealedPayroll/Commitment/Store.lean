import SealedPayroll.Commitment.Scheme
import SealedPayroll.Host.Transaction

/-!
# The commitment store

One record per employee. Storing starts a record at version one, whatever was
there before; updating needs a record and counts its version up. A batch of
updates is one transaction, applied in order, so an update sees those before
it.
-/

namespace SealedPayroll.CommitmentStore

variable {σ : Type}

def get (employee : Principal) : Action σ CommitmentRecord :=
  .expect (·.ledger.commitments.get? employee) (.commitmentNotFound employee)

def put (record : CommitmentRecord) : Action σ Unit :=
  .write fun ledger => ledger.putCommitment record.employee record

/-- Stores the first version of a commitment. -/
def store (employee : Principal) (commitment : Bytes) (company : Option Int) :
    Action σ CommitmentRecord :=
  Host.transaction do
    let now ← Host.now
    let record ← .build .commitmentRecord
      (CommitmentRecord.make employee company commitment (some 1) now now)
    put record
    return record

def revise (employee : Principal) (commitment : Bytes) : Action σ CommitmentRecord := do
  let record ← get employee
  let now ← Host.now
  let revised ← .build .commitmentRecord
    (CommitmentRecord.make record.employee record.company commitment (some (record.version + 1))
      record.createdAt now)
  .write fun ledger => ledger.putCommitment employee revised
  return revised

def update (employee : Principal) (commitment : Bytes) : Action σ CommitmentRecord :=
  Host.transaction (revise employee commitment)

def reviseAll : List (Principal × Bytes) → Action σ (List CommitmentRecord)
  | [] => return []
  | (employee, commitment) :: rest => do
    let record ← revise employee commitment
    let records ← reviseAll rest
    return record :: records

/-- Revises a list of records, all of them or none. -/
def updateAll (updates : List (Principal × Bytes)) : Action σ (List CommitmentRecord) :=
  Host.transaction (reviseAll updates)

/-- Removes the record of an employee, and says whether there was one. -/
def remove (employee : Principal) : Action σ Bool :=
  Host.transaction do
    if ← .read fun host => host.ledger.commitments.contains employee then
      .write fun ledger => ledger.dropCommitment employee
      return true
    else return false

def verify (scheme : CommitmentScheme) (employee : Principal) (amount : Int) (blinding : Bytes) :
    Action σ Bool := do
  let record ← get employee
  .ofExcept (scheme.opens record.commitment amount blinding)

end SealedPayroll.CommitmentStore
