import SealedPayroll.Host.Transaction

/-!
# Used nullifiers

A nullifier is recorded once, with the time of its use, and never again.
-/

namespace SealedPayroll.Nullifiers

variable {σ : Type}

def isUsed (ledger : Ledger) (value : Bytes) : Bool := ledger.nullifiers.contains value

def use (value : Bytes) : Action σ NullifierRecord :=
  Host.transaction do
    if ← .read fun host => isUsed host.ledger value then
      .refuse (.nullifierAlreadyUsed value)
    else
      let record ← .build .nullifier (NullifierRecord.make value (← Host.now))
      .write fun ledger => ledger.putNullifier value record
      return record

end SealedPayroll.Nullifiers
