import SealedPayroll.Fault.Basic

/-!
# Settled payments

One record per employee and period. `proofHash` is the nullifier under which
the payment was settled.
-/

namespace SealedPayroll

structure PaymentRecord where
  company : Int
  employee : Principal
  amount : Int
  proofHash : Bytes
  timestamp : Int
  period : Int
  deriving DecidableEq, Repr

def PaymentRecord.make (company : Option Int) (employee : Option Principal) (amount : Option Int)
    (proofHash : Option Bytes) (timestamp period : Option Int) : Check PaymentRecord :=
  PaymentRecord.mk
    <$> .required "company_id" .any company
    <*> .required "employee" .nonempty employee
    <*> .required "amount" (.above 0) amount
    <*> .required "proof_hash" (.bytesSize 32) proofHash
    <*> .required "timestamp" .any timestamp
    <*> .required "period" (.atLeast 0) period

end SealedPayroll
