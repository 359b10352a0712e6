import SealedPayroll.Fault.Basic
import SealedPayroll.Hash.Sha256

/-!
# Recipients and one-time values

The recipient of a payment enters its proof as a digest of the employee's
name, and an employee can derive the one-time value of a payment from a
blinding factor and the period. Each kind of digest has its own domain, and
the parts of variable length stand between parts of fixed length.
-/

namespace SealedPayroll

def recipientDomain : Bytes := Bytes.ofText "zk-payroll/recipient/v1"

def nullifierDomain : Bytes := Bytes.ofText "zk-payroll/payment-nullifier/v1"

def recipientPreimage (employee : Principal) : Except Fault Bytes :=
  if employee = "" then .error (.payroll (.invalidCommitmentInput .emptyEmployee))
  else .ok (recipientDomain ++ 0 :: Bytes.ofText employee)

/-- The digest under which a recipient enters a proof. -/
def recipientHash (employee : Principal) : Except Fault Bytes :=
  (recipientPreimage employee).map Sha256.digest

def nullifierPreimage (blinding : Bytes) (employee : Principal) (period : Int) :
    Except Fault Bytes := do
  if blinding.length ≠ 32 then throw (.payroll (.invalidCommitmentInput .nullifierBlinding))
  if period < 0 then throw (.payroll (.invalidCommitmentInput (.negativePeriod period)))
  let periodBytes ← Bytes.encodeBigEndian 8 period
  return nullifierDomain ++ 0 :: blinding ++ Bytes.ofText employee ++ 0 :: periodBytes

/-- The one-time value of a payment. -/
def paymentNullifier (blinding : Bytes) (employee : Principal) (period : Int) :
    Except Fault Bytes :=
  (nullifierPreimage blinding employee period).map Sha256.digest

end SealedPayroll
