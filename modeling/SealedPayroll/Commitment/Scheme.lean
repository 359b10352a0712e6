import SealedPayroll.Fault.Basic
import SealedPayroll.Hash.Sha256

/-!
# Commitment schemes

A scheme says which amounts it can encode and what an amount and a blinding
factor commit to. `sha256` hashes the amount, as sixteen bytes with the
lowest first, followed by the 32 bytes of the blinding factor; its amounts
leave the sign bit free. `plain` is the amount itself and hides nothing.
-/

namespace SealedPayroll

structure CommitmentScheme where
  name : String
  canEncode : Int → Bool
  commit : Int → Bytes → Except Fault Bytes

namespace CommitmentScheme

def largestAmount : Int := (1 <<< 127 : Nat) - 1

def fits (amount : Int) : Bool := 0 ≤ amount && amount ≤ largestAmount

def preimage (amount : Int) (blinding : Bytes) : Except Fault Bytes :=
  if !fits amount then
    .error (.payroll (.invalidCommitmentInput (.amountOutOfRange largestAmount amount)))
  else if blinding.length ≠ 32 then
    .error (.payroll (.invalidCommitmentInput (.blindingSize blinding.length)))
  else .ok (Bytes.littleEndian 16 amount.toNat ++ blinding)

def sha256 : CommitmentScheme where
  name := "sha256"
  canEncode := fits
  commit amount blinding := (preimage amount blinding).map Sha256.digest

def plain : CommitmentScheme where
  name := "plain"
  canEncode amount := 0 ≤ amount
  commit amount _ := Bytes.encodeBigEndian 32 amount

/-- Whether a commitment opens to an amount under a blinding factor. -/
def opens (scheme : CommitmentScheme) (commitment : Bytes) (amount : Int) (blinding : Bytes) :
    Except Fault Bool :=
  if scheme.canEncode amount then (scheme.commit amount blinding).map (· == commitment)
  else .ok false

end CommitmentScheme

end SealedPayroll
