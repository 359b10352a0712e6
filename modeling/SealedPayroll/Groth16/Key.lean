import SealedPayroll.Fault.Basic

/-!
# Proofs and verification keys

Points are opaque byte strings: 64 bytes in the first group, 128 in the
second. A key holds one more point of the first group than it has public
inputs.
-/

namespace SealedPayroll

structure Proof where
  a : Bytes
  b : Bytes
  c : Bytes
  deriving DecidableEq, Repr

def Proof.make (a b c : Option Bytes) : Check Proof :=
  Proof.mk
    <$> .required "a" (.bytesSize 64) a
    <*> .required "b" (.bytesSize 128) b
    <*> .required "c" (.bytesSize 64) c

structure VerificationKey where
  alpha : Bytes
  beta : Bytes
  gamma : Bytes
  delta : Bytes
  ic : List Bytes
  deriving DecidableEq, Repr

def VerificationKey.make (alpha beta gamma delta : Option Bytes) (ic : Option (List Bytes)) :
    Check VerificationKey :=
  VerificationKey.mk
    <$> .required "alpha" (.bytesSize 64) alpha
    <*> .required "beta" (.bytesSize 128) beta
    <*> .required "gamma" (.bytesSize 128) gamma
    <*> .required "delta" (.bytesSize 128) delta
    <*> .items "ic" (.bytesSize 64) ic

/-- The number of public inputs that a proof for this key has. -/
def VerificationKey.inputCount (key : VerificationKey) : Nat := key.ic.length - 1

end SealedPayroll
