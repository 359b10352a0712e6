import SealedPayroll.Groth16.Key
import SealedPayroll.Hash.Sha256

/-!
# Pairing backends

A backend adds, multiplies and negates points of the first group and decides
whether a product of pairings is one; each operation may fail. Besides the
structural backend, which checks sizes and stands for points by digests, there
are backends that answer in a fixed way or fail on purpose, for exercising
whatever calls them.
-/

namespace SealedPayroll

structure PairingBackend where
  add : Bytes → Bytes → Except Fault Bytes
  mul : Bytes → Int → Except Fault Bytes
  negate : Bytes → Except Fault Bytes
  pairingCheck : List (Bytes × Bytes) → Except Fault Bool

namespace PairingBackend

-- ---------------------------------------------------------------------------
-- The structural backend
-- ---------------------------------------------------------------------------

/-- Two digests of a tag and some parts, told apart by a last byte. -/
def expand (tag : String) (parts : List Bytes) : Bytes :=
  let body := Bytes.ofText "zk-payroll/structural/" ++ Bytes.ofText tag ++ parts.flatten
  Sha256.digest (body ++ [0]) ++ Sha256.digest (body ++ [1])

def checkG1 (point : Bytes) : Except Fault Unit :=
  if point.length = 64 then .ok () else .error (.pairing (.g1Size point.length))

def checkG2 (point : Bytes) : Except Fault Unit :=
  if point.length = 128 then .ok () else .error (.pairing (.g2Size point.length))

def checkPairs : List (Bytes × Bytes) → Except Fault Unit
  | [] => .ok ()
  | (p, q) :: rest => do
    checkG1 p
    checkG2 q
    checkPairs rest

/-- The pairing check of the structural backend: at least one pair, all of the right sizes. -/
def checkProduct (pairs : List (Bytes × Bytes)) : Except Fault Unit :=
  if pairs.isEmpty then .error (.pairing .noPairs) else checkPairs pairs

/-- Accepts whatever has the right shape. -/
def structural : PairingBackend where
  add p q := do
    checkG1 p
    checkG1 q
    return expand "g1_add" [p, q]
  mul p scalar := do
    checkG1 p
    if scalar < 0 then throw (.pairing (.negativeScalar scalar))
    return expand "g1_mul" [p, ← Bytes.encodeBigEndian 32 scalar]
  negate p := do
    checkG1 p
    return expand "g1_negate" [p]
  pairingCheck pairs := do
    checkProduct pairs
    return true

-- ---------------------------------------------------------------------------
-- Backends that answer in a fixed way or fail
-- ---------------------------------------------------------------------------

/-- Refuses every product of the right shape. -/
def rejecting : PairingBackend :=
  { structural with
    pairingCheck := fun pairs => do
      checkProduct pairs
      return false }

/-- Finds every product off the curve. -/
def exploding : PairingBackend :=
  { structural with pairingCheck := fun _ => .error (.pairing .offCurve) }

/-- Breaks down at every product. -/
def failing : PairingBackend :=
  { structural with pairingCheck := fun _ => .error (.argument .backend) }

/-- Cuts multiples to half a point. -/
def short : PairingBackend :=
  { structural with mul := fun p scalar => (structural.mul p scalar).map (·.take 32) }

/-- Accepts iff the first point of the fourth pair begins with an even byte. -/
def picky : PairingBackend :=
  { structural with
    pairingCheck := fun pairs =>
      .ok (((pairs[3]?.bind fun (p, _) => p.head?).map fun b => b % 2 == 0).getD false) }

end PairingBackend

end SealedPayroll
