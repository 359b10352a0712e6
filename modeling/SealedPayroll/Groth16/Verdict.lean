import SealedPayroll.Groth16.Backend
import SealedPayroll.Scalar

/-!
# The Groth16 equation

The public inputs of a proof are folded into one point of the first group,
and the backend is asked whether the product of four pairings is one. Along
with the answer goes a transcript of what the backend was asked. A pairing
fault at any place is a rejection; every other fault is passed on.
-/

namespace SealedPayroll

/-- The scalars and the products that a backend was asked about, in order. -/
structure Transcript where
  scalars : List Nat
  products : List (List (Bytes × Bytes))
  deriving DecidableEq, Repr

namespace Transcript

def empty : Transcript := ⟨[], []⟩

def append (first second : Transcript) : Transcript :=
  ⟨first.scalars ++ second.scalars, first.products ++ second.products⟩

end Transcript

namespace Groth16

def inputScalar (input : Bytes) : Except Fault Nat :=
  if input.length = 32 then .ok (Scalar.ofBigEndian input)
  else .error (.pairing (.inputSize input.length))

def addMultiple (backend : PairingBackend) (sum point : Bytes) (scalar : Nat) :
    Except Fault Bytes := do
  backend.add sum (← backend.mul point scalar)

/-- Adds the multiples of the points by their inputs to `sum`; the scalars used come first. -/
def foldInputs (backend : PairingBackend) (sum : Bytes) :
    List (Bytes × Bytes) → List Nat × Except Fault Bytes
  | [] => ([], .ok sum)
  | (point, input) :: rest =>
    match inputScalar input with
    | .error fault => ([], .error fault)
    | .ok scalar =>
      -- the scalar counts as asked for even when the backend then fails
      match addMultiple backend sum point scalar with
      | .error fault => ([scalar], .error fault)
      | .ok next =>
        let (scalars, result) := foldInputs backend next rest
        (scalar :: scalars, result)

/-- The four pairs whose product decides a proof. -/
def pairs (key : VerificationKey) (proof : Proof) (negated inputs : Bytes) :
    List (Bytes × Bytes) :=
  [(negated, proof.b), (key.alpha, key.beta), (inputs, key.gamma), (proof.c, key.delta)]

/-- What the backend says about the equation, and what it was asked on the way. -/
def equation (backend : PairingBackend) (key : VerificationKey) (proof : Proof)
    (inputs : List Bytes) : Transcript × Except Fault Bool :=
  let (scalars, folded) := foldInputs backend (key.ic.headD []) (key.ic.tail.zip inputs)
  let asked := do
    let sum ← folded
    let negated ← backend.negate proof.a
    return pairs key proof negated sum
  match asked with
  | .error fault => (⟨scalars, []⟩, .error fault)
  | .ok product => (⟨scalars, [product]⟩, backend.pairingCheck product)

/-- A pairing fault is a rejection. -/
def rejectPairingFault : Except Fault Bool → Except Fault Bool
  | .error (.pairing _) => .ok false
  | answer => answer

/-- Whether a proof with these public inputs is accepted, and what the backend was asked. -/
def verdict (backend : PairingBackend) (key : VerificationKey) (proof : Proof)
    (inputs : List Bytes) : Transcript × Except Fault Bool :=
  if inputs.length = key.inputCount then
    let (asked, answer) := equation backend key proof inputs
    (asked, rejectPairingFault answer)
  else (.empty, .ok false)

end Groth16

end SealedPayroll
