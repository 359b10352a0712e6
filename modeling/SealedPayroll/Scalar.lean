import SealedPayroll.Bytes.Radix

/-!
# The scalar field and blinding factors

Scalars are integers modulo the order of the BN254 scalar field. A blinding
factor is drawn by reading 64 random bytes as a number and reducing it; a
draw that reduces to zero is thrown away and the next one is taken.
`blindingFactor?` is given its draws one by one, `sample?` cuts them off a
source of bytes.
-/

namespace SealedPayroll

/-- The order of the BN254 scalar field. -/
def scalarField : Nat :=
  21888242871839275222246405745257275088548364400416034343698204186575808495617

namespace Scalar

/-- The scalar of an integer, as 32 bytes, lowest first. -/
def encode (value : Int) : Bytes :=
  Bytes.littleEndian 32 (value.emod scalarField).toNat

/-- The scalar of a byte string read from its high end. -/
def ofBigEndian (bytes : Bytes) : Nat :=
  Bytes.ofBigEndian bytes % scalarField

def drawSize : Nat := 64

/-- The first nonzero blinding factor among the draws, with the number of draws read. -/
def blindingFactor? : (draws : List Bytes) → Option (Bytes × Nat)
  | [] => none
  | draw :: rest =>
    let encoded := encode (Bytes.ofLittleEndian draw)
    if encoded.any (· != 0) then some (encoded, 1)
    else (blindingFactor? rest).map fun (factor, reads) => (factor, reads + 1)

/-- The first nonzero blinding factor in a source of random bytes that is read one draw at a time,
with what is left of the source. -/
def sample? (source : Bytes) : Option (Bytes × Bytes) :=
  if source.length < drawSize then none
  else
    let encoded := encode (Bytes.ofLittleEndian (source.take drawSize))
    if encoded.any (· != 0) then some (encoded, source.drop drawSize)
    else sample? (source.drop drawSize)
termination_by source.length
decreasing_by
  have : 0 < drawSize := by decide
  rw [List.length_drop]
  omega

@[simp] theorem length_encode (value : Int) : (encode value).length = 32 := by
  simp [encode]

end Scalar

end SealedPayroll
