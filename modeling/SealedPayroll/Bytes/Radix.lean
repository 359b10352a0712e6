/-!
# Byte strings and the integers they write

A byte string is a list of bytes. Fixed-width integers are written with the
lowest byte first (`littleEndian`) or last (`bigEndian`) and read back by
`ofLittleEndian` and `ofBigEndian`. Reading undoes writing for every number
that fits the width; a wider number is cut to its lowest bytes, and callers
that must refuse it compare it with the `capacity` of the width first.
-/

namespace SealedPayroll

abbrev Bytes := List UInt8

namespace Bytes

/-- The lowest `width` bytes of `n`, lowest first. -/
def littleEndian : (width : Nat) → (n : Nat) → Bytes
  | 0, _ => []
  | width + 1, n => UInt8.ofNat n :: littleEndian width (n / 256)

def ofLittleEndian : (bytes : Bytes) → Nat
  | [] => 0
  | b :: rest => b.toNat + 256 * ofLittleEndian rest

def bigEndian (width n : Nat) : Bytes :=
  (littleEndian width n).reverse

def ofBigEndian (bytes : Bytes) : Nat :=
  ofLittleEndian bytes.reverse

/-- How many numbers can be written with `width` bytes. -/
def capacity (width : Nat) : Nat := Nat.pow 256 width

/-- The UTF-8 form of a text. -/
def ofText (text : String) : Bytes :=
  text.toByteArray.data.toList

-- ---------------------------------------------------------------------------
-- Widths and round trips
-- ---------------------------------------------------------------------------

@[simp] theorem length_littleEndian (width n : Nat) : (littleEndian width n).length = width := by
  induction width generalizing n with
  | zero => rfl
  | succ width ih => simp [littleEndian, ih]

@[simp] theorem length_bigEndian (width n : Nat) : (bigEndian width n).length = width := by
  simp [bigEndian]

theorem capacity_succ (width : Nat) : capacity (width + 1) = capacity width * 256 := rfl

theorem ofLittleEndian_lt (bytes : Bytes) : ofLittleEndian bytes < capacity bytes.length := by
  induction bytes with
  | nil => exact Nat.one_pos
  | cons b rest ih =>
    have hb := b.toNat_lt
    simp only [ofLittleEndian, List.length_cons, capacity_succ]
    omega

theorem ofLittleEndian_littleEndian {width n : Nat} (h : n < capacity width) :
    ofLittleEndian (littleEndian width n) = n := by
  induction width generalizing n with
  | zero => exact (Nat.lt_one_iff.mp h).symm
  | succ width ih =>
    have hd : n / 256 < capacity width := by
      rw [capacity_succ] at h
      exact Nat.div_lt_of_lt_mul (by omega)
    have hb : (UInt8.ofNat n).toNat = n % 256 := by simp
    simp only [littleEndian, ofLittleEndian, ih hd, hb]
    omega

theorem littleEndian_ofLittleEndian (bytes : Bytes) :
    littleEndian bytes.length (ofLittleEndian bytes) = bytes := by
  induction bytes with
  | nil => rfl
  | cons b rest ih =>
    have hb := b.toNat_lt
    have hh : UInt8.ofNat (b.toNat + 256 * ofLittleEndian rest) = b := by
      apply UInt8.toNat_inj.mp
      simp
    have ht : (b.toNat + 256 * ofLittleEndian rest) / 256 = ofLittleEndian rest := by omega
    simp only [List.length_cons, ofLittleEndian, littleEndian, hh, ht, ih]

theorem ofBigEndian_bigEndian {width n : Nat} (h : n < capacity width) :
    ofBigEndian (bigEndian width n) = n := by
  simp [ofBigEndian, bigEndian, ofLittleEndian_littleEndian h]

theorem ofText_injective {s t : String} (h : ofText s = ofText t) : s = t :=
  String.toByteArray_inj.mp (ByteArray.ext (Array.ext' h))

end Bytes

end SealedPayroll
