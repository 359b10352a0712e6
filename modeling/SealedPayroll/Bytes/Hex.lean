import SealedPayroll.Bytes.Radix

/-!
# Hexadecimal text

Two lower-case digits per byte, high digit first. `toHex` writes a byte
string and `ofHex?` reads one back; it refuses an odd number of digits and
any character that `toHex` does not write.
-/

namespace SealedPayroll.Bytes

def hexDigits (b : UInt8) : List Char :=
  [Nat.digitChar (b.toNat / 16), Nat.digitChar (b.toNat % 16)]

def toHex (bytes : Bytes) : String :=
  String.ofList (bytes.flatMap hexDigits)

/-- The value of a lower-case hexadecimal digit. -/
def hexValue? (c : Char) : Option Nat :=
  if '0' ≤ c ∧ c ≤ '9' then some (c.toNat - '0'.toNat)
  else if 'a' ≤ c ∧ c ≤ 'f' then some (c.toNat - 'a'.toNat + 10)
  else none

def ofHexChars? : List Char → Option Bytes
  | [] => some []
  | [_] => none
  | high :: low :: rest => do
    let h ← hexValue? high
    let l ← hexValue? low
    let bytes ← ofHexChars? rest
    return UInt8.ofNat (16 * h + l) :: bytes

def ofHex? (text : String) : Option Bytes :=
  ofHexChars? text.toList

end SealedPayroll.Bytes
