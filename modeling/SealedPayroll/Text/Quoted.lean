import SealedPayroll.Text.Unprintable

/-!
# Quoted text

A quoted text stands between single quotes, or between double quotes when it
holds a single quote and no double one. Backslashes, the surrounding quote,
line feeds, carriage returns and tabs are escaped by a backslash; any other
code point that has no shape of its own is written by its hexadecimal number
behind `\x`, `\u` or `\U`, whichever is the shortest that holds it.
-/

namespace SealedPayroll.Text

def isPrintable (c : Char) : Bool :=
  let n := c.toNat
  if n < 0x100 then
    (0x20 ≤ n && n < 0x7f) || (0xa0 < n && n != 0xad)
  else
    !unprintableRanges.any fun (first, last) => first ≤ n && n ≤ last

/-- `n` in hexadecimal, filled with zeros up to `width` digits. -/
def hexNumber (width n : Nat) : List Char :=
  let digits := Nat.toDigits 16 n
  List.replicate (width - digits.length) '0' ++ digits

def quoteChar (quote c : Char) : List Char :=
  if c = quote ∨ c = '\\' then ['\\', c]
  else if c = '\n' then ['\\', 'n']
  else if c = '\r' then ['\\', 'r']
  else if c = '\t' then ['\\', 't']
  else if isPrintable c then [c]
  else if c.toNat < 0x100 then '\\' :: 'x' :: hexNumber 2 c.toNat
  else if c.toNat < 0x10000 then '\\' :: 'u' :: hexNumber 4 c.toNat
  else '\\' :: 'U' :: hexNumber 8 c.toNat

def quoteFor (chars : List Char) : Char :=
  if chars.contains '\'' && !chars.contains '"' then '"' else '\''

def quoted (text : String) : String :=
  let chars := text.toList
  let quote := quoteFor chars
  String.ofList (quote :: chars.flatMap (quoteChar quote) ++ [quote])

end SealedPayroll.Text
