/-!
# Integers written by hand

A lenient reading of decimal integers. A text is first brought into plain
form and then read strictly: a plain integer is an optional minus sign and
digits, with no zero in front of another digit, and at most 4300 characters
long. A text that begins with a longer one is told apart from those that
cannot be read; one that only becomes too long in plain form is not.

Bringing a text into plain form takes away blanks around it, one sign, the
zeros that lead the number together with any underscores between and behind
them, a fraction that holds zeros only and at least one, and single
underscores between digits. Leading zeros are taken away before what they
lead is looked at, so a minus sign may follow them; it makes the number
negative unless there was a minus sign before, which leaves two. Digits are
the ten ASCII ones.
-/

namespace SealedPayroll.Text

def isBlank (c : Char) : Bool :=
  let n := c.toNat
  (0x09 ≤ n && n ≤ 0x0d) || n = 0x20 || n = 0x85 || n = 0xa0 || n = 0x1680 ||
    (0x2000 ≤ n && n ≤ 0x200a) || n = 0x2028 || n = 0x2029 || n = 0x202f || n = 0x205f ||
    n = 0x3000

def trimBlanks (chars : List Char) : List Char :=
  ((chars.dropWhile isBlank).reverse.dropWhile isBlank).reverse

-- ---------------------------------------------------------------------------
-- Plain form
-- ---------------------------------------------------------------------------

/-- What leading zeros leave behind, where `last` is the zero or underscore before. When a
fraction or nothing follows, `last` stays in front; only a zero makes sense there. -/
def afterZeros (last : Char) : List Char → Option (List Char)
  | [] => some [last]
  | c :: rest =>
    if c = '0' ∨ c = '_' then afterZeros c rest
    else if c = '.' then some (last :: c :: rest)
    else if c.isDigit ∨ c = '-' then some (c :: rest)
    else none

/-- A number without the zeros that lead it; it has to begin with a digit. -/
def dropLeadingZeros : List Char → Option (List Char)
  | [] => none
  | c :: rest =>
    if c = '0' then afterZeros c rest
    else if c.isDigit then some (c :: rest)
    else none

/-- Whether what follows an integer part leaves its value alone: nothing does, or a point and
zeros. -/
def isZeroFraction : List Char → Bool
  | [] => true
  | _ :: zeros => !zeros.isEmpty && zeros.all (· == '0')

/-- A number without its fraction, which has to be zero. -/
def dropZeroFraction (chars : List Char) : Option (List Char) :=
  if isZeroFraction (chars.dropWhile (· != '.')) then some (chars.takeWhile (· != '.')) else none

/-- Whether no underscore stands at an end or next to another one. -/
def isGrouped : (afterUnderscore : Bool) → List Char → Bool
  | afterUnderscore, [] => !afterUnderscore
  | afterUnderscore, c :: rest =>
    if c = '_' then !afterUnderscore && isGrouped true rest else isGrouped false rest

def dropSeparators (chars : List Char) : Option (List Char) :=
  if isGrouped true chars then some (chars.filter (· != '_')) else none

/-- The plain form of a number without its outer sign. -/
def plainForm (chars : List Char) : Option (List Char) :=
  (dropLeadingZeros chars).bind dropZeroFraction |>.bind dropSeparators

-- ---------------------------------------------------------------------------
-- Reading
-- ---------------------------------------------------------------------------

def readDigits (value : Nat) : List Char → Option Nat
  | [] => some value
  | c :: rest =>
    if c.isDigit then readDigits (10 * value + (c.toNat - '0'.toNat)) rest else none

def longestNumeral : Nat := 4300

def readPlainNat : List Char → Option Nat
  | [] => none
  | ['0'] => some 0
  | '0' :: _ => none
  | chars => readDigits 0 chars

def readPlain (chars : List Char) : Option Int :=
  if longestNumeral < chars.length then none
  else
    match chars with
    | '-' :: digits => (readPlainNat digits).map fun n => -(n : Int)
    | digits => (readPlainNat digits).map Int.ofNat

/-- A text without blanks in plain form, with its sign. -/
def normalize : List Char → Option (List Char)
  | '-' :: rest => (plainForm rest).map ('-' :: ·)
  | '+' :: rest => plainForm rest
  | chars => plainForm chars

/-- The integer in plain form that a text begins with, as far as it goes; a single zero is left
out. -/
def plainBeginning : List Char → List Char
  | '-' :: rest => '-' :: plainBeginning.digits rest
  | chars => plainBeginning.digits chars
where
  digits (chars : List Char) : List Char :=
    if chars.head? = some '0' then [] else chars.takeWhile Char.isDigit

inductive NumeralFault where
  | unreadable
  /-- The text begins with an integer in plain form that is too long already, whatever follows. -/
  | tooLong
  deriving DecidableEq, Repr

def readInteger (text : String) : Except NumeralFault Int :=
  if longestNumeral < (plainBeginning text.toList).length then .error .tooLong
  else
    match (normalize (trimBlanks text.toList)).bind readPlain with
    | some n => .ok n
    | none => .error .unreadable

end SealedPayroll.Text
