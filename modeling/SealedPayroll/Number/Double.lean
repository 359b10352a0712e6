/-!
# Double precision

A quotient of natural numbers is rounded to the nearest number with a
significand of at most 53 bits and an exponent from -1074 on, a tie to the
even significand. A quotient that rounds to `2 ^ 1024` or more has no double.
All of it is exact arithmetic on natural numbers; signs, infinities and what
is not a number are left to callers.
-/

namespace SealedPayroll

/-- The nonnegative finite number `significand * 2 ^ exponent`. -/
structure Double where
  significand : Nat
  exponent : Int
  deriving DecidableEq, Repr

namespace Double

/-- A quotient rounded to the nearest integer, a tie to the even one. -/
def roundQuotient (num den : Nat) : Nat :=
  let quotient := num / den
  let twice := 2 * (num % den)
  if twice < den then quotient
  else if den < twice then quotient + 1
  else quotient + quotient % 2

/-- Numerator and denominator of a quotient, counted in units of `2 ^ exponent`. -/
def inUnits (num den : Nat) (exponent : Int) : Nat × Nat :=
  (num <<< (-exponent).toNat, den <<< exponent.toNat)

/-- The exponent of the highest bit of a quotient. -/
def highestBit (num den : Nat) : Int :=
  -- the quotient lies strictly between the powers next to this one
  let guess : Int := (num.log2 : Int) - den.log2
  let (n, d) := inUnits num den guess
  if n < d then guess - 1 else guess

/-- The double nearest to a quotient, if it is not too large. -/
def nearest? (num den : Nat) : Option Double :=
  let exponent := max (highestBit num den - 52) (-1074)
  let (n, d) := inUnits num den exponent
  let significand := roundQuotient n d
  if 1 <<< 1024 ≤ significand <<< exponent.toNat then none else some ⟨significand, exponent⟩

def truncate (x : Double) : Nat :=
  x.significand <<< x.exponent.toNat >>> (-x.exponent).toNat

/-- A rounded quotient is at most half a unit away from the exact one. -/
theorem roundQuotient_near {num den : Nat} (h : 0 < den) :
    2 * num ≤ (2 * roundQuotient num den + 1) * den ∧
      2 * roundQuotient num den * den ≤ 2 * num + den := by
  have hd := Nat.div_add_mod' num den
  have hm := Nat.mod_lt num h
  have he : num / den % 2 = 0 ∨ num / den % 2 = 1 := by omega
  unfold roundQuotient
  simp only
  generalize num / den = q at *
  generalize num % den = r at *
  subst hd
  split
  · constructor <;> grind
  · split
    · constructor <;> grind
    · rcases he with he | he <;> rw [he] <;> constructor <;> grind

theorem roundQuotient_mul (n : Nat) {den : Nat} (h : 0 < den) : roundQuotient (n * den) den = n := by
  simp [roundQuotient, Nat.mul_div_cancel n h, h]

end Double

end SealedPayroll
