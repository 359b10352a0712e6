import SealedPayroll.Fault.Basic

/-!
# What can be encoded

A number fits a width iff it is not negative and below the capacity, and then
its bytes tell which number it was. Hexadecimal text tells its bytes in the
same way, since no two bytes are written alike.
-/

namespace SealedPayroll.Bytes

variable {width m n : Nat} {bytes : Bytes}

-- ---------------------------------------------------------------------------
-- Numbers of a fixed width
-- ---------------------------------------------------------------------------

theorem littleEndian_inj (hm : m < capacity width) (hn : n < capacity width) :
    littleEndian width m = littleEndian width n ↔ m = n := by
  refine ⟨fun h => ?_, congrArg _⟩
  rw [← ofLittleEndian_littleEndian hm, h, ofLittleEndian_littleEndian hn]

theorem ofLittleEndian_eq_zero : ofLittleEndian bytes = 0 ↔ ∀ b ∈ bytes, b = 0 := by
  induction bytes with
  | nil => simp [ofLittleEndian]
  | cons b rest ih =>
    have head : b.toNat = 0 ↔ b = 0 := UInt8.toNat_inj (b := 0)
    rw [ofLittleEndian, List.forall_mem_cons, ← ih, ← head]
    omega

theorem bigEndian_inj (hm : m < capacity width) (hn : n < capacity width) :
    bigEndian width m = bigEndian width n ↔ m = n := by
  rw [bigEndian, bigEndian, List.reverse_inj, littleEndian_inj hm hn]

/-- A number that is not negative is encoded iff it is below the capacity. -/
theorem encodeBigEndian_natCast (width n : Nat) :
    encodeBigEndian width n =
      if n < capacity width then .ok (bigEndian width n) else .error (.width .tooBig) := rfl

theorem encodeBigEndian_eq_ok {n : Int} :
    encodeBigEndian width n = .ok bytes ↔
      ∃ m : Nat, n = m ∧ m < capacity width ∧ bigEndian width m = bytes := by
  cases n with
  | ofNat n =>
    rw [Int.ofNat_eq_natCast, encodeBigEndian_natCast]
    constructor
    · intro h
      split at h
      · rename_i fits
        exact ⟨n, rfl, fits, Except.ok.inj h⟩
      · cases h
    · rintro ⟨m, same, fits, rfl⟩
      obtain rfl := Int.ofNat.inj same
      exact if_pos fits
  | negSucc n =>
    constructor
    · intro h
      cases h
    · rintro ⟨m, same, -⟩
      cases same

theorem length_encodeBigEndian {n : Int} (h : encodeBigEndian width n = .ok bytes) :
    bytes.length = width := by
  obtain ⟨m, -, -, rfl⟩ := encodeBigEndian_eq_ok.mp h
  exact length_bigEndian width m

/-- The bytes of an encoded number tell which number it is. -/
theorem encodeBigEndian_inj {m n : Int} (hm : encodeBigEndian width m = .ok bytes)
    (hn : encodeBigEndian width n = .ok bytes) : m = n := by
  obtain ⟨m, rfl, first, same⟩ := encodeBigEndian_eq_ok.mp hm
  obtain ⟨n, rfl, second, rfl⟩ := encodeBigEndian_eq_ok.mp hn
  exact congrArg _ ((bigEndian_inj first second).mp same)

-- ---------------------------------------------------------------------------
-- Hexadecimal text
-- ---------------------------------------------------------------------------

theorem digitChar_inj : ∀ m < 16, ∀ n < 16, Nat.digitChar m = Nat.digitChar n → m = n := by
  decide

theorem hexDigits_inj {a b : UInt8} (h : hexDigits a = hexDigits b) : a = b := by
  have ha := a.toNat_lt
  have hb := b.toNat_lt
  obtain ⟨high, low⟩ : Nat.digitChar (a.toNat / 16) = Nat.digitChar (b.toNat / 16) ∧
      Nat.digitChar (a.toNat % 16) = Nat.digitChar (b.toNat % 16) := by
    simpa [hexDigits] using h
  have quotient := digitChar_inj _ (by omega) _ (by omega) high
  have remainder := digitChar_inj _ (by omega) _ (by omega) low
  apply UInt8.toNat_inj.mp
  omega

theorem toHex_injective {first second : Bytes} (h : toHex first = toHex second) :
    first = second := by
  have digits : first.flatMap hexDigits = second.flatMap hexDigits := String.ofList_injective h
  clear h
  induction first generalizing second with
  | nil =>
    cases second with
    | nil => rfl
    | cons b rest => cases digits
  | cons a more ih =>
    cases second with
    | nil => cases digits
    | cons b rest =>
      rw [List.flatMap_cons, List.flatMap_cons] at digits
      obtain ⟨head, tail⟩ := List.append_inj digits rfl
      rw [hexDigits_inj head, ih tail]

end SealedPayroll.Bytes
