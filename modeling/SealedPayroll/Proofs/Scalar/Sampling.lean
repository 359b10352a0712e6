import Mathlib.Data.Int.ModEq
import SealedPayroll.Proofs.Bytes.Encoding
import SealedPayroll.Scalar

/-!
# Sampling blinding factors

An integer is encoded as its remainder modulo the order of the field. The
remainder always fits the 32 bytes, and they are all zero only if it is zero,
so a sampler that goes by the bytes stops at the first draw that is no multiple
of the order (`Scalar.samples_remainder`). How likely such a draw is, and how
the remainders are distributed, is not covered.
-/

namespace SealedPayroll

namespace Scalar

open Bytes (ofLittleEndian)

variable {value other : Int} {draw : Bytes} {draws before rest : List Bytes}

-- ---------------------------------------------------------------------------
-- Encoded remainders
-- ---------------------------------------------------------------------------

/-- The remainder is below the order of the field, and so it is encoded without being cut. -/
theorem exists_remainder (value : Int) :
    ∃ n : Nat, value % scalarField = n ∧ n < scalarField ∧
      encode value = Bytes.littleEndian 32 n := by
  have order : (0 : Int) < scalarField := by decide
  obtain ⟨n, hn⟩ := Int.eq_ofNat_of_zero_le (Int.emod_nonneg value (Int.ne_of_gt order))
  have bound := Int.emod_lt_of_pos value order
  refine ⟨n, hn, by omega, ?_⟩
  rw [encode, show value.emod scalarField = n from hn, Int.toNat_natCast]

theorem ofLittleEndian_encode (value : Int) :
    (ofLittleEndian (encode value) : Int) = value % scalarField := by
  obtain ⟨n, same, bound, encoded⟩ := exists_remainder value
  rw [encoded, Bytes.ofLittleEndian_littleEndian (Nat.lt_trans bound (by decide)), same]

theorem ofLittleEndian_encode_natCast (n : Nat) : ofLittleEndian (encode n) = n % scalarField :=
  Int.ofNat.inj ((ofLittleEndian_encode n).trans (Int.natCast_mod n scalarField).symm)

/-- The encoding that refuses what does not fit never refuses a remainder. -/
theorem encodeBigEndian_remainder (value : Int) :
    Bytes.encodeBigEndian 32 (value % scalarField) = .ok (encode value).reverse := by
  obtain ⟨n, same, bound, encoded⟩ := exists_remainder value
  rw [same, encoded, Bytes.encodeBigEndian_natCast, if_pos (Nat.lt_trans bound (by decide))]
  rfl

theorem encode_inj : encode other = encode value ↔ other ≡ value [ZMOD scalarField] := by
  constructor
  · intro h
    rw [Int.ModEq, ← ofLittleEndian_encode, h, ofLittleEndian_encode]
  · intro h
    rw [encode, encode]
    exact congrArg (fun n => Bytes.littleEndian 32 n.toNat) h

/-- What an encoding is read back as has that same encoding. -/
theorem encode_ofLittleEndian (value : Int) :
    encode (ofLittleEndian (encode value)) = encode value := by
  rw [encode_inj, ofLittleEndian_encode]
  exact Int.mod_modEq value scalarField

/-- An encoding has a byte that is not zero iff it is not that of a multiple of the order. -/
theorem any_encode {n : Nat} : (encode n).any (· != 0) = true ↔ ¬ scalarField ∣ n := by
  have zero : (∀ b ∈ encode n, b = 0) ↔ scalarField ∣ n := by
    rw [← Bytes.ofLittleEndian_eq_zero, ofLittleEndian_encode_natCast, Nat.dvd_iff_mod_eq_zero]
  rw [← zero]
  simp

-- ---------------------------------------------------------------------------
-- Draws
-- ---------------------------------------------------------------------------

theorem blindingFactor?_usable (usable : ¬ scalarField ∣ ofLittleEndian draw)
    (rest : List Bytes) :
    blindingFactor? (draw :: rest) = some (encode (ofLittleEndian draw), 1) :=
  if_pos (any_encode.mpr usable)

theorem blindingFactor?_wasted (wasted : scalarField ∣ ofLittleEndian draw)
    (rest : List Bytes) :
    blindingFactor? (draw :: rest) =
      (blindingFactor? rest).map fun (factor, reads) => (factor, reads + 1) :=
  if_neg fun h => any_encode.mp h wasted

/-- Draws that reduce to zero are read and left behind. -/
theorem blindingFactor?_append (wasted : ∀ draw ∈ before, scalarField ∣ ofLittleEndian draw)
    (rest : List Bytes) :
    blindingFactor? (before ++ rest) =
      (blindingFactor? rest).map fun (factor, reads) => (factor, reads + before.length) := by
  induction before with
  | nil => simp
  | cons draw more ih =>
    obtain ⟨first, wasted⟩ := List.forall_mem_cons.mp wasted
    rw [List.cons_append, blindingFactor?_wasted first, ih wasted, Option.map_map]
    rfl

theorem blindingFactor?_eq_none (wasted : ∀ draw ∈ before, scalarField ∣ ofLittleEndian draw) :
    blindingFactor? before = none := by
  have h := blindingFactor?_append wasted []
  rwa [List.append_nil] at h

theorem blindingFactor?_first (wasted : ∀ draw ∈ before, scalarField ∣ ofLittleEndian draw)
    (usable : ¬ scalarField ∣ ofLittleEndian draw) (rest : List Bytes) :
    blindingFactor? (before ++ draw :: rest) =
      some (encode (ofLittleEndian draw), before.length + 1) := by
  rw [blindingFactor?_append wasted, blindingFactor?_usable usable, Nat.add_comm]
  rfl

theorem exists_first_usable (usable : ∃ draw ∈ draws, ¬ scalarField ∣ ofLittleEndian draw) :
    ∃ before draw rest, draws = before ++ draw :: rest ∧
      (∀ earlier ∈ before, scalarField ∣ ofLittleEndian earlier) ∧
      ¬ scalarField ∣ ofLittleEndian draw := by
  obtain ⟨draw, found⟩ : ∃ draw,
      draws.find? (fun draw => ¬ scalarField ∣ ofLittleEndian draw) = some draw := by
    rw [← Option.isSome_iff_exists, List.find?_isSome]
    simpa using usable
  obtain ⟨first, before, rest, split, wasted⟩ := List.find?_eq_some_iff_append.mp found
  exact ⟨before, draw, rest, split, by simpa using wasted, by simpa using first⟩

-- ---------------------------------------------------------------------------
-- Reads
-- ---------------------------------------------------------------------------

theorem sample?_append (sized : draw.length = drawSize) (rest : Bytes) :
    sample? (draw ++ rest) =
      if (encode (ofLittleEndian draw)).any (· != 0) then
        some (encode (ofLittleEndian draw), rest)
      else sample? rest := by
  have enough : ¬ (draw ++ rest).length < drawSize := by
    rw [List.length_append]
    omega
  rw [sample?, if_neg enough, List.take_left' sized, List.drop_left' sized]

/-- A source that is made of draws is read draw by draw. -/
theorem sample?_flatten (sized : ∀ draw ∈ draws, draw.length = drawSize) :
    sample? draws.flatten =
      (blindingFactor? draws).map fun (factor, reads) => (factor, (draws.drop reads).flatten) := by
  induction draws with
  | nil =>
    rw [List.flatten_nil, sample?]
    rfl
  | cons draw rest ih =>
    obtain ⟨first, sized⟩ := List.forall_mem_cons.mp sized
    rw [List.flatten_cons, sample?_append first, ih sized, blindingFactor?]
    dsimp only
    split
    · rfl
    · rw [Option.map_map]
      rfl

theorem sample?_first (sized : ∀ each ∈ before ++ draw :: rest, each.length = drawSize)
    (wasted : ∀ draw ∈ before, scalarField ∣ ofLittleEndian draw)
    (usable : ¬ scalarField ∣ ofLittleEndian draw) :
    sample? (before ++ draw :: rest).flatten =
      some (encode (ofLittleEndian draw), rest.flatten) := by
  have left : (before ++ draw :: rest).drop (before.length + 1) = rest := by simp
  rw [sample?_flatten sized, blindingFactor?_first wasted usable]
  exact congrArg (fun left => some (encode (ofLittleEndian draw), left.flatten)) left

/-- Sampling stops at the first draw that is no multiple of the order of the field, however the
draws go on, and takes up just the bytes up to there; the factor is the remainder of that draw. The
encoding of any integer reads back as its remainder, so it tells integers apart iff they are not
congruent, and nothing is cut off it. -/
theorem samples_remainder :
    (∀ draws : List Bytes, (∀ draw ∈ draws, draw.length = 64) →
      (∃ draw ∈ draws, ¬ scalarField ∣ ofLittleEndian draw) →
      ∃ before draw rest factor, draws = before ++ draw :: rest ∧
        (∀ earlier ∈ before, scalarField ∣ ofLittleEndian earlier) ∧
        ¬ scalarField ∣ ofLittleEndian draw ∧
        (∀ others,
          blindingFactor? (before ++ draw :: others) = some (factor, before.length + 1)) ∧
        (∀ count ≤ before.length, blindingFactor? (draws.take count) = none) ∧
        sample? draws.flatten = some (factor, rest.flatten) ∧
        factor.length = 32 ∧ ofLittleEndian factor = ofLittleEndian draw % scalarField ∧
          0 < ofLittleEndian factor ∧ ofLittleEndian factor < scalarField) ∧
    ∀ value : Int,
      (ofLittleEndian (encode value) : Int) = value % scalarField ∧
      (encode value).length = 32 ∧
      Bytes.encodeBigEndian 32 (value % scalarField) = .ok (encode value).reverse ∧
      encode (ofLittleEndian (encode value)) = encode value ∧
      ∀ other, encode other = encode value ↔ other ≡ value [ZMOD scalarField] := by
  refine ⟨fun draws sized usable => ?_, fun value => ⟨ofLittleEndian_encode value,
    length_encode value, encodeBigEndian_remainder value, encode_ofLittleEndian value,
    fun other => encode_inj⟩⟩
  obtain ⟨before, draw, rest, rfl, wasted, first⟩ := exists_first_usable usable
  have remainder := ofLittleEndian_encode_natCast (ofLittleEndian draw)
  refine ⟨before, draw, rest, encode (ofLittleEndian draw), rfl, wasted, first,
    blindingFactor?_first wasted first, fun count few => ?_, sample?_first sized wasted first,
    length_encode _, remainder, ?_, ?_⟩
  · rw [List.take_append_of_le_length few]
    exact blindingFactor?_eq_none fun earlier hm => wasted earlier (List.mem_of_mem_take hm)
  · rw [remainder]
    exact Nat.pos_of_ne_zero (mt Nat.dvd_of_mod_eq_zero first)
  · rw [remainder]
    exact Nat.mod_lt _ (by decide)

end Scalar

namespace Sample

/-- Two draws that reduce to zero, one that reduces to seven, and one that is not needed. -/
def draws : List Bytes :=
  [0, scalarField, scalarField + 7, 5].map (Bytes.littleEndian 64)

theorem draws_sampled :
    (∀ draw ∈ draws, draw.length = 64) ∧
      Scalar.blindingFactor? draws = some (Bytes.littleEndian 32 7, 3) ∧
      Scalar.sample? draws.flatten = some (Bytes.littleEndian 32 7, Bytes.littleEndian 64 5) ∧
      Bytes.ofLittleEndian (Scalar.encode (-1)) = scalarField - 1 := by
  have sized : ∀ draw ∈ draws, draw.length = 64 := by simp [draws]
  have usable : ∃ draw ∈ draws, ¬ scalarField ∣ Bytes.ofLittleEndian draw :=
    ⟨Bytes.littleEndian 64 5, by simp [draws], by decide⟩
  have found : Scalar.blindingFactor? draws = some (Bytes.littleEndian 32 7, 3) := by
    decide +kernel
  obtain ⟨sampled, encoded⟩ := Scalar.samples_remainder
  obtain ⟨before, draw, rest, factor, split, -, -, stops, -, left, -⟩ := sampled draws sized usable
  obtain ⟨rfl, reads⟩ := Prod.mk.inj (Option.some.inj ((split ▸ stops rest).symm.trans found))
  have after : draws.drop 3 = rest := by
    rw [split, ← reads]
    simp
  refine ⟨sized, found, ?_, ?_⟩
  · rw [left, ← after]
    simp [draws]
  · exact Int.ofNat.inj ((encoded (-1)).1.trans (by decide))

end Sample

end SealedPayroll
