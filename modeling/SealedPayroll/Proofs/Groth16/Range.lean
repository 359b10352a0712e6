import SealedPayroll.Proofs.Bytes.Encoding
import SealedPayroll.Proofs.Groth16.Decision
import SealedPayroll.Proofs.Groth16.Inputs
import SealedPayroll.Proofs.Payment.PayBatch

/-!
# Range proofs

A range proof is checked like any other proof, with the bounds of the range
among the inputs. Where the backend raises pairing faults only, checking a
proof always comes to a verdict. Checking a range does not: a range that is
empty or begins below zero is rejected before anything is encoded, but one
that ends where 32 bytes do not reach is an overflow and no rejection
(`Verifier.verifyRange_answers_iff`).
-/

namespace SealedPayroll

variable {σ α β : Type}

-- ---------------------------------------------------------------------------
-- Results that are answers or pairing faults
-- ---------------------------------------------------------------------------

/-- A result that is an answer or a pairing fault. -/
def Fault.PairingOnly (result : Except Fault α) : Prop :=
  ∀ fault, result = .error fault → ∃ cause, fault = .pairing cause

open Fault (PairingOnly)

namespace Fault.PairingOnly

theorem ok (a : α) : PairingOnly (.ok a) := fun _ h => nomatch h

theorem pairing (cause : PairingFault) :
    PairingOnly (.error (.pairing cause) : Except Fault α) := by
  rintro _ ⟨⟩
  exact ⟨cause, rfl⟩

theorem bind {result : Except Fault α} {next : α → Except Fault β} (hr : PairingOnly result)
    (hn : ∀ a, PairingOnly (next a)) : PairingOnly (result >>= next) := by
  intro fault h
  cases result with
  | error raised =>
    cases h
    exact hr fault rfl
  | ok a => exact hn a fault h

end Fault.PairingOnly

/-- A backend that raises pairing faults and no others, as long as multiples are of scalars. -/
structure PairingBackend.Contained (backend : PairingBackend) : Prop where
  add : ∀ p q, PairingOnly (backend.add p q)
  mul : ∀ p (scalar : Nat), scalar < scalarField → PairingOnly (backend.mul p scalar)
  negate : ∀ p, PairingOnly (backend.negate p)
  pairingCheck : ∀ pairs, PairingOnly (backend.pairingCheck pairs)

namespace PairingBackend

theorem checkG1_pairingOnly (point : Bytes) : PairingOnly (checkG1 point) := by
  unfold checkG1
  split
  · exact .ok _
  · exact .pairing _

theorem checkG2_pairingOnly (point : Bytes) : PairingOnly (checkG2 point) := by
  unfold checkG2
  split
  · exact .ok _
  · exact .pairing _

theorem checkPairs_pairingOnly (pairs : List (Bytes × Bytes)) : PairingOnly (checkPairs pairs) := by
  induction pairs with
  | nil => exact .ok _
  | cons pair rest ih =>
    exact .bind (checkG1_pairingOnly _) fun _ => .bind (checkG2_pairingOnly _) fun _ => ih

/-- A scalar can be encoded, so the structural backend does not overflow on one. -/
theorem structural_contained : structural.Contained where
  add p q := .bind (checkG1_pairingOnly p) fun _ => .bind (checkG1_pairingOnly q) fun _ => .ok _
  mul p scalar reduced := by
    have fits : scalar < Bytes.capacity 32 := Nat.lt_trans reduced (by decide)
    refine .bind (checkG1_pairingOnly p) fun _ => ?_
    dsimp only
    rw [if_neg (Int.not_lt.mpr (Int.natCast_nonneg scalar)), Bytes.encodeBigEndian_natCast,
      if_pos fits]
    exact .ok _
  negate p := .bind (checkG1_pairingOnly p) fun _ => .ok _
  pairingCheck pairs := by
    refine .bind ?_ fun _ => .ok _
    unfold checkProduct
    split
    · exact .pairing _
    · exact checkPairs_pairingOnly pairs

end PairingBackend

namespace Groth16

variable {backend : PairingBackend}

theorem inputScalar_pairingOnly (input : Bytes) : PairingOnly (inputScalar input) := by
  unfold inputScalar
  split
  · exact .ok _
  · exact .pairing _

/-- Inputs are reduced before the backend is asked about them. -/
theorem inputScalar_lt {input : Bytes} {scalar : Nat} (h : inputScalar input = .ok scalar) :
    scalar < scalarField := by
  rw [inputScalar, if_pos (of_inputScalar_ok h)] at h
  cases h
  exact Nat.mod_lt _ (by decide)

theorem foldInputs_pairingOnly (contained : backend.Contained) (sum : Bytes)
    (rows : List (Bytes × Bytes)) : PairingOnly (foldInputs backend sum rows).2 := by
  induction rows generalizing sum with
  | nil => exact .ok _
  | cons row rest ih =>
    obtain ⟨point, input⟩ := row
    rw [foldInputs]
    split
    · rename_i fault hs
      obtain ⟨cause, rfl⟩ := inputScalar_pairingOnly input fault hs
      exact .pairing cause
    · rename_i scalar reduced
      have multiple : PairingOnly (addMultiple backend sum point scalar) :=
        .bind (contained.mul _ _ (inputScalar_lt reduced)) fun _ => contained.add _ _
      split
      · rename_i fault hm
        obtain ⟨cause, rfl⟩ := multiple fault hm
        exact .pairing cause
      · exact ih _

/-- A backend that raises pairing faults only lets every proof be accepted or rejected. -/
theorem verdict_answers (contained : backend.Contained) (key : VerificationKey) (proof : Proof)
    (inputs : List Bytes) : ∃ accepted, (verdict backend key proof inputs).2 = .ok accepted := by
  have equation : PairingOnly (equation backend key proof inputs).2 := by
    unfold equation
    dsimp only
    have folded := foldInputs_pairingOnly contained (key.ic.headD []) (key.ic.tail.zip inputs)
    split
    · rename_i fault asked
      have product := PairingOnly.bind folded fun sum =>
        .bind (contained.negate proof.a) fun negated => .ok (pairs key proof negated sum)
      obtain ⟨cause, rfl⟩ := product fault asked
      exact .pairing cause
    · exact contained.pairingCheck _
  unfold verdict
  split
  · dsimp only
    rcases answer : (Groth16.equation backend key proof inputs).2 with fault | accepted
    · obtain ⟨cause, rfl⟩ := equation fault answer
      exact ⟨false, rfl⟩
    · exact ⟨accepted, rfl⟩
  · exact ⟨false, rfl⟩

end Groth16

-- ---------------------------------------------------------------------------
-- Ranges
-- ---------------------------------------------------------------------------

namespace Verifier

variable {host : Host σ} {backend : PairingBackend} {proof : Proof} {commitment : Bytes}
  {least greatest : Int}

/-- A range that is empty, or that begins below zero. -/
def Rejectable (least greatest : Int) : Prop := least < 0 ∨ greatest < least

instance : Decidable (Rejectable least greatest) :=
  inferInstanceAs (Decidable (_ ∨ _))

theorem verifyRange_rejected (h : Rejectable least greatest) :
    (verifyRange backend proof commitment least greatest : Action σ Bool) = pure false :=
  if_pos h

/-- A range whose end can be encoded is one that can be encoded altogether. -/
theorem verifyRange_encoded (h : ¬ Rejectable least greatest)
    (fits : greatest < Bytes.capacity 32) :
    (verifyRange backend proof commitment least greatest : Action σ Bool) =
      verify backend proof
        [commitment, Bytes.bigEndian 32 least.toNat, Bytes.bigEndian 32 greatest.toNat] := by
  rw [Rejectable, not_or, Int.not_lt, Int.not_lt] at h
  obtain ⟨low, rfl⟩ := Int.eq_ofNat_of_zero_le h.1
  obtain ⟨high, rfl⟩ := Int.eq_ofNat_of_zero_le (Int.le_trans h.1 h.2)
  have lowFits : low < Bytes.capacity 32 := by omega
  have highFits : high < Bytes.capacity 32 := by omega
  have admitted : ¬ ((low : Int) < 0 ∨ (high : Int) < low) := by omega
  rw [verifyRange, if_neg admitted, Bytes.encodeBigEndian_natCast, if_pos lowFits,
    Bytes.encodeBigEndian_natCast, if_pos highFits]
  rfl

/-- A range whose end cannot be encoded is refused as an overflow, wherever it begins. -/
theorem run_verifyRange_tooBig (h : ¬ Rejectable least greatest)
    (wide : Bytes.capacity 32 ≤ greatest) (host : Host σ) :
    (verifyRange backend proof commitment least greatest).run host =
      (.error (Fault.width .tooBig).raised, host) := by
  rw [Rejectable, not_or, Int.not_lt, Int.not_lt] at h
  obtain ⟨low, rfl⟩ := Int.eq_ofNat_of_zero_le h.1
  obtain ⟨high, rfl⟩ := Int.eq_ofNat_of_zero_le (Int.le_trans h.1 h.2)
  have highWide : ¬ high < Bytes.capacity 32 := by omega
  have admitted : ¬ ((low : Int) < 0 ∨ (high : Int) < low) := by omega
  rw [verifyRange, if_neg admitted, Bytes.encodeBigEndian_natCast, Bytes.encodeBigEndian_natCast,
    if_neg highWide]
  split
  · rfl
  · rfl

/-- Where the backend raises pairing faults only, checking a range comes to a verdict iff the range
can be rejected or its end can be encoded. A range that can be rejected is, one that can be encoded
is checked with the 32 bytes of its bounds among the inputs, and any other is an overflow. -/
theorem verifyRange_answers_iff (contained : backend.Contained) {key : VerificationKey}
    (held : host.ledger.verificationKey = some key) (proof : Proof) (commitment : Bytes)
    (least greatest : Int) :
    ((∃ accepted later,
        (verifyRange backend proof commitment least greatest).run host = (.ok accepted, later)) ↔
      Rejectable least greatest ∨ greatest < Bytes.capacity 32) ∧
    (Rejectable least greatest →
      (verifyRange backend proof commitment least greatest).run host = (.ok false, host)) ∧
    (¬ Rejectable least greatest → greatest < Bytes.capacity 32 →
      (verifyRange backend proof commitment least greatest).run host =
        (verify backend proof [commitment, Bytes.bigEndian 32 least.toNat,
          Bytes.bigEndian 32 greatest.toNat]).run host) ∧
    (¬ Rejectable least greatest → Bytes.capacity 32 ≤ greatest →
      (verifyRange backend proof commitment least greatest).run host =
        (.error (Fault.width .tooBig).raised, host)) := by
  refine ⟨⟨?admitted, ?answered⟩, fun h => ?_, fun h fits => ?_, fun h wide => ?_⟩
  case admitted =>
    rintro ⟨accepted, later, hr⟩
    by_contra refused
    rw [not_or, Int.not_lt] at refused
    cases hr.symm.trans (run_verifyRange_tooBig refused.1 refused.2 host)
  case answered =>
    intro admitted
    by_cases h : Rejectable least greatest
    · rw [verifyRange_rejected h]
      exact ⟨false, host, rfl⟩
    · rw [verifyRange_encoded h (admitted.resolve_left h)]
      obtain ⟨accepted, answer⟩ := Groth16.verdict_answers contained key proof
        [commitment, Bytes.bigEndian 32 least.toNat, Bytes.bigEndian 32 greatest.toNat]
      obtain ⟨later, hr⟩ := run_verify held answer
      exact ⟨accepted, later, hr⟩
  · rw [verifyRange_rejected h, Action.run_pure]
  · rw [verifyRange_encoded h fits]
  · exact run_verifyRange_tooBig h wide host

end Verifier

namespace Sample

open PairingBackend (structural structural_contained)

theorem staffed_key : staffed.ledger.verificationKey = some key := by
  rw [staffed_ledger]

/-- The widest range that can be encoded is checked and the proof accepted. A range that ends one
higher comes to no verdict. -/
theorem widest_checked :
    structural.Contained ∧ staffed.ledger.verificationKey = some key ∧
      (∃ later, (Verifier.verifyRange structural proof commitment 0 (Bytes.capacity 32 - 1)).run
        staffed = (.ok true, later)) ∧
      ∀ accepted later, (Verifier.verifyRange structural proof commitment 0
        (Bytes.capacity 32)).run staffed ≠ (.ok accepted, later) := by
  refine ⟨structural_contained, staffed_key, ?_, fun accepted later hr => ?_⟩
  · obtain ⟨-, -, encoded, -⟩ := Verifier.verifyRange_answers_iff structural_contained staffed_key
      proof commitment 0 (Bytes.capacity 32 - 1)
    rw [encoded (by decide) (by decide)]
    refine Verifier.run_verify staffed_key
      (Groth16.verdict_structural key_shaped rfl rfl rfl rfl ?_)
    simp [commitment]
  · obtain ⟨answers, -⟩ := Verifier.verifyRange_answers_iff structural_contained staffed_key
      proof commitment 0 (Bytes.capacity 32)
    exact absurd (answers.mp ⟨accepted, later, hr⟩) (by decide)

/-- A range that is neither empty nor below zero, and yet comes to no verdict. -/
theorem wide_unanswered :
    structural.Contained ∧ staffed.ledger.verificationKey = some key ∧
      (Verifier.verifyRange structural proof commitment 0 (2 ^ 256)).run staffed =
        (.error (Fault.width .tooBig).raised, staffed) :=
  ⟨structural_contained, staffed_key,
    Verifier.run_verifyRange_tooBig (by decide) (by decide) staffed⟩

end Sample

end SealedPayroll
