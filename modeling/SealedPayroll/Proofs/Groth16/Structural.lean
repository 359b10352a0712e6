import SealedPayroll.Groth16.Verdict

/-!
# The structural backend accepts whatever has the right shape

Keys, proofs and inputs of the right sizes are all that it asks for.
-/

namespace SealedPayroll

open PairingBackend (structural)

theorem PairingBackend.length_expand (tag : String) (parts : List Bytes) :
    (expand tag parts).length = 64 := by
  simp [expand]

namespace Groth16

/-- A key whose points have the right sizes. -/
structure Shaped (key : VerificationKey) : Prop where
  alpha : key.alpha.length = 64
  beta : key.beta.length = 128
  gamma : key.gamma.length = 128
  delta : key.delta.length = 128
  nonempty : key.ic ≠ []
  ic : ∀ point ∈ key.ic, point.length = 64

theorem addMultiple_structural {sum point : Bytes} {scalar : Nat} (hs : sum.length = 64)
    (hp : point.length = 64) (hk : scalar < scalarField) :
    ∃ next, addMultiple structural sum point scalar = .ok next ∧ next.length = 64 := by
  have fits : Bytes.encodeBigEndian 32 (scalar : Int) = .ok (Bytes.bigEndian 32 scalar) :=
    if_pos (Nat.lt_trans hk (by decide))
  have multiple : structural.mul point scalar =
      .ok (PairingBackend.expand "g1_mul" [point, Bytes.bigEndian 32 scalar]) := by
    have nonneg : ¬ (scalar : Int) < 0 := by omega
    simp [structural, PairingBackend.checkG1, hp, nonneg, fits, bind, Except.bind, pure, Except.pure]
  refine ⟨PairingBackend.expand "g1_add"
    [sum, PairingBackend.expand "g1_mul" [point, Bytes.bigEndian 32 scalar]], ?_,
    PairingBackend.length_expand _ _⟩
  rw [addMultiple, multiple]
  simp [structural, PairingBackend.checkG1, hs, PairingBackend.length_expand, bind, Except.bind,
    pure, Except.pure]

theorem foldInputs_structural {sum : Bytes} {rows : List (Bytes × Bytes)} (hs : sum.length = 64)
    (hr : ∀ row ∈ rows, row.1.length = 64 ∧ row.2.length = 32) :
    ∃ scalars total, foldInputs structural sum rows = (scalars, .ok total) ∧ total.length = 64 := by
  induction rows generalizing sum with
  | nil => exact ⟨[], sum, rfl, hs⟩
  | cons row rest ih =>
    obtain ⟨point, input⟩ := row
    obtain ⟨hp, hi⟩ := hr _ (.head _)
    have hk : Scalar.ofBigEndian input < scalarField := Nat.mod_lt _ (by decide)
    obtain ⟨next, hn, hl⟩ := addMultiple_structural hs hp hk
    obtain ⟨scalars, total, hf, ht⟩ := ih hl fun row hm => hr row (.tail _ hm)
    refine ⟨Scalar.ofBigEndian input :: scalars, total, ?_, ht⟩
    rw [foldInputs, inputScalar, if_pos hi]
    simp only [hn, hf]

theorem verdict_structural {key : VerificationKey} {proof : Proof} {inputs : List Bytes}
    (hk : Shaped key) (ha : proof.a.length = 64) (hb : proof.b.length = 128)
    (hc : proof.c.length = 64) (hn : inputs.length = key.inputCount)
    (hi : ∀ input ∈ inputs, input.length = 32) :
    (verdict structural key proof inputs).2 = .ok true := by
  obtain ⟨first, points, hic⟩ := List.exists_cons_of_ne_nil hk.nonempty
  have hp := hk.ic
  rw [hic] at hp
  have shaped : ∀ row ∈ points.zip inputs, row.1.length = 64 ∧ row.2.length = 32 := fun row hm =>
    ⟨hp _ (.tail _ (List.of_mem_zip hm).1), hi _ (List.of_mem_zip hm).2⟩
  obtain ⟨scalars, total, hf, ht⟩ := foldInputs_structural (hp _ (.head _)) shaped
  have negated : structural.negate proof.a =
      .ok (PairingBackend.expand "g1_negate" [proof.a]) := by
    simp [structural, PairingBackend.checkG1, ha, bind, Except.bind, pure, Except.pure]
  have product : structural.pairingCheck
      (pairs key proof (PairingBackend.expand "g1_negate" [proof.a]) total) = .ok true := by
    simp [structural, pairs, PairingBackend.checkProduct, PairingBackend.checkPairs,
      PairingBackend.checkG1, PairingBackend.checkG2, PairingBackend.length_expand, hb, hc, ht,
      hk.alpha, hk.beta, hk.gamma, hk.delta, bind, Except.bind, pure, Except.pure]
  rw [verdict, if_pos hn, equation, hic, List.headD_cons, List.tail_cons, hf]
  simp only [bind, Except.bind, negated, pure, Except.pure, product, rejectPairingFault]

end Groth16

end SealedPayroll
