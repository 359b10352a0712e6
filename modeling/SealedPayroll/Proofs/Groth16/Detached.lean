import SealedPayroll.Groth16.Verifier
import SealedPayroll.Proofs.Host.Spared

/-!
# What backends raise

A backend can raise whatever it likes, and what it raises is passed on unless
it is a pairing fault. A backend that raises no refusal of some kind therefore
leads to none when a proof is verified. The structural backend raises no
refusal at all.
-/

namespace SealedPayroll

variable {bad : PayrollError → Bool}

/-- A backend that raises no refusal of some kind in the payroll's name. -/
structure PairingBackend.Detached (bad : PayrollError → Bool) (backend : PairingBackend) :
    Prop where
  add : ∀ p q, SealedPayroll.Detached bad (backend.add p q)
  mul : ∀ p scalar, SealedPayroll.Detached bad (backend.mul p scalar)
  negate : ∀ p, SealedPayroll.Detached bad (backend.negate p)
  pairingCheck : ∀ pairs, SealedPayroll.Detached bad (backend.pairingCheck pairs)

namespace PairingBackend

theorem checkG1_detached (point : Bytes) : SealedPayroll.Detached bad (checkG1 point) := by
  unfold checkG1
  split
  · exact .ok _
  · exact .error rfl

theorem checkPairs_detached (pairs : List (Bytes × Bytes)) :
    SealedPayroll.Detached bad (checkPairs pairs) := by
  induction pairs with
  | nil => exact .ok _
  | cons pair rest ih =>
    refine .bind (checkG1_detached _) fun _ => .bind ?_ fun _ => ih
    unfold checkG2
    split
    · exact .ok _
    · exact .error rfl

theorem structural_detached : structural.Detached bad where
  add p q := .bind (checkG1_detached p) fun _ => .bind (checkG1_detached q) fun _ => .ok _
  mul p scalar := by
    refine .bind (checkG1_detached p) fun _ => ?_
    dsimp only
    split
    · exact .error rfl
    · exact .bind (Bytes.encodeBigEndian_detached _ _) fun _ => .ok _
  negate p := .bind (checkG1_detached p) fun _ => .ok _
  pairingCheck pairs := by
    refine .bind ?_ fun _ => .ok _
    unfold checkProduct
    split
    · exact .error rfl
    · exact checkPairs_detached pairs

end PairingBackend

namespace Groth16

variable {backend : PairingBackend}

theorem inputScalar_detached (input : Bytes) : Detached bad (inputScalar input) := by
  unfold inputScalar
  split
  · exact .ok _
  · exact .error rfl

theorem foldInputs_detached (hb : backend.Detached bad) (sum : Bytes)
    (rows : List (Bytes × Bytes)) :
    Detached bad (foldInputs backend sum rows).2 := by
  induction rows generalizing sum with
  | nil => exact .ok _
  | cons row rest ih =>
    rw [foldInputs]
    split
    · rename_i fault hs
      exact .error (inputScalar_detached _ _ hs)
    · split
      · rename_i fault hm
        exact .error (Detached.bind (hb.mul _ _) (fun _ => hb.add _ _) _ hm)
      · exact ih _

theorem equation_detached (hb : backend.Detached bad) (key : VerificationKey) (proof : Proof)
    (inputs : List Bytes) : Detached bad (equation backend key proof inputs).2 := by
  unfold equation
  dsimp only
  split
  · rename_i fault ha
    refine .error (Detached.bind (foldInputs_detached hb _ _) (fun sum => ?_) _ ha)
    exact .bind (hb.negate _) fun _ => .ok _
  · exact hb.pairingCheck _

theorem verdict_detached (hb : backend.Detached bad) (key : VerificationKey) (proof : Proof)
    (inputs : List Bytes) : Detached bad (verdict backend key proof inputs).2 := by
  unfold verdict
  split
  · dsimp only
    unfold rejectPairingFault
    split
    · exact .ok _
    · exact equation_detached hb _ _ _
  · exact .ok _

end Groth16

theorem Verifier.verify_spared {σ : Type} {backend : PairingBackend} (hb : backend.Detached bad)
    (he : bad (.notInitialized componentName) = false) (proof : Proof) (inputs : List Bytes) :
    Action.Spared bad (verify backend proof inputs : Action σ Bool) :=
  .bind (.expect _ he) fun _ =>
    .bind (.change _) fun _ => .ofExcept (Groth16.verdict_detached hb _ _ _)

end SealedPayroll
