import SealedPayroll.Groth16.Verdict

/-!
# What an accepted proof says about its inputs

Nothing is assumed of the backend here: sizes are checked before it is asked.
-/

namespace SealedPayroll.Groth16

variable {backend : PairingBackend}

theorem of_inputScalar_ok {input : Bytes} {scalar : Nat} (h : inputScalar input = .ok scalar) :
    input.length = 32 := by
  unfold inputScalar at h
  split at h
  · assumption
  · cases h

theorem of_foldInputs_ok {sum total : Bytes} {rows : List (Bytes × Bytes)} {scalars : List Nat}
    (h : foldInputs backend sum rows = (scalars, .ok total)) :
    ∀ row ∈ rows, row.2.length = 32 := by
  induction rows generalizing sum scalars with
  | nil => simp
  | cons row rest ih =>
    obtain ⟨point, input⟩ := row
    rw [foldInputs] at h
    split at h
    · cases h
    · rename_i scalar hs
      split at h
      · cases h
      · rename_i next hn
        rcases hr : foldInputs backend next rest with ⟨more, result⟩
        rw [hr] at h
        cases h
        rintro row (_ | ⟨_, hm⟩)
        · exact of_inputScalar_ok hs
        · exact ih hr row hm

/-- The inputs of an accepted proof have 32 bytes each. -/
theorem of_verdict_accepted {key : VerificationKey} {proof : Proof} {inputs : List Bytes}
    (h : (verdict backend key proof inputs).2 = .ok true) :
    ∀ input ∈ inputs, input.length = 32 := by
  unfold verdict at h
  split at h
  · rename_i hl
    unfold equation at h
    rcases hf : foldInputs backend (key.ic.headD []) (key.ic.tail.zip inputs) with
      ⟨scalars, fault | total⟩
    · rw [hf] at h
      cases fault <;> cases h
    · intro input hi
      obtain ⟨i, hlt, rfl⟩ := List.getElem_of_mem hi
      have hk : i < key.ic.tail.length := by
        rw [List.length_tail]
        exact lt_of_lt_of_eq hlt hl
      have hz : i < (key.ic.tail.zip inputs).length := by
        rw [List.length_zip]
        exact Nat.lt_min.mpr ⟨hk, hlt⟩
      have hrow := of_foldInputs_ok hf _ (List.getElem_mem hz)
      rwa [List.getElem_zip] at hrow
  · cases h

end SealedPayroll.Groth16
