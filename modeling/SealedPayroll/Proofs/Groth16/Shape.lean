import SealedPayroll.Proofs.Groth16.Range
import SealedPayroll.Proofs.Record.Fields

/-!
# What the structural backend accepts

Once the key is set, and whatever the run does after that, a verifier with the
structural backend comes to a verdict on every proof and on every batch, and it
goes by shape alone (`Verifier.accepts_by_shape`): as many inputs as the key
asks for, of 32 bytes each. What points and inputs stand for is not looked at,
so an acceptance says nothing about any statement.
-/

namespace SealedPayroll

variable {σ α β : Type}

open PairingBackend (structural structural_contained)

-- ---------------------------------------------------------------------------
-- Records that are in order
-- ---------------------------------------------------------------------------

/-- A proof that was made from fields in order. -/
def Proof.WellFormed (proof : Proof) : Prop :=
  ∃ a b c, Proof.make a b c = .valid proof

/-- A key that was made from fields in order. -/
def VerificationKey.WellFormed (key : VerificationKey) : Prop :=
  ∃ alpha beta gamma delta ic, VerificationKey.make alpha beta gamma delta ic = .valid key

theorem Proof.wellFormed_iff {proof : Proof} :
    proof.WellFormed ↔ proof.a.length = 64 ∧ proof.b.length = 128 ∧ proof.c.length = 64 := by
  constructor
  · rintro ⟨_, _, _, made⟩
    exact (Proof.make_eq_valid.mp made).1
  · intro sized
    exact ⟨_, _, _, Proof.make_eq_valid.mpr ⟨sized, rfl, rfl, rfl⟩⟩

theorem VerificationKey.wellFormed_iff {key : VerificationKey} :
    key.WellFormed ↔ Groth16.Shaped key := by
  constructor
  · rintro ⟨_, _, _, _, _, made⟩
    obtain ⟨⟨alpha, beta, gamma, delta, nonempty, ic⟩, -⟩ := VerificationKey.make_eq_valid.mp made
    exact ⟨alpha, beta, gamma, delta, nonempty, ic⟩
  · rintro ⟨alpha, beta, gamma, delta, nonempty, ic⟩
    exact ⟨_, _, _, _, _, VerificationKey.make_eq_valid.mpr
      ⟨⟨alpha, beta, gamma, delta, nonempty, ic⟩, rfl, rfl, rfl, rfl, rfl⟩⟩

-- ---------------------------------------------------------------------------
-- Single proofs
-- ---------------------------------------------------------------------------

namespace Groth16

variable {key : VerificationKey} {proof : Proof} {inputs : List Bytes}

/-- As many inputs as the key asks for, of 32 bytes each. -/
def Fits (key : VerificationKey) (inputs : List Bytes) : Prop :=
  inputs.length = key.inputCount ∧ ∀ input ∈ inputs, input.length = 32

/-- Whatever the backend, nothing else is accepted. -/
theorem Fits.of_accepted {backend : PairingBackend}
    (h : (verdict backend key proof inputs).2 = .ok true) : Fits key inputs := by
  refine ⟨?_, of_verdict_accepted h⟩
  by_contra miscounted
  rw [verdict, if_neg miscounted] at h
  cases h

/-- The structural backend accepts all of it, and comes to a verdict on the rest too. -/
theorem verdict_structural_decides (hk : Shaped key) (hp : proof.WellFormed) (inputs : List Bytes) :
    ∃ accepted, (verdict structural key proof inputs).2 = .ok accepted ∧
      (accepted = true ↔ Fits key inputs) := by
  obtain ⟨accepted, answer⟩ := verdict_answers structural_contained key proof inputs
  refine ⟨accepted, answer, ?_, ?_⟩
  · rintro rfl
    exact .of_accepted answer
  · rintro ⟨count, sized⟩
    obtain ⟨ha, hb, hc⟩ := Proof.wellFormed_iff.mp hp
    exact Except.ok.inj (answer.symm.trans (verdict_structural hk ha hb hc count sized))

end Groth16

-- ---------------------------------------------------------------------------
-- Batches
-- ---------------------------------------------------------------------------

namespace Verifier

variable {host : Host σ} {backend : PairingBackend} {key : VerificationKey}

/-- Where each row of a batch comes to a verdict, the batch comes to all of them. -/
theorem run_verifyEach {good : Proof × Bytes × Bytes × Bytes → Prop}
    (held : host.ledger.verificationKey = some key) {rows : List (Proof × Bytes × Bytes × Bytes)}
    (decided : ∀ row ∈ rows, ∃ accepted,
      (Groth16.verdict backend key row.1 [row.2.1, row.2.2.1, row.2.2.2]).2 = .ok accepted ∧
        (accepted = true ↔ good row)) :
    ∃ accepted later, (verifyEach backend rows).run host = (.ok accepted, later) ∧
      (accepted = true ↔ ∀ row ∈ rows, good row) := by
  -- a row that was checked has left the key where it was
  induction rows generalizing host with
  | nil => exact ⟨true, host, rfl, by simp⟩
  | cons row rest ih =>
    obtain ⟨accepted, answer, decides⟩ := decided row (.head _)
    obtain ⟨between, checked⟩ := run_verify held answer
    have kept : between.ledger = host.ledger := (verify_quiet backend _ _).ledger checked
    rw [List.forall_mem_cons, ← decides, verifyEach, verifyPayment, Action.run_bind_ok checked]
    cases accepted with
    | false => exact ⟨false, between, rfl, by simp⟩
    | true =>
      obtain ⟨all, later, hr, hall⟩ := ih (kept ▸ held) fun row hm => decided row (.tail _ hm)
      exact ⟨all, later, hr, by simpa using hall⟩

theorem forall_mem_zip {xs : List α} {ys : List β} (h : xs.length = ys.length) {P : α → Prop}
    {Q : β → Prop} :
    (∀ row ∈ xs.zip ys, P row.1 ∧ Q row.2) ↔ (∀ x ∈ xs, P x) ∧ ∀ y ∈ ys, Q y := by
  have first : (∀ x ∈ xs, P x) ↔ ∀ row ∈ xs.zip ys, P row.1 := by
    rw [← List.forall_mem_map (f := Prod.fst) (P := P), List.map_fst_zip (Nat.le_of_eq h)]
  have second : (∀ y ∈ ys, Q y) ↔ ∀ row ∈ xs.zip ys, Q row.2 := by
    rw [← List.forall_mem_map (f := Prod.snd) (P := Q), List.map_snd_zip (Nat.le_of_eq h.symm)]
  rw [first, second]
  exact forall₂_and

/-- Four lists that make up the rows of a batch. -/
def Aligned (proofs : List Proof) (commitments nullifiers recipients : List Bytes) : Prop :=
  commitments.length = proofs.length ∧ nullifiers.length = proofs.length ∧
    recipients.length = proofs.length

section
variable {proofs : List Proof} {commitments nullifiers recipients : List Bytes}

theorem verifyBatch_misaligned (h : ¬ Aligned proofs commitments nullifiers recipients) :
    (verifyBatch backend proofs commitments nullifiers recipients : Action σ Bool) = pure false :=
  if_neg h

theorem verifyBatch_aligned (h : Aligned proofs commitments nullifiers recipients) :
    (verifyBatch backend proofs commitments nullifiers recipients : Action σ Bool) =
      verifyEach backend (proofs.zip (commitments.zip (nullifiers.zip recipients))) :=
  if_pos h

theorem Aligned.of_nil (h : Aligned [] commitments nullifiers recipients) :
    commitments = [] ∧ nullifiers = [] ∧ recipients = [] :=
  ⟨List.eq_nil_of_length_eq_zero h.1, List.eq_nil_of_length_eq_zero h.2.1,
    List.eq_nil_of_length_eq_zero h.2.2⟩

/-- What holds of the parts of every row holds of the lists, each for itself. -/
theorem Aligned.forall_rows (h : Aligned proofs commitments nullifiers recipients)
    {P : Proof → Prop} {Q : Bytes → Prop} :
    (∀ row ∈ proofs.zip (commitments.zip (nullifiers.zip recipients)),
        P row.1 ∧ Q row.2.1 ∧ Q row.2.2.1 ∧ Q row.2.2.2) ↔
      (∀ proof ∈ proofs, P proof) ∧ ∀ bytes ∈ commitments ++ nullifiers ++ recipients, Q bytes := by
  obtain ⟨hc, hn, hr⟩ := h
  have last : nullifiers.length = recipients.length := hn.trans hr.symm
  have middle : commitments.length = (nullifiers.zip recipients).length := by
    rw [List.length_zip, ← last, Nat.min_self, hc, hn]
  have first : proofs.length = (commitments.zip (nullifiers.zip recipients)).length := by
    rw [List.length_zip, ← middle, Nat.min_self, hc]
  rw [forall_mem_zip first (P := P) (Q := fun parts => Q parts.1 ∧ Q parts.2.1 ∧ Q parts.2.2),
    forall_mem_zip middle (P := Q) (Q := fun parts => Q parts.1 ∧ Q parts.2),
    forall_mem_zip last (P := Q) (Q := Q)]
  simp only [List.forall_mem_append, and_assoc]

theorem fits_payment {commitment nullifier recipient : Bytes} :
    Groth16.Fits key [commitment, nullifier, recipient] ↔
      key.inputCount = 3 ∧ commitment.length = 32 ∧ nullifier.length = 32 ∧
        recipient.length = 32 := by
  simp only [Groth16.Fits, List.length_cons, List.length_nil, List.forall_mem_cons, Nat.zero_add]
  simp [eq_comm]

theorem run_verifyBatch (held : host.ledger.verificationKey = some key)
    (hk : Groth16.Shaped key) (hp : ∀ proof ∈ proofs, proof.WellFormed) :
    ∃ accepted later,
      (verifyBatch structural proofs commitments nullifiers recipients).run host =
          (.ok accepted, later) ∧
        (accepted = true ↔ Aligned proofs commitments nullifiers recipients ∧
          (proofs = [] ∨ key.inputCount = 3 ∧
            ∀ bytes ∈ commitments ++ nullifiers ++ recipients, bytes.length = 32)) := by
  by_cases aligned : Aligned proofs commitments nullifiers recipients
  · have decided : ∀ row ∈ proofs.zip (commitments.zip (nullifiers.zip recipients)),
        ∃ accepted, (Groth16.verdict structural key row.1 [row.2.1, row.2.2.1, row.2.2.2]).2 =
            .ok accepted ∧
          (accepted = true ↔ key.inputCount = 3 ∧ row.2.1.length = 32 ∧ row.2.2.1.length = 32 ∧
            row.2.2.2.length = 32) := by
      intro row hm
      rw [← fits_payment]
      exact Groth16.verdict_structural_decides hk (hp _ (List.of_mem_zip hm).1) _
    obtain ⟨accepted, later, hr, all⟩ := run_verifyEach held decided
    refine ⟨accepted, later, by rwa [verifyBatch_aligned aligned], all.trans ?_⟩
    rw [aligned.forall_rows (P := fun _ => key.inputCount = 3)
      (Q := fun bytes => bytes.length = 32)]
    cases proofs with
    | nil =>
      obtain ⟨rfl, rfl, rfl⟩ := aligned.of_nil
      simp [aligned]
    | cons first rest =>
      -- the first proof is there to say how many inputs the key asks for
      have counted : (∀ proof ∈ first :: rest, key.inputCount = 3) ↔ key.inputCount = 3 :=
        ⟨fun h => h first (.head _), fun h _ _ => h⟩
      rw [counted]
      simp [aligned]
  · refine ⟨false, host, by rw [verifyBatch_misaligned aligned, Action.run_pure], ?_⟩
    simp [aligned]

end

/-- Once the key is set, and whatever the run does after that, the structural backend lets every
proof and every batch come to a verdict. A proof is accepted iff there is an input for every point
of the key but the first, each of 32 bytes. A batch is accepted iff its lists are equally long and,
if there is anything in them, the key is for three inputs and all inputs have 32 bytes. -/
theorem accepts_by_shape {key : VerificationKey} (made : key.WellFormed) {ready : Host σ}
    (initialized : (setKey key).run host = (.ok (), ready)) {base : Deployment σ}
    {action : Action σ α} (course : Course base action) :
    (∀ proof inputs, proof.WellFormed → ∃ accepted later,
      (verify structural proof inputs).run (action.after ready) = (.ok accepted, later) ∧
        (accepted = true ↔ inputs.length = key.ic.length - 1 ∧
          ∀ input ∈ inputs, input.length = 32)) ∧
    ∀ proofs commitments nullifiers recipients, (∀ proof ∈ proofs, proof.WellFormed) →
      ∃ accepted later,
        (verifyBatch structural proofs commitments nullifiers recipients).run
            (action.after ready) = (.ok accepted, later) ∧
          (accepted = true ↔
            (commitments.length = proofs.length ∧ nullifiers.length = proofs.length ∧
              recipients.length = proofs.length) ∧
            (proofs = [] ∨ key.ic.length - 1 = 3 ∧
              ∀ bytes ∈ commitments ++ nullifiers ++ recipients, bytes.length = 32)) := by
  have shaped : Groth16.Shaped key := VerificationKey.wellFormed_iff.mp made
  have held : (action.after ready).ledger.verificationKey = some key :=
    course.holdsKey ready key <|
      (of_setKey_ok initialized).2.imp (I := fun l => l.verificationKey = some key) id rfl
  refine ⟨fun proof inputs hp => ?_, fun proofs commitments nullifiers recipients hp => ?_⟩
  · obtain ⟨accepted, answer, decided⟩ := Groth16.verdict_structural_decides shaped hp inputs
    obtain ⟨later, hr⟩ := run_verify held answer
    exact ⟨accepted, later, hr, decided⟩
  · exact run_verifyBatch held shaped hp

end Verifier

namespace Sample

theorem proof_wellFormed : proof.WellFormed := Proof.wellFormed_iff.mpr ⟨rfl, rfl, rfl⟩

/-- A batch of two is accepted, also after some other calls, and an input that is a byte short is
rejected with its proof. -/
theorem batch_accepted :
    key.WellFormed ∧ proof.WellFormed ∧
      ∃ ready accepted rejected, (Verifier.setKey key).run host = (.ok (), ready) ∧
        (Verifier.verifyBatch structural [proof, proof] [commitment, commitment]
            [commitment, commitment] [commitment, commitment]).run (retrying.after ready) =
          (.ok true, accepted) ∧
        (Verifier.verify structural proof [commitment, commitment, commitment.tail]).run
            (retrying.after ready) = (.ok false, rejected) := by
  have made : key.WellFormed := VerificationKey.wellFormed_iff.mpr key_shaped
  obtain ⟨single, batch⟩ := Verifier.accepts_by_shape made
    (rfl (a := (Verifier.setKey key).run host)) (retrying_program.course reentrant)
  have both : ∀ each ∈ [proof, proof], each.WellFormed := by simp [proof_wellFormed]
  obtain ⟨all, accepted, ha, accepts⟩ := batch [proof, proof] [commitment, commitment]
    [commitment, commitment] [commitment, commitment] both
  obtain ⟨one, rejected, hr, rejects⟩ := single proof [commitment, commitment, commitment.tail]
    proof_wellFormed
  obtain rfl : all = true := accepts.mpr ⟨by decide, .inr (by decide)⟩
  obtain rfl : one = false := by
    rw [← Bool.not_eq_true, rejects]
    decide
  exact ⟨made, proof_wellFormed, _, accepted, rejected, rfl, ha, hr⟩

end Sample

end SealedPayroll
