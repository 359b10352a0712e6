import Mathlib.Data.ZMod.Basic
import Mathlib.SetTheory.Cardinal.Finite
import Mathlib.Tactic.NormNum
import SealedPayroll.Proofs.Groth16.Lawful
import SealedPayroll.Proofs.Session.Permanence

/-!
# What the verifier decides

Once the key is set, and whatever the run does after that, a lawful backend
makes the verifier decide the Groth16 equation (`Verifier.decides_equation`).
Some of it does not take a lawful backend: a pairing fault makes the proof a
rejected one whichever question it is raised at, and inputs count as the
scalars that they stand for.
-/

namespace SealedPayroll

variable {σ α : Type}

-- ---------------------------------------------------------------------------
-- Questions to the backend
-- ---------------------------------------------------------------------------

/-- What a backend can be asked. -/
inductive PairingBackend.Question where
  | add (p q : Bytes)
  | mul (p : Bytes) (scalar : Int)
  | negate (p : Bytes)
  | pairingCheck (pairs : List (Bytes × Bytes))

open PairingBackend (Question)

/-- A backend does not answer a question but raises a fault. -/
def PairingBackend.Raises (backend : PairingBackend) (fault : Fault) : Question → Prop
  | .add p q => backend.add p q = .error fault
  | .mul p scalar => backend.mul p scalar = .error fault
  | .negate p => backend.negate p = .error fault
  | .pairingCheck pairs => backend.pairingCheck pairs = .error fault

namespace Groth16

variable {backend : PairingBackend} {key : VerificationKey} {proof : Proof} {inputs : List Bytes}

/-- The sum after some of the inputs. -/
def partialSum (backend : PairingBackend) (key : VerificationKey) (inputs : List Bytes)
    (count : Nat) : Except Fault Bytes :=
  (foldInputs backend (key.ic.headD []) ((key.ic.tail.zip inputs).take count)).2

/-- The questions that checking a proof comes to, each after those before it were answered. -/
inductive Asks (backend : PairingBackend) (key : VerificationKey) (proof : Proof)
    (inputs : List Bytes) : Question → Prop
  | mul {i scalar : Nat} {sum point input : Bytes} :
      (key.ic.tail.zip inputs)[i]? = some (point, input) →
      partialSum backend key inputs i = .ok sum → inputScalar input = .ok scalar →
      Asks backend key proof inputs (.mul point scalar)
  | add {i scalar : Nat} {sum point input term : Bytes} :
      (key.ic.tail.zip inputs)[i]? = some (point, input) →
      partialSum backend key inputs i = .ok sum → inputScalar input = .ok scalar →
      backend.mul point scalar = .ok term → Asks backend key proof inputs (.add sum term)
  | negate {sum : Bytes} :
      partialSum backend key inputs inputs.length = .ok sum →
      Asks backend key proof inputs (.negate proof.a)
  | pairingCheck {sum negated : Bytes} :
      partialSum backend key inputs inputs.length = .ok sum →
      backend.negate proof.a = .ok negated →
      Asks backend key proof inputs (.pairingCheck (pairs key proof negated sum))

theorem foldInputs_append (backend : PairingBackend) (sum : Bytes)
    (rows more : List (Bytes × Bytes)) :
    (foldInputs backend sum (rows ++ more)).2 =
      (do
        let between ← (foldInputs backend sum rows).2
        (foldInputs backend between more).2) := by
  induction rows generalizing sum with
  | nil => rfl
  | cons row rest ih =>
    obtain ⟨point, input⟩ := row
    rw [List.cons_append, foldInputs_cons, foldInputs_cons]
    cases inputScalar input with
    | error fault => rfl
    | ok scalar =>
      cases hm : addMultiple backend sum point scalar with
      | error fault => simp only [hm, bind, Except.bind]
      | ok next => simpa only [hm, bind, Except.bind] using ih next

/-- All of the sum. -/
theorem partialSum_length (backend : PairingBackend) (key : VerificationKey) (inputs : List Bytes) :
    partialSum backend key inputs inputs.length =
      (foldInputs backend (key.ic.headD []) (key.ic.tail.zip inputs)).2 := by
  rw [partialSum, List.take_of_length_le]
  rw [List.length_zip]
  exact Nat.min_le_right _ _

/-- A fault at one of the inputs is the fault of the sum. -/
theorem foldInputs_error {i scalar : Nat} {sum point input : Bytes} {fault : Fault}
    (listed : (key.ic.tail.zip inputs)[i]? = some (point, input))
    (before : partialSum backend key inputs i = .ok sum)
    (hs : inputScalar input = .ok scalar)
    (raised : addMultiple backend sum point scalar = .error fault) :
    (foldInputs backend (key.ic.headD []) (key.ic.tail.zip inputs)).2 = .error fault := by
  obtain ⟨hlt, row⟩ := List.getElem?_eq_some_iff.mp listed
  have split : key.ic.tail.zip inputs =
      (key.ic.tail.zip inputs).take i ++ (point, input) :: (key.ic.tail.zip inputs).drop (i + 1) := by
    rw [← row, List.getElem_cons_drop, List.take_append_drop]
  rw [split, foldInputs_append, show (foldInputs _ _ _).2 = _ from before]
  show (foldInputs backend sum _).2 = _
  rw [foldInputs_cons, hs]
  show (addMultiple backend sum point scalar >>= _) = _
  rw [raised]
  rfl

/-- A fault is passed on, whichever question it is raised at. -/
theorem Asks.raises {question : Question} {fault : Fault}
    (h : Asks backend key proof inputs question) (raised : backend.Raises fault question) :
    (equation backend key proof inputs).2 = .error fault := by
  rw [equation_answer]
  cases h with
  | @mul i scalar sum point input listed before hs =>
    have here : addMultiple backend sum point scalar = .error fault := by
      rw [addMultiple, show backend.mul point scalar = _ from raised]
      rfl
    rw [foldInputs_error listed before hs here]
    rfl
  | @add i scalar sum point input term listed before hs hm =>
    have here : addMultiple backend sum point scalar = .error fault := by
      rw [addMultiple, hm]
      exact raised
    rw [foldInputs_error listed before hs here]
    rfl
  | negate summed =>
    rw [← partialSum_length, summed]
    show (backend.negate proof.a >>= _) = _
    rw [show backend.negate proof.a = _ from raised]
    rfl
  | pairingCheck summed hn =>
    rw [← partialSum_length, summed]
    show (backend.negate proof.a >>= _) = _
    rw [hn]
    exact raised

theorem verdict_rejected {question : Question} {cause : PairingFault}
    (h : Asks backend key proof inputs question)
    (raised : backend.Raises (.pairing cause) question) :
    (verdict backend key proof inputs).2 = .ok false := by
  rw [verdict]
  split
  · show rejectPairingFault (equation backend key proof inputs).2 = _
    rw [h.raises raised]
    rfl
  · rfl

-- ---------------------------------------------------------------------------
-- Inputs that stand for the same scalars
-- ---------------------------------------------------------------------------

theorem foldInputs_congr (backend : PairingBackend) {others : List Bytes}
    (h : inputs.map inputScalar = others.map inputScalar) (sum : Bytes) (points : List Bytes) :
    foldInputs backend sum (points.zip inputs) = foldInputs backend sum (points.zip others) := by
  induction points generalizing sum inputs others with
  | nil => rfl
  | cons point points ih =>
    cases inputs with
    | nil =>
      cases List.map_eq_nil_iff.mp h.symm
      rfl
    | cons input inputs =>
      obtain ⟨other, others, rfl, same, rest⟩ := List.map_eq_cons_iff.mp h.symm
      simp only [List.zip_cons_cons, foldInputs, same, ih rest.symm]

/-- The verdict depends on the inputs only through their scalars. -/
theorem verdict_congr (backend : PairingBackend) (key : VerificationKey) (proof : Proof)
    {others : List Bytes} (h : inputs.map inputScalar = others.map inputScalar) :
    verdict backend key proof inputs = verdict backend key proof others := by
  have length : inputs.length = others.length := by simpa using congrArg List.length h
  rw [verdict, verdict, length, equation, equation, foldInputs_congr backend h]

/-- Inputs of 32 bytes that are congruent stand for the same scalar. -/
theorem inputScalar_congr {input other : Bytes} (hi : input.length = 32) (ho : other.length = 32)
    (h : Bytes.ofBigEndian other ≡ Bytes.ofBigEndian input [MOD scalarField]) :
    inputScalar other = inputScalar input := by
  rw [inputScalar, inputScalar, if_pos hi, if_pos ho]
  exact congrArg Except.ok h

end Groth16

-- ---------------------------------------------------------------------------
-- The verifier
-- ---------------------------------------------------------------------------

namespace Verifier

variable {host : Host σ} {backend : PairingBackend} {proof : Proof} {inputs : List Bytes}

theorem run_verify {key : VerificationKey} (hk : host.ledger.verificationKey = some key)
    {answer : Bool} (hv : (Groth16.verdict backend key proof inputs).2 = .ok answer) :
    ∃ later, (verify backend proof inputs).run host = (.ok answer, later) := by
  refine ⟨{ host with
    transcript := host.transcript.append (Groth16.verdict backend key proof inputs).1 }, ?_⟩
  simp only [verify, Action.run_bind, Action.run_expect, hk, Action.run_change, hv,
    Action.run_ofExcept_ok]

theorem verify_congr (backend : PairingBackend) (proof : Proof) {others : List Bytes}
    (h : inputs.map Groth16.inputScalar = others.map Groth16.inputScalar) :
    (verify backend proof inputs : Action σ Bool) = verify backend proof others := by
  simp only [verify, Groth16.verdict_congr backend _ proof h]

variable {G₁ G₂ GT : Type} [AddCommGroup G₁] [AddCommGroup G₂] [CommGroup GT]
  {format : PointFormat G₁ G₂} {e : Pairing G₁ G₂ GT}

/-- Once the key is set, and whatever the run does after that, a proof is checked as follows. With
a lawful backend it is accepted iff there is an input for every point of the key but the first,
each of 32 bytes, and the equation holds of the points. With any backend it is rejected when a
question to the backend ends in a pairing fault, and taking another input of 32 bytes with the same
remainder changes nothing. -/
theorem decides_equation (lawful : backend.Lawful format e) (order : Nat.card G₁ ∣ scalarField)
    {key : VerificationKey} (nonempty : key.ic ≠ []) {ready : Host σ}
    (initialized : (setKey key).run host = (.ok (), ready)) {base : Deployment σ}
    {action : Action σ α} (course : Course base action) :
    (∀ proof inputs, ∃ holds later,
      (verify backend proof inputs).run (action.after ready) = (.ok holds, later) ∧
        (holds = true ↔ inputs.length = key.ic.length - 1 ∧
          (∀ input ∈ inputs, input.length = 32) ∧
          Groth16.Satisfied format e key proof inputs)) ∧
    ∀ (any : PairingBackend) proof inputs,
      (∀ question cause, Groth16.Asks any key proof inputs question →
        any.Raises (.pairing cause) question →
        ∃ later, (verify any proof inputs).run (action.after ready) = (.ok false, later)) ∧
      ∀ i input other, inputs[i]? = some input → input.length = 32 → other.length = 32 →
        Bytes.ofBigEndian other ≡ Bytes.ofBigEndian input [MOD scalarField] →
        (verify any proof (inputs.set i other)).run (action.after ready) =
          (verify any proof inputs).run (action.after ready) := by
  have set : ready.ledger.verificationKey = some key :=
    (of_setKey_ok initialized).2.imp (I := fun l => l.verificationKey = some key) id rfl
  have held : (action.after ready).ledger.verificationKey = some key :=
    course.holdsKey ready key set
  refine ⟨fun proof inputs => ?_, fun any proof inputs => ⟨fun question cause asked raised => ?_,
    fun i input other listed hi ho congruent => ?_⟩⟩
  · obtain ⟨holds, answered, decided⟩ :=
      Groth16.verdict_decides lawful order nonempty proof inputs
    obtain ⟨later, hr⟩ := run_verify held answered
    exact ⟨holds, later, hr, decided⟩
  · exact run_verify held (Groth16.verdict_rejected asked raised)
  · have scalars : (inputs.set i other).map Groth16.inputScalar =
        inputs.map Groth16.inputScalar := by
      obtain ⟨hlt, rfl⟩ := List.getElem?_eq_some_iff.mp listed
      have hm : i < (inputs.map Groth16.inputScalar).length := by rwa [List.length_map]
      have same : Groth16.inputScalar other = (inputs.map Groth16.inputScalar)[i] :=
        (Groth16.inputScalar_congr hi ho congruent).trans (List.getElem_map _).symm
      rw [List.map_set, same, List.set_getElem_self]
    rw [verify_congr any proof scalars]

end Verifier

-- ---------------------------------------------------------------------------
-- A lawful backend
-- ---------------------------------------------------------------------------

namespace Sample

/-- The number that a string of this length stands for. -/
def number (length : Nat) (string : Bytes) : Except Fault Nat :=
  if string.length = length then .ok (Bytes.ofBigEndian string)
  else .error (.pairing .offCurve)

/-- The string of 64 bytes for a number modulo the order of the field. -/
def remainder (n : Nat) : Bytes := Bytes.bigEndian 64 (n % scalarField)

def productOf (pair : Bytes × Bytes) : Except Fault Nat := do
  return (← number 64 pair.1) * (← number 128 pair.2)

/-- A backend that computes with numbers modulo the order of the field. -/
def counting : PairingBackend where
  add p q := do return remainder ((← number 64 p) + (← number 64 q))
  mul p scalar := do return remainder (scalar.toNat * (← number 64 p))
  negate p := do return remainder ((scalarField - 1) * (← number 64 p))
  pairingCheck pairs := do return (← pairs.mapM productOf).sum % scalarField == 0

/-- The number that a string of this length stands for, modulo the order of the field. -/
def residue (length : Nat) (string : Bytes) : Option (ZMod scalarField) :=
  (number length string).toOption.map Nat.cast

def numbers : PointFormat (ZMod scalarField) (ZMod scalarField) := ⟨residue 64, residue 128⟩

/-- The pairing of two numbers is their product. -/
def multiplication : Pairing (ZMod scalarField) (ZMod scalarField)
    (Multiplicative (ZMod scalarField)) where
  map p q := .ofAdd (p * q)
  add_left p q r := by rw [add_mul, ofAdd_add]
  add_right p q r := by rw [mul_add, ofAdd_add]

theorem number_cases (length : Nat) (string : Bytes) :
    (∃ n : Nat, number length string = .ok n ∧ residue length string = some (n : ZMod scalarField)) ∨
      number length string = .error (.pairing .offCurve) ∧ residue length string = none := by
  rw [residue, number]
  split
  · exact .inl ⟨_, rfl, rfl⟩
  · exact .inr ⟨rfl, rfl⟩

theorem number_bigEndian {length n : Nat} (h : n < Bytes.capacity length) :
    number length (Bytes.bigEndian length n) = .ok n := by
  rw [number, if_pos (Bytes.length_bigEndian _ _), Bytes.ofBigEndian_bigEndian h]

theorem residue_remainder (n : Nat) : residue 64 (remainder n) = some (n : ZMod scalarField) := by
  have fits : n % scalarField < Bytes.capacity 64 :=
    Nat.lt_trans (Nat.mod_lt n (by decide)) (by decide)
  rw [residue, remainder, number_bigEndian fits]
  exact congrArg some (ZMod.natCast_mod n scalarField)

theorem productOf_cases (pair : Bytes × Bytes) :
    (∃ p q, ∃ n : Nat, numbers.pair pair = some (p, q) ∧ productOf pair = .ok n ∧
        p * q = (n : ZMod scalarField)) ∨
      numbers.pair pair = none ∧ productOf pair = .error (.pairing .offCurve) := by
  rw [PointFormat.pair, numbers, productOf]
  rcases number_cases 64 pair.1 with ⟨m, hm, rm⟩ | ⟨hm, rm⟩ <;>
    rcases number_cases 128 pair.2 with ⟨n, hn, rn⟩ | ⟨hn, rn⟩ <;> simp only [hm, rm, hn, rn]
  · exact .inl ⟨m, n, m * n, rfl, rfl, (Nat.cast_mul m n).symm⟩
  · exact .inr ⟨rfl, rfl⟩
  · exact .inr ⟨rfl, rfl⟩
  · exact .inr ⟨rfl, rfl⟩

theorem mapM_productOf (pairs : List (Bytes × Bytes)) :
    (∃ points ns, pairs.mapM numbers.pair = some points ∧ pairs.mapM productOf = .ok ns ∧
        multiplication.product points = .ofAdd (ns.sum : ZMod scalarField)) ∨
      pairs.mapM numbers.pair = none ∧
        pairs.mapM productOf = .error (.pairing .offCurve) := by
  induction pairs with
  | nil => exact .inl ⟨[], [], rfl, rfl, by simp [Pairing.product]⟩
  | cons pair rest ih =>
    rw [List.mapM_cons, List.mapM_cons]
    rcases productOf_cases pair with ⟨p, q, n, hp, hn, same⟩ | ⟨hp, hn⟩ <;> rw [hp, hn]
    · rcases ih with ⟨points, ns, hpoints, hns, product⟩ | ⟨hpoints, hns⟩ <;> rw [hpoints, hns]
      · refine .inl ⟨(p, q) :: points, n :: ns, rfl, rfl, ?_⟩
        rw [Pairing.product] at product ⊢
        rw [List.map_cons, List.prod_cons, product, List.sum_cons, Nat.cast_add, ofAdd_add, ← same]
        rfl
      · exact .inr ⟨rfl, rfl⟩
    · exact .inr ⟨rfl, rfl⟩

theorem counting_lawful : counting.Lawful numbers multiplication where
  add p q := by
    show numbers.StandsFor (do return remainder ((← number 64 p) + (← number 64 q)))
      (do return (← residue 64 p) + (← residue 64 q))
    rcases number_cases 64 p with ⟨m, hm, rm⟩ | ⟨hm, rm⟩ <;>
      rcases number_cases 64 q with ⟨n, hn, rn⟩ | ⟨hn, rn⟩ <;> simp only [hm, rm, hn, rn]
    · exact (residue_remainder _).trans (congrArg some (Nat.cast_add m n))
    · rfl
    · rfl
    · rfl
  mul p scalar := by
    show numbers.StandsFor (do return remainder (scalar * (← number 64 p)))
      (do return scalar • (← residue 64 p))
    rcases number_cases 64 p with ⟨n, hn, rn⟩ | ⟨hn, rn⟩ <;> rw [hn, rn]
    · refine (residue_remainder _).trans (congrArg some ?_)
      rw [Nat.cast_mul, nsmul_eq_mul]
    · rfl
  negate p := by
    show numbers.StandsFor (do return remainder ((scalarField - 1) * (← number 64 p)))
      (do return -(← residue 64 p))
    rcases number_cases 64 p with ⟨n, hn, rn⟩ | ⟨hn, rn⟩ <;> rw [hn, rn]
    · refine (residue_remainder _).trans (congrArg some ?_)
      rw [Nat.cast_mul, Nat.cast_sub (by decide), ZMod.natCast_self, Nat.cast_one, zero_sub,
        neg_one_mul]
    · rfl
  pairingCheck pairs points _ decoded := by
    rcases mapM_productOf pairs with ⟨_, ns, hpoints, hns, product⟩ | ⟨hpoints, -⟩
    · obtain rfl := Option.some.inj (hpoints.symm.trans decoded)
      refine ⟨ns.sum % scalarField == 0, ?_, ?_⟩
      · show (do return (← pairs.mapM productOf).sum % scalarField == 0) = _
        rw [hns]
        rfl
      · rw [product, ofAdd_eq_one, ZMod.natCast_eq_zero_iff, Nat.dvd_iff_mod_eq_zero, beq_iff_eq]
    · exact nomatch hpoints.symm.trans decoded
  undecoded pairs undecoded := by
    rcases mapM_productOf pairs with ⟨_, _, hpoints, -, -⟩ | ⟨-, hns⟩
    · exact nomatch hpoints.symm.trans undecoded
    · refine ⟨.offCurve, ?_⟩
      show (do return (← pairs.mapM productOf).sum % scalarField == 0) = _
      rw [hns]
      rfl

theorem first_bigEndian {n : Nat} (h : n < Bytes.capacity 64) :
    numbers.first (Bytes.bigEndian 64 n) = some (n : ZMod scalarField) := by
  show (number 64 (Bytes.bigEndian 64 n)).toOption.map Nat.cast = _
  rw [number_bigEndian h]
  rfl

theorem second_bigEndian {n : Nat} (h : n < Bytes.capacity 128) :
    numbers.second (Bytes.bigEndian 128 n) = some (n : ZMod scalarField) := by
  show (number 128 (Bytes.bigEndian 128 n)).toOption.map Nat.cast = _
  rw [number_bigEndian h]
  rfl

/-- A key for one input, in which every point is one. -/
def ones : VerificationKey where
  alpha := Bytes.bigEndian 64 1
  beta := Bytes.bigEndian 128 1
  gamma := Bytes.bigEndian 128 1
  delta := Bytes.bigEndian 128 1
  ic := [Bytes.bigEndian 64 1, Bytes.bigEndian 64 1]

/-- A proof for the input two: seven is one, and one and two, and three. -/
def seven : Proof := ⟨Bytes.bigEndian 64 7, Bytes.bigEndian 128 1, Bytes.bigEndian 64 3⟩

theorem seven_satisfied :
    Groth16.Satisfied numbers multiplication ones seven [Bytes.bigEndian 32 2] := by
  have one64 := first_bigEndian (show 1 < Bytes.capacity 64 by decide)
  have one128 := second_bigEndian (show 1 < Bytes.capacity 128 by decide)
  rw [Nat.cast_one] at one64 one128
  refine ⟨7, 1, 3, 1, 1, 1, 1, 1, [1], ⟨?_, one128, ?_⟩, ⟨one64, one128, one128, one128, ?_⟩, ?_⟩
  · simpa [seven] using first_bigEndian (show 7 < Bytes.capacity 64 by decide)
  · simpa [seven] using first_bigEndian (show 3 < Bytes.capacity 64 by decide)
  · show [_, _].mapM numbers.first = some [1, 1]
    simp [List.mapM_cons, one64]
  · have sum : Groth16.weightedSum [Bytes.bigEndian 32 2] [1] = (2 : ZMod scalarField) := by
      rw [Groth16.weightedSum_cons, Bytes.ofBigEndian_bigEndian (by decide)]
      simp [Groth16.weightedSum]
    rw [sum]
    simp only [multiplication, ← ofAdd_add]
    norm_num

/-- The proof is accepted, also when the order of the field is added to the input. -/
theorem seven_accepted :
    ∃ ready later, (Verifier.setKey ones).run host = (.ok (), ready) ∧
      (Verifier.verify counting seven [Bytes.bigEndian 32 2]).run ready = (.ok true, later) ∧
      (Verifier.verify counting seven [Bytes.bigEndian 32 (2 + scalarField)]).run ready =
        (.ok true, later) := by
  have order : Nat.card (ZMod scalarField) ∣ scalarField := by rw [Nat.card_zmod]
  have idle : Course deployment (pure () : Action Unit Unit) := .pure ()
  obtain ⟨decided, anyway⟩ := Verifier.decides_equation counting_lawful order
    (show ones.ic ≠ [] from List.cons_ne_nil _ _) (rfl (a := (Verifier.setKey ones).run host)) idle
  obtain ⟨holds, later, answered, satisfied⟩ := decided seven [Bytes.bigEndian 32 2]
  obtain rfl := satisfied.mpr ⟨rfl, by simp, seven_satisfied⟩
  have same := (anyway counting seven [Bytes.bigEndian 32 2]).2 0 _
    (Bytes.bigEndian 32 (2 + scalarField)) rfl (Bytes.length_bigEndian _ _)
    (Bytes.length_bigEndian _ _) (by decide)
  exact ⟨_, later, rfl, answered, same.trans answered⟩

end Sample

end SealedPayroll
