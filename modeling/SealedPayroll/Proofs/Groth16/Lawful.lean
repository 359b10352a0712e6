import Mathlib.GroupTheory.OrderOfElement
import SealedPayroll.Groth16.Verifier

/-!
# Lawful backends

A backend is lawful if it computes in groups: some byte strings stand for
points, addition, multiplication and negation answer with a string that stands
for the sum, multiple or opposite, and the pairing check says whether a product
of pairings is one. Strings that stand for no point end in a pairing fault.
With a lawful backend the verifier decides the equation

  e(A, B) = e(alpha, beta) * e(ic₀ + Σ xᵢ * icᵢ₊₁, gamma) * e(C, delta)

for the points that the proof and the key stand for. Whether there is a lawful
backend for a given curve, and what the equation says of the statement that was
proved, is not covered here.
-/

namespace SealedPayroll

-- ---------------------------------------------------------------------------
-- Pairings
-- ---------------------------------------------------------------------------

/-- A map that is linear in each of two points, with values in a group that is written
multiplicatively. -/
structure Pairing (G₁ G₂ GT : Type) [AddCommGroup G₁] [AddCommGroup G₂] [CommGroup GT] where
  map : G₁ → G₂ → GT
  add_left : ∀ p q r, map (p + q) r = map p r * map q r
  add_right : ∀ p q r, map p (q + r) = map p q * map p r

namespace Pairing

variable {G₁ G₂ GT : Type} [AddCommGroup G₁] [AddCommGroup G₂] [CommGroup GT]
  (e : Pairing G₁ G₂ GT)

def product (pairs : List (G₁ × G₂)) : GT := (pairs.map fun pair => e.map pair.1 pair.2).prod

theorem zero_left (q : G₂) : e.map 0 q = 1 := by
  have twice : e.map 0 q * e.map 0 q = e.map 0 q := by rw [← e.add_left, add_zero]
  exact mul_eq_left.mp twice

theorem neg_left (p : G₁) (q : G₂) : e.map (-p) q = (e.map p q)⁻¹ := by
  apply eq_inv_of_mul_eq_one_left
  rw [← e.add_left, neg_add_cancel, e.zero_left]

/-- A product that begins with an opposite is one iff the first pairing is the product of the
others. -/
theorem product_neg_eq_one {p : G₁} {q : G₂} {pairs : List (G₁ × G₂)} :
    e.product ((-p, q) :: pairs) = 1 ↔ e.map p q = e.product pairs := by
  rw [product, List.map_cons, List.prod_cons, neg_left, inv_mul_eq_one]
  rfl

end Pairing

-- ---------------------------------------------------------------------------
-- Strings that stand for points
-- ---------------------------------------------------------------------------

/-- Which byte strings stand for points of the two groups, and for which. -/
structure PointFormat (G₁ G₂ : Type) where
  first : Bytes → Option G₁
  second : Bytes → Option G₂

namespace PointFormat

variable {G₁ G₂ : Type} {format : PointFormat G₁ G₂}

def pair (format : PointFormat G₁ G₂) (strings : Bytes × Bytes) : Option (G₁ × G₂) := do
  return (← format.first strings.1, ← format.second strings.2)

/-- What a backend may answer when it is asked for a point: a string that stands for it, or a
pairing fault if there is no such point. -/
def StandsFor (format : PointFormat G₁ G₂) (answer : Except Fault Bytes) (point : Option G₁) :
    Prop :=
  match answer with
  | .ok string => format.first string = point
  | .error (.pairing _) => point = none
  | .error _ => False

/-- Goes on with the string that was answered as the group goes on with the point. -/
theorem StandsFor.bind {answer : Except Fault Bytes} {next : Bytes → Except Fault Bytes}
    {point : Option G₁} {f : Option G₁ → Option G₁} (h : format.StandsFor answer point)
    (hn : ∀ string, format.StandsFor (next string) (f (format.first string)))
    (strict : f none = none) : format.StandsFor (answer >>= next) (f point) := by
  cases answer with
  | ok string =>
    cases h
    exact hn string
  | error fault =>
    cases fault with
    | pairing cause =>
      cases h
      exact strict
    | _ => exact h.elim

end PointFormat

variable {G₁ G₂ GT : Type} [AddCommGroup G₁] [AddCommGroup G₂] [CommGroup GT]

/-- A backend that computes in groups with a pairing. -/
structure PairingBackend.Lawful (backend : PairingBackend) (format : PointFormat G₁ G₂)
    (e : Pairing G₁ G₂ GT) : Prop where
  add : ∀ p q, format.StandsFor (backend.add p q) do
    return (← format.first p) + (← format.first q)
  mul : ∀ p (scalar : Nat), format.StandsFor (backend.mul p scalar) do
    return scalar • (← format.first p)
  negate : ∀ p, format.StandsFor (backend.negate p) do
    return -(← format.first p)
  pairingCheck : ∀ pairs points, pairs ≠ [] → pairs.mapM format.pair = some points →
    ∃ holds, backend.pairingCheck pairs = .ok holds ∧ (holds = true ↔ e.product points = 1)
  undecoded : ∀ pairs, pairs.mapM format.pair = none →
    ∃ cause, backend.pairingCheck pairs = .error (.pairing cause)

namespace Groth16

variable {backend : PairingBackend} {format : PointFormat G₁ G₂} {e : Pairing G₁ G₂ GT}
  {key : VerificationKey} {proof : Proof} {inputs : List Bytes}

-- ---------------------------------------------------------------------------
-- What is asked, one question after another
-- ---------------------------------------------------------------------------

theorem foldInputs_cons (backend : PairingBackend) (sum point input : Bytes)
    (rest : List (Bytes × Bytes)) :
    (foldInputs backend sum ((point, input) :: rest)).2 =
      (do
        let scalar ← inputScalar input
        let next ← addMultiple backend sum point scalar
        (foldInputs backend next rest).2) := by
  rw [foldInputs]
  cases inputScalar input with
  | error fault => rfl
  | ok scalar =>
    cases hm : addMultiple backend sum point scalar with
    | error fault => simp only [hm, bind, Except.bind]
    | ok next => simp only [hm, bind, Except.bind]

theorem equation_answer (backend : PairingBackend) (key : VerificationKey) (proof : Proof)
    (inputs : List Bytes) :
    (equation backend key proof inputs).2 =
      (do
        let sum ← (foldInputs backend (key.ic.headD []) (key.ic.tail.zip inputs)).2
        let negated ← backend.negate proof.a
        backend.pairingCheck (pairs key proof negated sum)) := by
  rw [equation]
  rcases foldInputs backend (key.ic.headD []) (key.ic.tail.zip inputs) with ⟨scalars, fault | sum⟩
  · rfl
  · cases backend.negate proof.a <;> rfl

-- ---------------------------------------------------------------------------
-- The sum of the inputs
-- ---------------------------------------------------------------------------

/-- The multiple of a point by an input of 32 bytes. -/
def multiple (format : PointFormat G₁ G₂) (point input : Bytes) : Option G₁ :=
  if input.length = 32 then do
    return Bytes.ofBigEndian input • (← format.first point)
  else none

/-- The point that the fold of the inputs stands for. -/
def combined (format : PointFormat G₁ G₂) (sum : Option G₁) : List (Bytes × Bytes) → Option G₁
  | [] => sum
  | (point, input) :: rest =>
    combined format (do return (← sum) + (← multiple format point input)) rest

/-- The multiples of points by inputs, read as numbers, added up. -/
def weightedSum (inputs : List Bytes) (points : List G₁) : G₁ :=
  (List.zipWith (fun input point => Bytes.ofBigEndian input • point) inputs points).sum

omit [AddCommGroup G₂] in
theorem combined_none (rows : List (Bytes × Bytes)) : combined format none rows = none := by
  induction rows with
  | nil => rfl
  | cons row rest ih => exact ih

omit [AddCommGroup G₂] in
theorem multiple_eq_some {string input : Bytes} {term : G₁} :
    multiple format string input = some term ↔
      input.length = 32 ∧
        ∃ point, format.first string = some point ∧ Bytes.ofBigEndian input • point = term := by
  simp [multiple, Option.bind_eq_some_iff]

omit [AddCommGroup G₂] in
theorem weightedSum_cons (input : Bytes) (inputs : List Bytes) (point : G₁) (points : List G₁) :
    weightedSum (input :: inputs) (point :: points) =
      Bytes.ofBigEndian input • point + weightedSum inputs points := by
  rw [weightedSum, List.zipWith_cons_cons, List.sum_cons, weightedSum]

omit [AddCommGroup G₂] in
/-- There is a sum iff all points decode and all inputs have 32 bytes. -/
theorem combined_eq_some {sum : Option G₁} {total : G₁} {strings : List Bytes}
    (hl : strings.length = inputs.length) :
    combined format sum (strings.zip inputs) = some total ↔
      ∃ first points, sum = some first ∧ strings.mapM format.first = some points ∧
        (∀ input ∈ inputs, input.length = 32) ∧ first + weightedSum inputs points = total := by
  induction strings generalizing inputs sum with
  | nil =>
    cases List.length_eq_zero_iff.mp hl.symm
    simp [combined, weightedSum]
  | cons string strings ih =>
    obtain ⟨input, inputs, rfl⟩ := List.exists_cons_of_length_eq_add_one hl.symm
    have hl : strings.length = inputs.length := Nat.succ_inj.mp hl
    rw [List.zip_cons_cons, combined, ih hl]
    constructor
    · rintro ⟨next, points, hnext, hpoints, sized, rfl⟩
      obtain ⟨first, hfirst, hnext⟩ := Option.bind_eq_some_iff.mp hnext
      obtain ⟨term, hterm, hnext⟩ := Option.bind_eq_some_iff.mp hnext
      obtain rfl := Option.some.inj hnext
      obtain ⟨hi, point, hpoint, rfl⟩ := multiple_eq_some.mp hterm
      refine ⟨first, point :: points, hfirst, ?_, List.forall_mem_cons.mpr ⟨hi, sized⟩, ?_⟩
      · simp [List.mapM_cons, hpoint, hpoints]
      · rw [weightedSum_cons, ← add_assoc]
    · rintro ⟨first, points, rfl, hpoints, sized, rfl⟩
      rw [List.mapM_cons] at hpoints
      obtain ⟨point, hpoint, hpoints⟩ := Option.bind_eq_some_iff.mp hpoints
      obtain ⟨rest, hrest, hpoints⟩ := Option.bind_eq_some_iff.mp hpoints
      obtain rfl := Option.some.inj hpoints
      obtain ⟨hi, sized⟩ := List.forall_mem_cons.mp sized
      have hterm := multiple_eq_some.mpr ⟨hi, point, hpoint, rfl⟩
      refine ⟨first + Bytes.ofBigEndian input • point, rest, ?_, hrest, sized, ?_⟩
      · simp [hterm]
      · rw [weightedSum_cons, ← add_assoc]

/-- In a group whose order divides the order of the field, an input may be reduced before it is
multiplied. -/
theorem scalar_smul (order : Nat.card G₁ ∣ scalarField) (input : Bytes) (p : G₁) :
    Scalar.ofBigEndian input • p = Bytes.ofBigEndian input • p := by
  have divides : addOrderOf p ∣ scalarField := (addOrderOf_dvd_natCard p).trans order
  exact nsmul_eq_nsmul_iff_modEq.mpr ((Nat.mod_modEq _ _).of_dvd divides)

section
variable (lawful : backend.Lawful format e) (order : Nat.card G₁ ∣ scalarField)
include lawful order

theorem addMultiple_standsFor (sum point : Bytes) {input : Bytes} (hi : input.length = 32) :
    format.StandsFor (addMultiple backend sum point (Scalar.ofBigEndian input)) do
      return (← format.first sum) + (← multiple format point input) := by
  have scaled : multiple format point input = do
      return Scalar.ofBigEndian input • (← format.first point) := by
    simp only [multiple, if_pos hi, scalar_smul order]
  rw [scaled]
  refine (lawful.mul point (Scalar.ofBigEndian input)).bind
    (f := fun term => do return (← format.first sum) + (← term)) (fun term => lawful.add sum term) ?_
  cases format.first sum <;> rfl

/-- The fold of the inputs computes in the group. -/
theorem foldInputs_standsFor (sum : Bytes) (rows : List (Bytes × Bytes)) :
    format.StandsFor (foldInputs backend sum rows).2 (combined format (format.first sum) rows) := by
  induction rows generalizing sum with
  | nil => rfl
  | cons row rest ih =>
    obtain ⟨point, input⟩ := row
    rw [foldInputs_cons, combined]
    by_cases hi : input.length = 32
    · rw [show inputScalar input = _ from if_pos hi]
      exact (addMultiple_standsFor lawful order sum point hi).bind
        (f := fun next => combined format next rest) ih (combined_none rest)
    · rw [show inputScalar input = _ from if_neg hi]
      have absent : multiple format point input = none := if_neg hi
      show combined format _ rest = none
      rw [absent]
      cases format.first sum <;> exact combined_none rest

end

-- ---------------------------------------------------------------------------
-- The equation
-- ---------------------------------------------------------------------------

/-- A proof and a key stand for points, and these satisfy the equation for the inputs. -/
def Satisfied (format : PointFormat G₁ G₂) (e : Pairing G₁ G₂ GT) (key : VerificationKey)
    (proof : Proof) (inputs : List Bytes) : Prop :=
  ∃ a b c alpha beta gamma delta first points,
    (format.first proof.a = some a ∧ format.second proof.b = some b ∧
      format.first proof.c = some c) ∧
    (format.first key.alpha = some alpha ∧ format.second key.beta = some beta ∧
      format.second key.gamma = some gamma ∧ format.second key.delta = some delta ∧
      key.ic.mapM format.first = some (first :: points)) ∧
    e.map a b = e.map alpha beta * e.map (first + weightedSum inputs points) gamma * e.map c delta

omit [AddCommGroup G₁] [AddCommGroup G₂] in
theorem pairs_decode {negated sum : Bytes} {points : List (G₁ × G₂)} :
    (pairs key proof negated sum).mapM format.pair = some points ↔
      ∃ opposite b alpha beta total gamma c delta,
        (format.first negated = some opposite ∧ format.second proof.b = some b) ∧
        (format.first key.alpha = some alpha ∧ format.second key.beta = some beta) ∧
        (format.first sum = some total ∧ format.second key.gamma = some gamma) ∧
        (format.first proof.c = some c ∧ format.second key.delta = some delta) ∧
        [(opposite, b), (alpha, beta), (total, gamma), (c, delta)] = points := by
  simp only [pairs, PointFormat.pair, List.mapM_cons, List.mapM_nil, Option.bind_eq_bind,
    Option.bind_eq_some_iff, Option.pure_def, Option.some.injEq]
  constructor
  · rintro ⟨_, ⟨opposite, ho, b, hb, rfl⟩, _, ⟨_, ⟨alpha, ha, beta, hbeta, rfl⟩, _,
      ⟨_, ⟨total, ht, gamma, hg, rfl⟩, _, ⟨_, ⟨c, hc, delta, hd, rfl⟩, _, rfl, rfl⟩, rfl⟩, rfl⟩, rfl⟩
    exact ⟨_, _, _, _, _, _, _, _, ⟨ho, hb⟩, ⟨ha, hbeta⟩, ⟨ht, hg⟩, ⟨hc, hd⟩, rfl⟩
  · rintro ⟨_, _, _, _, _, _, _, _, ⟨ho, hb⟩, ⟨ha, hbeta⟩, ⟨ht, hg⟩, ⟨hc, hd⟩, rfl⟩
    exact ⟨_, ⟨_, ho, _, hb, rfl⟩, _, ⟨_, ⟨_, ha, _, hbeta, rfl⟩, _,
      ⟨_, ⟨_, ht, _, hg, rfl⟩, _, ⟨_, ⟨_, hc, _, hd, rfl⟩, _, rfl, rfl⟩, rfl⟩, rfl⟩, rfl⟩

/-- An answer of the backend decides a statement, if a pairing fault is a no. -/
def Decides (answer : Except Fault Bool) (statement : Prop) : Prop :=
  ∃ holds, rejectPairingFault answer = .ok holds ∧ (holds = true ↔ statement)

theorem Decides.of_fault {statement : Prop} (cause : PairingFault) (refuted : ¬ statement) :
    Decides (.error (.pairing cause)) statement :=
  ⟨false, rfl, ⟨fun h => (nomatch h), fun h => absurd h refuted⟩⟩

section
variable {string : Bytes} {strings : List Bytes} (hic : key.ic = string :: strings)
  (hl : strings.length = inputs.length)
include hic hl

/-- What satisfies the equation has inputs that can be added up. -/
theorem Satisfied.combined (h : Satisfied format e key proof inputs)
    (sized : ∀ input ∈ inputs, input.length = 32) :
    ∃ a b c alpha beta gamma delta total,
      (format.first proof.a = some a ∧ format.second proof.b = some b ∧
        format.first proof.c = some c) ∧
      (format.first key.alpha = some alpha ∧ format.second key.beta = some beta ∧
        format.second key.gamma = some gamma ∧ format.second key.delta = some delta) ∧
      Groth16.combined format (format.first string) (strings.zip inputs) = some total ∧
      e.map a b = e.map alpha beta * e.map total gamma * e.map c delta := by
  obtain ⟨a, b, c, alpha, beta, gamma, delta, first, points, hproof,
    ⟨halpha, hbeta, hgamma, hdelta, hkey⟩, holds⟩ := h
  rw [hic, List.mapM_cons] at hkey
  obtain ⟨_, hfirst, hkey⟩ := Option.bind_eq_some_iff.mp hkey
  obtain ⟨_, hpoints, hkey⟩ := Option.bind_eq_some_iff.mp hkey
  obtain ⟨rfl, rfl⟩ := List.cons.inj (Option.some.inj hkey)
  exact ⟨a, b, c, alpha, beta, gamma, delta, _, hproof, ⟨halpha, hbeta, hgamma, hdelta⟩,
    (combined_eq_some hl).mpr ⟨_, _, hfirst, hpoints, sized, rfl⟩, holds⟩

/-- The four pairs decode and their product is one iff the equation is satisfied. -/
theorem product_eq_one_iff {negated sum : Bytes}
    (hn : format.first negated = do return -(← format.first proof.a))
    (hs : format.first sum = Groth16.combined format (format.first string) (strings.zip inputs)) :
    (∃ points, (pairs key proof negated sum).mapM format.pair = some points ∧
        e.product points = 1) ↔
      (∀ input ∈ inputs, input.length = 32) ∧ Satisfied format e key proof inputs := by
  constructor
  · rintro ⟨points, decoded, one⟩
    obtain ⟨opposite, b, alpha, beta, total, gamma, c, delta, ⟨ho, hb⟩, ⟨ha, hbeta⟩, ⟨ht, hg⟩,
      ⟨hc, hd⟩, rfl⟩ := pairs_decode.mp decoded
    obtain ⟨a, haa, hneg⟩ := Option.bind_eq_some_iff.mp (hn.symm.trans ho)
    obtain rfl := Option.some.inj hneg
    obtain ⟨first, points, hfirst, hpoints, sized, rfl⟩ :=
      (combined_eq_some hl).mp (hs.symm.trans ht)
    refine ⟨sized, a, b, c, alpha, beta, gamma, delta, first, points, ⟨haa, hb, hc⟩,
      ⟨ha, hbeta, hg, hd, ?_⟩, ?_⟩
    · simp [hic, List.mapM_cons, hfirst, hpoints]
    · rw [e.product_neg_eq_one.mp one]
      simp [Pairing.product, mul_assoc]
  · rintro ⟨sized, satisfied⟩
    obtain ⟨a, b, c, alpha, beta, gamma, delta, total, ⟨ha, hb, hc⟩,
      ⟨halpha, hbeta, hgamma, hdelta⟩, ht, holds⟩ := satisfied.combined hic hl sized
    have ho : format.first negated = some (-a) := by
      rw [hn, ha]
      rfl
    refine ⟨_, pairs_decode.mpr ⟨_, _, _, _, _, _, _, _, ⟨ho, hb⟩, ⟨halpha, hbeta⟩,
      ⟨hs.trans ht, hgamma⟩, ⟨hc, hdelta⟩, rfl⟩, ?_⟩
    rw [e.product_neg_eq_one, holds]
    simp [Pairing.product, mul_assoc]

/-- With a lawful backend the equation is decided, whatever strings the points and inputs are. -/
theorem equation_decides (lawful : backend.Lawful format e) (order : Nat.card G₁ ∣ scalarField) :
    Decides (equation backend key proof inputs).2
      ((∀ input ∈ inputs, input.length = 32) ∧ Satisfied format e key proof inputs) := by
  have folded := foldInputs_standsFor lawful order string (strings.zip inputs)
  have opposed := lawful.negate proof.a
  rw [equation_answer, hic, List.headD_cons, List.tail_cons]
  cases hf : (foldInputs backend string (strings.zip inputs)).2 with
  | error fault =>
    rw [hf] at folded
    cases fault with
    | pairing cause =>
      refine .of_fault cause fun ⟨sized, satisfied⟩ => ?_
      obtain ⟨_, _, _, _, _, _, _, total, -, -, ht, -⟩ := satisfied.combined hic hl sized
      exact nomatch ht.symm.trans folded
    | _ => exact folded.elim
  | ok sum =>
    rw [hf] at folded
    cases hn : backend.negate proof.a with
    | error fault =>
      rw [hn] at opposed
      cases fault with
      | pairing cause =>
        refine .of_fault cause fun ⟨sized, satisfied⟩ => ?_
        obtain ⟨a, _, _, _, _, _, _, _, ⟨ha, -, -⟩, -⟩ := satisfied.combined hic hl sized
        rw [ha] at opposed
        cases opposed
      | _ => exact opposed.elim
    | ok negated =>
      rw [hn] at opposed
      have product := product_eq_one_iff (e := e) hic hl opposed folded
      show Decides (backend.pairingCheck (pairs key proof negated sum)) _
      cases hp : (pairs key proof negated sum).mapM format.pair with
      | none =>
        obtain ⟨cause, rejected⟩ := lawful.undecoded _ hp
        rw [rejected]
        refine .of_fault cause fun satisfied => ?_
        obtain ⟨points, decoded, -⟩ := product.mpr satisfied
        exact nomatch decoded.symm.trans hp
      | some points =>
        obtain ⟨holds, answered, one⟩ :=
          lawful.pairingCheck (pairs key proof negated sum) points (List.cons_ne_nil _ _) hp
        rw [answered]
        refine ⟨holds, rfl, one.trans (Iff.trans ?_ product)⟩
        rw [hp]
        exact ⟨fun h => ⟨points, rfl, h⟩, fun ⟨_, decoded, h⟩ => Option.some.inj decoded ▸ h⟩

end

/-- A lawful backend's verdict: there are as many inputs as the key asks for, each has 32 bytes, and
the equation is satisfied. -/
theorem verdict_decides (lawful : backend.Lawful format e) (order : Nat.card G₁ ∣ scalarField)
    (nonempty : key.ic ≠ []) (proof : Proof) (inputs : List Bytes) :
    ∃ holds, (verdict backend key proof inputs).2 = .ok holds ∧
      (holds = true ↔ inputs.length = key.ic.length - 1 ∧
        (∀ input ∈ inputs, input.length = 32) ∧ Satisfied format e key proof inputs) := by
  obtain ⟨string, strings, hic⟩ := List.exists_cons_of_ne_nil nonempty
  by_cases hn : inputs.length = key.inputCount
  · have hl : strings.length = inputs.length := by
      rw [hn, VerificationKey.inputCount, hic, List.length_cons, Nat.add_sub_cancel]
    have decides : Decides (equation backend key proof inputs).2 _ :=
      equation_decides hic hl lawful order
    obtain ⟨holds, answered, decided⟩ := decides
    refine ⟨holds, ?_, decided.trans ⟨fun h => ⟨hn, h⟩, fun h => h.2⟩⟩
    rw [verdict, if_pos hn]
    exact answered
  · refine ⟨false, ?_, ⟨fun h => (nomatch h), fun h => absurd h.1 hn⟩⟩
    rw [verdict, if_neg hn]

end Groth16

end SealedPayroll
