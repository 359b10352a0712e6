import SealedPayroll.Audit.ViewKey
import SealedPayroll.Commitment.Record
import SealedPayroll.Groth16.Key
import SealedPayroll.Payment.Record
import SealedPayroll.Registry.Record

/-!
# When a record's fields are in order

A record is built iff every field keeps its rule, and then it holds the fields
as they were given. Each `make_eq_valid` says so of one kind of record.
-/

namespace SealedPayroll

namespace Check

variable {α β : Type}

theorem map_eq_valid {f : α → β} {check : Check α} {b : β} :
    f <$> check = .valid b ↔ ∃ a, check = .valid a ∧ f a = b := by
  cases check <;> simp

theorem seq_eq_valid {f : Check (α → β)} {check : Check α} {b : β} :
    f <*> check = .valid b ↔ ∃ g a, f = .valid g ∧ check = .valid a ∧ g a = b := by
  cases f with
  | valid g => simp [map_eq_valid]
  | invalid faults =>
    cases check <;> exact ⟨fun h => (nomatch h), fun ⟨_, _, h, _⟩ => (nomatch h)⟩

theorem field_eq_valid {name : String} {rule : Rule α} {value a : α} :
    field name rule value = .valid a ↔ rule value = none ∧ a = value := by
  unfold field
  split <;> simp_all [eq_comm]

theorem required_eq_valid {name : String} {rule : Rule α} {value a : α} :
    required name rule (some value) = .valid a ↔ rule value = none ∧ a = value :=
  field_eq_valid

theorem required_given_eq_valid {name : String} {rule : Rule α} {given : Option α} {a : α} :
    required name rule given = .valid a ↔ given = some a ∧ rule a = none := by
  cases given with
  | none => exact ⟨fun h => (nomatch h), fun h => (nomatch h.1)⟩
  | some value =>
    rw [required_eq_valid, Option.some.injEq]
    constructor
    · rintro ⟨kept, rfl⟩
      exact ⟨rfl, kept⟩
    · rintro ⟨rfl, kept⟩
      exact ⟨kept, rfl⟩

theorem itemFaults_eq_nil {name : String} {rule : Rule α} {index : Nat} {values : List α} :
    itemFaults name rule index values = [] ↔ ∀ value ∈ values, rule value = none := by
  induction values generalizing index with
  | nil => simp [itemFaults]
  | cons value rest ih =>
    rw [itemFaults, List.forall_mem_cons]
    split
    · rename_i kept
      simp [ih, kept]
    · rename_i defect broken
      simp [broken]

theorem items_eq_valid {name : String} {rule : Rule α} {given : Option (List α)}
    {values : List α} :
    items name rule given = .valid values ↔
      given = some values ∧ values ≠ [] ∧ ∀ value ∈ values, rule value = none := by
  match given with
  | none => exact ⟨fun h => (nomatch h), fun h => (nomatch h.1)⟩
  | some [] =>
    refine ⟨fun h => (nomatch h), fun ⟨same, nonempty, _⟩ => absurd ?_ nonempty⟩
    exact (Option.some.inj same).symm
  | some (value :: rest) =>
    simp only [items]
    split
    · rename_i sound
      constructor
      · rintro ⟨⟩
        exact ⟨rfl, List.cons_ne_nil _ _, itemFaults_eq_nil.mp sound⟩
      · rintro ⟨⟨⟩, -, -⟩
        rfl
    · rename_i broken
      refine ⟨fun h => (nomatch h), ?_⟩
      rintro ⟨⟨⟩, -, kept⟩
      exact absurd (itemFaults_eq_nil.mpr kept) broken

theorem optional_eq_valid {name : String} {value a : Option α} :
    optional name .any value = .valid a ↔ a = value := by
  cases value <;> simp [optional, field, Rule.any, eq_comm]

theorem decoded_eq_valid {name : String} {rule : Rule β} {decode : β → Option α}
    {otherwise : Defect} {given : β} {a : α} :
    decoded name rule decode otherwise (some given) = .valid a ↔
      rule given = none ∧ decode given = some a := by
  unfold decoded
  cases hr : required name rule (some given) with
  | valid named =>
    obtain ⟨hn, rfl⟩ := required_eq_valid.mp hr
    cases hd : decode named <;> simp [hn, hd]
  | invalid faults =>
    have broken : rule given ≠ none := fun hn => by
      rw [required_eq_valid.mpr ⟨hn, rfl⟩] at hr
      cases hr
    simp [broken]

end Check

namespace Rule

@[simp] theorem any_eq_none {α : Type} (a : α) : Rule.any a = none := rfl

@[simp] theorem atLeast_eq_none {least n : Int} : atLeast least n = none ↔ least ≤ n := by
  simp [atLeast]

@[simp] theorem above_eq_none {bound n : Int} : above bound n = none ↔ bound < n := by
  simp [above]

@[simp] theorem nonempty_eq_none {text : String} : nonempty text = none ↔ text ≠ "" := by
  have h : text = "" ↔ text.length = 0 := String.length_eq_zero_iff.symm
  rw [nonempty, ne_eq, h]
  split <;> simp only [reduceCtorEq, false_iff, true_iff] <;> omega

@[simp] theorem bytesSize_eq_none {size : Nat} {bytes : List UInt8} :
    bytesSize size bytes = none ↔ bytes.length = size := by
  rw [bytesSize]
  split
  · simp; omega
  · split <;> simp <;> omega

@[simp] theorem textSize_eq_none {size : Nat} {text : String} :
    textSize size text = none ↔ text.length = size := by
  rw [textSize]
  split
  · simp; omega
  · split <;> simp <;> omega

end Rule

-- ---------------------------------------------------------------------------
-- Records
-- ---------------------------------------------------------------------------

theorem Proof.make_eq_valid {a b c : Option Bytes} {proof : Proof} :
    Proof.make a b c = .valid proof ↔
      (proof.a.length = 64 ∧ proof.b.length = 128 ∧ proof.c.length = 64) ∧
        a = some proof.a ∧ b = some proof.b ∧ c = some proof.c := by
  simp only [Proof.make, Check.seq_eq_valid, Check.map_eq_valid, Check.required_given_eq_valid,
    Rule.bytesSize_eq_none]
  constructor
  · rintro ⟨_, _, ⟨_, _, ⟨_, ⟨rfl, h₁⟩, rfl⟩, ⟨rfl, h₂⟩, rfl⟩, ⟨rfl, h₃⟩, rfl⟩
    exact ⟨⟨h₁, h₂, h₃⟩, rfl, rfl, rfl⟩
  · rintro ⟨⟨h₁, h₂, h₃⟩, rfl, rfl, rfl⟩
    exact ⟨_, _, ⟨_, _, ⟨_, ⟨rfl, h₁⟩, rfl⟩, ⟨rfl, h₂⟩, rfl⟩, ⟨rfl, h₃⟩, rfl⟩

theorem VerificationKey.make_eq_valid {alpha beta gamma delta : Option Bytes}
    {ic : Option (List Bytes)} {key : VerificationKey} :
    VerificationKey.make alpha beta gamma delta ic = .valid key ↔
      (key.alpha.length = 64 ∧ key.beta.length = 128 ∧ key.gamma.length = 128 ∧
        key.delta.length = 128 ∧ key.ic ≠ [] ∧ ∀ point ∈ key.ic, point.length = 64) ∧
      alpha = some key.alpha ∧ beta = some key.beta ∧ gamma = some key.gamma ∧
        delta = some key.delta ∧ ic = some key.ic := by
  simp only [VerificationKey.make, Check.seq_eq_valid, Check.map_eq_valid,
    Check.required_given_eq_valid, Check.items_eq_valid, Rule.bytesSize_eq_none]
  constructor
  · rintro ⟨_, _, ⟨_, _, ⟨_, _, ⟨_, _, ⟨_, ⟨rfl, h₁⟩, rfl⟩, ⟨rfl, h₂⟩, rfl⟩, ⟨rfl, h₃⟩, rfl⟩,
      ⟨rfl, h₄⟩, rfl⟩, ⟨rfl, h₅⟩, rfl⟩
    exact ⟨⟨h₁, h₂, h₃, h₄, h₅⟩, rfl, rfl, rfl, rfl, rfl⟩
  · rintro ⟨⟨h₁, h₂, h₃, h₄, h₅⟩, rfl, rfl, rfl, rfl, rfl⟩
    exact ⟨_, _, ⟨_, _, ⟨_, _, ⟨_, _, ⟨_, ⟨rfl, h₁⟩, rfl⟩, ⟨rfl, h₂⟩, rfl⟩, ⟨rfl, h₃⟩, rfl⟩,
      ⟨rfl, h₄⟩, rfl⟩, ⟨rfl, h₅⟩, rfl⟩

theorem Company.make_eq_valid {id : Int} {admin treasury : Principal} {registeredAt : Int}
    {company : Company} :
    Company.make id admin treasury none registeredAt = .valid company ↔
      (0 ≤ id ∧ admin ≠ "" ∧ treasury ≠ "") ∧ company = ⟨id, admin, treasury, 0, registeredAt⟩ := by
  simp only [Company.make, Check.seq_eq_valid, Check.map_eq_valid, Check.required_eq_valid,
    Check.defaulted]
  constructor
  · rintro ⟨_, _, ⟨_, _, ⟨_, _, ⟨_, _, ⟨_, ⟨h₁, rfl⟩, rfl⟩, ⟨h₂, rfl⟩, rfl⟩, ⟨h₃, rfl⟩, rfl⟩, h₄, rfl⟩,
      ⟨-, rfl⟩, rfl⟩
    cases h₄
    simp_all
  · rintro ⟨⟨h₁, h₂, h₃⟩, rfl⟩
    simp_all

theorem Binding.make_eq_valid {company : Int} {employee : Principal} {commitment : Bytes}
    {enrolledAt : Int} {lastPaymentAt : Option Int} {binding : Binding} :
    Binding.make company employee commitment enrolledAt lastPaymentAt = .valid binding ↔
      (employee ≠ "" ∧ commitment.length = 32) ∧
        binding = ⟨company, employee, commitment, enrolledAt, lastPaymentAt⟩ := by
  simp only [Binding.make, Check.seq_eq_valid, Check.map_eq_valid, Check.required_eq_valid,
    Check.optional_eq_valid, Rule.any_eq_none, Rule.nonempty_eq_none, Rule.bytesSize_eq_none,
    true_and, and_assoc, exists_and_left, exists_eq_left, exists_eq_left']
  rw [eq_comm (a := binding)]

theorem CommitmentRecord.make_eq_valid {employee : Principal} {company : Option Int}
    {commitment : Bytes} {version createdAt updatedAt : Int} {record : CommitmentRecord} :
    CommitmentRecord.make employee company commitment (some version) createdAt updatedAt =
        .valid record ↔
      (employee ≠ "" ∧ commitment.length = 32 ∧ 1 ≤ version) ∧
        record = ⟨employee, company, commitment, version, createdAt, updatedAt⟩ := by
  simp only [CommitmentRecord.make, Check.seq_eq_valid, Check.map_eq_valid,
    Check.required_eq_valid, Check.optional_eq_valid, Check.defaulted, Check.field_eq_valid,
    Rule.any_eq_none, Rule.nonempty_eq_none, Rule.bytesSize_eq_none, Rule.atLeast_eq_none, true_and,
    and_assoc, exists_and_left, exists_eq_left, exists_eq_left']
  rw [eq_comm (a := record)]

theorem NullifierRecord.make_eq_valid {value : Bytes} {usedAt : Int} {record : NullifierRecord} :
    NullifierRecord.make value usedAt = .valid record ↔
      value.length = 32 ∧ record = ⟨value, usedAt⟩ := by
  simp only [NullifierRecord.make, Check.seq_eq_valid, Check.map_eq_valid, Check.required_eq_valid]
  constructor
  · rintro ⟨_, _, ⟨_, ⟨h, rfl⟩, rfl⟩, ⟨-, rfl⟩, rfl⟩
    simp_all
  · rintro ⟨h, rfl⟩
    simp_all

theorem PaymentRecord.make_eq_valid {company amount timestamp period : Int} {employee : Principal}
    {proofHash : Bytes} {record : PaymentRecord} :
    PaymentRecord.make company employee amount proofHash timestamp period = .valid record ↔
      (employee ≠ "" ∧ 0 < amount ∧ proofHash.length = 32 ∧ 0 ≤ period) ∧
        record = ⟨company, employee, amount, proofHash, timestamp, period⟩ := by
  simp only [PaymentRecord.make, Check.seq_eq_valid, Check.map_eq_valid, Check.required_eq_valid]
  constructor
  · rintro ⟨_, _, ⟨_, _, ⟨_, _, ⟨_, _, ⟨_, _, ⟨_, ⟨-, rfl⟩, rfl⟩, ⟨h₂, rfl⟩, rfl⟩, ⟨h₃, rfl⟩, rfl⟩,
      ⟨h₄, rfl⟩, rfl⟩, ⟨-, rfl⟩, rfl⟩, ⟨h₆, rfl⟩, rfl⟩
    simp_all
  · rintro ⟨⟨h₂, h₃, h₄, h₆⟩, rfl⟩
    simp_all

theorem ViewKey.make_eq_valid {id : String} {company createdAt expiresAt nonce : Int}
    {auditor grantedBy : Principal} {scope : Scope} {basis : ExpiryBasis}
    {employees : Option (List String)} {periodStart periodEnd : Option Int} {key : ViewKey} :
    ViewKey.make id company auditor grantedBy createdAt expiresAt (some scope.number) (some nonce)
        basis.name employees periodStart periodEnd = .valid key ↔
      (id.length = 64 ∧ auditor ≠ "" ∧ grantedBy ≠ "" ∧ 0 ≤ nonce) ∧
        key = ⟨id, company, auditor, grantedBy, createdAt, expiresAt, scope, nonce, basis,
          employees, periodStart, periodEnd⟩ := by
  have number : Rule.signedWord 64 (scope.number : Int) = none := by cases scope <;> rfl
  have named : ExpiryBasis.ofName? basis.name = some basis := by cases basis <;> rfl
  simp only [ViewKey.make, Check.seq_eq_valid, Check.map_eq_valid, Check.required_eq_valid,
    Check.optional_eq_valid, Check.decoded_eq_valid, Option.getD_some, number, named,
    Scope.ofNumber?_number, Option.some.injEq, Rule.any_eq_none, Rule.textSize_eq_none,
    Rule.nonempty_eq_none, Rule.atLeast_eq_none, true_and, and_assoc, exists_and_left,
    exists_eq_left, exists_eq_left']
  rw [eq_comm (a := key)]

theorem AuditReport.make_eq_valid {company people total count start stop : Int}
    {report : AuditReport} :
    AuditReport.make company people total count start stop (some true) = .valid report ↔
      (0 ≤ people ∧ 0 ≤ total ∧ 0 ≤ count) ∧
        report = ⟨company, people, total, count, start, stop, true⟩ := by
  simp only [AuditReport.make, Check.seq_eq_valid, Check.map_eq_valid, Check.required_eq_valid,
    Check.defaulted, Check.field_eq_valid, Rule.any_eq_none, Rule.atLeast_eq_none, true_and,
    and_assoc, exists_and_left, exists_eq_left, exists_eq_left']
  rw [eq_comm (a := report)]

end SealedPayroll
