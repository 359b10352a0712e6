import SealedPayroll.Proofs.Payment.PayBatch

/-!
# Nullifiers as the verifier sees them

The books tell nullifiers apart by their bytes, the verifier by the scalars
that the bytes stand for. Two payments have the same scalar iff their
nullifiers, read as numbers, are a multiple of the field's order apart; up to
five such multiples fit into 32 bytes, and the books have nothing against them.
-/

namespace SealedPayroll

variable {σ : Type} {base d : Deployment σ} {host : Host σ}

namespace Bytes

theorem ofBigEndian_lt (bytes : Bytes) : ofBigEndian bytes < capacity bytes.length := by
  simpa [ofBigEndian] using ofLittleEndian_lt bytes.reverse

theorem ofBigEndian_injective {a b : Bytes} (hl : a.length = b.length)
    (h : ofBigEndian a = ofBigEndian b) : a = b := by
  have ha := littleEndian_ofLittleEndian a.reverse
  have hb := littleEndian_ofLittleEndian b.reverse
  rw [ofBigEndian, ofBigEndian] at h
  rw [List.length_reverse] at ha hb
  rw [h, hl] at ha
  exact List.reverse_injective (ha.symm.trans hb)

end Bytes

/-- Five is as often as the order of the field goes into numbers of 32 bytes. -/
theorem multiples_below {m n : Nat} (hm : m < Bytes.capacity 32) (hne : m ≠ n)
    (h : m % scalarField = n % scalarField) (hle : n ≤ m) :
    ∃ k, 0 < k ∧ k ≤ 5 ∧ m = n + k * scalarField := by
  obtain ⟨k, hk⟩ := Nat.dvd_of_mod_eq_zero (Nat.sub_mod_eq_zero_of_mod_eq h)
  have hpos : 0 < k := by
    rcases Nat.eq_zero_or_pos k with rfl | hp
    · omega
    · exact hp
  have hfive : k ≤ 5 := by
    refine Nat.le_of_not_lt fun hc => ?_
    have six : scalarField * 6 ≤ scalarField * k := Nat.mul_le_mul_left _ hc
    have large : Bytes.capacity 32 ≤ scalarField * 6 := by decide
    omega
  exact ⟨k, hpos, hfive, by rw [Nat.mul_comm]; omega⟩

/-- The nullifier of one payment, read as a number, is that of another and `k` times the order of
the field. -/
def PaymentRecord.Moved (a : PaymentRecord) (k : Nat) (b : PaymentRecord) : Prop :=
  Bytes.ofBigEndian a.proofHash = Bytes.ofBigEndian b.proofHash + k * scalarField

namespace Books

variable {l : Ledger} {a b : PaymentRecord}

/-- Payments that differ have the same scalar iff one nullifier is the other moved by one to five
times the order of the field. -/
theorem same_scalar_iff (h : Books l) (ha : a ∈ l.payments.values) (hb : b ∈ l.payments.values)
    (hne : a ≠ b) :
    Scalar.ofBigEndian a.proofHash = Scalar.ofBigEndian b.proofHash ↔
      ∃ k, 0 < k ∧ k ≤ 5 ∧ (a.Moved k b ∨ b.Moved k a) := by
  have ha' := h.length_proofHash ha
  have hb' := h.length_proofHash hb
  have bytes : Bytes.ofBigEndian a.proofHash ≠ Bytes.ofBigEndian b.proofHash := fun he =>
    hne (h.eq_of_proofHash ha hb (Bytes.ofBigEndian_injective (ha'.trans hb'.symm) he))
  have hlt := Bytes.ofBigEndian_lt a.proofHash
  have hlt' := Bytes.ofBigEndian_lt b.proofHash
  rw [ha'] at hlt
  rw [hb'] at hlt'
  constructor
  · intro he
    rcases Nat.le_total (Bytes.ofBigEndian b.proofHash) (Bytes.ofBigEndian a.proofHash) with
      hle | hle
    · obtain ⟨k, h₀, h₅, hm⟩ := multiples_below hlt bytes he hle
      exact ⟨k, h₀, h₅, .inl hm⟩
    · obtain ⟨k, h₀, h₅, hm⟩ := multiples_below hlt' bytes.symm he.symm hle
      exact ⟨k, h₀, h₅, .inr hm⟩
  · rintro ⟨k, -, -, hm | hm⟩ <;>
      rw [Scalar.ofBigEndian, Scalar.ofBigEndian, hm, Nat.add_mul_mod_self_right]

end Books

/-- Wherever a run is, payments that differ have different scalars iff no nullifier of one is that
of another moved by one to five times the order of the field. The same goes for a payment that
is on the books already and one that is made in whatever comes after. -/
theorem Reachable.distinct_scalars_iff (h : Reachable base d host) :
    ((∀ a ∈ host.ledger.payments.values, ∀ b ∈ host.ledger.payments.values, a ≠ b →
        Scalar.ofBigEndian a.proofHash ≠ Scalar.ofBigEndian b.proofHash) ↔
      ∀ a ∈ host.ledger.payments.values, ∀ b ∈ host.ledger.payments.values, ∀ k, 0 < k → k ≤ 5 →
        ¬ a.Moved k b) ∧
      ∀ e reached, Passes base d host e reached →
        ∀ a ∈ host.ledger.payments.values, ∀ b ∈ reached.ledger.payments.values, a ≠ b →
          (Scalar.ofBigEndian a.proofHash = Scalar.ofBigEndian b.proofHash ↔
            ∃ k, 0 < k ∧ k ≤ 5 ∧ (a.Moved k b ∨ b.Moved k a)) := by
  constructor
  · constructor
    · intro distinct a ha b hb k hk h₅ hm
      have hne : a ≠ b := by
        rintro rfl
        have order : 0 < k * scalarField := Nat.mul_pos hk (by decide)
        rw [PaymentRecord.Moved] at hm
        omega
      exact distinct a ha b hb hne ((h.books.same_scalar_iff ha hb hne).mpr ⟨k, hk, h₅, .inl hm⟩)
    · intro unmoved a ha b hb hne he
      obtain ⟨k, hk, h₅, hm | hm⟩ := (h.books.same_scalar_iff ha hb hne).mp he
      · exact unmoved a ha b hb k hk h₅ hm
      · exact unmoved b hb a ha k hk h₅ hm
  · intro e reached hp a ha b hb hne
    have kept := (hp.respected postsMany_respected h.reentrant).2.kept
    obtain ⟨key, ha⟩ := Table.mem_values_iff.mp ha
    exact (h.passes hp).books.same_scalar_iff
      (Table.mem_values_iff.mpr ⟨key, kept.payments _ _ ha⟩) hb hne

-- ---------------------------------------------------------------------------
-- Two payments with one scalar
-- ---------------------------------------------------------------------------

namespace Sample

open Payroll

/-- A host in which the employee can be paid. -/
structure Ready (funds : Int) (host : Host Unit) : Prop where
  reachable : Reachable deployment deployment host
  depth : host.depth = 0
  keeping : host.evictOnCommit = false
  everyone : host.authority.everyone = true
  companies : host.ledger.companies = staffed.ledger.companies
  commitments : host.ledger.commitments = staffed.ledger.commitments
  key : host.ledger.verificationKey = some key
  employed : ∃ binding, host.ledger.bindings.get? "worker" = some binding ∧
    binding.company = 0 ∧ binding.commitment = commitment
  funded : funds ≤ host.ledger.balance "treasury"

theorem staffed_ready : Ready 100 staffed where
  reachable := staffed_reachable
  depth := rfl
  keeping := rfl
  everyone := rfl
  companies := rfl
  commitments := rfl
  key := by rw [staffed_ledger]
  employed := by
    rw [staffed_ledger]
    exact ⟨_, rfl, rfl, rfl⟩
  funded := by
    rw [staffed_ledger]
    decide

/-- The call that makes one payment. -/
def paying (nullifier : Bytes) (period : Int) : Action Unit Answer :=
  Call.run deployment (.payments (.pay 0 (entry nullifier) period))

theorem Ready.pay {funds period : Int} {host : Host Unit} {nullifier : Bytes}
    (h : Ready (funds + 10) host) (hq : 0 ≤ period) (hn : nullifier.length = 32)
    (hu : host.ledger.nullifiers.get? nullifier = none)
    (hp : host.ledger.payments.get? ("worker", period) = none) (hf : 0 ≤ funds) :
    ∃ answer later, (paying nullifier period).run host = (.ok answer, later) ∧
      Ready funds later ∧
      later.ledger.nullifiers.entries = host.ledger.nullifiers.entries ++
        [(nullifier, ⟨nullifier, host.clock.timestamp⟩)] ∧
      later.ledger.payments.entries = host.ledger.payments.entries ++
        [(("worker", period), ⟨0, "worker", 10, nullifier, host.clock.timestamp, period⟩)] := by
  obtain ⟨binding, hb, hi, hc⟩ := h.employed
  have payable : (payday nullifier period).Payable deployment host company :=
    payday_payable hq hn (Option.filter_eq_some_iff.mpr ⟨hb, by simpa using hi⟩) hc h.commitments
      h.key h.companies h.everyone (by have := h.funded; omega)
      (Table.contains_eq_false_iff.mpr hu) (Table.contains_eq_false_iff.mpr hp)
  have hr := (run_payBatch h.depth rfl h.reachable.numbered).mpr ⟨company, payable, rfl, rfl⟩
  have settled := payable.settled h.reachable.numbered
  generalize Host.committed _ = later at hr settled
  rw [payday, payBatch_ofEntries, map_eq_pure_bind] at hr
  obtain ⟨record, reached, hpaid, hr⟩ := Action.bind_eq_ok.mp hr
  obtain ⟨-, rfl⟩ := Action.pure_eq_ok.mp hr
  have hpaying : (paying nullifier period).run host = (.ok (.payment record), reached) := by
    show (Answer.payment <$> Payroll.pay deployment 0 (entry nullifier) period).run host = _
    rw [map_eq_pure_bind]
    exact Action.bind_eq_ok.mpr ⟨record, reached, hpaid, rfl⟩
  obtain ⟨ledger, posted, hled⟩ := settled.ledger
  rw [h.keeping] at hled
  cases hled
  have reachable : Reachable deployment deployment reached := by
    have passed := h.reachable.passes
      (.ran (.base (.call (.payments (.pay 0 (entry nullifier) period)))) (.here _ _))
    rwa [Action.after, show (Call.run deployment _).run host = _ from hpaying] at passed
  refine ⟨_, reached, hpaying, ⟨reachable, settled.depth, ?_, ?_, ?_, ?_, ?_, ?_, ?_⟩,
    posted.nullifiers, posted.payments⟩
  · rw [settled.evictOnCommit, h.keeping]
  · rw [settled.authority, ← h.everyone]
  · rw [posted.companies, h.companies]
  · rw [posted.commitments, h.commitments]
  · rw [posted.verificationKey, h.key]
  · refine ⟨{ binding with lastPaymentAt := some host.clock.timestamp }, ?_, hi, hc⟩
    rw [Table.get?_eq_some_iff, posted.bindings]
    exact List.mem_map.mpr ⟨_, Table.get?_eq_some_iff.mp hb, rfl⟩
  · rw [posted.balances]
    show funds ≤ host.ledger.balance "treasury" + 0 - (10 + 0)
    have := h.funded
    omega

/-- Two nullifiers with the same scalar. -/
def low : Bytes := Bytes.bigEndian 32 1

def high : Bytes := Bytes.bigEndian 32 (1 + scalarField)

theorem staffed_unused (nullifier : Bytes) : staffed.ledger.nullifiers.get? nullifier = none := by
  rw [staffed_ledger]
  rfl

theorem staffed_unpaid (key : Principal × Int) : staffed.ledger.payments.get? key = none := by
  rw [staffed_ledger]
  rfl

theorem paying_distinct :
    ∃ answer later, (paying low 1).run staffed = (.ok answer, later) ∧
      later.ledger.payments.values ≠ [] ∧
      ∀ a ∈ later.ledger.payments.values, ∀ b ∈ later.ledger.payments.values, a ≠ b →
        Scalar.ofBigEndian a.proofHash ≠ Scalar.ofBigEndian b.proofHash := by
  have funded : Ready (90 + 10) staffed := staffed_ready
  obtain ⟨answer, later, hr, ready, -, paid⟩ := funded.pay (show (0 : Int) ≤ 1 by decide)
    (show low.length = 32 from Bytes.length_bigEndian 32 1) (staffed_unused _) (staffed_unpaid _)
    (by decide)
  have values : later.ledger.payments.values =
      [⟨0, "worker", 10, low, staffed.clock.timestamp, 1⟩] := by
    rw [Table.values, paid, staffed_ledger]
    rfl
  refine ⟨answer, later, hr, by simp [values], ?_⟩
  refine ready.reachable.distinct_scalars_iff.1.mpr fun a ha b hb k hk _ hm => ?_
  rw [values, List.mem_singleton] at ha hb
  have order : 0 < k * scalarField := Nat.mul_pos hk (by decide)
  rw [ha, hb, PaymentRecord.Moved] at hm
  omega

/-- Pays twice, for two periods. -/
def payingTwice : Action Unit Unit := do
  let _ ← paying low 1
  let _ ← paying high 2

theorem payingTwice_paid :
    Reachable deployment deployment (payingTwice.after staffed) ∧
      ¬ ∀ a ∈ (payingTwice.after staffed).ledger.payments.values,
        ∀ b ∈ (payingTwice.after staffed).ledger.payments.values, a ≠ b →
          Scalar.ofBigEndian a.proofHash ≠ Scalar.ofBigEndian b.proofHash := by
  have funded : Ready (80 + 10 + 10) staffed := staffed_ready
  obtain ⟨_, once, h₁, ready, used, paid⟩ := funded.pay (show (0 : Int) ≤ 1 by decide)
    (show low.length = 32 from Bytes.length_bigEndian 32 1) (staffed_unused _) (staffed_unpaid _)
    (by decide)
  have unusedHigh : once.ledger.nullifiers.get? high = none := by
    rw [Table.get?, used, staffed_ledger]
    decide
  have unpaidSecond : once.ledger.payments.get? ("worker", 2) = none := by
    rw [Table.get?, paid, staffed_ledger]
    rfl
  obtain ⟨_, twice, h₂, -, -, paidAgain⟩ := ready.pay (show (0 : Int) ≤ 2 by decide)
    (show high.length = 32 from Bytes.length_bigEndian 32 (1 + scalarField)) unusedHigh unpaidSecond
    (by decide)
  have reached : payingTwice.after staffed = twice := by
    rw [payingTwice, Action.after_bind_ok h₁, Action.after_bind_ok h₂]
    rfl
  have program : Program deployment payingTwice :=
    .bind (.base (.call _)) fun _ => .bind (.base (.call _)) fun _ => .pure _
  refine ⟨staffed_reachable.passes (.ran program (.here _ _)), fun distinct => ?_⟩
  rw [reached, Table.values, paidAgain, paid] at distinct
  refine distinct ⟨0, "worker", 10, low, staffed.clock.timestamp, 1⟩ (by simp [low])
    ⟨0, "worker", 10, high, once.clock.timestamp, 2⟩ (by simp [high]) (by simp) ?_
  show Scalar.ofBigEndian low = Scalar.ofBigEndian high
  decide

end Sample

end SealedPayroll
