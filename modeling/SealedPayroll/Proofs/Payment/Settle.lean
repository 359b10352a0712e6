import SealedPayroll.Proofs.Groth16.Inputs
import SealedPayroll.Proofs.Payment.Books

/-!
# Settling one entry

Inside a transaction and with a plain token ledger, an entry is settled iff
its binding, its proof, the books and the treasury allow it, and then the host
is known exactly (`settle_eq_ok`). Each step of a settlement has such a law;
the steps are put together in the order in which they run.
-/

namespace SealedPayroll

variable {σ : Type} {host later : Host σ}

-- ---------------------------------------------------------------------------
-- Tokens, nullifiers and bindings
-- ---------------------------------------------------------------------------

/-- The host after a principal's signature was asked for and found. -/
def Host.sign (host : Host σ) (principal : Principal) : Host σ :=
  { host with
    authority := { host.authority with checked := host.authority.checked ++ [principal] } }

/-- The ledger after tokens were moved. -/
def Ledger.move (ledger : Ledger) (sender recipient : Principal) (amount : Int) : Ledger :=
  let debited := ledger.putBalance sender (ledger.balance sender - amount)
  debited.putBalance recipient (debited.balance recipient + amount)

theorem Tokens.transfer_eq_ok {sender recipient : Principal} {amount : Int} {u : Unit}
    (hd : host.depth ≠ 0) :
    (transfer sender recipient amount).run host = (.ok u, later) ↔
      0 < amount ∧ host.authority.allows sender = true ∧ amount ≤ host.ledger.balance sender ∧
        { host.sign sender with
          ledger := host.ledger.move sender recipient amount
          writes := host.writes + 2 } = later := by
  rw [transfer]
  split
  · rw [Action.refuse_eq_ok]
    exact ⟨False.elim, fun h => by omega⟩
  · rename_i ha
    rw [Host.transaction_eq_ok hd]
    constructor
    · rintro ⟨inner, hr, rfl⟩
      obtain ⟨_, _, h₁, hr⟩ := Action.bind_eq_ok.mp hr
      obtain ⟨hs, rfl⟩ := Host.requireAuth_eq_ok.mp h₁
      obtain ⟨available, _, h₂, hr⟩ := Action.bind_eq_ok.mp hr
      obtain ⟨rfl, rfl⟩ := Action.read_eq_ok.mp h₂
      split at hr
      · exact (Action.refuse_eq_ok.mp hr).elim
      · rename_i hf
        cases hr
        exact ⟨Int.not_le.mp ha, hs, Int.not_lt.mp hf, rfl⟩
    · rintro ⟨-, hs, hf, rfl⟩
      refine ⟨{ host.sign sender with
        ledger := host.ledger.move sender recipient amount
        writes := host.writes + 2
        depth := host.depth + 1 }, ?_, rfl⟩
      refine Action.bind_eq_ok.mpr ⟨(), _, Host.requireAuth_eq_ok.mpr ⟨hs, rfl⟩,
        Action.bind_eq_ok.mpr ⟨_, _, Action.read_eq_ok.mpr ⟨rfl, rfl⟩, ?_⟩⟩
      rw [if_neg (Int.not_lt.mpr hf)]
      rfl

theorem Nullifiers.use_eq_ok {value : Bytes} {usage : NullifierRecord} (hd : host.depth ≠ 0) :
    (use value).run host = (.ok usage, later) ↔
      isUsed host.ledger value = false ∧ value.length = 32 ∧
        ⟨value, host.clock.timestamp⟩ = usage ∧
        { host with
          ledger := host.ledger.useUp value host.clock.timestamp
          writes := host.writes + 1 } = later := by
  rw [use, Host.transaction_eq_ok hd]
  constructor
  · rintro ⟨inner, hr, rfl⟩
    obtain ⟨_, _, h₁, hr⟩ := Action.bind_eq_ok.mp hr
    obtain ⟨rfl, rfl⟩ := Action.read_eq_ok.mp h₁
    split at hr
    · exact (Action.refuse_eq_ok.mp hr).elim
    · rename_i hu
      obtain ⟨_, _, h₂, hr⟩ := Action.bind_eq_ok.mp hr
      obtain ⟨rfl, rfl⟩ := Action.read_eq_ok.mp h₂
      obtain ⟨_, _, h₃, hr⟩ := Action.bind_eq_ok.mp hr
      obtain ⟨hm, rfl⟩ := Action.build_eq_ok.mp h₃
      obtain ⟨hv, rfl⟩ := NullifierRecord.make_eq_valid.mp hm
      cases hr
      exact ⟨Bool.not_eq_true _ ▸ hu, hv, rfl, rfl⟩
  · rintro ⟨hu, hv, rfl, rfl⟩
    refine ⟨{ host with
      ledger := host.ledger.useUp value host.clock.timestamp
      writes := host.writes + 1
      depth := host.depth + 1 }, ?_, rfl⟩
    refine Action.bind_eq_ok.mpr ⟨_, _, Action.read_eq_ok.mpr ⟨rfl, rfl⟩, ?_⟩
    rw [if_neg (by simpa using hu)]
    exact Action.bind_eq_ok.mpr ⟨_, _, Action.read_eq_ok.mpr ⟨rfl, rfl⟩,
      Action.bind_eq_ok.mpr ⟨_, _, Action.build_eq_ok.mpr
        ⟨NullifierRecord.make_eq_valid.mpr ⟨hv, rfl⟩, rfl⟩, rfl⟩⟩

theorem Registry.administered_eq_ok {id : Int} {company : Company} :
    (administered id).run host = (.ok company, later) ↔
      host.ledger.companies.get? id = some company ∧
        host.authority.allows company.admin = true ∧ host.sign company.admin = later := by
  constructor
  · intro h
    obtain ⟨found, _, h₁, h⟩ := Action.bind_eq_ok.mp h
    obtain ⟨hf, rfl⟩ := Action.expect_eq_ok.mp h₁
    obtain ⟨_, _, h₂, h⟩ := Action.bind_eq_ok.mp h
    obtain ⟨ha, rfl⟩ := Host.requireAuth_eq_ok.mp h₂
    obtain ⟨rfl, rfl⟩ := Action.pure_eq_ok.mp h
    exact ⟨hf, ha, rfl⟩
  · rintro ⟨hf, ha, rfl⟩
    exact Action.bind_eq_ok.mpr ⟨_, _, Action.expect_eq_ok.mpr ⟨hf, rfl⟩,
      Action.bind_eq_ok.mpr ⟨(), _, Host.requireAuth_eq_ok.mpr ⟨ha, rfl⟩, rfl⟩⟩

theorem Registry.recordPayment_eq_ok {id timestamp : Int} {name : Principal} {updated : Binding}
    (hd : host.depth ≠ 0) :
    (recordPayment id name timestamp).run host = (.ok updated, later) ↔
      ∃ company binding, host.ledger.companies.get? id = some company ∧
        host.authority.allows company.admin = true ∧
        employed? host.ledger id name = some binding ∧
        { binding with lastPaymentAt := some timestamp } = updated ∧
        { host.sign company.admin with
          ledger := host.ledger.putBinding name updated
          writes := host.writes + 1 } = later := by
  rw [recordPayment, Host.transaction_eq_ok hd]
  constructor
  · rintro ⟨inner, hr, rfl⟩
    obtain ⟨company, _, h₁, hr⟩ := Action.bind_eq_ok.mp hr
    obtain ⟨hc, ha, rfl⟩ := administered_eq_ok.mp h₁
    obtain ⟨binding, _, h₂, hr⟩ := Action.bind_eq_ok.mp hr
    obtain ⟨hb, rfl⟩ := Action.expect_eq_ok.mp h₂
    cases hr
    exact ⟨company, binding, hc, ha, hb, rfl, rfl⟩
  · rintro ⟨company, binding, hc, ha, hb, rfl, rfl⟩
    exact ⟨_, Action.bind_eq_ok.mpr ⟨company, _, administered_eq_ok.mpr ⟨hc, ha, rfl⟩,
      Action.bind_eq_ok.mpr ⟨binding, _, Action.expect_eq_ok.mpr ⟨hb, rfl⟩, rfl⟩⟩, rfl⟩

-- ---------------------------------------------------------------------------
-- Approval
-- ---------------------------------------------------------------------------

/-- What the backend is asked about a proof. -/
def Verifier.asked (backend : PairingBackend) (ledger : Ledger) (proof : Proof)
    (inputs : List Bytes) : Transcript :=
  match ledger.verificationKey with
  | some key => (Groth16.verdict backend key proof inputs).1
  | none => .empty

theorem Verifier.verify_eq_ok {backend : PairingBackend} {proof : Proof} {inputs : List Bytes}
    {accepted : Bool} :
    (verify backend proof inputs).run host = (.ok accepted, later) ↔
      ((verify backend proof inputs).run host).1 = .ok accepted ∧
        { host with
          transcript := host.transcript.append (asked backend host.ledger proof inputs) } =
            later := by
  cases hk : host.ledger.verificationKey with
  | none =>
    simp only [verify, Action.run_bind, Action.run_expect, hk]
    exact ⟨fun h => (nomatch h), fun h => (nomatch h.1)⟩
  | some key =>
    simp only [verify, asked, Action.run_bind, Action.run_expect, Action.run_change, hk]
    cases (Groth16.verdict backend key proof inputs).2 with
    | error fault => exact ⟨fun h => (nomatch h), fun h => (nomatch h.1)⟩
    | ok answer =>
      simp only [Action.run_ofExcept_ok, Prod.mk.injEq]

theorem Verifier.of_verify_accepted {backend : PairingBackend} {proof : Proof}
    {inputs : List Bytes} (h : ((verify backend proof inputs).run host).1 = .ok true) :
    ∀ input ∈ inputs, input.length = 32 := by
  cases hk : host.ledger.verificationKey with
  | none =>
    simp only [verify, Action.run_bind, Action.run_expect, hk] at h
    cases h
  | some key =>
    simp only [verify, Action.run_bind, Action.run_expect, Action.run_change, hk] at h
    refine Groth16.of_verdict_accepted
      (?_ : (Groth16.verdict backend key proof inputs).2 = .ok true)
    cases hv : (Groth16.verdict backend key proof inputs).2 with
    | error fault =>
      rw [hv] at h
      cases h
    | ok answer =>
      rw [hv] at h
      cases h
      rfl

namespace Payroll

variable {d : Deployment σ} {company : Company} {period : Int} {index : Nat} {entry : Entry}

/-- An entry whose binding agrees with the stored commitment and whose proof is accepted. -/
def Entry.Approved (d : Deployment σ) (company : Int) (host : Host σ) (entry : Entry) : Prop :=
  ∃ binding stored recipient,
    Registry.employed? host.ledger company entry.employee = some binding ∧
      host.ledger.commitments.get? entry.employee = some stored ∧
      binding.commitment = stored.commitment ∧
      recipientHash entry.employee = .ok recipient ∧
      ((Verifier.verifyPayment d.backend entry.proof stored.commitment entry.nullifier
        recipient).run host).1 = .ok true

/-- What the backend is asked about an entry. -/
def Entry.asked (d : Deployment σ) (ledger : Ledger) (entry : Entry) : Transcript :=
  match ledger.commitments.get? entry.employee, recipientHash entry.employee with
  | some stored, .ok recipient =>
    Verifier.asked d.backend ledger entry.proof [stored.commitment, entry.nullifier, recipient]
  | _, _ => .empty

theorem Entry.Approved.recipient {id : Int} (h : entry.Approved d id host) :
    entry.employee ≠ "" := by
  obtain ⟨_, _, recipient, -, -, -, hr, -⟩ := h
  rintro he
  rw [he] at hr
  cases hr

theorem Entry.Approved.size {id : Int} (h : entry.Approved d id host) :
    entry.nullifier.length = 32 := by
  obtain ⟨_, stored, recipient, -, -, -, -, hv⟩ := h
  exact Verifier.of_verify_accepted hv entry.nullifier (by simp)

theorem approve_eq_ok :
    (approve d company index entry).run host = (.ok (), later) ↔
      entry.Approved d company.id host ∧
        { host with
          transcript := host.transcript.append (entry.asked d host.ledger) } = later := by
  constructor
  · intro h
    obtain ⟨binding, _, h₁, h⟩ := Action.bind_eq_ok.mp h
    obtain ⟨hb, rfl⟩ := Action.expect_eq_ok.mp h₁
    obtain ⟨stored, _, h₂, h⟩ := Action.bind_eq_ok.mp h
    obtain ⟨hs, rfl⟩ := Action.expect_eq_ok.mp h₂
    split at h
    · exact (Action.refuse_eq_ok.mp h).elim
    · rename_i hc
      obtain ⟨recipient, _, h₃, h⟩ := Action.bind_eq_ok.mp h
      obtain ⟨hr, rfl⟩ := Action.ofExcept_eq_ok.mp h₃
      obtain ⟨accepted, _, h₄, h⟩ := Action.bind_eq_ok.mp h
      obtain ⟨hv, rfl⟩ := Verifier.verify_eq_ok.mp h₄
      split at h
      · rename_i ha
        obtain ⟨-, rfl⟩ := Action.pure_eq_ok.mp h
        refine ⟨⟨binding, stored, recipient, hb, hs, Decidable.not_not.mp hc, hr, ha ▸ hv⟩, ?_⟩
        simp only [Entry.asked, hs, hr]
      · exact (Action.refuse_eq_ok.mp h).elim
  · rintro ⟨⟨binding, stored, recipient, hb, hs, hc, hr, hv⟩, rfl⟩
    refine Action.bind_eq_ok.mpr ⟨binding, host, Action.expect_eq_ok.mpr ⟨hb, rfl⟩,
      Action.bind_eq_ok.mpr ⟨stored, host, Action.expect_eq_ok.mpr ⟨hs, rfl⟩, ?_⟩⟩
    rw [if_neg (Decidable.not_not.mpr hc)]
    refine Action.bind_eq_ok.mpr ⟨recipient, host, Action.ofExcept_eq_ok.mpr ⟨hr, rfl⟩,
      Action.bind_eq_ok.mpr ⟨true, _, Verifier.verify_eq_ok.mpr ⟨hv, rfl⟩, ?_⟩⟩
    simp only [if_true, Entry.asked, hs, hr, Action.run_pure]

-- ---------------------------------------------------------------------------
-- Settlement
-- ---------------------------------------------------------------------------

end Payroll

/-- The ledger with the binding of an employee brought up to date. -/
def Ledger.note (ledger : Ledger) (employee : Principal) (timestamp : Int) : Ledger :=
  { ledger with
    bindings :=
      match ledger.bindings.get? employee with
      | some binding => ledger.bindings.insert employee { binding with lastPaymentAt := timestamp }
      | none => ledger.bindings
    arrivals :=
      match ledger.bindings.get? employee with
      | some _ => ledger.arrived (.binding employee)
      | none => ledger.arrivals }

/-- The ledger with a payment settled from a treasury. -/
def Ledger.settle (ledger : Ledger) (treasury : Principal) (record : PaymentRecord) : Ledger :=
  (((ledger.useUp record.proofHash record.timestamp).post record).note record.employee
    record.timestamp).move treasury record.employee record.amount

namespace Payroll

variable {d : Deployment σ} {company : Company} {period : Int} {index : Nat} {entry : Entry}

theorem enter_eq_ok {record : PaymentRecord} (hd : host.depth ≠ 0)
    (hc : host.ledger.companies.get? company.id = some company)
    (ha : host.authority.allows company.admin = true) (he : entry.employee ≠ "") :
    (enter company period entry).run host = (.ok record, later) ↔
      Nullifiers.isUsed host.ledger entry.nullifier = false ∧ entry.nullifier.length = 32 ∧
        isPaid host.ledger entry.employee period = false ∧ 0 < entry.amount ∧ 0 ≤ period ∧
        Registry.isEmployee host.ledger company.id entry.employee = true ∧
        entry.record company period host = record ∧
        { host.sign company.admin with
          ledger := ((host.ledger.useUp record.proofHash record.timestamp).post record).note
            record.employee record.timestamp
          writes := host.writes + 4 } = later := by
  constructor
  · intro h
    obtain ⟨usage, between, hu, h⟩ := Action.bind_eq_ok.mp h
    obtain ⟨hn, hv, rfl, rfl⟩ := (Nullifiers.use_eq_ok hd).mp hu
    rcases run_book company period entry _ with ⟨failure, hr⟩ | ⟨hp, hr⟩
    · rw [hr] at h
      cases h
    · rw [run_book_due hp hr, map_eq_pure_bind] at h
      obtain ⟨updated, reached, h₂, h⟩ := Action.bind_eq_ok.mp h
      obtain ⟨found, binding, hf, -, hb, rfl, rfl⟩ :=
        (Registry.recordPayment_eq_ok (by exact hd)).mp h₂
      obtain ⟨rfl, rfl⟩ := Action.pure_eq_ok.mp h
      cases hf.symm.trans hc
      obtain ⟨hg, -⟩ := Option.filter_eq_some_iff.mp hb
      refine ⟨hn, hv, hp, hr.2.1, hr.2.2.2, Option.isSome_iff_exists.mpr ⟨binding, hb⟩, rfl, ?_⟩
      simp only [Ledger.note, Ledger.post, Ledger.useUp, Ledger.putTotal, Ledger.putPayment,
        Ledger.putNullifier, Entry.record] at hg ⊢
      rw [hg]
      rfl
  · rintro ⟨hn, hv, hp, hm, hq, hb, rfl, rfl⟩
    obtain ⟨binding, hb⟩ := Option.isSome_iff_exists.mp hb
    refine Action.bind_eq_ok.mpr ⟨_, _, (Nullifiers.use_eq_ok hd).mpr ⟨hn, hv, rfl, rfl⟩, ?_⟩
    rw [run_book_due (by exact hp) ⟨he, hm, hv, hq⟩, map_eq_pure_bind]
    refine Action.bind_eq_ok.mpr ⟨_, _, (Registry.recordPayment_eq_ok (by exact hd)).mpr
      ⟨company, binding, hc, ha, hb, rfl, rfl⟩, ?_⟩
    obtain ⟨hg, -⟩ := Option.filter_eq_some_iff.mp hb
    simp only [Action.run_pure, Ledger.note, Ledger.post, Ledger.useUp, Ledger.putTotal,
      Ledger.putPayment, Ledger.putNullifier, Entry.record] at hg ⊢
    rw [hg]
    rfl

/-- The event that announces the payment of an entry. -/
def Entry.announcement (company : Company) (period : Int) (clock : Clock) (entry : Entry) :
    Event :=
  ⟨PaymentEvent.topics company.id, PaymentEvent.payload entry.employee entry.amount period,
    clock.timestamp, clock.sequence⟩

/-- The host after an entry was settled. -/
def Entry.settled (d : Deployment σ) (company : Company) (period : Int) (host : Host σ)
    (entry : Entry) : Host σ :=
  { (host.sign company.admin).sign company.treasury with
    ledger := host.ledger.settle company.treasury (entry.record company period host)
    writes := host.writes + 6
    events :=
      if d.config.executor.emitEvents then
        host.events ++ [entry.announcement company period host.clock]
      else host.events
    transcript := host.transcript.append (entry.asked d host.ledger) }

/-- What has to hold of an entry for it to be settled, besides its amount and the treasury. -/
structure Entry.Due (d : Deployment σ) (company period : Int) (host : Host σ) (entry : Entry) :
    Prop where
  approved : entry.Approved d company host
  unused : Nullifiers.isUsed host.ledger entry.nullifier = false
  unpaid : isPaid host.ledger entry.employee period = false

/-- The announcement, where there is one, comes last and changes the events only. -/
theorem run_announced (d : Deployment σ) (topics data : List Datum) (record : PaymentRecord)
    (host : Host σ) :
    (if d.config.executor.emitEvents then do
        let _ ← Host.publish topics data
        return record
      else return record : Action σ PaymentRecord).run host =
      (.ok record, { host with
        events :=
          if d.config.executor.emitEvents then
            host.events ++ [⟨topics, data, host.clock.timestamp, host.clock.sequence⟩]
          else host.events }) := by
  split <;> rfl

theorem settle_eq_ok {record : PaymentRecord} (ht : d.tokens = .plain) (hd : host.depth ≠ 0)
    (hc : host.ledger.companies.get? company.id = some company)
    (ha : host.authority.allows company.admin = true) (hp : 0 ≤ period) (hm : 0 < entry.amount) :
    (settle d company period index entry).run host = (.ok record, later) ↔
      entry.Due d company.id period host ∧ host.authority.allows company.treasury = true ∧
        entry.amount ≤ host.ledger.balance company.treasury ∧
        entry.record company period host = record ∧
        entry.settled d company period host = later := by
  constructor
  · intro h
    obtain ⟨_, approved, h₁, h⟩ := Action.bind_eq_ok.mp h
    obtain ⟨hap, rfl⟩ := approve_eq_ok.mp h₁
    obtain ⟨entered, start, h₂, h⟩ := Action.bind_eq_ok.mp h
    obtain ⟨hu, -, hn, -, -, -, rfl, rfl⟩ := (enter_eq_ok (by exact hd) (by exact hc)
      (by exact ha) hap.recipient).mp h₂
    rw [ht] at h
    obtain ⟨_, paid, h₃, h⟩ := Action.bind_eq_ok.mp h
    obtain ⟨-, hs, hf, rfl⟩ := (Tokens.transfer_eq_ok (by exact hd)).mp h₃
    rw [run_announced] at h
    cases h
    exact ⟨⟨hap, hu, hn⟩, hs, hf, rfl, rfl⟩
  · rintro ⟨⟨hap, hu, hn⟩, hs, hf, rfl, rfl⟩
    obtain ⟨binding, -, -, hb, -⟩ := id hap
    have he : Registry.isEmployee host.ledger company.id entry.employee = true :=
      Option.isSome_iff_exists.mpr ⟨binding, hb⟩
    refine Action.bind_eq_ok.mpr ⟨(), _, approve_eq_ok.mpr ⟨hap, rfl⟩,
      Action.bind_eq_ok.mpr ⟨_, _, (enter_eq_ok (by exact hd) (by exact hc) (by exact ha)
        hap.recipient).mpr ⟨hu, hap.size, hn, hm, hp, he, rfl, rfl⟩, ?_⟩⟩
    rw [ht]
    refine Action.bind_eq_ok.mpr ⟨(), _, (Tokens.transfer_eq_ok (by exact hd)).mpr
      ⟨hm, hs, hf, rfl⟩, ?_⟩
    rw [run_announced]
    rfl

end Payroll

end SealedPayroll
