import SealedPayroll.Proofs.Payment.BatchEffect
import SealedPayroll.Proofs.Groth16.Structural
import SealedPayroll.Proofs.Session.Public
import SealedPayroll.Proofs.Host.Mutations

/-!
# Paying a batch

When a batch that is handed in from outside is paid, and what paying it
changes, both said of the host before the call. The token ledger is the plain
one here; what holds when it calls back is another matter.
-/

namespace SealedPayroll

variable {σ : Type} {base d : Deployment σ} {host later : Host σ}

-- ---------------------------------------------------------------------------
-- Companies stand under their numbers
-- ---------------------------------------------------------------------------

/-- Every company is stored under its own number. -/
def Ledger.Numbered (l : Ledger) : Prop :=
  ∀ id company, l.companies.get? id = some company → company.id = id

theorem Ledger.Write.numbered {part : Ledger.Part} {f : Ledger → Ledger} (h : Ledger.Write part f)
    {l : Ledger} (hl : l.Numbered) : (f l).Numbered := by
  cases h with
  | company company =>
    intro id found hf
    simp only [Ledger.putCompany, Table.get?_insert] at hf
    split at hf
    · cases hf
      assumption
    · exact hl id found hf
  | _ => exact hl

theorem Reachable.numbered (h : Reachable base d host) : host.ledger.Numbered := by
  refine h.invariant ?_ (fun _ _ _ hl => hl) fun _ _ hw _ hl => hw.numbered hl
  intro id company found
  cases found

-- ---------------------------------------------------------------------------
-- Screening
-- ---------------------------------------------------------------------------

namespace Payroll

variable {batch : Batch} {company : Company}

namespace Batch

theorem isAligned_iff : batch.isAligned = true ↔
    batch.amounts.length = batch.employees.length ∧ batch.proofs.length = batch.employees.length ∧
      batch.nullifiers.length = batch.employees.length := by
  simp [isAligned, and_assoc]

theorem defect?_eq_none {config : ExecutorConfig} :
    batch.defect? config = none ↔
      batch.isAligned = true ∧ batch.employees.length ≤ config.maxBatchSize ∧
        (∀ amount ∈ batch.amounts, 0 < amount) ∧ 0 ≤ batch.period := by
  have positive : batch.amounts.find? (· ≤ 0) = none ↔ ∀ amount ∈ batch.amounts, 0 < amount := by
    simp
  unfold defect?
  cases ha : batch.isAligned with
  | false => simp
  | true =>
    by_cases hs : config.maxBatchSize < batch.employees.length
    · simp only [Bool.not_true, Bool.false_eq_true, if_false, if_pos hs, reduceCtorEq, false_iff]
      exact fun h => absurd h.2.1 (Int.not_le.mpr hs)
    · cases hf : batch.amounts.find? (· ≤ 0) with
      | some amount =>
        rw [← positive, hf]
        simp [hs]
      | none =>
        rw [← positive, hf]
        simp only [Bool.not_true, Bool.false_eq_true, if_false, if_neg hs, true_and]
        split
        · simp
          omega
        · simp
          omega

theorem map_rows {employees : List Principal} {amounts : List Int} {proofs : List Proof}
    {nullifiers : List Bytes} (ha : amounts.length = employees.length)
    (hp : proofs.length = employees.length) (hn : nullifiers.length = employees.length) :
    (rows employees amounts proofs nullifiers).map (·.employee) = employees ∧
      (rows employees amounts proofs nullifiers).map (·.amount) = amounts ∧
      (rows employees amounts proofs nullifiers).map (·.nullifier) = nullifiers := by
  induction employees generalizing amounts proofs nullifiers with
  | nil =>
    cases List.length_eq_zero_iff.mp ha
    cases List.length_eq_zero_iff.mp hn
    exact ⟨rfl, rfl, rfl⟩
  | cons employee employees ih =>
    obtain ⟨amount, amounts, rfl⟩ := List.exists_cons_of_length_eq_add_one ha
    obtain ⟨proof, proofs, rfl⟩ := List.exists_cons_of_length_eq_add_one hp
    obtain ⟨nullifier, nullifiers, rfl⟩ := List.exists_cons_of_length_eq_add_one hn
    simp only [List.length_cons, Nat.add_right_cancel_iff] at ha hp hn
    obtain ⟨he, hm, hv⟩ := ih ha hp hn
    simp only [rows, List.map_cons, he, hm, hv, and_self]

/-- The entries of a batch without a defect are for positive amounts. -/
theorem positive_of_sound {config : ExecutorConfig} (h : batch.defect? config = none) :
    0 ≤ batch.period ∧ ∀ entry ∈ batch.entries, 0 < entry.amount := by
  obtain ⟨aligned, -, positive, period⟩ := defect?_eq_none.mp h
  obtain ⟨ha, hp, hn⟩ := isAligned_iff.mp aligned
  obtain ⟨-, amounts, -⟩ := map_rows ha hp hn
  refine ⟨period, fun entry member => ?_⟩
  apply positive
  rw [← amounts]
  exact List.mem_map_of_mem member

end Batch

theorem screen_eq_ok :
    (screen d batch).run host = (.ok company, later) ↔
      batch.defect? d.config.executor = none ∧ host.ledger.verificationKey ≠ none ∧
        host.ledger.companies.get? batch.company = some company ∧
        host.authority.allows company.admin = true ∧ host.sign company.admin = later := by
  unfold screen
  cases hd : batch.defect? d.config.executor with
  | some error => simp
  | none =>
    dsimp only
    rw [Action.bind_eq_ok]
    constructor
    · rintro ⟨key, _, hk, h⟩
      obtain ⟨rfl, rfl⟩ := Action.read_eq_ok.mp hk
      split at h
      · exact (Action.refuse_eq_ok.mp h).elim
      · rename_i hn
        exact ⟨rfl, by simpa using hn, Registry.administered_eq_ok.mp h⟩
    · rintro ⟨-, hk, h⟩
      refine ⟨_, _, Action.read_eq_ok.mpr ⟨rfl, rfl⟩, ?_⟩
      rw [if_neg (by simpa using hk)]
      exact Registry.administered_eq_ok.mpr h

-- ---------------------------------------------------------------------------
-- When a batch is paid, and what that changes
-- ---------------------------------------------------------------------------

/-- What has to hold of a batch and a company before the call for the batch to be paid. -/
structure Batch.Payable (d : Deployment σ) (host : Host σ) (company : Company) (batch : Batch) :
    Prop where
  aligned : batch.amounts.length = batch.employees.length ∧
    batch.proofs.length = batch.employees.length ∧
    batch.nullifiers.length = batch.employees.length
  size : batch.employees.length ≤ d.config.executor.maxBatchSize
  amounts : ∀ amount ∈ batch.amounts, 0 < amount
  period : 0 ≤ batch.period
  key : host.ledger.verificationKey ≠ none
  registered : host.ledger.companies.get? batch.company = some company
  admin : host.authority.allows company.admin = true
  payees : batch.employees.Nodup
  nullifiers : batch.nullifiers.Nodup
  due : ∀ entry ∈ batch.entries, entry.Due d batch.company batch.period host
  signed : batch.employees ≠ [] → host.authority.allows company.treasury = true
  covered : ∀ i entry, batch.entries[i]? = some entry →
    entry.amount ≤ host.ledger.balance company.treasury -
      (((batch.entries.take i).filter (·.employee ≠ company.treasury)).map (·.amount)).sum

/-- What paying a batch makes of a host: the payments are on the ledger, expired entries may have
been swept afterwards, and nothing else has changed. -/
structure Batch.Settled (d : Deployment σ) (host : Host σ) (company : Company) (batch : Batch)
    (records : List PaymentRecord) (later : Host σ) : Prop where
  made : records = batch.entries.map fun entry =>
    ⟨batch.company, entry.employee, entry.amount, entry.nullifier, host.clock.timestamp,
      batch.period⟩
  ledger : ∃ ledger, Ledger.Paid company.treasury host.clock.timestamp records host.ledger ledger ∧
    later.ledger = if host.evictOnCommit then
      ledger.evict host.clock.timestamp host.clock.sequence else ledger
  events : later.events =
    if d.config.executor.emitEvents then
      host.events ++ batch.entries.map (·.announcement company batch.period host.clock)
    else host.events
  authority : later.authority = { host.authority with
    checked := host.authority.checked ++ company.admin ::
      batch.entries.flatMap fun _ => [company.admin, company.treasury] }
  transcript : later.transcript = batch.entries.foldl
    (fun asked entry => asked.append (entry.asked d host.ledger)) host.transcript
  writes : later.writes = host.writes + 6 * batch.entries.length +
    if host.evictOnCommit ∧ host.ledger.expiredCount host.clock.timestamp host.clock.sequence ≠ 0
    then 1 else 0
  depth : later.depth = 0
  clock : later.clock = host.clock
  evictOnCommit : later.evictOnCommit = host.evictOnCommit
  attached : later.attached = host.attached

theorem Batch.payable_iff (hn : host.ledger.Numbered) :
    batch.Payable d host company ↔
      (batch.defect? d.config.executor = none ∧ host.ledger.verificationKey ≠ none ∧
        host.ledger.companies.get? batch.company = some company ∧
        host.authority.allows company.admin = true) ∧
        Settleable d company batch.period host batch.entries := by
  rw [defect?_eq_none, isAligned_iff]
  constructor
  · rintro ⟨⟨ha, hp, hv⟩, hs, hm, hq, hk, hc, had, hpay, hnull, hdue, hsign, hcov⟩
    obtain ⟨he, -, hv'⟩ := map_rows ha hp hv
    refine ⟨⟨⟨⟨ha, hp, hv⟩, hs, hm, hq⟩, hk, hc, had⟩, ?_, ?_, ?_, ?_, hcov⟩
    · rwa [hn _ _ hc]
    · rwa [entries, he]
    · rwa [entries, hv']
    · intro hne
      refine hsign fun h => hne (List.map_eq_nil_iff.mp (he.trans h))
  · rintro ⟨⟨⟨⟨ha, hp, hv⟩, hs, hm, hq⟩, hk, hc, had⟩, hdue, hpay, hnull, hsign, hcov⟩
    obtain ⟨he, -, hv'⟩ := map_rows ha hp hv
    rw [entries] at hpay hnull
    rw [he] at hpay
    rw [hv'] at hnull
    refine ⟨⟨ha, hp, hv⟩, hs, hm, hq, hk, hc, had, hpay, hnull, ?_, ?_, hcov⟩
    · rwa [hn _ _ hc] at hdue
    · intro hne
      exact hsign fun h => hne (he.symm.trans (List.map_eq_nil_iff.mpr h))

/-- A batch that can be paid is. -/
theorem run_payBatch (h0 : host.depth = 0) (ht : d.tokens = .plain) (hn : host.ledger.Numbered)
    {records : List PaymentRecord} :
    (payBatch d batch).run host = (.ok records, later) ↔
      ∃ company, batch.Payable d host company ∧
        batch.entries.map (·.record company batch.period host) = records ∧
        Host.committed (settledAll d company batch.period
          (Host.sign { host with depth := 1 } company.admin) batch.entries) = later := by
  have same (company : Company) : Settleable d company batch.period
      (Host.sign { host with depth := 1 } company.admin) batch.entries ↔
        Settleable d company batch.period host batch.entries := settleable_congr (.refl _) rfl
  rw [payBatch, Host.outermost_eq_ok h0]
  constructor
  · rintro ⟨inner, h, rfl⟩
    obtain ⟨company, _, h₁, h⟩ := Action.bind_eq_ok.mp h
    obtain ⟨hd, hk, hc, ha, rfl⟩ := screen_eq_ok.mp h₁
    have hid : company.id = batch.company := hn _ _ hc
    obtain ⟨hq, hm⟩ := Batch.positive_of_sound hd
    obtain ⟨hset, rfl, rfl⟩ := (settleFrom_eq_ok ht (by exact Nat.one_ne_zero)
      (by rw [hid]; exact hc) (by exact ha) hq hm).mp h
    exact ⟨company, (Batch.payable_iff hn).mpr ⟨⟨hd, hk, hc, ha⟩, (same company).mp hset⟩, rfl, rfl⟩
  · rintro ⟨company, hpay, rfl, rfl⟩
    obtain ⟨⟨hd, hk, hc, ha⟩, hset⟩ := (Batch.payable_iff hn).mp hpay
    have hid : company.id = batch.company := hn _ _ hc
    obtain ⟨hq, hm⟩ := Batch.positive_of_sound hd
    exact ⟨_, Action.bind_eq_ok.mpr ⟨company, _, screen_eq_ok.mpr ⟨hd, hk, hc, ha, rfl⟩,
      (settleFrom_eq_ok ht (by exact Nat.one_ne_zero) (by rw [hid]; exact hc) (by exact ha) hq
        hm).mpr ⟨(same company).mpr hset, rfl, rfl⟩⟩, rfl⟩

theorem Host.committed_eq (reached : Host σ) :
    Host.committed reached =
      { reached with
        depth := 0
        ledger := if reached.evictOnCommit then
          reached.ledger.evict reached.clock.timestamp reached.clock.sequence else reached.ledger
        writes := reached.writes + if reached.evictOnCommit ∧
          reached.ledger.expiredCount reached.clock.timestamp reached.clock.sequence ≠ 0
          then 1 else 0 } := by
  cases he : reached.evictOnCommit with
  | false => simp [Host.committed, he]
  | true =>
    by_cases hn : reached.ledger.expiredCount reached.clock.timestamp reached.clock.sequence = 0 <;>
      simp [Host.committed, he, Action.run, Host.evictExpired, hn]

/-- What paying a batch changes. -/
theorem Batch.Payable.settled (h : batch.Payable d host company) (hn : host.ledger.Numbered) :
    batch.Settled d host company (batch.entries.map (·.record company batch.period host))
      (Host.committed (settledAll d company batch.period
        (Host.sign { host with depth := 1 } company.admin) batch.entries)) := by
  have hid : company.id = batch.company := hn _ _ h.registered
  let start := Host.sign { host with depth := 1 } company.admin
  have same : Settleable d company batch.period start batch.entries ↔
      Settleable d company batch.period host batch.entries := settleable_congr (.refl _) rfl
  have paid := settledAll_paid (same.mpr ((payable_iff hn).mp h).2)
  have hexpired : (settledAll d company batch.period start batch.entries).ledger.expiredCount
      host.clock.timestamp host.clock.sequence =
        host.ledger.expiredCount host.clock.timestamp host.clock.sequence := by
    rw [Ledger.expiredCount, paid.viewKeys, paid.foreignExpiring]
    rfl
  rw [Host.committed_eq, settledAll_host]
  refine ⟨?_, ⟨_, paid, rfl⟩, rfl, ?_, rfl, ?_, rfl, rfl, rfl, rfl⟩
  · simp only [Entry.record, hid]
  · simp [Host.sign]
  · show host.writes + 6 * batch.entries.length + (if host.evictOnCommit = true ∧
      (settledAll d company batch.period start batch.entries).ledger.expiredCount
        host.clock.timestamp host.clock.sequence ≠ 0 then 1 else 0) = _
    simp only [hexpired]

/-- A batch that is refused leaves ledger and events as they were. -/
theorem payBatch_error {failure : Failure} (ht : d.tokens = .plain) (h0 : host.depth = 0)
    (hr : (payBatch d batch).run host = (.error failure, later)) :
    later.ledger = host.ledger ∧ later.events = host.events ∧ later.depth = 0 :=
  (Host.transaction_failed (settlement_footprint (Deployment.operational_of_plain ht) batch) h0
    hr).1

/-- With the plain token ledger and outside of any transaction, a batch is paid iff it is payable
as the host was before the call; then exactly the payments are made, and otherwise nothing
happens to the ledger and the events. -/
theorem payBatch_iff (h : Reachable base d host) (h0 : host.depth = 0) (ht : d.tokens = .plain)
    (batch : Batch) :
    ((∃ records later, (payBatch d batch).run host = (.ok records, later)) ↔
        ∃ company, batch.Payable d host company) ∧
      (∀ records later, (payBatch d batch).run host = (.ok records, later) →
        ∃ company, host.ledger.companies.get? batch.company = some company ∧
          batch.Settled d host company records later) ∧
      ∀ failure later, (payBatch d batch).run host = (.error failure, later) →
        later.ledger = host.ledger ∧ later.events = host.events ∧ later.depth = 0 := by
  have hn := h.numbered
  refine ⟨?_, ?_, ?_⟩
  · constructor
    · rintro ⟨records, later, hr⟩
      obtain ⟨company, hp, -⟩ := (run_payBatch h0 ht hn).mp hr
      exact ⟨company, hp⟩
    · rintro ⟨company, hp⟩
      exact ⟨_, _, (run_payBatch h0 ht hn).mpr ⟨company, hp, rfl, rfl⟩⟩
  · rintro records later hr
    obtain ⟨company, hp, rfl, rfl⟩ := (run_payBatch h0 ht hn).mp hr
    exact ⟨company, hp.registered, hp.settled hn⟩
  · intro failure later hr
    exact payBatch_error ht h0 hr

end Payroll

-- ---------------------------------------------------------------------------
-- Single payments
-- ---------------------------------------------------------------------------

theorem Host.transaction_map {α β : Type} (f : α → β) (body : Action σ α) :
    transaction (f <$> body) = f <$> transaction body := by
  rw [map_eq_pure_bind, map_eq_pure_bind]
  funext host
  show (transaction (body >>= fun a => pure (f a))).run host =
    (transaction body >>= fun a => pure (f a)).run host
  rw [Action.run_bind]
  by_cases h0 : host.depth = 0
  · rcases hr : body.run { host with depth := 1 } with ⟨failure | a, reached⟩
    · rw [transaction_error h0 hr, transaction_error h0 (Action.run_bind_error hr)]
    · rw [transaction_ok h0 hr, transaction_ok (a := f a) h0 (by rw [Action.run_bind_ok hr]; rfl)]
      rfl
  · rw [transaction_nested h0, transaction_nested h0, Action.run_bind]
    rcases body.run { host with depth := host.depth + 1 } with ⟨failure | a, reached⟩ <;> rfl

/-- A single payment is a batch of one. -/
theorem Payroll.payBatch_ofEntries (d : Deployment σ) (company : Int) (entry : Entry)
    (period : Int) :
    payBatch d (.ofEntries company [entry] period) =
      (fun record => [record]) <$> pay d company entry period := by
  rw [pay, ← Host.transaction_map, payBatch]
  congr 1
  rw [map_eq_pure_bind, Action.bind_bind]
  congr 1

theorem Payroll.after_pay (d : Deployment σ) (company : Int) (entry : Entry) (period : Int)
    (host : Host σ) : (pay d company entry period).after host =
      (payBatch d (.ofEntries company [entry] period)).after host := by
  rw [payBatch_ofEntries, Action.after_map]

/-- Whatever is asked about payments leaves what some batch leaves, or all as it was. -/
theorem PaymentCall.after_cases (d : Deployment σ) (call : PaymentCall) (host : Host σ) :
    (∃ batch, (call.run d).after host = (Payroll.payBatch d batch).after host) ∨
      Action.Quiet (call.run d) := by
  cases call with
  | pay company entry period =>
    refine .inl ⟨.ofEntries company [entry] period, ?_⟩
    rw [PaymentCall.run, Action.after_map, Payroll.after_pay]
  | payBatch batch =>
    refine .inl ⟨batch, ?_⟩
    rw [PaymentCall.run, Action.after_map]
  | get => exact .inr (.map (.expect _ _) _)
  | announcements => exact .inr (.bind (.read _) fun _ => .map (.ofExcept _) _)
  | _ => exact .inr (.read _)

-- ---------------------------------------------------------------------------
-- A payday
-- ---------------------------------------------------------------------------

namespace Sample

open Payroll

def proof : Proof := ⟨.replicate 64 0, .replicate 128 0, .replicate 64 0⟩

/-- A payment to the employee. -/
def entry (nullifier : Bytes) : Entry := ⟨"worker", 10, proof, nullifier⟩

theorem key_shaped : Groth16.Shaped key := by
  refine ⟨rfl, rfl, rfl, rfl, by decide, fun point h => ?_⟩
  rw [List.eq_of_mem_replicate h, List.length_replicate]

/-- A payment is in order wherever binding and record of its payee have the commitment and the key
is set. -/
theorem entry_approved {host : Host Unit} {due : Entry} {binding : Binding}
    {stored : CommitmentRecord} (hb : Registry.employed? host.ledger 0 due.employee = some binding)
    (hc : binding.commitment = commitment)
    (hs : host.ledger.commitments.get? due.employee = some stored)
    (same : stored.commitment = commitment) (hk : host.ledger.verificationKey = some key)
    (hp : due.proof = proof) (hn : due.nullifier.length = 32) (he : due.employee ≠ "") :
    due.Approved deployment 0 host := by
  have hr : recipientHash due.employee =
      .ok (Sha256.digest (recipientDomain ++ 0 :: Bytes.ofText due.employee)) := by
    simp [recipientHash, recipientPreimage, Except.map, he]
  refine ⟨binding, stored, _, hb, hs, hc.trans same.symm, hr, ?_⟩
  have accepted : (Groth16.verdict PairingBackend.structural key proof
      [commitment, due.nullifier,
        Sha256.digest (recipientDomain ++ 0 :: Bytes.ofText due.employee)]).2 = .ok true :=
    Groth16.verdict_structural key_shaped rfl rfl rfl rfl (by simp [commitment, hn])
  simp only [Verifier.verifyPayment, Verifier.verify, Action.run_bind, Action.run_expect, hk,
    Action.run_change, same, hp]
  show ((Action.ofExcept (Groth16.verdict PairingBackend.structural key proof _).2).run _).1 = _
  rw [accepted]
  rfl

/-- The batch of one payment. -/
def payday (nullifier : Bytes) (period : Int) : Batch := .ofEntries 0 [entry nullifier] period

/-- A payment is due wherever the set-up stands, the nullifier is unused and the employee unpaid. -/
theorem payday_payable {host : Host Unit} {binding : Binding} {nullifier : Bytes} {period : Int}
    (hq : 0 ≤ period) (hn : nullifier.length = 32)
    (hb : Registry.employed? host.ledger 0 "worker" = some binding)
    (hc : binding.commitment = commitment)
    (hs : host.ledger.commitments = staffed.ledger.commitments)
    (hk : host.ledger.verificationKey = some key)
    (hr : host.ledger.companies = staffed.ledger.companies)
    (ha : host.authority.everyone = true) (hf : 10 ≤ host.ledger.balance "treasury")
    (hu : Nullifiers.isUsed host.ledger nullifier = false)
    (hp : isPaid host.ledger "worker" period = false) :
    (payday nullifier period).Payable deployment host company := by
  have allowed (name : Principal) (h : name ≠ "") : host.authority.allows name = true := by
    simp [Authority.allows, ha, h]
  refine ⟨⟨rfl, rfl, rfl⟩, ?_, ?_, hq, ?_, ?_, allowed _ (by decide), ?_, ?_, ?_,
    fun _ => allowed _ (by decide), ?_⟩
  · show ((1 : Nat) : Int) ≤ 50
    decide
  · simp [payday, Batch.ofEntries, entry]
  · rw [hk]
    simp
  · rw [hr, staffed_ledger]
    rfl
  · simp [payday, Batch.ofEntries]
  · simp [payday, Batch.ofEntries]
  · rintro _ (_ | ⟨_, h⟩)
    · have stored : host.ledger.commitments.get? "worker" =
          some ⟨"worker", some 0, commitment, 1, 0, 0⟩ := by
        rw [hs, staffed_ledger]
        rfl
      exact ⟨entry_approved hb hc stored rfl hk rfl hn (by simp [entry]), hu, hp⟩
    · cases h
  · rintro (_ | i) found hi
    · cases hi
      simpa [entry, company] using hf
    · cases hi

/-- Two more join the company: its treasury and a helper. -/
def joining : Action Unit Unit := do
  let _ ← Call.run deployment (.registry (.enrol 0 "treasury" commitment))
  let _ ← Call.run deployment (.registry (.enrol 0 "helper" commitment))

/-- The host after they have joined. -/
def crewed : Host Unit := joining.after staffed

theorem crewed_reachable : Reachable deployment deployment crewed :=
  staffed_reachable.passes
    (.ran (.bind (.base (.call _)) fun _ => .bind (.base (.call _)) fun _ => .pure _) (.here _ _))

/-- A batch that spends all of a treasury's hundred tokens, because what the treasury is paid
itself does not leave it. -/
def wages : Batch :=
  .ofEntries 0 [⟨"worker", 40, proof, .replicate 32 1⟩, ⟨"treasury", 60, proof, .replicate 32 2⟩,
    ⟨"helper", 60, proof, .replicate 32 3⟩] 202601

theorem wages_payable : wages.Payable deployment crewed { company with employeeCount := 3 } where
  aligned := ⟨rfl, rfl, rfl⟩
  size := by decide
  amounts := by decide
  period := by decide
  key := Option.some_ne_none key
  registered := rfl
  admin := rfl
  payees := by decide
  nullifiers := by decide
  due := by
    have approved (due : Entry) (binding : Binding) (stored : CommitmentRecord)
        (hb : Registry.employed? crewed.ledger 0 due.employee = some binding)
        (hc : binding.commitment = commitment)
        (hs : crewed.ledger.commitments.get? due.employee = some stored)
        (same : stored.commitment = commitment) (hp : due.proof = proof)
        (hn : due.nullifier.length = 32) (he : due.employee ≠ "") :
        due.Due deployment 0 202601 crewed :=
      ⟨entry_approved hb hc hs same rfl hp hn he, rfl, rfl⟩
    rintro _ (_ | ⟨_, _ | ⟨_, _ | ⟨_, h⟩⟩⟩)
    · exact approved _ _ _ rfl rfl rfl rfl rfl (by simp) (by decide)
    · exact approved _ _ _ rfl rfl rfl rfl rfl (by simp) (by decide)
    · exact approved _ _ _ rfl rfl rfl rfl rfl (by simp) (by decide)
    · cases h
  signed _ := rfl
  covered := by
    rintro (_ | _ | _ | i) found hi <;> cases hi <;> decide

theorem payday_paid :
    ∃ records later, (payBatch deployment wages).run crewed = (.ok records, later) ∧
      later.ledger.balance "worker" = 40 ∧ later.ledger.balance "helper" = 60 ∧
        later.ledger.balance "treasury" = 0 := by
  obtain ⟨paid, changes, -⟩ := payBatch_iff crewed_reachable rfl rfl wages
  obtain ⟨records, later, hr⟩ := paid.mpr ⟨_, wages_payable⟩
  obtain ⟨found, hc, settled⟩ := changes records later hr
  cases wages_payable.registered.symm.trans hc
  obtain ⟨ledger, posted, hl⟩ := settled.ledger
  rw [if_neg (by decide)] at hl
  refine ⟨records, later, hr, ?_, ?_, ?_⟩ <;> rw [hl, posted.balances, settled.made] <;> decide

end Sample

end SealedPayroll
