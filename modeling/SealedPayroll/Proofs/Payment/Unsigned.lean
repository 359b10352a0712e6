import SealedPayroll.Proofs.Groth16.Detached
import SealedPayroll.Proofs.Operation.Early
import SealedPayroll.Proofs.Operation.Named
import SealedPayroll.Proofs.Payment.Linked

/-!
# Treasuries that have not signed

A payment asks for the signature of the treasury when it moves the money, and
by then all else is on the books. `Reachable.validation_refusals` says that
this is the only validation refusal that comes late: it is marked as having
discarded writes, and no other one is. Transfers go to the plain token ledger
here; one that calls back can raise whatever it likes at that point.
-/

namespace SealedPayroll

open SealedPayroll.Action (Spared FailsEarly)
open SealedPayroll.PayrollError (isValidation)

variable {σ : Type}

-- ---------------------------------------------------------------------------
-- One entry
-- ---------------------------------------------------------------------------

section
variable {host later : Host σ} {failure : Failure}

theorem Tokens.transfer_refused {sender recipient : Principal} {amount : Int} (hm : 0 < amount)
    (h : (transfer sender recipient amount).run host = (.error failure, later))
    (hv : failure.fault.refuses isValidation = true) :
    host.authority.allows sender = false ∧
      ∃ denial, failure.fault = .payroll (.unauthorized sender denial) := by
  rw [transfer, if_neg (Int.not_le.mpr hm)] at h
  obtain ⟨raised, inner, hr, he, -⟩ := Host.of_transaction_error h
  rw [← he] at hv ⊢
  rcases ha : (Host.requireAuth sender).run { host with depth := host.depth + 1 } with
    ⟨refused | _, signed⟩
  · rw [Action.run_bind_error ha] at hr
    cases hr
    have refused := Host.requireAuth_refused ha
    exact refused
  · rw [Action.run_bind_ok ha] at hr
    have spared : Spared isValidation (do
        let available ← balance sender
        if available < amount then .refuse (.insufficientBalance sender amount available)
        else
          setBalance sender (available - amount)
          setBalance recipient ((← balance recipient) + amount) : Action σ Unit) := by
      refine .bind (.read _) fun available => ?_
      split
      · exact .raise rfl
      · exact .bind (.write _) fun _ => .bind (.read _) fun _ => .write _
    rw [spared _ _ _ hr] at hv
    cases hv

namespace Payroll

variable {d : Deployment σ} {company : Company} {period : Int} {index : Nat} {entry : Entry}

/-- Approval asks for no signature, and whoever is employed has a name to hash. -/
theorem approve_spared (hb : d.backend.Detached isValidation) (hl : host.ledger.Named)
    (h : (approve d company index entry).run host = (.error failure, later)) :
    failure.fault.refuses isValidation = false := by
  by_cases he : entry.employee = ""
  · have missing : (Registry.employee company.id entry.employee).run host =
        (.error ⟨.payroll (.employeeNotFound entry.employee (some company.id)), false⟩, host) := by
      simp [Registry.employee, Action.run_expect, Registry.employed?, he, show _ = _ from hl]
    rw [approve, Action.run_bind_error missing] at h
    cases h
    rfl
  · have hash : recipientHash entry.employee =
        .ok (Sha256.digest (recipientDomain ++ 0 :: Bytes.ofText entry.employee)) := by
      rw [recipientHash, recipientPreimage, if_neg he]
      rfl
    have spared : Spared isValidation (approve d company index entry) := by
      refine .bind (.expect _ rfl) fun binding =>
        .bind (.expect _ rfl) fun stored => ?_
      split
      · exact .raise rfl
      · rw [hash]
        refine .bind (.pure _) fun recipient =>
          .bind (Verifier.verify_spared hb rfl _ _) fun accepted => ?_
        split
        · exact .pure _
        · exact .raise rfl
    exact spared _ _ _ h

/-- The administrator has signed before, so bringing the binding up to date is not refused. -/
theorem recordPayment_spared {id : Int} {name : Principal} {timestamp : Int}
    (hc : host.ledger.companies.get? id = some company)
    (ha : host.authority.allows company.admin = true)
    (h : (Registry.recordPayment id name timestamp).run host = (.error failure, later)) :
    failure.fault.refuses isValidation = false := by
  obtain ⟨raised, inner, hr, he, -⟩ := Host.of_transaction_error h
  have signed : (Registry.administered id).run { host with depth := host.depth + 1 } =
      (.ok company, _) := Registry.administered_eq_ok.mpr ⟨hc, ha, rfl⟩
  rw [Action.run_bind_ok signed] at hr
  have spared : Spared isValidation (do
      let binding ← Registry.employee id name
      let updated := { binding with lastPaymentAt := some timestamp }
      Registry.putBinding name updated
      return updated : Action σ Binding) :=
    .bind (.expect _ rfl) fun _ => .bind (.write _) fun _ => .pure _
  rw [← he]
  exact spared _ _ _ hr

theorem book_spared (hc : host.ledger.companies.get? company.id = some company)
    (ha : host.authority.allows company.admin = true)
    (h : (book company period entry).run host = (.error failure, later)) :
    failure.fault.refuses isValidation = false := by
  cases hp : isPaid host.ledger entry.employee period with
  | true =>
    simp only [book, Action.run_bind, Action.run_read, hp, if_true, Action.run_refuse] at h
    cases h
    rfl
  | false =>
    cases hb : PaymentRecord.make company.id entry.employee entry.amount entry.nullifier
        host.clock.timestamp period with
    | invalid faults =>
      simp only [book, Action.run_bind, Action.run_read, hp, Host.now, hb,
        Action.run_build_invalid, Bool.false_eq_true, if_false] at h
      cases h
      rfl
    | valid record =>
      rw [run_book_due hp (PaymentRecord.make_eq_valid.mp hb).1, map_eq_pure_bind] at h
      rcases hr : (Registry.recordPayment company.id entry.employee host.clock.timestamp).run
          { host with
            ledger := host.ledger.post (entry.record company period host)
            writes := host.writes + 2 } with ⟨refused | updated, reached⟩
      · rw [Action.run_bind_error hr] at h
        cases h
        exact recordPayment_spared (by exact hc) (by exact ha) hr
      · rw [Action.run_bind_ok hr] at h
        cases h

theorem enter_spared (hd : host.depth ≠ 0)
    (hc : host.ledger.companies.get? company.id = some company)
    (ha : host.authority.allows company.admin = true)
    (h : (enter company period entry).run host = (.error failure, later)) :
    failure.fault.refuses isValidation = false := by
  rcases hu : (Nullifiers.use entry.nullifier).run host with ⟨refused | usage, used⟩
  · rw [enter, Action.run_bind_error hu] at h
    cases h
    exact Nullifiers.use_spared _ rfl _ _ _ hu
  · rw [enter, Action.run_bind_ok hu] at h
    obtain ⟨-, -, -, rfl⟩ := (Nullifiers.use_eq_ok hd).mp hu
    exact book_spared (by exact hc) (by exact ha) h

/-- A validation refusal of a settlement comes from the treasury, and after four writes. -/
theorem settle_refused (ht : d.tokens = .plain) (hb : d.backend.Detached isValidation)
    (hl : host.ledger.Named) (hd : host.depth ≠ 0)
    (hc : host.ledger.companies.get? company.id = some company)
    (ha : host.authority.allows company.admin = true) (hm : 0 < entry.amount)
    (h : (settle d company period index entry).run host = (.error failure, later))
    (hv : failure.fault.refuses isValidation = true) :
    host.authority.allows company.treasury = false ∧
      (∃ denial, failure.fault = .payroll (.unauthorized company.treasury denial)) ∧
      later.writes = host.writes + 4 := by
  rcases h₁ : (approve d company index entry).run host with ⟨refused | _, approved⟩
  · rw [settle, Action.run_bind_error h₁] at h
    cases h
    rw [approve_spared hb hl h₁] at hv
    cases hv
  rw [settle, Action.run_bind_ok h₁] at h
  obtain ⟨hap, rfl⟩ := approve_eq_ok.mp h₁
  rcases h₂ : (enter company period entry).run _ with ⟨refused | record, entered⟩
  · rw [Action.run_bind_error h₂] at h
    cases h
    rw [enter_spared (by exact hd) (by exact hc) (by exact ha) h₂] at hv
    cases hv
  rw [Action.run_bind_ok h₂] at h
  obtain ⟨-, -, -, -, -, -, -, rfl⟩ := (enter_eq_ok (by exact hd) (by exact hc) (by exact ha)
    hap.recipient).mp h₂
  rw [ht] at h
  rcases h₃ : (Tokens.transfer company.treasury entry.employee entry.amount).run _ with
    ⟨refused | _, paid⟩
  · rw [TokenLedger.plain, Action.run_bind_error h₃] at h
    cases h
    obtain ⟨still, -⟩ := Tokens.transfer_failsEarly _ _ _ _ _ _ h₃ hv
    obtain ⟨unsigned, denial, hf⟩ := Tokens.transfer_refused hm h₃ hv
    exact ⟨unsigned, ⟨denial, hf⟩, still.writes⟩
  · rw [TokenLedger.plain, Action.run_bind_ok h₃, run_announced] at h
    cases h

/-- Once an entry was settled the treasury has signed, so only the first one can be refused. -/
theorem settleFrom_refused (ht : d.tokens = .plain) (hb : d.backend.Detached isValidation)
    (hq : 0 ≤ period) {entries : List Entry} (hm : ∀ entry ∈ entries, 0 < entry.amount)
    (hl : host.ledger.Named) (hd : host.depth ≠ 0)
    (hc : host.ledger.companies.get? company.id = some company)
    (ha : host.authority.allows company.admin = true)
    (h : (settleFrom d company period index entries).run host = (.error failure, later))
    (hv : failure.fault.refuses isValidation = true) :
    host.authority.allows company.treasury = false ∧
      (∃ denial, failure.fault = .payroll (.unauthorized company.treasury denial)) ∧
      later.writes = host.writes + 4 := by
  induction entries generalizing index host with
  | nil => cases h
  | cons entry rest ih =>
    have hm₁ : 0 < entry.amount := hm entry (.head _)
    rcases h₁ : (settle d company period index entry).run host with ⟨refused | record, settled⟩
    · rw [settleFrom, Action.run_bind_error h₁] at h
      cases h
      exact settle_refused ht hb hl hd hc ha hm₁ h₁ hv
    · rw [settleFrom, Action.run_bind_ok h₁] at h
      have named := Names.respected.run
        (settle_built (Deployment.operational_of_plain ht) _ _ _ _) h₁ hl
      obtain ⟨-, signed, -, -, rfl⟩ := (settle_eq_ok ht hd hc ha hq hm₁).mp h₁
      rcases h₂ : (settleFrom d company period (index + 1) rest).run _ with ⟨refused | records, last⟩
      · rw [Action.run_bind_error h₂] at h
        cases h
        obtain ⟨unsigned, -⟩ := ih (fun entry he => hm entry (.tail _ he)) named (by exact hd)
          (by exact hc) (by exact ha) h₂
        cases signed.symm.trans unsigned
      · rw [Action.run_bind_ok h₂] at h
        cases h

-- ---------------------------------------------------------------------------
-- Batches
-- ---------------------------------------------------------------------------

theorem Batch.defect?_ne_unauthorized {config : ExecutorConfig} {batch : Batch}
    {principal : Principal} {denial : Denial} :
    batch.defect? config ≠ some (.unauthorized principal denial) := by
  unfold defect?
  repeat' split
  all_goals simp

/-- The screening asks for no other signature than the administrator's. -/
theorem screen_refused {batch : Batch} {principal : Principal} {denial : Denial}
    (hc : host.ledger.companies.get? batch.company = some company)
    (h : (screen d batch).run host = (.error failure, later))
    (hf : failure.fault = .payroll (.unauthorized principal denial)) :
    host.authority.allows company.admin = false := by
  unfold screen at h
  cases hb : batch.defect? d.config.executor with
  | some error =>
    rw [hb] at h
    cases h
    cases hf
    exact absurd hb Batch.defect?_ne_unauthorized
  | none =>
    rw [hb] at h
    simp only [Action.run_bind, Action.run_read] at h
    split at h
    · cases h
      cases hf
    · have found : (Registry.company batch.company).run host = (.ok company, host) :=
        Action.expect_eq_ok.mpr ⟨hc, rfl⟩
      rw [Registry.administered, Action.run_bind_ok found] at h
      rcases hs : (Host.requireAuth company.admin).run host with ⟨refused | _, signed⟩
      · exact (Host.requireAuth_refused hs).1
      · rw [Action.run_bind_ok hs] at h
        cases h

/-- The treasury of a company has not signed what its administrator has. -/
def WantsTreasury (host : Host σ) (id : Int) (error : PayrollError) : Prop :=
  ∃ company denial, host.ledger.companies.get? id = some company ∧
    host.authority.allows company.admin = true ∧
    error = .unauthorized company.treasury denial

/-- When a validation refusal ends a batch, either nothing was written and the treasury is not
wanted, or it is wanted after four writes. -/
theorem wantsTreasury_of_refused {batch : Batch} {error : PayrollError} {raised : Failure}
    {inner : Host σ} (ht : d.tokens = .plain) (hb : d.backend.Detached isValidation)
    (hn : host.ledger.Numbered) (hl : host.ledger.Named)
    (hr : (screen d batch >>= fun company =>
      settleFrom d company batch.period 0 batch.entries).run { host with depth := 1 } =
        (.error raised, inner))
    (hf : raised.fault = .payroll error) (hv : error.family = .validation) :
    (¬ WantsTreasury host batch.company error ∧ Host.hasWritten host inner = false ∧
      inner.writes = host.writes) ∨
    (WantsTreasury host batch.company error ∧ Host.hasWritten host inner = true ∧
      inner.writes = host.writes + 4) := by
  have validation : raised.fault.refuses isValidation = true := by
    simp [hf, Fault.refuses, isValidation, hv]
  rcases hs : (screen d batch).run { host with depth := 1 } with ⟨refused | company, screened⟩
  · -- refused by the screening, which writes nothing and asks for no treasury
    rw [Action.run_bind_error hs] at hr
    cases hr
    obtain ⟨still, -⟩ := FailsEarly.quiet (screen_quiet d batch) _ _ _ hs validation
    refine .inl ⟨?_, by simp [Host.hasWritten, still.writes, still.events], still.writes⟩
    rintro ⟨company, denial, hc, ha, rfl⟩
    have unsigned := screen_refused (by exact hc) hs hf
    cases ha.symm.trans unsigned
  · rw [Action.run_bind_ok hs] at hr
    obtain ⟨hd, -, hc, ha, rfl⟩ := screen_eq_ok.mp hs
    obtain ⟨hq, hm⟩ := Batch.positive_of_sound hd
    have number : company.id = batch.company := hn _ _ hc
    obtain ⟨-, ⟨denial, unsigned⟩, writes⟩ := settleFrom_refused ht hb hq hm (by exact hl)
      (by exact Nat.one_ne_zero) (by rw [number]; exact hc) (by exact ha) hr validation
    rw [hf, Fault.payroll.injEq] at unsigned
    refine .inr ⟨⟨company, denial, hc, ha, unsigned⟩, ?_, writes⟩
    simp [Host.hasWritten, show inner.writes = host.writes + 4 from writes]

/-- What a validation refusal leaves behind: nothing but the count of writes, and that only if the
refusal is marked, which says that the treasury has not signed. -/
structure LeavesNothing (host later : Host σ) (payer? : Option Int) (failure : Failure)
    (error : PayrollError) : Prop where
  ledger : later.ledger = host.ledger
  events : later.events = host.events
  marked : failure.reverted = true ↔ ∃ id, payer? = some id ∧ WantsTreasury host id error
  writes : later.writes = host.writes + if failure.reverted then 4 else 0

theorem payBatch_refusal {batch : Batch} {error : PayrollError} (ht : d.tokens = .plain)
    (hb : d.backend.Detached isValidation) (h0 : host.depth = 0) (hn : host.ledger.Numbered)
    (hl : host.ledger.Named) (h : (payBatch d batch).run host = (.error failure, later))
    (hf : failure.fault = .payroll error) (hv : error.family = .validation) :
    LeavesNothing host later (some batch.company) failure error := by
  have body := settlement_footprint (Deployment.operational_of_plain ht) batch
  obtain ⟨⟨ledger, events, -⟩, raised, inner, hr, fresh, rfl, -⟩ :=
    Host.transaction_failed body h0 h
  rw [payBatch, Host.transaction_error h0 hr] at h
  cases h
  rw [Failure.fault_discarding] at hf
  have mark : (raised.discarding (Host.hasWritten host inner)).reverted =
      Host.hasWritten host inner := by
    simp [Failure.discarding, hf, fresh]
  rcases wantsTreasury_of_refused ht hb hn hl hr hf hv with
    ⟨unwanted, kept, writes⟩ | ⟨wanted, discarded, writes⟩
  · refine ⟨ledger, events, ?_, ?_⟩
    · rw [mark, kept]
      constructor
      · intro h
        cases h
      · rintro ⟨_, ⟨⟩, wanted⟩
        exact absurd wanted unwanted
    · rw [mark, kept]
      exact writes
  · refine ⟨ledger, events, ?_, ?_⟩
    · rw [mark, discarded]
      exact ⟨fun _ => ⟨_, rfl, wanted⟩, fun _ => rfl⟩
    · rw [mark, discarded]
      exact writes

end Payroll

/-- Outside of transactions, a validation refusal of a call leaves ledger and events as they were,
and had written nothing unless it says so; it says so iff the call pays, and what is refused is the
signature of the treasury where the administrator has signed. -/
theorem Reachable.validation_refusals {base d : Deployment σ} (h : Reachable base d host)
    (h0 : host.depth = 0) (ht : d.tokens = .plain) (hb : d.backend.Detached isValidation)
    (call : Call) {error : PayrollError} (hr : (call.run d).run host = (.error failure, later))
    (hf : failure.fault = .payroll error) (hv : error.family = .validation) :
    Payroll.LeavesNothing host later call.payer? failure error := by
  cases hp : call.payer? with
  | none =>
    obtain ⟨still, fresh⟩ := Call.early ht call hp _ _ _ hr
      (by simp [hf, Fault.refuses, isValidation, hv])
    refine ⟨still.ledger, still.events, ?_, by simp [fresh, still.writes]⟩
    rw [fresh]
    exact ⟨fun h => (nomatch h), fun ⟨_, h, _⟩ => (nomatch h)⟩
  | some id =>
    unfold Call.payer? at hp
    split at hp <;> cases hp
    · rename_i entry period
      have paid := Action.map_eq_error.mp hr
      have batch : (Payroll.payBatch d (.ofEntries id [entry] period)).run host =
          (.error failure, later) := by
        rw [Payroll.payBatch_ofEntries]
        exact Action.map_eq_error.mpr paid
      exact Payroll.payBatch_refusal ht hb h0 h.numbered h.named batch hf hv
    · exact Payroll.payBatch_refusal ht hb h0 h.numbered h.named (Action.map_eq_error.mp hr) hf hv

end

namespace Sample

/-- From here on only the administrator signs. -/
def adminOnly : Action Unit Unit := do
  let _ ← SignatureCall.run (.setEveryone false)
  let _ ← SignatureCall.run (.authorize ["admin"])

def closed : Host Unit := adminOnly.after staffed

theorem closed_reachable : Reachable deployment deployment closed := by
  have program : Program deployment adminOnly :=
    .bind (.base (.signature _)) fun _ => .bind (.base (.signature _)) fun _ => .pure _
  exact staffed_reachable.passes (.ran program (.here _ _))

/-- A payment for which the administrator has signed, and the treasury has not. -/
theorem closed_refused : ∃ later, (paying low 1).run closed =
    (.error ⟨.payroll (.unauthorized "treasury" .unsigned), true⟩, later) := by
  have refused : ((Payroll.pay deployment 0 (entry low) 1).run closed).1 =
      .error ⟨.payroll (.unauthorized "treasury" .unsigned), true⟩ := by decide +kernel
  rcases hr : (Payroll.pay deployment 0 (entry low) 1).run closed with ⟨result, later⟩
  rw [hr] at refused
  cases refused
  exact ⟨later, Action.map_eq_error.mpr hr⟩

theorem closed_marked : ∃ later,
    Payroll.LeavesNothing closed later (some 0)
      ⟨.payroll (.unauthorized "treasury" .unsigned), true⟩
      (.unauthorized "treasury" .unsigned) ∧ later.writes = closed.writes + 4 := by
  obtain ⟨later, hr⟩ := closed_refused
  have left := closed_reachable.validation_refusals rfl rfl PairingBackend.structural_detached
    (.payments (.pay 0 (entry low) 1)) hr rfl rfl
  exact ⟨later, left, left.writes⟩

/-- Not every validation refusal of a call is unmarked. -/
theorem not_all_unmarked : ¬ ∀ host, Reachable deployment deployment host → host.depth = 0 →
    ∀ (call : Call) failure later error, (call.run deployment).run host = (.error failure, later) →
      failure.fault = .payroll error → error.family = .validation →
        failure.reverted = false := by
  intro unmarked
  obtain ⟨later, hr⟩ := closed_refused
  cases unmarked closed closed_reachable rfl (.payments (.pay 0 (entry low) 1)) _ later _ hr
    rfl rfl

end Sample

end SealedPayroll
