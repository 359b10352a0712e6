import SealedPayroll.Proofs.Host.Steady
import SealedPayroll.Proofs.Payment.PayBatch
import SealedPayroll.Proofs.Payment.Reorder

/-!
# What handing in a batch leaves

A batch that is paid settles its payments, one after another and from the
treasury of its company; one that is refused makes none. In both cases the
ledger holds what these payments make of it, their announcements are added to
the events, and the clock and the signatures are left alone
(`payBatch_leaves`). What expires is not spoken of.
-/

namespace SealedPayroll

open SealedPayroll.Action (Steady)

variable {σ : Type} {d : Deployment σ} {host later : Host σ}

-- ---------------------------------------------------------------------------
-- Batches leave their setting alone
-- ---------------------------------------------------------------------------

theorem Verifier.verify_steady (backend : PairingBackend) (proof : Proof) (inputs : List Bytes) :
    Steady (verify backend proof inputs : Action σ Bool) :=
  .bind (.expect _ _) fun _ => .bind (.change fun _ => ⟨rfl, rfl⟩) fun _ => .ofExcept _

theorem Nullifiers.use_steady (value : Bytes) :
    Steady (use value : Action σ NullifierRecord) := by
  refine .transaction <| .bind (.read _) fun used => ?_
  split
  · exact .refuse _
  · exact .bind (.read _) fun _ => .bind (.build _ _) fun _ => .bind (.write _) fun _ => .pure _

theorem Registry.administered_steady (id : Int) :
    Steady (administered id : Action σ Company) :=
  .bind (.expect _ _) fun _ => .bind (.requireAuth _) fun _ => .pure _

theorem Registry.recordPayment_steady (id : Int) (name : Principal) (timestamp : Int) :
    Steady (recordPayment id name timestamp : Action σ Binding) :=
  .transaction <| .bind (administered_steady id) fun _ => .bind (.expect _ _) fun _ =>
    .bind (.write _) fun _ => .pure _

theorem Tokens.transfer_steady (sender recipient : Principal) (amount : Int) :
    Steady (transfer sender recipient amount : Action σ Unit) := by
  unfold transfer
  split
  · exact .refuse _
  · refine .transaction <| .bind (.requireAuth _) fun _ => .bind (.read _) fun available => ?_
    split
    · exact .refuse _
    · exact .bind (.write _) fun _ => .bind (.read _) fun _ => .write _

namespace Payroll

theorem screen_steady (d : Deployment σ) (batch : Batch) : Steady (screen d batch) := by
  unfold screen
  split
  · exact .refuse _
  · refine .bind (.read _) fun key => ?_
    split
    · exact .refuse _
    · exact Registry.administered_steady _

theorem approve_steady (d : Deployment σ) (company : Company) (index : Nat) (entry : Entry) :
    Steady (approve d company index entry) := by
  refine .bind (.expect _ _) fun binding => .bind (.expect _ _) fun stored => ?_
  split
  · exact .refuse _
  · refine .bind (.ofExcept _) fun _ => .bind (Verifier.verify_steady _ _ _) fun accepted => ?_
    split
    · exact .pure _
    · exact .refuse _

theorem enter_steady (company : Company) (period : Int) (entry : Entry) :
    Steady (enter company period entry : Action σ PaymentRecord) := by
  refine .bind (Nullifiers.use_steady _) fun _ => .bind (.read _) fun paid => ?_
  split
  · exact .refuse _
  · exact .bind (.read _) fun _ => .bind (.build _ _) fun _ => .bind (.write _) fun _ =>
      .bind (.write _) fun _ => .bind (Registry.recordPayment_steady _ _ _) fun _ => .pure _

theorem settle_steady (ht : d.tokens = .plain) (company : Company) (period : Int) (index : Nat)
    (entry : Entry) : Steady (settle d company period index entry) := by
  refine .bind (approve_steady _ _ _ _) fun _ => .bind (enter_steady _ _ _) fun _ => ?_
  rw [ht]
  refine .bind (Tokens.transfer_steady _ _ _) fun _ => ?_
  split
  · exact .bind (.publish _ _) fun _ => .pure _
  · exact .pure _

theorem settleFrom_steady (ht : d.tokens = .plain) (company : Company) (period : Int)
    (index : Nat) (entries : List Entry) : Steady (settleFrom d company period index entries) := by
  induction entries generalizing index with
  | nil => exact .pure _
  | cons entry rest ih =>
    exact .bind (settle_steady ht _ _ _ _) fun _ => .bind (ih _) fun _ => .pure _

theorem payBatch_steady (ht : d.tokens = .plain) (batch : Batch) : Steady (payBatch d batch) :=
  .transaction <| .bind (screen_steady d batch) fun _ => settleFrom_steady ht _ _ _ _

end Payroll

-- ---------------------------------------------------------------------------
-- What handing in a batch leaves
-- ---------------------------------------------------------------------------

/-- The treasury of a company, which is nobody's if there is no such company. -/
def Ledger.treasury (l : Ledger) (id : Int) : Principal :=
  ((l.companies.get? id).map (·.treasury)).getD ""

/-- The event that announces a payment. -/
def PaymentRecord.announcement (clock : Clock) (record : PaymentRecord) : Event :=
  ⟨PaymentEvent.topics record.company,
    PaymentEvent.payload record.employee record.amount record.period, clock.timestamp,
    clock.sequence⟩

/-- What is announced of payments. -/
def Deployment.announcements (d : Deployment σ) (clock : Clock) (records : List PaymentRecord) :
    List Event :=
  if d.config.executor.emitEvents then records.map (·.announcement clock) else []

theorem PaymentEvent.topics_inj {id other : Int} (h : topics id = topics other) : id = other := by
  simpa [topics] using h

theorem mem_announcements {clock : Clock} {records : List PaymentRecord} {event : Event}
    (h : event ∈ d.announcements clock records) :
    ∃ record ∈ records, event.topics = PaymentEvent.topics record.company := by
  unfold Deployment.announcements at h
  split at h
  · obtain ⟨record, member, rfl⟩ := List.mem_map.mp h
    exact ⟨record, member, rfl⟩
  · cases h

/-- A commit changes nothing but what expires. -/
theorem Host.committed_alike (reached : Host σ) :
    (committed reached).ledger.Alike reached.ledger := by
  rcases committed_ledger reached with same | swept
  · exact .of_eq same
  · rw [swept]
    exact .evict _ _ _

namespace Payroll

variable {batch : Batch} {records : List PaymentRecord}

theorem settledAll_ledger (d : Deployment σ) (company : Company) (period : Int) (host : Host σ)
    (entries : List Entry) :
    (settledAll d company period host entries).ledger =
      host.ledger.settleAll company.treasury (entries.map (·.record company period host)) := by
  induction entries generalizing host with
  | nil => rfl
  | cons entry rest ih => exact ih (entry.settled d company period host)

/-- The payments that a batch makes when it is handed in: those of its entries, or none if it is
refused. -/
def Batch.made (d : Deployment σ) (host : Host σ) (batch : Batch) : List PaymentRecord :=
  ((payBatch d batch).run host).1.toOption.getD []

/-- What handing in a batch leaves of a host, whether the batch is paid or refused. -/
structure Batch.Leaves (d : Deployment σ) (host : Host σ) (batch : Batch) (later : Host σ) :
    Prop where
  ledger : later.ledger.Alike
    (host.ledger.settleAll (host.ledger.treasury batch.company) (batch.made d host))
  events : later.events = host.events ++ d.announcements host.clock (batch.made d host)
  depth : later.depth = 0
  setting : Host.SameSetting host later

theorem answer_payBatch (h0 : host.depth = 0) (ht : d.tokens = .plain) (hn : host.ledger.Numbered) :
    ((payBatch d batch).run host).1.toOption = some records ↔
      ∃ company, batch.Payable d host company ∧
        batch.entries.map (·.record company batch.period host) = records := by
  rcases hr : (payBatch d batch).run host with ⟨failure | made, later⟩
  · refine ⟨fun h => (nomatch h), fun ⟨company, hp, _⟩ => ?_⟩
    cases hr.symm.trans ((run_payBatch h0 ht hn).mpr ⟨company, hp, rfl, rfl⟩)
  · constructor
    · rintro h
      cases h
      obtain ⟨company, hp, made, -⟩ := (run_payBatch h0 ht hn).mp hr
      exact ⟨company, hp, made⟩
    · rintro ⟨company, hp, made⟩
      cases hr.symm.trans ((run_payBatch h0 ht hn).mpr ⟨company, hp, made, rfl⟩)
      rfl

theorem payBatch_leaves (h0 : host.depth = 0) (ht : d.tokens = .plain)
    (hn : host.ledger.Numbered) (batch : Batch) :
    batch.Leaves d host ((payBatch d batch).after host) := by
  have setting := payBatch_steady ht batch host
  rcases hr : (payBatch d batch).run host with ⟨failure | records, later⟩ <;>
    rw [Action.after, hr] at setting <;> rw [Action.after, hr]
  · obtain ⟨ledger, events, depth⟩ := payBatch_error ht h0 hr
    have made : batch.made d host = [] := by
      rw [Batch.made, hr]
      rfl
    refine ⟨?_, ?_, depth, setting⟩
    · rw [made]
      exact .of_eq ledger
    · rw [made, events]
      simp [Deployment.announcements]
  · have made : batch.made d host = records := by
      rw [Batch.made, hr]
      rfl
    obtain ⟨company, hp, rfl, rfl⟩ := (run_payBatch h0 ht hn).mp hr
    have settled := hp.settled hn
    refine ⟨?_, ?_, settled.depth, setting⟩
    · have treasury : host.ledger.treasury batch.company = company.treasury := by
        rw [Ledger.treasury, hp.registered]
        rfl
      rw [made, treasury]
      exact (Host.committed_alike _).trans (.of_eq (settledAll_ledger _ _ _ _ _))
    · rw [made, settled.events, Deployment.announcements]
      split
      · rw [List.map_map]
        rfl
      · rw [List.append_nil]

namespace Batch

theorem Leaves.companies (h : batch.Leaves d host later) :
    later.ledger.companies = host.ledger.companies :=
  h.ledger.companies.trans (Ledger.settleAll_companies _ _ _)

theorem Leaves.numbered (h : batch.Leaves d host later) (hn : host.ledger.Numbered) :
    later.ledger.Numbered := by
  rwa [Ledger.Numbered, h.companies]

/-- Payments are made for entries that are due. -/
theorem of_mem_made (h0 : host.depth = 0) (ht : d.tokens = .plain) (hn : host.ledger.Numbered)
    {record : PaymentRecord} (h : record ∈ batch.made d host) :
    ∃ (company : Company) (entry : Entry), company.id = batch.company ∧
      entry.Due d batch.company batch.period host ∧
        entry.record company batch.period host = record := by
  unfold made at h
  cases answer : ((payBatch d batch).run host).1.toOption with
  | none =>
    rw [answer] at h
    cases h
  | some records =>
    rw [answer] at h
    obtain ⟨company, payable, rfl⟩ := (answer_payBatch h0 ht hn).mp answer
    obtain ⟨entry, member, rfl⟩ := List.mem_map.mp h
    exact ⟨company, entry, hn _ _ payable.registered, payable.due entry member, rfl⟩

end Batch

end Payroll

end SealedPayroll
