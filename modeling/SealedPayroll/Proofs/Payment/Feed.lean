import Mathlib.Algebra.BigOperators.Group.List.Basic
import SealedPayroll.Proofs.Host.Caught
import SealedPayroll.Proofs.Operation.Silent
import SealedPayroll.Proofs.Payment.PayBatch
import SealedPayroll.Proofs.Session.Upheld

/-!
# The feed of payments

A payment goes to a table of the ledger and is announced in the events, at two
points of its settlement, and a rollback takes the two back by different means.
They tell the same all the same (`feed_reconciles`), where nobody else publishes
under the name of announcements, transfers go to the plain token ledger, and no
failure is caught inside a transaction. Inside an open transaction they need
not: a settlement that fails there has recorded what it does not announce.
-/

namespace SealedPayroll

open SealedPayroll.Action (CaughtOutside Chronicle Footprint Telling)

variable {σ : Type} {d : Deployment σ} {host later start : Host σ}

-- ---------------------------------------------------------------------------
-- Reading the feed
-- ---------------------------------------------------------------------------

/-- What a reader of the feed is told of a payment. -/
def PaymentRecord.announced (record : PaymentRecord) : PaymentEvent :=
  ⟨record.company, record.employee, record.amount, record.period, record.timestamp⟩

/-- The announcements among some events, as they read. -/
def feed (events : List Event) : List (Except Fault PaymentEvent) :=
  (events.filter (·.name? == some payrollProcessed)).map PaymentEvent.ofEvent

theorem feed_append (events more : List Event) : feed (events ++ more) = feed events ++ feed more := by
  simp only [feed, List.filter_append, List.map_append]

theorem feed_eq_nil_iff {events : List Event} :
    feed events = [] ↔ ∀ event ∈ events, event.name? ≠ some payrollProcessed := by
  simp [feed]

/-- What is published under another name is not in the feed. -/
theorem feed_foreign {event : Event} (h : event.topics.head? ≠ some (.text payrollProcessed)) :
    feed [event] = [] := by
  refine feed_eq_nil_iff.mpr fun other ho named => h ?_
  rw [List.mem_singleton.mp ho] at named
  unfold Event.name? at named
  split at named
  · rename_i name rest topics
    cases named
    rw [topics, List.head?_cons]
  · cases named

/-- Announcements of payments read as the payments that they announce. -/
theorem feed_announcements (company : Company) (period : Int) (host : Host σ)
    (entries : List Payroll.Entry) :
    feed (entries.map (·.announcement company period host.clock)) =
      (entries.map (·.record company period host)).map fun record => .ok record.announced := by
  have named : ∀ event ∈ entries.map (·.announcement company period host.clock),
      (event.name? == some payrollProcessed) = true := by
    intro event he
    obtain ⟨entry, -, rfl⟩ := List.mem_map.mp he
    rfl
  rw [feed, List.filter_eq_self.mpr named, List.map_map, List.map_map]
  exact List.map_congr_left fun entry _ => rfl

theorem mapM_of_map_eq {α β ε : Type} {f : α → Except ε β} {items : List α} {values : List β}
    (h : items.map f = values.map .ok) : items.mapM f = .ok values := by
  induction items generalizing values with
  | nil =>
    cases values with
    | nil => rfl
    | cons => cases h
  | cons item rest ih =>
    cases values with
    | nil => cases h
    | cons value values =>
      rw [List.map_cons, List.map_cons, List.cons.injEq] at h
      rw [List.mapM_cons, h.1, ih h.2]
      rfl

/-- Where the whole feed can be read, any selection of it can. -/
theorem paymentEvents_of_feed {events : List Event} {announced : List PaymentEvent}
    (h : feed events = announced.map .ok) (filter : Option EventFilter) :
    paymentEvents filter events = .ok (EventFilter.select filter announced) := by
  rw [paymentEvents, mapM_of_map_eq h]
  rfl

-- ---------------------------------------------------------------------------
-- Windows
-- ---------------------------------------------------------------------------

theorem EventFilter.make_window (company : Int) {since til : Option Int}
    (hs : ∀ time ∈ since, 0 ≤ time) (ht : ∀ time ∈ til, 0 ≤ time) :
    make (some company) none none since til = .valid ⟨some company, none, none, since, til⟩ := by
  have bound (name : String) {time? : Option Int} (h : ∀ time ∈ time?, 0 ≤ time) :
      Check.optional name (.atLeast 0) time? = .valid time? := by
    cases time? with
    | none => rfl
    | some time =>
      have valid : Check.field name (.atLeast 0) time = .valid time :=
        Check.field_eq_valid.mpr ⟨Rule.atLeast_eq_none.mpr (h time rfl), rfl⟩
      rw [Check.optional, valid]
      rfl
  rw [make, bound "since" hs, bound "until" ht]
  rfl

/-- The feed and the ledger look through the same window, and differ in the order only. -/
theorem EventFilter.select_perm_payments (l : Ledger) (company : Int) (since til : Option Int) :
    (select (some ⟨some company, none, none, since, til⟩)
      (l.payments.values.map (·.announced))).Perm
        ((Payroll.payments l company since til).map (·.announced)) := by
  have same : (admits ⟨some company, none, none, since, til⟩ ∘ PaymentRecord.announced) =
      fun record => record.company = company && inWindow since til record.timestamp := by
    funext record
    simp [admits, matchesValue, PaymentRecord.announced, Bool.beq_eq_decide_eq, eq_comm]
  have listed := List.mergeSort_perm
    (l.payments.values.filter (admits ⟨some company, none, none, since, til⟩ ∘ (·.announced)))
    Payroll.settledBefore
  rw [select, List.filter_map, Payroll.payments, ← same]
  exact (listed.map _).symm

-- ---------------------------------------------------------------------------
-- What settles payments
-- ---------------------------------------------------------------------------

/-- What a caller can do in one step without publishing under the name of announcements. -/
inductive Discreet (d : Deployment σ) : ⦃α : Type⦄ → Action σ α → Prop
  | call (call : Call) : Discreet d (call.run d)
  | clock (call : ClockCall) : Discreet d call.run
  | signature (call : SignatureCall) : Discreet d call.run
  | storage {call : StorageCall} (apart : call.IsForeign) : Discreet d call.run
  | publish (topics data : List Datum) : topics.head? ≠ some (.text payrollProcessed) →
      Discreet d (Host.publish topics data)
  | read {α : Type} (view : Host σ → α) : Discreet d (Action.read view)
  | attach (f : σ → σ) :
      Discreet d (Action.change fun host => { host with attached := f host.attached })
  | raise {α : Type} (fault : Fault) : Discreet d (Action.raise fault : Action σ α)

theorem Discreet.public {α : Type} {action : Action σ α} (h : Discreet d action) :
    Public d action := by
  cases h with
  | call call => exact .call call
  | clock call => exact .clock call
  | signature call => exact .signature call
  | storage apart => exact .storage apart
  | publish topics data => exact .publish topics data
  | read view => exact .read view
  | attach f => exact .attach f
  | raise fault => exact .raise fault

/-- What calls tell of payments: the records that they answer with, if they pay. -/
inductive PaymentTold (d : Deployment σ) : Telling σ PaymentRecord
  | paid {company period : Int} {entry : Payroll.Entry} {host later : Host σ}
      {record : PaymentRecord} :
      (Payroll.pay d company entry period).run host = (.ok record, later) →
      PaymentTold d (Call.run d (.payments (.pay company entry period))) host [record]
  | paidBatch {batch : Payroll.Batch} {host later : Host σ} {records : List PaymentRecord} :
      (Payroll.payBatch d batch).run host = (.ok records, later) →
      PaymentTold d (Call.run d (.payments (.payBatch batch))) host records
  | failed {α : Type} {action : Action σ α} {host later : Host σ} {failure : Failure} :
      action.run host = (.error failure, later) → PaymentTold d action host []
  | besides {call : Call} {host : Host σ} :
      call.payer? = none → PaymentTold d (call.run d) host []
  | aside {α : Type} {action : Action σ α} {host : Host σ} :
      Public d action → Footprint [.foreign, .foreignExpiring] action → PaymentTold d action host []

/-- A single payment runs as a batch of one. -/
theorem Payroll.payBatch_of_pay {company period : Int} {entry : Entry}
    {result : Except Failure PaymentRecord}
    (h : (pay d company entry period).run host = (result, later)) :
    (payBatch d (.ofEntries company [entry] period)).run host =
      (result.map fun record => [record], later) := by
  rw [payBatch_ofEntries]
  cases result with
  | error failure => exact Action.map_eq_error.mpr h
  | ok record => exact Action.map_eq_ok.mpr ⟨record, h, rfl⟩

/-- A step leaves payments and events alone, publishes something else, or pays. -/
theorem Discreet.cases_paying (ht : d.tokens = .plain) {motive : ⦃α : Type⦄ → Action σ α → Prop}
    (bystanding : ∀ ⦃α : Type⦄ (a : Action σ α), Bystanding a →
      (∀ host, PaymentTold d a host []) → motive a)
    (publish : ∀ topics data, topics.head? ≠ some (.text payrollProcessed) →
      motive (Host.publish topics data))
    (pay : ∀ company entry period, motive (Call.run d (.payments (.pay company entry period))))
    (payBatch : ∀ batch, motive (Call.run d (.payments (.payBatch batch))))
    {α : Type} {action : Action σ α} (h : Discreet d action) : motive action := by
  have quiet {α : Type} {action : Action σ α} (hp : Public d action) (hq : Action.Quiet action) :
      motive action := bystanding _ (.of_quiet hq) fun _ => .aside hp (.quiet hq)
  have hp := h.public
  cases h with
  | call call =>
    cases hc : call.payer? with
    | none => exact bystanding _ (call.bystanding ht hc) fun _ => .besides hc
    | some id =>
      unfold Call.payer? at hc
      split at hc
      · exact pay _ _ _
      · exact payBatch _
      · cases hc
  | clock call => exact quiet hp call.quiet
  | signature call => exact quiet hp call.quiet
  | storage apart =>
    exact bystanding _ (StorageCall.bystanding apart) fun _ =>
      .aside hp (StorageCall.footprint apart)
  | publish topics data hn => exact publish topics data hn
  | read view => exact quiet hp (.read _)
  | attach f => exact quiet hp (.change fun _ => ⟨rfl, rfl, rfl, rfl, rfl⟩)
  | raise fault => exact quiet hp (.raise _)

-- ---------------------------------------------------------------------------
-- Ledger and feed
-- ---------------------------------------------------------------------------

/-- The payments that were settled, in the order of their settlement, are those on the ledger, and
if payments are announced at all, those in the feed. -/
structure Reconciled (d : Deployment σ) (past : List PaymentRecord) (l : Ledger)
    (events : List Event) : Prop where
  numbered : l.Numbered
  payments : l.payments.values = past
  feed : feed events =
    if d.config.executor.emitEvents then past.map fun record => .ok record.announced else []

namespace Reconciled

variable {past : List PaymentRecord} {α : Type} {action : Action σ α}

/-- Where payments are announced, every announcement reads. -/
theorem readable {l : Ledger} {events : List Event} (h : Reconciled d past l events)
    (emits : d.config.executor.emitEvents = true) :
    SealedPayroll.feed events = (past.map (·.announced)).map .ok := by
  rw [h.feed, if_pos emits, List.map_map]
  rfl

theorem initial (hi : start.Initial) : Reconciled d [] start.ledger start.events := by
  rw [hi.ledger, hi.events]
  refine ⟨fun id company h => ?_, rfl, ?_⟩
  · cases h
  · simp [SealedPayroll.feed]

theorem bystanding (h : Reconciled d past host.ledger host.events) (ha : Bystanding action) :
    Reconciled d past (action.after host).ledger (action.after host).events where
  numbered :=
    have keeps : Chained fun l k => l.Numbered → k.Numbered := .of_invariant fun _ _ _ h => h
    keeps.footprint (fun _ _ _ hw _ hl => hw.numbered hl) ha.footprint host h.numbered
  payments := by
    rw [ha.footprint.agree .payments (by decide) rfl host]
    exact h.payments
  feed := by
    rw [ha.silent host]
    exact h.feed

theorem publish (h : Reconciled d past host.ledger host.events) {topics : List Datum}
    (hn : topics.head? ≠ some (.text payrollProcessed)) (data : List Datum) :
    Reconciled d past ((Host.publish topics data).after host).ledger
      ((Host.publish topics data).after host).events := by
  refine ⟨h.numbered, h.payments, ?_⟩
  have added : ((Host.publish topics data).after host).events =
      host.events ++ [⟨topics, data, host.clock.timestamp, host.clock.sequence⟩] := rfl
  rw [added, feed_append, feed_foreign hn, List.append_nil]
  exact h.feed

/-- A batch that answers has settled the records it answers with, also inside a transaction. -/
theorem payBatch (h : Reconciled d past host.ledger host.events) (ht : d.tokens = .plain)
    {batch : Payroll.Batch} {records : List PaymentRecord}
    (hr : (Payroll.payBatch d batch).run host = (.ok records, later)) :
    Reconciled d (past ++ records) later.ledger later.events := by
  obtain ⟨inner, hb, -, swept⟩ := Host.of_transaction_ok hr
  rw [Host.transaction_events hr hb]
  obtain ⟨company, screened, h₁, hb⟩ := Action.bind_eq_ok.mp hb
  obtain ⟨sound, -, hc, ha, rfl⟩ := Payroll.screen_eq_ok.mp h₁
  have number : company.id = batch.company := h.numbered _ _ hc
  obtain ⟨hq, hm⟩ := Payroll.Batch.positive_of_sound sound
  obtain ⟨settleable, rfl, rfl⟩ := (Payroll.settleFrom_eq_ok ht (by exact Nat.succ_ne_zero _)
    (by rw [number]; exact hc) (by exact ha) hq hm).mp hb
  have paid := Payroll.settledAll_paid settleable
  refine Ledger.Swept.imp (I := fun l => Reconciled d _ l _) swept
    (fun h => ⟨h.numbered, h.payments, h.feed⟩) ⟨?_, ?_, ?_⟩
  · unfold Ledger.Numbered
    rw [paid.companies]
    exact h.numbered
  · rw [Table.values, paid.payments, List.map_append, List.map_map]
    exact congrArg₂ _ h.payments (List.map_id _)
  · rw [Payroll.settledAll_host]
    have before := h.feed
    cases he : d.config.executor.emitEvents with
    | false =>
      rw [he] at before
      exact before
    | true =>
      rw [he, if_pos rfl] at before
      rw [if_pos rfl, if_pos rfl, feed_append, List.map_append]
      exact congrArg₂ _ before (feed_announcements _ _ _ _)

/-- A batch that fails by itself has settled nothing. -/
theorem payBatch_failed (h : Reconciled d past host.ledger host.events) (ht : d.tokens = .plain)
    (h0 : host.depth = 0) {batch : Payroll.Batch} {failure : Failure}
    (hr : (Payroll.payBatch d batch).run host = (.error failure, later)) :
    Reconciled d past later.ledger later.events := by
  obtain ⟨ledger, events, -⟩ := Payroll.payBatch_error ht h0 hr
  rwa [ledger, events]

/-- What calls tell of payments accounts for the ledger and the feed. -/
theorem accounts (ht : d.tokens = .plain) :
    Telling.Accounts (PaymentTold d) (Discreet d) (Reconciled d) where
  answered {_ _ host later a past} hd hr h := by
    refine Discreet.cases_paying ht (motive := fun α action => ∀ (a : α) later,
      action.run host = (.ok a, later) → ∃ more, PaymentTold d action host more ∧
        Reconciled d (past ++ more) later.ledger later.events) ?_ ?_ ?_ ?_ hd a later hr
    · intro _ action bystanding told a later hr
      have kept := h.bystanding bystanding
      rw [Action.after, hr] at kept
      exact ⟨[], told host, by rwa [List.append_nil]⟩
    · intro topics data hn a later hr
      have kept := h.publish hn data
      rw [Action.after, hr] at kept
      have aside : PaymentTold d (Host.publish topics data) host [] :=
        .aside (.publish _ _) (.base (.publish _ _))
      exact ⟨[], aside, by rwa [List.append_nil]⟩
    · intro company entry period a later hr
      obtain ⟨record, hr, -⟩ := Action.map_eq_ok.mp hr
      exact ⟨[record], .paid hr, h.payBatch ht (Payroll.payBatch_of_pay hr)⟩
    · intro batch a later hr
      obtain ⟨records, hr, -⟩ := Action.map_eq_ok.mp hr
      exact ⟨records, .paidBatch hr, h.payBatch ht hr⟩
  failed {_ _ host later failure past} hd h0 hr h := by
    refine ⟨[], .failed hr, ?_⟩
    rw [List.append_nil]
    refine Discreet.cases_paying ht (motive := fun _ action => ∀ later,
      action.run host = (.error failure, later) →
        Reconciled d past later.ledger later.events) ?_ ?_ ?_ ?_ hd later hr
    · intro _ action bystanding _ later hr
      have kept := h.bystanding bystanding
      rwa [Action.after, hr] at kept
    · intro _ _ _ _ hr
      cases hr
    · intro company entry period later hr
      exact h.payBatch_failed ht h0 (Payroll.payBatch_of_pay (Action.map_eq_error.mp hr))
    · intro batch later hr
      exact h.payBatch_failed ht h0 (Action.map_eq_error.mp hr)
  evict _ _ h := ⟨h.numbered, h.payments, h.feed⟩

end Reconciled

/-- Between calls, the feed can be read. Where payments are announced, it holds those on the
ledger, one announcement for each, in the order of their settlement; what it holds of a company in
a window is what the ledger lists. Where they are not announced, it is empty. -/
theorem feed_reconciles {α : Type} {action : Action σ α} (ht : d.tokens = .plain)
    (hi : start.Initial) (h : CaughtOutside (Discreet d) action) :
    (d.config.executor.emitEvents = true →
      ∃ past, Chronicle (PaymentTold d) action start past ∧
        (action.after start).ledger.payments.values = past ∧
        paymentEvents none (action.after start).events = .ok (past.map (·.announced)) ∧
        ∀ company since til, (∀ time ∈ since, 0 ≤ time) → (∀ time ∈ til, 0 ≤ time) →
          ∃ filter found, EventFilter.make (some company) none none since til = .valid filter ∧
            paymentEvents (some filter) (action.after start).events = .ok found ∧
            found.Perm ((Payroll.payments (action.after start).ledger company since til).map
              (·.announced)) ∧
            (found.map (·.amount)).sum =
              ((Payroll.payments (action.after start).ledger company since til).map
                (·.amount)).sum) ∧
    (d.config.executor.emitEvents = false →
      ∀ event ∈ (action.after start).events, event.name? ≠ some payrollProcessed) := by
  have basic ⦃α : Type⦄ (a : Action σ α) (ha : Discreet d a) :
      Footprint (books ++ besidesBooks) a :=
    (ha.public.built (Deployment.operational_of_plain ht)).trans fun _ _ ho => ho.footprint
  obtain ⟨past, told, reconciled⟩ :=
    h.accounted (Reconciled.accounts ht) basic hi.depth (Reconciled.initial hi)
  rw [List.nil_append] at reconciled
  constructor
  · intro emits
    have readable := reconciled.readable emits
    refine ⟨past, told, reconciled.payments, ?_, fun company since til hs hu => ?_⟩
    · rw [paymentEvents_of_feed readable none]
      simp [EventFilter.select]
    · have same := EventFilter.select_perm_payments (action.after start).ledger company since til
      rw [reconciled.payments] at same
      refine ⟨_, _, EventFilter.make_window company hs hu, paymentEvents_of_feed readable _, same,
        ?_⟩
      rw [(same.map (·.amount)).sum_eq, List.map_map]
      rfl
  · intro silent
    refine feed_eq_nil_iff.mp (reconciled.feed.trans ?_)
    rw [silent]
    rfl

namespace Sample

open Payroll

/-- Pays the employee once, in a transaction that also sets the clock, and then tries to pay twice
in a batch. The batch settles and announces its first payment before it fails. -/
def announcing : Action Unit Unit := do
  setUp
  Host.transaction do
    let _ ← ClockCall.run (.advance 5 1)
    let _ ← Call.run deployment (.payments (.pay 0 (entry (.replicate 32 1)) 202601))
  let again : Payroll.Entry := entry (.replicate 32 2)
  let _ ← Action.outcome <|
    Call.run deployment (.payments (.payBatch (.ofEntries 0 [again, again] 202602)))

theorem announcing_discreet : CaughtOutside (Discreet deployment) announcing := by
  refine .bind ?_ fun _ => .bind ?_ fun _ => .bind (.outcome (.base (.call _))) fun _ => .pure _
  · exact .bind (.base (.call _)) fun _ => .bind (.base (.call _)) fun _ =>
      .bind (.base (.call _)) fun _ => .bind (.base (.call _)) fun _ => .pure _
  · exact .transaction (.bind (.base (.clock _)) fun _ => .bind (.base (.call _)) fun _ => .pure _)

/-- What is left of it is one payment, and that is what the feed tells. -/
theorem announcing_reconciles :
    paymentEvents none (announcing.after Sample.host).events = .ok [⟨0, "worker", 10, 202601, 5⟩] := by
  obtain ⟨past, -, onLedger, read, -⟩ := (feed_reconciles rfl initial announcing_discreet).1 rfl
  have paid : (announcing.after Sample.host).ledger.payments.values =
      [⟨0, "worker", 10, .replicate 32 1, 5, 202601⟩] := by decide +kernel
  rw [read, ← onLedger, paid]
  rfl

end Sample

end SealedPayroll
