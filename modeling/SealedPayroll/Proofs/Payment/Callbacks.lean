import SealedPayroll.Proofs.Host.Mutations
import SealedPayroll.Proofs.Payment.Batch

/-!
# Batches whose transfers call back

With a token ledger that calls back, what is between two entries of a batch is
not known. What is known is the order: the nullifier is used up, the payment
on the books and the total up to date before the callback begins, and the
amount is moved once the callback has ended, exactly once for each entry
(`PaidThrough`).
-/

namespace SealedPayroll

open SealedPayroll.Action (Contained)

variable {σ : Type} {d : Deployment σ} {host later : Host σ}
  {hook : Principal → Principal → Int → Action σ Unit}

/-- One run of a hook, from a host to another. -/
structure Callback (σ : Type) where
  start : Host σ
  stop : Host σ

/-- What the holder's balance gained by a callback. -/
def Callback.gain (holder : Principal) (callback : Callback σ) : Int :=
  callback.stop.ledger.balance holder - callback.start.ledger.balance holder

namespace Payroll

variable {company : Company} {period : Int} {index : Nat} {entry : Entry} {record : PaymentRecord}

-- ---------------------------------------------------------------------------
-- One entry
-- ---------------------------------------------------------------------------

/-- A settlement that answers has gone through all its steps. -/
theorem of_settle_ok (h : (settle d company period index entry).run host = (.ok record, later)) :
    ∃ approved start moved, (approve d company index entry).run host = (.ok (), approved) ∧
      (enter company period entry).run approved = (.ok record, start) ∧
      (d.tokens.transfer company.treasury entry.employee entry.amount).run start =
        (.ok (), moved) ∧
      later.ledger = moved.ledger ∧ later.depth = moved.depth := by
  obtain ⟨_, approved, h₁, h⟩ := Action.bind_eq_ok.mp h
  obtain ⟨entered, start, h₂, h⟩ := Action.bind_eq_ok.mp h
  obtain ⟨_, moved, h₃, h⟩ := Action.bind_eq_ok.mp h
  rw [run_announced] at h
  cases h
  exact ⟨approved, start, moved, h₁, h₂, h₃, rfl, rfl⟩

/-- What the books say when the transfer of an entry begins. -/
structure Entry.OnBooks (company : Company) (period : Int) (entry : Entry)
    (before start : Host σ) : Prop where
  used : Nullifiers.isUsed start.ledger entry.nullifier = true
  paid : isPaid start.ledger entry.employee period = true
  total : start.ledger.totalPaid company.id = before.ledger.totalPaid company.id + entry.amount

theorem Entry.OnBooks.of_enter {approved start : Host σ} (still : approved.ledger = host.ledger)
    (h : (enter company period entry).run approved = (.ok record, start)) :
    entry.OnBooks company period host start := by
  obtain ⟨-, -, -, -, ⟨usage, hn⟩, hp, ht⟩ := of_enter_ok h
  refine ⟨?_, ?_, ?_⟩
  · rw [Nullifiers.isUsed, Table.contains, hn, Table.get?_insert, if_pos rfl]
    rfl
  · rw [isPaid, Table.contains, hp, Table.get?_insert, if_pos rfl]
    rfl
  · rw [Ledger.totalPaid, ht, Table.get?_insert, if_pos rfl, ← still]
    rfl

/-- From `host` to `later` an entry is paid, with one callback on the way. -/
structure Entry.PaidThrough (hook : Principal → Principal → Int → Action σ Unit)
    (company : Company) (period : Int) (entry : Entry) (record : PaymentRecord)
    (callback : Callback σ) (host later : Host σ) : Prop where
  made : ∃ timestamp, record =
    ⟨company.id, entry.employee, entry.amount, entry.nullifier, timestamp, period⟩
  unused : Nullifiers.isUsed host.ledger entry.nullifier = false
  unpaid : host.ledger.payments.get? (entry.employee, period) = none
  onBooks : entry.OnBooks company period host callback.start
  payments : callback.start.ledger.payments =
    host.ledger.payments.insert (entry.employee, period) record
  balances : callback.start.ledger.balances = host.ledger.balances
  called : (hook company.treasury entry.employee entry.amount).run callback.start =
    (.ok (), callback.stop)
  moved : later.ledger = callback.stop.ledger.move company.treasury entry.employee entry.amount

/-- What a hook has to respect inside a transaction for the transfer after it to be in one. -/
abbrev HookContained (hook : Principal → Principal → Int → Action σ Unit) : Prop :=
  ∀ sender recipient amount (host : Host σ), host.depth ≠ 0 →
    Contained (hook sender recipient amount) host

theorem Entry.PaidThrough.of_settle (ht : d.tokens = .calling hook) (hh : HookContained hook)
    (hd : host.depth ≠ 0)
    (h : (settle d company period index entry).run host = (.ok record, later)) :
    later.depth = host.depth ∧
      ∃ callback, entry.PaidThrough hook company period record callback host later := by
  obtain ⟨approved, start, moved, happrove, henter, htransfer, hl, hld⟩ := of_settle_ok h
  have still := (approve_quiet d company index entry).still host
  rw [Action.after, happrove] at still
  have hentered := ((enter_footprint company period entry).contained
    (by rwa [still.depth] : approved.depth ≠ 0)).depth
  rw [Action.after, henter, still.depth] at hentered
  have hbalances : start.ledger.balances = approved.ledger.balances := by
    have := Action.Footprint.agree .balances (enter_footprint company period entry) (by decide) rfl
      approved
    rwa [Action.after, henter] at this
  rw [ht] at htransfer
  obtain ⟨_, stop, hcalled, htransfer⟩ := Action.bind_eq_ok.mp htransfer
  have hcontained := (hh company.treasury entry.employee entry.amount start
    (by rwa [hentered])).depth
  rw [Action.after, hcalled, hentered] at hcontained
  obtain ⟨-, -, -, rfl⟩ := (Tokens.transfer_eq_ok (by rwa [hcontained])).mp htransfer
  have onBooks := Entry.OnBooks.of_enter still.ledger henter
  obtain ⟨rfl, hunused, -, hunpaid, -, hpayments, -⟩ := of_enter_ok henter
  rw [still.ledger] at hunused hunpaid hpayments hbalances
  exact ⟨hld.trans hcontained, ⟨start, stop⟩, ⟨_, rfl⟩, Table.contains_eq_false_iff.mpr hunused,
    hunpaid, onBooks, hpayments, hbalances, hcalled, hl⟩

-- ---------------------------------------------------------------------------
-- All entries
-- ---------------------------------------------------------------------------

/-- From one host to another entries are paid, one after the other, with one callback for each. -/
inductive PaidThrough (hook : Principal → Principal → Int → Action σ Unit) (company : Company)
    (period : Int) :
    Host σ → List Entry → List PaymentRecord → List (Callback σ) → Host σ → Prop
  | nil (host : Host σ) : PaidThrough hook company period host [] [] [] host
  | cons {host between later : Host σ} {entry : Entry} {record : PaymentRecord}
      {callback : Callback σ} {entries : List Entry} {records : List PaymentRecord}
      {callbacks : List (Callback σ)} :
      entry.PaidThrough hook company period record callback host between →
      PaidThrough hook company period between entries records callbacks later →
      PaidThrough hook company period host (entry :: entries) (record :: records)
        (callback :: callbacks) later

theorem PaidThrough.of_settleFrom {entries : List Entry} {records : List PaymentRecord}
    (ht : d.tokens = .calling hook) (hh : HookContained hook) (hd : host.depth ≠ 0)
    (h : (settleFrom d company period index entries).run host = (.ok records, later)) :
    ∃ callbacks, PaidThrough hook company period host entries records callbacks later := by
  induction entries generalizing host index records with
  | nil =>
    obtain ⟨rfl, rfl⟩ := Action.pure_eq_ok.mp h
    exact ⟨[], .nil _⟩
  | cons entry rest ih =>
    obtain ⟨record, between, hsettle, h⟩ := Action.bind_eq_ok.mp h
    obtain ⟨records, reached, hrest, h⟩ := Action.bind_eq_ok.mp h
    obtain ⟨rfl, rfl⟩ := Action.pure_eq_ok.mp h
    obtain ⟨hb, callback, hpaid⟩ := Entry.PaidThrough.of_settle ht hh hd hsettle
    obtain ⟨callbacks, hpaidRest⟩ := ih (by rwa [hb]) hrest
    exact ⟨callback :: callbacks, .cons hpaid hpaidRest⟩

section
variable {entries : List Entry} {records : List PaymentRecord} {callbacks : List (Callback σ)}

/-- There is one record for each entry, and it says what the entry does. -/
theorem PaidThrough.made
    (h : PaidThrough hook company period host entries records callbacks later) :
    List.Forall₂ (fun entry record => ∃ timestamp, record =
      ⟨company.id, entry.employee, entry.amount, entry.nullifier, timestamp, period⟩)
        entries records := by
  induction h with
  | nil => exact .nil
  | cons hpaid _ ih => exact .cons hpaid.made ih

/-- Each amount was moved once; all else that a holder gained or lost was by callbacks. -/
theorem PaidThrough.balance (holder : Principal)
    (h : PaidThrough hook company period host entries records callbacks later) :
    later.ledger.balance holder = host.ledger.balance holder +
      (callbacks.map (Callback.gain holder)).sum +
      ((entries.filter (·.employee = holder)).map (·.amount)).sum -
      if company.treasury = holder then (entries.map (·.amount)).sum else 0 := by
  induction h with
  | nil => simp
  | @cons host between later entry record callback entries records callbacks hpaid _ ih =>
    have hstart : callback.start.ledger.balance holder = host.ledger.balance holder := by
      rw [Ledger.balance, Ledger.balance, hpaid.balances]
    rw [ih, hpaid.moved, Ledger.balance_move, List.map_cons, List.sum_cons, Callback.gain, hstart,
      List.map_cons, List.sum_cons, List.filter_cons]
    by_cases he : entry.employee = holder <;> by_cases hs : company.treasury = holder <;>
      simp only [he, hs, decide_true, decide_false, if_true, if_false, List.map_cons,
        List.sum_cons, Bool.false_eq_true] <;>
      omega

end

/-- A hook that leaves payments on the books. -/
abbrev HookKeeps (hook : Principal → Principal → Int → Action σ Unit) : Prop :=
  ∀ sender recipient amount (start stop : Host σ),
    (hook sender recipient amount).run start = (.ok (), stop) → Kept start.ledger stop.ledger

theorem Entry.PaidThrough.booked {callback : Callback σ} (hk : HookKeeps hook)
    (h : entry.PaidThrough hook company period record callback host later) :
    later.ledger.payments.get? (record.employee, record.period) = some record := by
  obtain ⟨timestamp, rfl⟩ := h.made
  rw [h.moved]
  refine (hk _ _ _ _ _ h.called).payments _ _ ?_
  rw [h.payments, Table.get?_insert, if_pos rfl]

theorem Entry.PaidThrough.kept {callback : Callback σ} (hk : HookKeeps hook)
    (h : entry.PaidThrough hook company period record callback host later)
    (key : Principal × Int) (found : PaymentRecord)
    (hf : host.ledger.payments.get? key = some found) :
    later.ledger.payments.get? key = some found := by
  rw [h.moved]
  refine (hk _ _ _ _ _ h.called).payments _ _ ?_
  rw [h.payments]
  exact Table.get?_insert_kept record h.unpaid hf

section
variable {entries : List Entry} {records : List PaymentRecord} {callbacks : List (Callback σ)}

theorem PaidThrough.kept (hk : HookKeeps hook)
    (h : PaidThrough hook company period host entries records callbacks later)
    (key : Principal × Int) (found : PaymentRecord)
    (hf : host.ledger.payments.get? key = some found) :
    later.ledger.payments.get? key = some found := by
  induction h with
  | nil => exact hf
  | cons hpaid _ ih => exact ih (hpaid.kept hk key found hf)

/-- Every record is on the books in the end. -/
theorem PaidThrough.booked (hk : HookKeeps hook)
    (h : PaidThrough hook company period host entries records callbacks later) :
    ∀ record ∈ records,
      later.ledger.payments.get? (record.employee, record.period) = some record := by
  induction h with
  | nil => simp
  | cons hpaid hrest ih =>
    rintro record (_ | ⟨_, hr⟩)
    · exact hrest.kept hk _ _ (hpaid.booked hk)
    · exact ih record hr

/-- No record was on the books before, and no two of them are for the same employee. -/
theorem PaidThrough.new (hk : HookKeeps hook)
    (h : PaidThrough hook company period host entries records callbacks later) :
    (∀ record ∈ records, host.ledger.payments.get? (record.employee, record.period) = none) ∧
      (records.map fun r => (r.employee, r.period)).Nodup := by
  induction h with
  | nil => simp
  | cons hpaid hrest ih =>
    obtain ⟨hnew, hnodup⟩ := ih
    constructor
    · rintro record (_ | ⟨_, hr⟩)
      · obtain ⟨timestamp, rfl⟩ := hpaid.made
        exact hpaid.unpaid
      · refine Option.eq_none_iff_forall_not_mem.mpr fun found hf => ?_
        have hb := hpaid.kept hk _ found hf
        rw [hnew record hr] at hb
        cases hb
    · rw [List.map_cons, List.nodup_cons]
      refine ⟨fun hm => ?_, hnodup⟩
      obtain ⟨other, ho, he⟩ := List.mem_map.mp hm
      have hb := hpaid.booked hk
      rw [← he, hnew other ho] at hb
      cases hb

end

end Payroll

end SealedPayroll
