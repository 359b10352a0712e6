import SealedPayroll.Proofs.Payment.Batch

/-!
# What a batch changes

The effect of a batch as a whole, said of the host before it: which rows are
added to which tables, what becomes of the totals, the bindings and the
balances, and that everything else stays as it was.
-/

namespace SealedPayroll

variable {σ : Type} {host later : Host σ}

-- ---------------------------------------------------------------------------
-- The ledger
-- ---------------------------------------------------------------------------

/-- The order of durable keys once some have been written under, one after another. -/
def Ledger.arrivedAll (ledger : Ledger) (keys : List StoreKey) : Table StoreKey Unit :=
  keys.foldl (fun order key => order.insert key ()) ledger.arrivals

/-- The keys under which a payment from a treasury is written, in turn. -/
def PaymentRecord.keys (treasury : Principal) (record : PaymentRecord) : List StoreKey :=
  [.nullifier record.proofHash, .payment record.employee record.period, .total record.company,
    .binding record.employee, .balance treasury, .balance record.employee]

/-- What becomes of a ledger by payments from a treasury, all of them made at one time. -/
structure Ledger.Paid (treasury : Principal) (timestamp : Int) (records : List PaymentRecord)
    (l k : Ledger) : Prop where
  nullifiers : k.nullifiers.entries =
    l.nullifiers.entries ++ records.map fun r => (r.proofHash, ⟨r.proofHash, timestamp⟩)
  payments : k.payments.entries =
    l.payments.entries ++ records.map fun r => ((r.employee, r.period), r)
  bindings : k.bindings.entries =
    l.bindings.entries.map fun row =>
      if row.1 ∈ records.map (·.employee) then
        (row.1, { row.2 with lastPaymentAt := some timestamp })
      else row
  totals : ∀ company, k.totalPaid company =
    l.totalPaid company + ((records.filter (·.company = company)).map (·.amount)).sum
  otherTotals : ∀ company, (∀ r ∈ records, r.company ≠ company) →
    k.totals.get? company = l.totals.get? company
  balances : ∀ holder, k.balance holder =
    l.balance holder + ((records.filter (·.employee = holder)).map (·.amount)).sum -
      if treasury = holder then (records.map (·.amount)).sum else 0
  otherBalances : ∀ holder, (records ≠ [] → holder ≠ treasury) →
    (∀ r ∈ records, r.employee ≠ holder) → k.balances.get? holder = l.balances.get? holder
  companyCount : k.companyCount = l.companyCount
  companies : k.companies = l.companies
  commitments : k.commitments = l.commitments
  verificationKey : k.verificationKey = l.verificationKey
  keyCounters : k.keyCounters = l.keyCounters
  foreign : k.foreign = l.foreign
  arrivals : k.arrivals = l.arrivedAll (records.flatMap (·.keys treasury))
  viewKeys : k.viewKeys = l.viewKeys
  foreignExpiring : k.foreignExpiring = l.foreignExpiring

namespace Ledger

theorem paid_nil (treasury : Principal) (timestamp : Int) (l : Ledger) :
    Paid treasury timestamp [] l l where
  nullifiers := by simp
  payments := by simp
  bindings := by simp
  totals := by simp
  otherTotals _ _ := rfl
  balances := by simp
  otherBalances _ _ _ := rfl
  companyCount := rfl
  companies := rfl
  commitments := rfl
  verificationKey := rfl
  keyCounters := rfl
  foreign := rfl
  arrivals := rfl
  viewKeys := rfl
  foreignExpiring := rfl

theorem note_bindings (ledger : Ledger) (name : Principal) (timestamp : Int)
    (h : ledger.bindings.get? name ≠ none) :
    (ledger.note name timestamp).bindings.entries =
      ledger.bindings.entries.map fun row =>
        if row.1 = name then (row.1, { row.2 with lastPaymentAt := some timestamp }) else row := by
  obtain ⟨binding, hb⟩ := Option.ne_none_iff_exists'.mp h
  simp only [note, hb]
  rw [Table.entries_insert_present _ h]
  refine List.map_congr_left fun row hr => ?_
  split
  · rename_i he
    have hrow := Table.get?_eq_some_iff.mpr (show (row.1, row.2) ∈ ledger.bindings.entries from hr)
    rw [he, hb] at hrow
    cases hrow
    rw [he]
  · rfl

/-- A payment to somebody who is bound writes under all of its keys. -/
theorem settle_arrivals (ledger : Ledger) (treasury : Principal) (record : PaymentRecord)
    (h : ledger.bindings.get? record.employee ≠ none) :
    (ledger.settle treasury record).arrivals = ledger.arrivedAll (record.keys treasury) := by
  obtain ⟨binding, hb⟩ := Option.ne_none_iff_exists'.mp h
  have noted : (((ledger.useUp record.proofHash record.timestamp).post record).note record.employee
      record.timestamp).arrivals =
      ((ledger.useUp record.proofHash record.timestamp).post record).arrived
        (.binding record.employee) := by
    have held : ((ledger.useUp record.proofHash record.timestamp).post record).bindings.get?
        record.employee = some binding := hb
    simp only [note, held]
  show ((Table.insert _ _ _).insert _ _) = _
  rw [noted]
  rfl

theorem settle_totalPaid (ledger : Ledger) (treasury : Principal) (record : PaymentRecord)
    (company : Int) :
    (ledger.settle treasury record).totalPaid company =
      ledger.totalPaid company + if record.company = company then record.amount else 0 :=
  totalPaid_post (ledger.useUp record.proofHash record.timestamp) record company

theorem settle_balance (ledger : Ledger) (treasury : Principal) (record : PaymentRecord)
    (holder : Principal) :
    (ledger.settle treasury record).balance holder =
      ledger.balance holder + (if record.employee = holder then record.amount else 0) -
        if treasury = holder then record.amount else 0 :=
  balance_move _ _ _ _ _

theorem paid_cons (record : PaymentRecord) {treasury : Principal} {records : List PaymentRecord}
    {l k : Ledger} (hn : l.nullifiers.get? record.proofHash = none)
    (hp : l.payments.get? (record.employee, record.period) = none)
    (hb : l.bindings.get? record.employee ≠ none)
    (h : Paid treasury record.timestamp records (l.settle treasury record) k) :
    Paid treasury record.timestamp (record :: records) l k where
  nullifiers := by
    rw [h.nullifiers, List.map_cons]
    show (l.nullifiers.insert record.proofHash _).entries ++ _ = _
    rw [Table.entries_insert_new _ hn, List.append_assoc]
    rfl
  payments := by
    rw [h.payments, List.map_cons]
    show (l.payments.insert (record.employee, record.period) record).entries ++ _ = _
    rw [Table.entries_insert_new _ hp, List.append_assoc]
    rfl
  bindings := by
    have hnote : (l.settle treasury record).bindings.entries = _ :=
      note_bindings ((l.useUp record.proofHash record.timestamp).post record) record.employee
        record.timestamp hb
    rw [h.bindings, hnote, List.map_map]
    refine List.map_congr_left fun row _ => ?_
    simp only [Function.comp_apply, List.map_cons, List.mem_cons]
    by_cases he : row.1 = record.employee
    · by_cases hm : row.1 ∈ records.map (·.employee) <;> simp [he]
    · simp [he]
  totals company := by
    rw [h.totals, settle_totalPaid, List.filter_cons]
    by_cases hc : record.company = company <;> simp [hc, Int.add_assoc]
  otherTotals company hc := by
    rw [h.otherTotals company fun r hr => hc r (.tail _ hr)]
    show (l.totals.insert record.company _).get? company = _
    rw [Table.get?_insert, if_neg (hc record (.head _))]
  balances holder := by
    rw [h.balances, settle_balance, List.filter_cons, List.map_cons, List.sum_cons]
    by_cases he : record.employee = holder <;> by_cases ht : treasury = holder <;>
      simp [he, ht] <;> omega
  otherBalances holder ht hr := by
    rw [h.otherBalances holder (fun _ => ht (by simp)) fun r hm => hr r (.tail _ hm)]
    show ((l.balances.insert treasury _).insert record.employee _).get? holder = _
    rw [Table.get?_insert, if_neg (hr record (.head _)), Table.get?_insert,
      if_neg (Ne.symm (ht (by simp)))]
  companyCount := h.companyCount
  companies := h.companies
  commitments := h.commitments
  verificationKey := h.verificationKey
  keyCounters := h.keyCounters
  foreign := h.foreign
  arrivals := by
    rw [h.arrivals, arrivedAll, settle_arrivals l treasury record hb, arrivedAll, arrivedAll,
      List.flatMap_cons, List.foldl_append]
  viewKeys := h.viewKeys
  foreignExpiring := h.foreignExpiring

end Ledger

-- ---------------------------------------------------------------------------
-- The host
-- ---------------------------------------------------------------------------

namespace Payroll

variable {d : Deployment σ} {company : Company} {period : Int}

/-- The ledger part of settling entries. -/
theorem settledAll_paid {entries : List Entry} (h : Settleable d company period host entries) :
    Ledger.Paid company.treasury host.clock.timestamp
      (entries.map (·.record company period host)) host.ledger
      (settledAll d company period host entries).ledger := by
  induction entries generalizing host with
  | nil => exact Ledger.paid_nil _ _ _
  | cons entry rest ih =>
    obtain ⟨⟨hdue, -, -⟩, hrest⟩ := settleable_cons.mp h
    obtain ⟨binding, -, -, hb, -⟩ := hdue.approved
    obtain ⟨hb, -⟩ := Option.filter_eq_some_iff.mp hb
    refine Ledger.paid_cons (entry.record company period host) ?_ ?_ ?_ (ih hrest)
    · exact Table.contains_eq_false_iff.mp hdue.unused
    · exact Table.contains_eq_false_iff.mp hdue.unpaid
    · exact Option.ne_none_iff_exists'.mpr ⟨binding, hb⟩

/-- The rest of the host after settling entries. -/
theorem settledAll_host (d : Deployment σ) (company : Company) (period : Int) (host : Host σ)
    (entries : List Entry) :
    settledAll d company period host entries =
      { host with
        ledger := (settledAll d company period host entries).ledger
        authority := { host.authority with
          checked := host.authority.checked ++
            entries.flatMap fun _ => [company.admin, company.treasury] }
        writes := host.writes + 6 * entries.length
        events :=
          if d.config.executor.emitEvents then
            host.events ++ entries.map (·.announcement company period host.clock)
          else host.events
        transcript := entries.foldl
          (fun asked entry => asked.append (entry.asked d host.ledger)) host.transcript } := by
  induction entries generalizing host with
  | nil => simp [settledAll]
  | cons entry rest ih =>
    have hs : settledAll d company period host (entry :: rest) =
        settledAll d company period (entry.settled d company period host) rest := rfl
    rw [hs, ih]
    simp only [Entry.settled, Host.sign, List.append_assoc, List.cons_append, List.nil_append,
      List.flatMap_cons, List.length_cons, List.map_cons, List.foldl_cons, Host.mk.injEq, and_true,
      true_and]
    refine ⟨by omega, ?_, rfl⟩
    split <;> simp

end Payroll

end SealedPayroll
