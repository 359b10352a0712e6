import SealedPayroll.Proofs.Payment.BatchEffect

/-!
# Payments in another order

What a settled payment puts under a key depends on the payment and on what was
under that key before. So payments that are made at one time and do not pay one
employee twice for a period can be settled in any order: of two of them first
(`settle_comm`), and then of two lists of payments, each from a treasury of its
own (`settleAll_comm`).
-/

namespace SealedPayroll

/-- Payments that are made at one time, and not to one employee for one period. -/
structure PaymentRecord.Apart (record other : PaymentRecord) : Prop where
  time : record.timestamp = other.timestamp
  dues : (record.employee, record.period) ≠ (other.employee, other.period)

namespace Ledger

variable {l k : Ledger} {treasury otherTreasury : Principal} {record other : PaymentRecord}

-- ---------------------------------------------------------------------------
-- One payment, table by table
-- ---------------------------------------------------------------------------

theorem settle_bindings (l : Ledger) (treasury : Principal) (record : PaymentRecord)
    (name : Principal) :
    (l.settle treasury record).bindings.get? name =
      if record.employee = name then
        (l.bindings.get? name).map fun binding =>
          { binding with lastPaymentAt := some record.timestamp }
      else l.bindings.get? name := by
  show (l.note record.employee record.timestamp).bindings.get? name = _
  unfold note
  cases hb : l.bindings.get? record.employee with
  | none =>
    dsimp only
    split
    · rename_i he
      rw [← he, hb]
      rfl
    · rfl
  | some binding =>
    dsimp only
    rw [Table.get?_insert]
    split
    · rename_i he
      rw [← he, hb]
      rfl
    · rfl

theorem settle_nullifiers (l : Ledger) (treasury : Principal) (record : PaymentRecord)
    (value : Bytes) :
    (l.settle treasury record).nullifiers.get? value =
      if record.proofHash = value then some ⟨record.proofHash, record.timestamp⟩
      else l.nullifiers.get? value :=
  Table.get?_insert _ _ _ _

theorem settle_payments (l : Ledger) (treasury : Principal) (record : PaymentRecord)
    (key : Principal × Int) :
    (l.settle treasury record).payments.get? key =
      if (record.employee, record.period) = key then some record else l.payments.get? key :=
  Table.get?_insert _ _ _ _

theorem settle_totals (l : Ledger) (treasury : Principal) (record : PaymentRecord)
    (company : Int) :
    (l.settle treasury record).totals.get? company =
      if record.company = company then some (l.totalPaid company + record.amount)
      else l.totals.get? company := by
  show (l.totals.insert record.company (l.totalPaid record.company + record.amount)).get? company = _
  rw [Table.get?_insert]
  split
  · rename_i he
    rw [he]
  · rfl

theorem fund_balances (l : Ledger) (holder other : Principal) (amount : Int) :
    (l.fund holder amount).balances.get? other =
      if holder = other then some ((l.fund holder amount).balance other)
      else l.balances.get? other := by
  simp only [fund, putBalance, Ledger.balance, Table.get?_insert]
  split <;> simp

/-- A balance that a payment does not touch need not be on the ledger. -/
theorem settle_balances (l : Ledger) (treasury : Principal) (record : PaymentRecord)
    (holder : Principal) :
    (l.settle treasury record).balances.get? holder =
      if treasury = holder ∨ record.employee = holder then
        some ((l.settle treasury record).balance holder)
      else l.balances.get? holder := by
  have booked : (((l.useUp record.proofHash record.timestamp).post record).note record.employee
      record.timestamp).balances = l.balances := rfl
  rw [settle, move_eq, fund_balances, fund_balances, balance_fund _ record.employee, booked]
  by_cases he : record.employee = holder <;> by_cases ht : treasury = holder <;> simp [he, ht]

-- ---------------------------------------------------------------------------
-- One payment and another one
-- ---------------------------------------------------------------------------

/-- Ledgers that hold the same do so after a payment, too. -/
theorem Alike.settle (h : l.Alike k) (treasury : Principal) (record : PaymentRecord) :
    (l.settle treasury record).Alike (k.settle treasury record) where
  bindings name := by rw [settle_bindings, settle_bindings, h.bindings]
  nullifiers value := by rw [settle_nullifiers, settle_nullifiers, h.nullifiers]
  payments key := by rw [settle_payments, settle_payments, h.payments]
  totals company := by rw [settle_totals, settle_totals, h.totalPaid, h.totals]
  balances holder := by
    rw [settle_balances, settle_balances, settle_balance, settle_balance, h.balance, h.balances]
  companyCount := h.companyCount
  companies := h.companies
  commitments := h.commitments
  verificationKey := h.verificationKey
  keyCounters := h.keyCounters
  foreign := h.foreign

/-- Two payments can be settled in either order. -/
theorem settle_comm (l : Ledger) (treasury otherTreasury : Principal) (apart : record.Apart other) :
    ((l.settle treasury record).settle otherTreasury other).Alike
      ((l.settle otherTreasury other).settle treasury record) where
  bindings name := by
    simp only [settle_bindings, apart.time]
    by_cases hr : record.employee = name <;> by_cases ho : other.employee = name <;> simp [hr, ho]
  nullifiers value := by
    simp only [settle_nullifiers, apart.time]
    by_cases hr : record.proofHash = value <;> by_cases ho : other.proofHash = value <;>
      simp [hr, ho]
  payments key := by
    simp only [settle_payments]
    by_cases hr : (record.employee, record.period) = key <;>
      by_cases ho : (other.employee, other.period) = key <;> simp only [hr, ho, if_true, if_false]
    exact absurd (hr.trans ho.symm) apart.dues
  totals company := by
    simp only [settle_totals, settle_totalPaid]
    by_cases hr : record.company = company <;> by_cases ho : other.company = company <;>
      simp [hr, ho]
    omega
  balances holder := by
    have funds : ((l.settle treasury record).settle otherTreasury other).balance holder =
        ((l.settle otherTreasury other).settle treasury record).balance holder := by
      simp only [settle_balance]
      omega
    rw [settle_balances, settle_balances l, funds, settle_balances _ treasury, settle_balances l]
    simp only [settle_balance]
    by_cases hr : treasury = holder ∨ record.employee = holder <;>
      by_cases ho : otherTreasury = holder ∨ other.employee = holder <;>
      simp only [hr, ho, if_true, if_false]
    · simp only [not_or] at ho
      simp [ho]
    · simp only [not_or] at hr
      simp [hr]
  companyCount := rfl
  companies := rfl
  commitments := rfl
  verificationKey := rfl
  keyCounters := rfl
  foreign := rfl

-- ---------------------------------------------------------------------------
-- Many payments
-- ---------------------------------------------------------------------------

/-- The ledger with payments settled from a treasury, one after another. -/
def settleAll (ledger : Ledger) (treasury : Principal) (records : List PaymentRecord) : Ledger :=
  records.foldl (·.settle treasury ·) ledger

theorem settleAll_cons (l : Ledger) (treasury : Principal) (record : PaymentRecord)
    (records : List PaymentRecord) :
    l.settleAll treasury (record :: records) =
      (l.settle treasury record).settleAll treasury records :=
  rfl

theorem settleAll_companies (l : Ledger) (treasury : Principal) (records : List PaymentRecord) :
    (l.settleAll treasury records).companies = l.companies := by
  induction records generalizing l with
  | nil => rfl
  | cons record rest ih => exact ih (l.settle treasury record)

theorem settleAll_verificationKey (l : Ledger) (treasury : Principal)
    (records : List PaymentRecord) :
    (l.settleAll treasury records).verificationKey = l.verificationKey := by
  induction records generalizing l with
  | nil => rfl
  | cons record rest ih => exact ih (l.settle treasury record)

theorem Alike.settleAll (h : l.Alike k) (treasury : Principal) (records : List PaymentRecord) :
    (l.settleAll treasury records).Alike (k.settleAll treasury records) := by
  induction records generalizing l k with
  | nil => exact h
  | cons record rest ih =>
    rw [settleAll_cons, settleAll_cons]
    exact ih (h.settle treasury record)

theorem settle_settleAll_comm {others : List PaymentRecord} (l : Ledger)
    (treasury otherTreasury : Principal) (apart : ∀ other ∈ others, record.Apart other) :
    ((l.settle treasury record).settleAll otherTreasury others).Alike
      ((l.settleAll otherTreasury others).settle treasury record) := by
  induction others generalizing l with
  | nil => exact .refl _
  | cons other rest ih =>
    have swapped := (settle_comm l treasury otherTreasury (apart other (.head _))).settleAll
      otherTreasury rest
    rw [settleAll_cons, settleAll_cons]
    exact swapped.trans (ih (l.settle otherTreasury other)
      fun next member => apart next (.tail _ member))

/-- Two lists of payments can be settled in either order. -/
theorem settleAll_comm {records others : List PaymentRecord} (l : Ledger)
    (treasury otherTreasury : Principal)
    (apart : ∀ record ∈ records, ∀ other ∈ others, record.Apart other) :
    ((l.settleAll treasury records).settleAll otherTreasury others).Alike
      ((l.settleAll otherTreasury others).settleAll treasury records) := by
  induction records generalizing l with
  | nil => exact .refl _
  | cons record rest ih =>
    have later := ih (l.settle treasury record) fun next member => apart next (.tail _ member)
    have swapped := settle_settleAll_comm l treasury otherTreasury (apart record (.head _))
    rw [settleAll_cons, settleAll_cons]
    exact later.trans (swapped.settleAll treasury rest)

end Ledger

end SealedPayroll
