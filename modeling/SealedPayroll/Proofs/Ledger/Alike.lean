import SealedPayroll.Ledger

/-!
# Ledgers that hold the same

Two ledgers are alike if they hold the same under every durable key. The order
in which keys came in may differ, and so may what expires. Tables that are
written to are compared by what they show; the rest are equal.
-/

namespace SealedPayroll

-- ---------------------------------------------------------------------------
-- Tables
-- ---------------------------------------------------------------------------

section
variable {κ ν : Type} [DecidableEq κ] {first second third : Table κ ν}

/-- Tables that hold the same under every key, in whatever order. -/
def Table.Alike (first second : Table κ ν) : Prop := ∀ key, first.get? key = second.get? key

namespace Table.Alike

theorem refl (table : Table κ ν) : table.Alike table := fun _ => rfl

theorem symm (h : first.Alike second) : second.Alike first := fun key => (h key).symm

theorem trans (h₁ : first.Alike second) (h₂ : second.Alike third) : first.Alike third :=
  fun key => (h₁ key).trans (h₂ key)

theorem contains (h : first.Alike second) (key : κ) : first.contains key = second.contains key := by
  rw [Table.contains, h key, Table.contains]

end Table.Alike

end

-- ---------------------------------------------------------------------------
-- Ledgers
-- ---------------------------------------------------------------------------

namespace Ledger

/-- Ledgers that hold the same under every durable key. -/
structure Alike (l k : Ledger) : Prop where
  bindings : l.bindings.Alike k.bindings
  nullifiers : l.nullifiers.Alike k.nullifiers
  payments : l.payments.Alike k.payments
  totals : l.totals.Alike k.totals
  balances : l.balances.Alike k.balances
  companyCount : l.companyCount = k.companyCount
  companies : l.companies = k.companies
  commitments : l.commitments = k.commitments
  verificationKey : l.verificationKey = k.verificationKey
  keyCounters : l.keyCounters = k.keyCounters
  foreign : l.foreign = k.foreign

namespace Alike

variable {l k m : Ledger}

theorem refl (l : Ledger) : l.Alike l :=
  ⟨.refl _, .refl _, .refl _, .refl _, .refl _, rfl, rfl, rfl, rfl, rfl, rfl⟩

theorem of_eq (h : l = k) : l.Alike k := h ▸ .refl l

theorem symm (h : l.Alike k) : k.Alike l where
  bindings := h.bindings.symm
  nullifiers := h.nullifiers.symm
  payments := h.payments.symm
  totals := h.totals.symm
  balances := h.balances.symm
  companyCount := h.companyCount.symm
  companies := h.companies.symm
  commitments := h.commitments.symm
  verificationKey := h.verificationKey.symm
  keyCounters := h.keyCounters.symm
  foreign := h.foreign.symm

theorem trans (h₁ : l.Alike k) (h₂ : k.Alike m) : l.Alike m where
  bindings := h₁.bindings.trans h₂.bindings
  nullifiers := h₁.nullifiers.trans h₂.nullifiers
  payments := h₁.payments.trans h₂.payments
  totals := h₁.totals.trans h₂.totals
  balances := h₁.balances.trans h₂.balances
  companyCount := h₁.companyCount.trans h₂.companyCount
  companies := h₁.companies.trans h₂.companies
  commitments := h₁.commitments.trans h₂.commitments
  verificationKey := h₁.verificationKey.trans h₂.verificationKey
  keyCounters := h₁.keyCounters.trans h₂.keyCounters
  foreign := h₁.foreign.trans h₂.foreign

/-- What expires is not compared. -/
theorem evict (l : Ledger) (timestamp sequence : Int) : (l.evict timestamp sequence).Alike l :=
  ⟨.refl _, .refl _, .refl _, .refl _, .refl _, rfl, rfl, rfl, rfl, rfl, rfl⟩

theorem balance (h : l.Alike k) (holder : Principal) : l.balance holder = k.balance holder := by
  rw [Ledger.balance, h.balances, Ledger.balance]

theorem totalPaid (h : l.Alike k) (company : Int) : l.totalPaid company = k.totalPaid company := by
  rw [Ledger.totalPaid, h.totals, Ledger.totalPaid]

end Alike

end Ledger

end SealedPayroll
