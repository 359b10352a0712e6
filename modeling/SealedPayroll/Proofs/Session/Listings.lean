import Mathlib.Data.Prod.Lex
import Mathlib.Data.String.Basic
import SealedPayroll.Proofs.Audit.Granted
import SealedPayroll.Proofs.Ledger.Listing
import SealedPayroll.Proofs.Payment.Books
import SealedPayroll.Proofs.Registry.Staffing

/-!
# What the listings show

Employees, payments and view keys are listed by time, and by name or number
within the same time. No two rows of a company tie, because every row stands
under a key that its fields determine: a binding under its employee, a payment
under its employee and its period, a view key under the id that is derived from
its company, its auditor and its count. So the lists are listings, and which
they are depends on what is stored and not on what happened before
(`Reachable.listings`). The deployment need not be wired up for it.
-/

namespace SealedPayroll

open SealedPayroll.Action (Keeps)
open SealedPayroll.Ledger (Swept)

variable {σ τ α : Type} {host : Host σ} {l k : Ledger}

-- ---------------------------------------------------------------------------
-- View keys
-- ---------------------------------------------------------------------------

namespace Ledger

/-- Every key stands under its id, and the id is derived from what the key says. -/
def Filed (l : Ledger) : Prop :=
  ∀ id entry, l.viewKeys.get? id = some entry → entry.value.id = id ∧ entry.value.Derived

namespace Filed

theorem empty : Ledger.empty.Filed := fun _ _ held => nomatch held

theorem of_shrinks (h : l.Filed) (shrinks : l.Shrinks k) : k.Filed :=
  fun id entry held => h id entry (shrinks id entry held)

theorem evict (h : l.Filed) (timestamp sequence : Int) : (l.evict timestamp sequence).Filed :=
  h.of_shrinks (Shrinks.evict l timestamp sequence)

theorem grant (h : l.Filed) {key : ViewKey} (derived : key.Derived) : (l.grant key).Filed := by
  intro id entry held
  simp only [Ledger.grant, Table.get?_insert] at held
  split at held
  · rename_i same
    cases held
    exact ⟨same, derived⟩
  · exact h id entry held

/-- Company, auditor and count of a key tell its id. -/
theorem id_eq (h : l.Filed) {id other : String} {entry held : Expiring ViewKey}
    (hi : l.viewKeys.get? id = some entry) (ho : l.viewKeys.get? other = some held)
    (company : entry.value.company = held.value.company)
    (auditor : entry.value.auditor = held.value.auditor)
    (nonce : entry.value.nonce = held.value.nonce) : id = other := by
  obtain ⟨rfl, derived⟩ := h id entry hi
  obtain ⟨rfl, same⟩ := h other held ho
  rw [ViewKey.Derived, company, auditor, nonce, same] at derived
  exact (Except.ok.inj derived).symm

end Filed

end Ledger

theorem Affair.staysFiled {base : Deployment σ} {direct : Prop} {parts : List Ledger.Part}
    {action : Action σ α} (h : Affair base direct parts action) :
    Keeps (fun l k => l.Filed → k.Filed) action := by
  intro host filed
  have footprint := h.footprint
  cases h with
  | @issue d request _ _ =>
    apply (ViewKeys.issue_failsEarly d request).holds_after filed
    intro key later hr
    obtain ⟨-, derived, -, swept⟩ := ViewKeys.of_issue_ok hr
    exact Swept.imp swept (fun h => h.evict _ _) (filed.grant derived)
  | revoke admin id =>
    apply (ViewKeys.revoke_failsEarly admin id).holds_after filed
    intro _ later hr
    obtain ⟨-, swept⟩ := ViewKeys.of_revoke_ok hr
    exact Swept.imp swept (fun h => h.evict _ _) (filed.of_shrinks (.revoke _ _))
  | _ => exact filed.of_shrinks (.besides footprint (by decide) host)

theorem Reachable.filed {base d : Deployment σ} (h : Reachable base d host) :
    host.ledger.Filed :=
  (Regime.Reachable.of_public h).holds Regime.orderly_public .empty
    (fun _ timestamp sequence filed => filed.evict timestamp sequence)
    fun _ _ _ affair => affair.staysFiled

-- ---------------------------------------------------------------------------
-- Ranks
-- ---------------------------------------------------------------------------

def Binding.rank (binding : Binding) : Int ×ₗ Principal :=
  toLex (binding.enrolledAt, binding.employee)

def PaymentRecord.rank (record : PaymentRecord) : Int ×ₗ Int ×ₗ Principal :=
  toLex (record.timestamp, toLex (record.period, record.employee))

def ViewKey.rank (key : ViewKey) : Int ×ₗ Principal ×ₗ Int :=
  toLex (key.createdAt, toLex (key.auditor, key.nonce))

theorem Registry.enrolledBefore_iff (a b : Binding) :
    enrolledBefore a b = true ↔ a.rank ≤ b.rank := by
  simp [enrolledBefore, Binding.rank, Prod.Lex.toLex_le_toLex]

theorem Payroll.settledBefore_iff (a b : PaymentRecord) :
    settledBefore a b = true ↔ a.rank ≤ b.rank := by
  simp [settledBefore, PaymentRecord.rank, Prod.Lex.toLex_le_toLex]

theorem ViewKeys.issuedBefore_iff (a b : ViewKey) :
    issuedBefore a b = true ↔ a.rank ≤ b.rank := by
  simp [issuedBefore, ViewKey.rank, Prod.Lex.toLex_le_toLex]

-- ---------------------------------------------------------------------------
-- The lists
-- ---------------------------------------------------------------------------

/-- The bindings to a company. -/
def Registry.Bound (l : Ledger) (company : Int) (binding : Binding) : Prop :=
  (∃ name, l.bindings.get? name = some binding) ∧ binding.company = company

/-- The payments of a company in a window, both ends of which belong to it. -/
def Payroll.Settled (l : Ledger) (company : Int) (since til : Option Int)
    (record : PaymentRecord) : Prop :=
  (∃ key, l.payments.get? key = some record) ∧ record.company = company ∧
    (∀ start, since = some start → start ≤ record.timestamp) ∧
    ∀ stop, til = some stop → record.timestamp ≤ stop

/-- The keys of a company, or those of them that are active. -/
def ViewKeys.Lent (l : Ledger) (clock : Clock) (company : Int) (activeOnly : Bool)
    (key : ViewKey) : Prop :=
  (∃ id, stored? l id = some key) ∧ key.company = company ∧
    (activeOnly = true → isActiveAt clock key = true)

theorem Registry.listing_employees
    (named : ∀ name binding, l.bindings.get? name = some binding → binding.employee = name)
    (company : Int) : Listing Binding.rank (Bound l company) (employees l company) := by
  have listed := l.bindings.listing id (fun binding => binding.company = company)
    enrolledBefore_iff fun name other binding held hn ho _ _ same => by
      obtain ⟨-, employees⟩ := Prod.mk.inj (toLex_inj.mp same)
      rw [← named name binding hn, ← named other held ho]
      exact employees
  rw [List.map_id] at listed
  exact listed.congr fun binding => by simp [Bound]

theorem Payroll.listing_payments
    (keyed : ∀ key record, l.payments.get? key = some record →
      key = (record.employee, record.period)) (company : Int) (since til : Option Int) :
    Listing PaymentRecord.rank (Settled l company since til) (payments l company since til) := by
  have listed := l.payments.listing id
    (fun record =>
      record.company = company && EventFilter.inWindow since til record.timestamp)
    settledBefore_iff fun key other record held hn ho _ _ same => by
      obtain ⟨-, later⟩ := Prod.mk.inj (toLex_inj.mp same)
      obtain ⟨periods, employees⟩ := Prod.mk.inj (toLex_inj.mp later)
      rw [keyed key record hn, keyed other held ho]
      exact Prod.ext employees periods
  rw [List.map_id] at listed
  exact listed.congr fun record => by
    simp [Settled, EventFilter.inWindow, Option.all_eq_true]

theorem ViewKeys.listing_list (filed : l.Filed) (clock : Clock) (company : Int)
    (activeOnly : Bool) :
    Listing ViewKey.rank (Lent l clock company activeOnly) (list l clock company activeOnly) := by
  have listed := l.viewKeys.listing (·.value)
    (fun key => key.company = company && (!activeOnly || isActiveAt clock key))
    issuedBefore_iff fun id other entry held hi ho passes others same => by
      obtain ⟨-, later⟩ := Prod.mk.inj (toLex_inj.mp same)
      obtain ⟨auditors, nonces⟩ := Prod.mk.inj (toLex_inj.mp later)
      have companies : entry.value.company = held.value.company :=
        (of_decide_eq_true (Bool.and_eq_true_iff.mp passes).1).trans
          (of_decide_eq_true (Bool.and_eq_true_iff.mp others).1).symm
      exact filed.id_eq hi ho companies auditors nonces
  refine listed.congr fun key => ?_
  cases activeOnly <;> simp [Lent, stored?]

/-- Wherever a run is, each list has what is stored of a company and passes, once, in strictly
increasing order. Another run may have written, removed, undone and swept in any other way: as long
as it stores the same, it lists the same. -/
theorem Reachable.listings {base d : Deployment σ} (h : Reachable base d host) (company : Int)
    (since til : Option Int) (activeOnly : Bool) :
    Listing Binding.rank (Registry.Bound host.ledger company)
        (Registry.employees host.ledger company) ∧
      Listing PaymentRecord.rank (Payroll.Settled host.ledger company since til)
        (Payroll.payments host.ledger company since til) ∧
      Listing ViewKey.rank (ViewKeys.Lent host.ledger host.clock company activeOnly)
        (ViewKeys.list host.ledger host.clock company activeOnly) ∧
      ∀ (base' d' : Deployment τ) (other : Host τ), Reachable base' d' other →
        (host.ledger.bindings.Alike other.ledger.bindings →
          Registry.employees host.ledger company = Registry.employees other.ledger company) ∧
        (host.ledger.payments.Alike other.ledger.payments →
          Payroll.payments host.ledger company since til =
            Payroll.payments other.ledger company since til) ∧
        (host.ledger.viewKeys.Alike other.ledger.viewKeys →
          (activeOnly = true → host.clock = other.clock) →
          ViewKeys.list host.ledger host.clock company activeOnly =
            ViewKeys.list other.ledger other.clock company activeOnly) := by
  have employees {ρ : Type} {base d : Deployment ρ} {host : Host ρ} (h : Reachable base d host) :=
    Registry.listing_employees (fun name binding held => (h.staffed.bound name binding held).named)
      company
  have payments {ρ : Type} {base d : Deployment ρ} {host : Host ρ} (h : Reachable base d host) :=
    Payroll.listing_payments h.books.keyed company since til
  have keys {ρ : Type} {base d : Deployment ρ} {host : Host ρ} (h : Reachable base d host) :=
    ViewKeys.listing_list h.filed host.clock company activeOnly
  refine ⟨employees h, payments h, keys h, fun base' d' other k => ⟨?_, ?_, ?_⟩⟩
  · intro same
    refine (employees h).unique ((employees k).congr fun binding => ?_)
    simp only [Registry.Bound, same _]
  · intro same
    refine (payments h).unique ((payments k).congr fun record => ?_)
    simp only [Payroll.Settled, same _]
  · intro same clocks
    refine (keys h).unique ((keys k).congr fun key => ?_)
    simp only [ViewKeys.Lent, ViewKeys.stored?, same _]
    exact and_congr_right fun _ => and_congr_right fun _ => ⟨fun active on => clocks on ▸ active on,
      fun active on => (clocks on).symm ▸ active on⟩

namespace Sample

/-- Takes on a second employee, and then has the first one leave and come back. -/
def rehire : Action Unit Unit := do
  let _ ← Call.run deployment (.registry (.enrol 0 "clerk" commitment))
  let _ ← Call.run deployment (.registry (.release 0 "worker"))
  let _ ← Call.run deployment (.registry (.enrol 0 "worker" commitment))

/-- Takes on a second employee. -/
def hire : Action Unit Unit := do
  let _ ← Call.run deployment (.registry (.enrol 0 "clerk" commitment))

/-- Who comes back goes to the end of the table, and not to the end of the list. -/
theorem hired_listed :
    let hired := hire.after staffed
    let rehired := rehire.after staffed
    hired.ledger.bindings.entries ≠ rehired.ledger.bindings.entries ∧
      Registry.employees hired.ledger 0 = Registry.employees rehired.ledger 0 ∧
      (Registry.employees hired.ledger 0).Pairwise fun a b => a.rank < b.rank := by
  have hiring : Program deployment hire := .bind (.base (.call _)) fun _ => .pure _
  have rehiring : Program deployment rehire :=
    .bind (.base (.call _)) fun _ => .bind (.base (.call _)) fun _ =>
      .bind (.base (.call _)) fun _ => .pure _
  have first := staffed_reachable.passes (.ran hiring (.here _ _))
  have second := staffed_reachable.passes (.ran rehiring (.here _ _))
  obtain ⟨listed, -, -, alike⟩ := first.listings (τ := Unit) 0 none none false
  obtain ⟨same, -, -⟩ := alike _ _ _ second
  refine ⟨by decide +kernel, same (.of_perm ?_), listed.increasing⟩
  decide +kernel

end Sample

end SealedPayroll
