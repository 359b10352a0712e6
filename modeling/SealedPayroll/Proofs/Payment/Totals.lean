import Mathlib.Algebra.BigOperators.Group.List.Basic
import SealedPayroll.Proofs.Payment.Scalars
import SealedPayroll.Proofs.Session.Regime

/-!
# Running totals

The total of a company is counted up as payments are booked, and could as well
be computed from the payments on the books (`Ledger.recorded`). The two agree
in every place of a run, whatever transfers run besides and whichever failures
are caught: a booking writes both or neither, and nothing else writes either.
-/

namespace SealedPayroll

open SealedPayroll.Action (Footprint Keeps)

variable {σ : Type} {l k : Ledger}

/-- What the payments of a company add up to. -/
def Ledger.recorded (l : Ledger) (company : Int) : Int :=
  ((l.payments.values.filter (·.company = company)).map (·.amount)).sum

/-- The totals are what the payments add up to. -/
def Ledger.Tallied (l : Ledger) : Prop := ∀ company, l.totalPaid company = l.recorded company

-- ---------------------------------------------------------------------------
-- Booking
-- ---------------------------------------------------------------------------

namespace Ledger

theorem Tallied.empty : Ledger.empty.Tallied := fun _ => rfl

theorem Tallied.of_same (h : l.Tallied) (hp : k.payments = l.payments) (ht : k.totals = l.totals) :
    k.Tallied := by
  intro company
  rw [totalPaid, recorded, hp, ht]
  exact h company

/-- A payment under a new key is one more payment of its company. -/
theorem recorded_post (l : Ledger) (record : PaymentRecord) (company : Int)
    (hn : l.payments.get? (record.employee, record.period) = none) :
    (l.post record).recorded company =
      l.recorded company + if record.company = company then record.amount else 0 := by
  have values : (l.post record).payments.values = l.payments.values ++ [record] := by
    simp only [post, putTotal, putPayment, Table.values, Table.entries_insert_new record hn,
      List.map_append, List.map_cons, List.map_nil]
  simp only [recorded, values, List.filter_append, List.map_append, List.sum_append]
  by_cases h : record.company = company <;> simp [h]

theorem Tallied.post (h : l.Tallied) {record : PaymentRecord}
    (hn : l.payments.get? (record.employee, record.period) = none) : (l.post record).Tallied := by
  intro company
  rw [totalPaid_post, recorded_post l record company hn, h company]

end Ledger

/-- From a ledger with the right totals one with the right totals is reached. -/
abbrev Tallies (l k : Ledger) : Prop := l.Tallied → k.Tallied

theorem Tallies.chained : Chained Tallies := .of_invariant fun _ _ _ h => h

theorem Tallies.besides {α : Type} {action : Action σ α} {parts : List Ledger.Part}
    (h : Footprint parts action) (hp : .payments ∉ parts) (ht : .totals ∉ parts) :
    Keeps Tallies action :=
  fun host tallied =>
    tallied.of_same (h.agree .payments hp rfl host) (h.agree .totals ht rfl host)

/-- A booking counts what it records, even when the binding cannot be brought up to date. -/
theorem Payroll.book_tallies (company : Company) (period : Int) (entry : Payroll.Entry) :
    Keeps Tallies (Payroll.book company period entry : Action σ PaymentRecord) := by
  intro host tallied
  rcases hr : (book company period entry).run host with ⟨result, later⟩
  rw [Action.after, hr]
  rcases book_cases hr with ⟨-, rfl⟩ | ⟨-, new, -, payments, totals⟩
  · exact tallied
  · have posted : (host.ledger.post (entry.record company period host)).Tallied :=
      tallied.post new
    exact posted.of_same payments totals

theorem Affair.tallies {base : Deployment σ} {direct : Prop} {parts : List Ledger.Part} {α : Type}
    {action : Action σ α} (h : Affair base direct parts action) : Keeps Tallies action := by
  have footprint := h.footprint
  cases h with
  | enter company period entry =>
    apply Tallies.chained.bind
    · exact .besides (Nullifiers.use_footprint _) (by decide) (by decide)
    · exact fun _ => Payroll.book_tallies company period entry
  | _ => exact .besides footprint (by decide) (by decide)

-- ---------------------------------------------------------------------------
-- Runs
-- ---------------------------------------------------------------------------

namespace Payroll

theorem mem_payments_iff {company : Int} {record : PaymentRecord} :
    record ∈ payments l company none none ↔
      record ∈ l.payments.values ∧ record.company = company := by
  simp [payments, EventFilter.inWindow]

/-- Without bounds, the payments that are listed add up to what is on the books. -/
theorem sum_payments (l : Ledger) (company : Int) :
    ((payments l company none none).map (·.amount)).sum = l.recorded company := by
  have listed : (payments l company none none).Perm
      (l.payments.values.filter (·.company = company)) := by
    refine (List.mergeSort_perm _ _).trans (.of_eq ?_)
    simp [EventFilter.inWindow]
  exact (listed.map _).sum_eq

end Payroll

section
variable {base d : Deployment σ} {host : Host σ}

theorem Reachable.tallied (h : Reachable base d host) : host.ledger.Tallied :=
  (Regime.Reachable.of_public h).holds Regime.orderly_public .empty (fun _ _ _ ht => ht)
    fun _ _ _ ha => ha.tallies

/-- Wherever a run is, the total of a company is the sum of its payments, which is nothing if it
has made none; and its payments stay listed as its own, whatever happens next. -/
theorem Reachable.totalPaid_eq (h : Reachable base d host) (company : Int) :
    host.ledger.totalPaid company =
        ((host.ledger.payments.values.filter (·.company = company)).map (·.amount)).sum ∧
      host.ledger.totalPaid company =
        ((Payroll.payments host.ledger company none none).map (·.amount)).sum ∧
      ((∀ record ∈ host.ledger.payments.values, record.company ≠ company) →
        host.ledger.totalPaid company = 0) ∧
      ∀ e reached, Passes base d host e reached →
        ∀ record ∈ Payroll.payments host.ledger company none none,
          record ∈ Payroll.payments reached.ledger company none none := by
  have tallied := h.tallied company
  refine ⟨tallied, tallied.trans (Payroll.sum_payments _ _).symm, fun none => ?_, ?_⟩
  · have empty : host.ledger.payments.values.filter (·.company = company) = [] := by
      simpa using none
    rw [tallied, Ledger.recorded, empty]
    rfl
  · intro e reached hp record listed
    obtain ⟨stored, own⟩ := Payroll.mem_payments_iff.mp listed
    obtain ⟨key, stored⟩ := Table.mem_values_iff.mp stored
    have kept := ((hp.respected postsMany_respected h.reentrant).2).kept
    exact Payroll.mem_payments_iff.mpr
      ⟨Table.mem_values_iff.mpr ⟨key, kept.payments key record stored⟩, own⟩

end

namespace Sample

/-- The employee moves to another company, which pays more than it has, and the failure is caught
inside a transaction. -/
def moving : Action Unit Unit := do
  let _ ← Call.run deployment (.registry (.register "boss" "vault"))
  let _ ← Call.run deployment (.registry (.release 0 "worker"))
  let _ ← Call.run deployment (.registry (.enrol 1 "worker" commitment))
  Host.transaction do
    let _ ← (Call.run deployment (.payments (.pay 1 (entry high) 2))).outcome

/-- The first company's payment is still its own, and the second one's total counts what its
treasury never paid out. -/
theorem moved_totals :
    let moved := moving.after ((paying low 1).after staffed)
    (moved.ledger.bindings.get? "worker").map (·.company) = some 1 ∧
      moved.ledger.totalPaid 0 = 10 ∧ moved.ledger.totalPaid 2 = 0 ∧
      moved.ledger.totalPaid 1 =
        ((Payroll.payments moved.ledger 1 none none).map (·.amount)).sum ∧
      ⟨0, "worker", 10, low, 0, 1⟩ ∈ Payroll.payments moved.ledger 0 none none := by
  have program : Program deployment moving :=
    .bind (.base (.call _)) fun _ => .bind (.base (.call _)) fun _ =>
      .bind (.base (.call _)) fun _ => .transaction (.bind (.outcome (.base (.call _))) fun _ =>
        .pure _)
  have paid : Reachable deployment deployment ((paying low 1).after staffed) :=
    staffed_reachable.passes (.ran (.base (.call _)) (.here _ _))
  have passed : Passes deployment deployment ((paying low 1).after staffed) deployment
      (moving.after ((paying low 1).after staffed)) := .ran program (.here _ _)
  obtain ⟨-, -, -, stays⟩ := paid.totalPaid_eq 0
  obtain ⟨-, listed, -, -⟩ := (paid.passes passed).totalPaid_eq 1
  refine ⟨by decide +kernel, by decide +kernel, by decide +kernel, listed, stays _ _ passed _ ?_⟩
  decide +kernel

end Sample

end SealedPayroll
