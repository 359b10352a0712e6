import SealedPayroll.Proofs.Ledger.Rows
import SealedPayroll.Proofs.Session.Public

/-!
# One order for all durable keys

The durable tables share one order of keys, `arrivals`. Wherever a run can be,
that order has the keys of each table, in the order in which the table has
them, and no others (`Reachable.inOrder`). So the tables and the order between
them are one ordered map, and going through a namespace with several kinds of
key shows them as they came in; no key of a caller outside the payroll is among
them (`Reachable.space_mem_iff`). Tables of entries that expire have no part in
it.
-/

namespace SealedPayroll

/-- The part of the ledger that has the entry under a key. -/
def StoreKey.part : StoreKey → Ledger.Part
  | .companyCount => .companyCount
  | .company _ => .companies
  | .binding _ => .bindings
  | .commitment _ => .commitments
  | .nullifier _ => .nullifiers
  | .verificationKey => .verificationKey
  | .balance _ => .balances
  | .payment _ _ => .payments
  | .total _ => .totals
  | .keyCounter _ _ => .keyCounters
  | .foreign _ _ => .foreign

namespace Ledger

variable {l k : Ledger} {key : StoreKey}

/-- The keys under which a part of the ledger has entries, in the order of its table. -/
def keysOf (l : Ledger) : Part → List StoreKey
  | .companyCount => if l.companyCount = 0 then [] else [.companyCount]
  | .companies => l.companies.keys.map .company
  | .bindings => l.bindings.keys.map .binding
  | .commitments => l.commitments.keys.map .commitment
  | .nullifiers => l.nullifiers.keys.map .nullifier
  | .verificationKey => if l.verificationKey.isSome then [.verificationKey] else []
  | .balances => l.balances.keys.map .balance
  | .payments => l.payments.keys.map fun (employee, period) => .payment employee period
  | .totals => l.totals.keys.map .total
  | .keyCounters => l.keyCounters.keys.map fun (company, auditor) => .keyCounter company auditor
  | .foreign => l.foreign.table.keys.map fun (space, key) => .foreign space key
  | .viewKeys | .foreignExpiring => []

/-- The order of durable keys has the keys of each part, in the order of that part, and no
others. -/
def InOrder (l : Ledger) : Prop :=
  ∀ part, l.arrivals.keys.filter (·.part = part) = l.keysOf part

theorem keysOf_congr {part : Part} (h : part.Agree l k) : k.keysOf part = l.keysOf part := by
  cases part <;> simp only [Part.Agree] at h <;> simp only [keysOf, h]

namespace InOrder

theorem empty : InOrder .empty := by
  rintro ⟨⟩ <;> rfl

theorem mem_keys_iff (h : l.InOrder) : key ∈ l.arrivals.keys ↔ key ∈ l.keysOf key.part := by
  rw [← h, List.mem_filter, decide_eq_true rfl, and_iff_left rfl]

/-- Writing under a key that is there changes nothing in the order. -/
theorem arrived_of_mem (h : l.InOrder) (present : key ∈ l.keysOf key.part) :
    l.arrived key = l.arrivals := by
  obtain ⟨⟨⟩, held⟩ := Table.contains_eq_true_iff.mp
    (Table.mem_keys_iff.mp (h.mem_keys_iff.mpr present))
  exact Table.insert_of_held held

/-- What has been written under one key is in order if the part of the key is. -/
theorem written (h : l.InOrder) (key : StoreKey) (order : k.arrivals = l.arrived key)
    (others : ∀ part ≠ key.part, part.Agree l k)
    (own : k.keysOf key.part =
      if key ∈ l.keysOf key.part then l.keysOf key.part else l.keysOf key.part ++ [key]) :
    k.InOrder := by
  intro part
  rw [order, arrived, Table.keys_insert]
  by_cases same : part = key.part
  · subst same
    rw [own, ← h key.part]
    simp only [h.mem_keys_iff, ← h key.part]
    split <;> simp
  · rw [keysOf_congr (others part same), ← h part]
    split
    · rfl
    · simp [Ne.symm same]

/-- What has been removed under one key is in order if the part of the key is. -/
theorem removed (h : l.InOrder) (key : StoreKey) (order : k.arrivals = l.departed key)
    (others : ∀ part ≠ key.part, part.Agree l k)
    (own : k.keysOf key.part = (l.keysOf key.part).filter (· ≠ key)) : k.InOrder := by
  intro part
  have swapped : (l.departed key).keys.filter (·.part = part) =
      (l.arrivals.keys.filter (·.part = part)).filter (· ≠ key) := by
    rw [departed, Table.keys_erase, List.filter_filter, List.filter_filter]
    exact List.filter_congr fun other _ => Bool.and_comm _ _
  rw [order, swapped, h part]
  by_cases same : part = key.part
  · rw [same, own]
  · rw [keysOf_congr (others part same), ← h part, List.filter_eq_self]
    intro other member
    have kind : other.part = part := of_decide_eq_true (List.mem_filter.mp member).2
    exact decide_eq_true fun equal => same (kind ▸ equal ▸ rfl)

end InOrder

/-- Every write keeps the order. -/
theorem Write.inOrder {part : Part} {f : Ledger → Ledger} (h : Write part f) (hl : l.InOrder) :
    (f l).InOrder := by
  have others (other : Part) (differs : other ≠ part) : other.Agree l (f l) := h.agree differs l
  cases h with
  | companyCount count =>
    refine hl.written .companyCount rfl others ?_
    by_cases none : l.companyCount = 0 <;> simp [StoreKey.part, keysOf, setCompanyCount, none]
  | company company =>
    exact hl.written (.company company.id) rfl others
      (Table.map_keys_insert (fun _ _ => StoreKey.company.inj) _ _ _)
  | binding name binding =>
    exact hl.written (.binding name) rfl others
      (Table.map_keys_insert (fun _ _ => StoreKey.binding.inj) _ _ _)
  | unbind name =>
    exact hl.removed (.binding name) rfl others
      (Table.map_keys_erase (fun _ _ => StoreKey.binding.inj) _ _)
  | commitment name record =>
    exact hl.written (.commitment name) rfl others
      (Table.map_keys_insert (fun _ _ => StoreKey.commitment.inj) _ _ _)
  | uncommit name =>
    exact hl.removed (.commitment name) rfl others
      (Table.map_keys_erase (fun _ _ => StoreKey.commitment.inj) _ _)
  | nullifier value record =>
    exact hl.written (.nullifier value) rfl others
      (Table.map_keys_insert (fun _ _ => StoreKey.nullifier.inj) _ _ _)
  | verificationKey key =>
    refine hl.written .verificationKey rfl others ?_
    by_cases set : l.verificationKey.isSome = true <;>
      simp [StoreKey.part, keysOf, setVerificationKey, set]
  | balance holder balance =>
    exact hl.written (.balance holder) rfl others
      (Table.map_keys_insert (fun _ _ => StoreKey.balance.inj) _ _ _)
  | payment employee period record =>
    exact hl.written (.payment employee period) rfl others
      (Table.map_keys_insert (by rintro ⟨⟩ ⟨⟩ ⟨⟩; rfl) _ (employee, period) _)
  | total company amount =>
    exact hl.written (.total company) rfl others
      (Table.map_keys_insert (fun _ _ => StoreKey.total.inj) _ _ _)
  | keyCounter company auditor count =>
    exact hl.written (.keyCounter company auditor) rfl others
      (Table.map_keys_insert (by rintro ⟨⟩ ⟨⟩ ⟨⟩; rfl) _ (company, auditor) _)
  | @foreign space _ key value =>
    exact hl.written (.foreign space key.keyForm) rfl others
      (Table.map_keys_insert (by rintro ⟨⟩ ⟨⟩ ⟨⟩; rfl) _ (space, key.keyForm) _)
  | @unforeign space _ key =>
    exact hl.removed (.foreign space key.keyForm) rfl others
      (Table.map_keys_erase (by rintro ⟨⟩ ⟨⟩ ⟨⟩; rfl) _ (space, key.keyForm))
  | viewKey id entry => exact hl
  | revoke id => exact hl
  | foreignExpiring change => exact hl

/-- No caller outside the payroll has stored anything durable under a namespace of the payroll. -/
def Apart (l : Ledger) : Prop := ∀ place ∈ l.foreign.table.keys, place.1 ∉ payrollSpaces

theorem Write.apart {part : Part} {f : Ledger → Ledger} (h : Write part f) (hl : l.Apart) :
    (f l).Apart := by
  by_cases foreign : part = .foreign
  · subst foreign
    intro place member
    cases h with
    | @foreign space apart key value =>
      change place ∈ (l.foreign.table.insert (space, key.keyForm) _).keys at member
      rw [Table.keys_insert] at member
      split at member
      · exact hl place member
      · obtain old | new := List.mem_append.mp member
        · exact hl place old
        · exact List.mem_singleton.mp new ▸ apart
    | @unforeign space _ key =>
      change place ∈ (l.foreign.table.erase (space, key.keyForm)).keys at member
      rw [Table.keys_erase] at member
      exact hl place (List.mem_filter.mp member).1
  · have same : (f l).foreign = l.foreign := h.agree (Ne.symm foreign) l
    rw [Apart, same]
    exact hl

end Ledger

section
variable {σ : Type} {base d : Deployment σ} {host : Host σ}

/-- The keys of the durable tables are in one order wherever a run is. -/
theorem Reachable.inOrder (h : Reachable base d host) : host.ledger.InOrder :=
  h.invariant .empty (fun _ _ _ hl => hl) fun _ _ hw _ hl => hw.inOrder hl

theorem Reachable.apart (h : Reachable base d host) : host.ledger.Apart :=
  h.invariant (P := Ledger.Apart) (fun _ member => (List.not_mem_nil member).elim)
    (fun _ _ _ hl => hl) fun _ _ hw _ hl => hw.apart hl

/-- The namespaces of the payroll have its own keys only, and it has none elsewhere. -/
theorem Reachable.space_mem_iff (h : Reachable base d host) {key : StoreKey}
    (present : key ∈ host.ledger.arrivals.keys) :
    key.space ∈ payrollSpaces ↔ key.part ≠ .foreign := by
  cases key with
  | foreign space key =>
    obtain ⟨place, member, same⟩ := List.mem_map.mp (h.inOrder.mem_keys_iff.mp present)
    obtain ⟨rfl, rfl⟩ := StoreKey.foreign.inj same
    exact iff_of_false (h.apart place member) fun differs => differs rfl
  | _ => simp [StoreKey.space, StoreKey.part, payrollSpaces]

end

end SealedPayroll
