import Mathlib.Order.Lattice
import SealedPayroll.Proofs.Ledger.Alike
import SealedPayroll.Proofs.Ledger.Rows

/-!
# Listings

A listing has everything that is to be listed, each once, in strictly increasing
order of some rank. There is one such list (`Listing.unique`). So where no two
rows have the same rank, sorting the rows of a table by rank hides the order in
which they came in, which a stable sort would show among equals.
-/

namespace SealedPayroll

section
variable {α ρ : Type} [LinearOrder ρ] {rank : α → ρ} {belongs : α → Prop} {first second : List α}

/-- What belongs, each once, in increasing order of rank. -/
structure Listing (rank : α → ρ) (belongs : α → Prop) (listed : List α) : Prop where
  mem_iff : ∀ a, a ∈ listed ↔ belongs a
  increasing : listed.Pairwise fun a b => rank a < rank b

namespace Listing

theorem nodup (h : Listing rank belongs first) : first.Nodup :=
  h.increasing.imp fun {a b} (below : rank a < rank b) (same : a = b) => lt_irrefl _ (same ▸ below)

/-- What belongs can be listed in one way only. -/
theorem unique (h : Listing rank belongs first) (k : Listing rank belongs second) :
    first = second := by
  refine List.Perm.eq_of_pairwise (fun a b _ _ below above => absurd above (lt_asymm below))
    h.increasing k.increasing ?_
  refine (List.perm_ext_iff_of_nodup h.nodup k.nodup).mpr fun a => ?_
  rw [h.mem_iff, k.mem_iff]

theorem congr {others : α → Prop} (h : Listing rank belongs first)
    (same : ∀ a, belongs a ↔ others a) : Listing rank others first where
  mem_iff a := (h.mem_iff a).trans (same a)
  increasing := h.increasing

/-- Sorting by rank gives a listing if no two have the same rank. -/
theorem mergeSort {before : α → α → Bool}
    (compares : ∀ a b, before a b = true ↔ rank a ≤ rank b) {items : List α}
    (distinct : (items.map rank).Nodup) (mem_iff : ∀ a, a ∈ items ↔ belongs a) :
    Listing rank belongs (items.mergeSort before) where
  mem_iff a := List.mem_mergeSort.trans (mem_iff a)
  increasing := by
    have sorted : (items.mergeSort before).Pairwise fun a b => before a b = true :=
      List.pairwise_mergeSort
        (fun a b c hab hbc => (compares a c).mpr
          (le_trans ((compares a b).mp hab) ((compares b c).mp hbc)))
        (fun a b => by simpa only [Bool.or_eq_true, compares] using le_total (rank a) (rank b))
        items
    have apart : ((items.mergeSort before).map rank).Nodup :=
      ((List.mergeSort_perm items before).map rank).nodup_iff.mpr distinct
    exact sorted.imp₂ (fun a b below other => lt_of_le_of_ne ((compares a b).mp below) other)
      (List.pairwise_map.mp apart)

end Listing

end

namespace Table

variable {κ ν α ρ : Type} [DecidableEq κ] {table first second : Table κ ν}

theorem Alike.of_perm (h : first.entries.Perm second.entries) : first.Alike second := by
  intro key
  refine Option.ext fun value => ?_
  rw [get?_eq_some_iff, get?_eq_some_iff, h.mem_iff]

section
variable {rank : α → ρ} (shown : ν → α) (test : α → Bool)

theorem nodup_ranks
    (apart : ∀ key other value held, table.get? key = some value → table.get? other = some held →
      test (shown value) = true → test (shown held) = true →
      rank (shown value) = rank (shown held) → key = other) :
    (((table.values.map shown).filter test).map rank).Nodup := by
  have rows : ((table.values.map shown).filter test).map rank =
      (table.entries.filter fun row => test (shown row.2)).map fun row => rank (shown row.2) := by
    simp only [values, List.map_map, List.filter_map]
    rfl
  have keys := List.pairwise_map.mp
    (table.nodup.sublist (List.filter_sublist (p := fun row => test (shown row.2)).map Prod.fst))
  rw [rows]
  refine List.pairwise_map.mpr (keys.imp_of_mem fun {row other} member there differ same => ?_)
  obtain ⟨stored, passes⟩ := List.mem_filter.mp member
  obtain ⟨held, others⟩ := List.mem_filter.mp there
  exact differ (apart _ _ _ _ (get?_eq_some_iff.mpr stored) (get?_eq_some_iff.mpr held) passes
    others same)

/-- The rows that pass a test, sorted by a rank that tells their keys, are listed. -/
theorem listing [LinearOrder ρ] {before : α → α → Bool}
    (compares : ∀ a b, before a b = true ↔ rank a ≤ rank b)
    (apart : ∀ key other value held, table.get? key = some value → table.get? other = some held →
      test (shown value) = true → test (shown held) = true →
      rank (shown value) = rank (shown held) → key = other) :
    Listing rank
      (fun a => (∃ key value, table.get? key = some value ∧ shown value = a) ∧ test a = true)
      (((table.values.map shown).filter test).mergeSort before) := by
  refine .mergeSort compares (nodup_ranks shown test apart) fun a => ?_
  rw [List.mem_filter, List.mem_map]
  refine and_congr_left fun _ => ⟨?_, ?_⟩
  · rintro ⟨value, member, rfl⟩
    obtain ⟨key, stored⟩ := mem_values_iff.mp member
    exact ⟨key, value, stored, rfl⟩
  · rintro ⟨key, value, stored, rfl⟩
    exact ⟨value, mem_values_iff.mpr ⟨key, stored⟩, rfl⟩

end

end Table

end SealedPayroll
