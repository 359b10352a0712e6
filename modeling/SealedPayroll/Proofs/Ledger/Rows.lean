import Mathlib.Data.List.Basic
import SealedPayroll.Table

/-!
# The rows of a table

`get?` says what a table holds, but not in which order. Here is what the
operations do to the rows themselves: a new key goes to the end, a key that is
present keeps its place. `keys` is that order without the values. How many rows
pass a test changes by the row that is written and the row that it replaces.
-/

namespace SealedPayroll.Table

variable {κ ν : Type} [DecidableEq κ]

theorem find_eq_some_iff {key : κ} {value : ν} {entries : List (κ × ν)}
    (h : (entries.map Prod.fst).Nodup) :
    find key entries = some value ↔ (key, value) ∈ entries := by
  induction entries with
  | nil => simp [find]
  | cons entry rest ih =>
    obtain ⟨k, v⟩ := entry
    rw [List.map_cons, List.nodup_cons] at h
    by_cases hk : k = key
    · subst hk
      have hn : (k, value) ∉ rest := fun hm => h.1 (List.mem_map.mpr ⟨_, hm, rfl⟩)
      simp [find, hn, eq_comm]
    · simp [find, hk, ih h.2, Ne.symm hk]

theorem get?_eq_some_iff {table : Table κ ν} {key : κ} {value : ν} :
    table.get? key = some value ↔ (key, value) ∈ table.entries :=
  find_eq_some_iff table.nodup

theorem get?_insert_eq_none {table : Table κ ν} {key other : κ} {value : ν} :
    (table.insert key value).get? other = none ↔ table.get? other = none ∧ key ≠ other := by
  rw [get?_insert]
  split
  · rename_i h
    simp [h]
  · rename_i h
    simp [h]

theorem get?_filter (table : Table κ ν) (test : κ → ν → Bool) (key : κ) :
    (table.filter test).get? key = (table.get? key).filter (test key) := by
  refine Option.ext fun value => ?_
  simp only [get?_eq_some_iff, Option.filter_eq_some_iff, filter, List.mem_filter]

theorem mem_values_iff {table : Table κ ν} {value : ν} :
    value ∈ table.values ↔ ∃ key, table.get? key = some value := by
  simp only [values, List.mem_map, get?_eq_some_iff]
  constructor
  · rintro ⟨⟨key, _⟩, h, rfl⟩
    exact ⟨key, h⟩
  · rintro ⟨key, h⟩
    exact ⟨(key, value), h, rfl⟩

theorem contains_eq_false_iff {table : Table κ ν} {key : κ} :
    table.contains key = false ↔ table.get? key = none := by
  simp [contains]

theorem contains_eq_true_iff {table : Table κ ν} {key : κ} :
    table.contains key = true ↔ ∃ value, table.get? key = some value := by
  rw [contains, Option.isSome_iff_exists]

theorem put_of_new {key : κ} {value : ν} {entries : List (κ × ν)}
    (h : find key entries = none) : put key value entries = entries ++ [(key, value)] := by
  induction entries with
  | nil => rfl
  | cons entry rest ih =>
    by_cases hk : entry.1 = key
    · simp [find, hk] at h
    · rw [put, if_neg hk, ih (by simpa [find, hk] using h), List.cons_append]

theorem put_of_present {key : κ} {value : ν} {entries : List (κ × ν)}
    (hn : (entries.map Prod.fst).Nodup) (h : find key entries ≠ none) :
    put key value entries =
      entries.map fun entry => if entry.1 = key then (key, value) else entry := by
  induction entries with
  | nil => simp [find] at h
  | cons entry rest ih =>
    rw [List.map_cons, List.nodup_cons] at hn
    by_cases hk : entry.1 = key
    · subst hk
      rw [put, if_pos rfl, List.map_cons, if_pos rfl]
      refine congrArg _ (List.map_id' rest |>.symm.trans (List.map_congr_left fun other ho => ?_))
      rw [if_neg]
      rintro he
      exact hn.1 (he ▸ List.mem_map_of_mem ho)
    · rw [put, if_neg hk, ih hn.2 (by simpa [find, hk] using h), List.map_cons, if_neg hk]

/-- Writing under a new key adds a row at the end. -/
theorem entries_insert_new {table : Table κ ν} {key : κ} (value : ν)
    (h : table.get? key = none) :
    (table.insert key value).entries = table.entries ++ [(key, value)] :=
  put_of_new h

/-- Writing under a key that is present changes its row in place. -/
theorem entries_insert_present {table : Table κ ν} {key : κ} (value : ν)
    (h : table.get? key ≠ none) :
    (table.insert key value).entries =
      table.entries.map fun entry => if entry.1 = key then (key, value) else entry :=
  put_of_present table.nodup h

-- ---------------------------------------------------------------------------
-- Keys
-- ---------------------------------------------------------------------------

/-- The keys, in the order in which they came in. -/
def keys (table : Table κ ν) : List κ := table.entries.map Prod.fst

theorem mem_keys_iff {table : Table κ ν} {key : κ} :
    key ∈ table.keys ↔ table.contains key = true := by
  simp only [keys, List.mem_map, contains_eq_true_iff, get?_eq_some_iff]
  constructor
  · rintro ⟨⟨key, value⟩, member, rfl⟩
    exact ⟨value, member⟩
  · rintro ⟨value, member⟩
    exact ⟨(key, value), member, rfl⟩

theorem insert_of_held {table : Table κ ν} {key : κ} {value : ν}
    (h : table.get? key = some value) : table.insert key value = table := by
  apply eq_of_entries
  rw [entries_insert_present _ (by simp [h])]
  refine (List.map_congr_left fun entry member => ?_).trans (List.map_id _)
  split
  · rename_i same
    have stored := get?_eq_some_iff.mpr (show (entry.1, entry.2) ∈ table.entries from member)
    rw [same, h] at stored
    cases stored
    exact Prod.ext same.symm rfl
  · rfl

theorem keys_insert (table : Table κ ν) (key : κ) (value : ν) :
    (table.insert key value).keys =
      if key ∈ table.keys then table.keys else table.keys ++ [key] := by
  split
  · rename_i present
    have held : table.get? key ≠ none := by
      obtain ⟨old, held⟩ := contains_eq_true_iff.mp (mem_keys_iff.mp present)
      simp [held]
    rw [keys, entries_insert_present value held, List.map_map, keys]
    refine List.map_congr_left fun entry _ => ?_
    simp only [Function.comp_apply]
    split
    · rename_i same
      exact same.symm
    · rfl
  · rename_i absent
    have new : table.get? key = none := by
      rwa [mem_keys_iff, Bool.not_eq_true, contains_eq_false_iff] at absent
    rw [keys, entries_insert_new value new, List.map_append, keys]
    rfl

theorem keys_erase (table : Table κ ν) (key : κ) :
    (table.erase key).keys = table.keys.filter (· ≠ key) := by
  simp only [keys, erase, filter, List.filter_map]
  rfl

section
variable {α : Type} [DecidableEq α] {name : κ → α}

/-- A write under the names of keys: a new one comes last. -/
theorem map_keys_insert (injective : Function.Injective name) (table : Table κ ν) (key : κ)
    (value : ν) :
    (table.insert key value).keys.map name =
      if name key ∈ table.keys.map name then table.keys.map name
      else table.keys.map name ++ [name key] := by
  simp only [keys_insert, List.mem_map_of_injective injective]
  split
  · rfl
  · exact List.map_append

theorem map_keys_erase (injective : Function.Injective name) (table : Table κ ν) (key : κ) :
    (table.erase key).keys.map name = (table.keys.map name).filter (· ≠ name key) := by
  rw [keys_erase, List.filter_map]
  congr 1
  exact List.filter_congr fun other _ => by simp [injective.eq_iff]

end

-- ---------------------------------------------------------------------------
-- Counting rows
-- ---------------------------------------------------------------------------

section
variable (test : ν → Bool)

/-- A row that is written counts in the place of the one it replaces, if there was one. -/
theorem countP_put (key : κ) (value : ν) (entries : List (κ × ν)) :
    ((put key value entries).map Prod.snd).countP test + ((find key entries).any test).toNat =
      (entries.map Prod.snd).countP test + (test value).toNat := by
  induction entries with
  | nil => cases h : test value <;> simp [put, find, h]
  | cons entry rest ih =>
    by_cases he : entry.1 = key
    · cases hn : test value <;> cases ho : test entry.2 <;> simp [put, find, he, hn, ho]
    · simp only [put, find, if_neg he, List.map_cons, List.countP_cons]
      omega

theorem countP_insert (table : Table κ ν) (key : κ) (value : ν) :
    (table.insert key value).values.countP test + ((table.get? key).any test).toNat =
      table.values.countP test + (test value).toNat :=
  countP_put test key value table.entries

/-- A row that is removed does not count any more. -/
theorem countP_erase (table : Table κ ν) (key : κ) :
    (table.erase key).values.countP test + ((table.get? key).any test).toNat =
      table.values.countP test := by
  obtain ⟨entries, nodup⟩ := table
  simp only [erase, filter, values, get?]
  induction entries with
  | nil => rfl
  | cons entry rest ih =>
    rw [List.map_cons, List.nodup_cons] at nodup
    by_cases he : entry.1 = key
    · -- no other row has the key
      have others : rest.filter (fun other => decide (other.1 ≠ key)) = rest := by
        refine List.filter_eq_self.mpr fun other member => decide_eq_true ?_
        rintro rfl
        exact nodup.1 (he ▸ List.mem_map_of_mem member)
      rw [List.filter_cons_of_neg (by simpa using he), others, find, if_pos he, List.map_cons,
        List.countP_cons]
      cases ho : test entry.2 <;> simp [ho]
    · rw [List.filter_cons_of_pos (by simpa using he), find, if_neg he, List.map_cons,
        List.map_cons, List.countP_cons, List.countP_cons, ← ih nodup.2]
      omega

end

-- ---------------------------------------------------------------------------
-- Parts of a table
-- ---------------------------------------------------------------------------

variable {table : Table κ ν} {key : κ} {value : ν} {test : κ → ν → Bool}

/-- What is not in a part of a table. -/
def Outside (table : Table κ ν) (test : κ → ν → Bool) (key : κ) : Prop :=
  ∀ value, table.get? key = some value → test key value = false

theorem filter_put {entries : List (κ × ν)} (hv : test key value = false)
    (ho : ∀ old, find key entries = some old → test key old = false) :
    (put key value entries).filter (fun entry => test entry.1 entry.2) =
      entries.filter fun entry => test entry.1 entry.2 := by
  induction entries with
  | nil => simp [put, hv]
  | cons entry rest ih =>
    by_cases he : entry.1 = key
    · subst he
      have old : test entry.1 entry.2 = false := ho entry.2 (if_pos rfl)
      simp [put, hv, old]
    · rw [put, if_neg he, List.filter_cons, List.filter_cons, ih]
      intro old found
      exact ho old (by rw [find, if_neg he, found])

/-- Writing outside of a part leaves the part as it is. -/
theorem filter_insert_outside (hv : test key value = false) (ho : table.Outside test key) :
    (table.insert key value).filter test = table.filter test :=
  eq_of_entries (filter_put hv ho)

/-- Removing outside of a part leaves the part as it is. -/
theorem filter_erase_outside (ho : table.Outside test key) :
    (table.erase key).filter test = table.filter test := by
  apply eq_of_entries
  simp only [filter, erase, List.filter_filter]
  apply List.filter_congr
  rintro ⟨other, value⟩ stored
  by_cases he : other = key
  · subst he
    simp [ho value (get?_eq_some_iff.mpr stored)]
  · simp [he]

omit [DecidableEq κ] in
/-- A part of a part that holds all of it anyway. -/
theorem filter_filter_of_imp {wide : κ → ν → Bool} (table : Table κ ν)
    (h : ∀ key value, test key value = true → wide key value = true) :
    (table.filter wide).filter test = table.filter test := by
  apply eq_of_entries
  simp only [filter, List.filter_filter]
  apply List.filter_congr
  rintro ⟨key, value⟩ -
  cases ht : test key value with
  | true => simp [h key value ht]
  | false => simp

end SealedPayroll.Table
