/-!
# Tables

A table maps keys to values and remembers the order in which its keys first
came in: writing under a key that is present keeps its place, removing it and
writing again moves it to the end. No key occurs twice. Each operation comes
with the law that says what it does to `get?`, which is how a table is read.
-/

namespace SealedPayroll

/-- Keys with values, in the order in which the keys came in. -/
structure Table (κ ν : Type) where
  entries : List (κ × ν)
  nodup : (entries.map Prod.fst).Nodup

namespace Table

variable {κ ν : Type}

theorem eq_of_entries {first second : Table κ ν} (h : first.entries = second.entries) :
    first = second := by
  cases first; cases second; cases h; rfl

variable [DecidableEq κ]

-- ---------------------------------------------------------------------------
-- Lists of entries
-- ---------------------------------------------------------------------------

/-- Writes under a key in place, or at the end when the key is new. -/
def put (key : κ) (value : ν) : List (κ × ν) → List (κ × ν)
  | [] => [(key, value)]
  | entry :: rest =>
    if entry.1 = key then (entry.1, value) :: rest else entry :: put key value rest

def find (key : κ) : List (κ × ν) → Option ν
  | [] => none
  | entry :: rest => if entry.1 = key then some entry.2 else find key rest

theorem mem_keys_put {key other : κ} {value : ν} {entries : List (κ × ν)} :
    other ∈ (put key value entries).map Prod.fst ↔
      other = key ∨ other ∈ entries.map Prod.fst := by
  induction entries with
  | nil => simp [put]
  | cons entry rest ih =>
    by_cases h : entry.1 = key
    · simp only [put, if_pos h, List.map_cons, List.mem_cons]
      constructor
      · exact Or.inr
      · rintro (rfl | h')
        · exact .inl h.symm
        · exact h'
    · simp only [put, if_neg h, List.map_cons, List.mem_cons, ih]
      exact or_left_comm

theorem nodup_put {key : κ} {value : ν} {entries : List (κ × ν)}
    (h : (entries.map Prod.fst).Nodup) : ((put key value entries).map Prod.fst).Nodup := by
  induction entries with
  | nil => simp [put]
  | cons entry rest ih =>
    rw [List.map_cons, List.nodup_cons] at h
    by_cases hk : entry.1 = key
    · simpa [put, if_pos hk] using h
    · rw [put, if_neg hk, List.map_cons, List.nodup_cons, mem_keys_put]
      exact ⟨fun hm => hm.elim hk h.1, ih h.2⟩

-- ---------------------------------------------------------------------------
-- Operations
-- ---------------------------------------------------------------------------

def empty : Table κ ν := ⟨[], .nil⟩

def get? (table : Table κ ν) (key : κ) : Option ν := find key table.entries

def contains (table : Table κ ν) (key : κ) : Bool := (table.get? key).isSome

def insert (table : Table κ ν) (key : κ) (value : ν) : Table κ ν :=
  ⟨put key value table.entries, nodup_put table.nodup⟩

def filter (table : Table κ ν) (test : κ → ν → Bool) : Table κ ν where
  entries := table.entries.filter fun entry => test entry.1 entry.2
  nodup := table.nodup.sublist (List.filter_sublist.map Prod.fst)

def erase (table : Table κ ν) (key : κ) : Table κ ν :=
  table.filter fun other _ => other ≠ key

/-- The values, in the order of their keys. -/
def values (table : Table κ ν) : List ν := table.entries.map Prod.snd

-- ---------------------------------------------------------------------------
-- What the operations do to `get?`
-- ---------------------------------------------------------------------------

theorem find_put (key other : κ) (value : ν) (entries : List (κ × ν)) :
    find other (put key value entries) = if key = other then some value else find other entries := by
  induction entries with
  | nil => simp [put, find]
  | cons entry rest ih =>
    by_cases h : entry.1 = key
    · by_cases ho : key = other <;> simp [put, find, h, ho]
    · by_cases ho : key = other
      · simp only [put, if_neg h, find, ih, if_pos ho, if_neg (ho ▸ h)]
      · simp only [put, if_neg h, find, ih, if_neg ho]

theorem find_filter_ne (key other : κ) (entries : List (κ × ν)) :
    find other (entries.filter fun entry => decide (entry.1 ≠ key)) =
      if key = other then none else find other entries := by
  induction entries with
  | nil => simp [find]
  | cons entry rest ih =>
    by_cases h : entry.1 = key
    · simp only [ne_eq, decide_not, List.filter_cons, h, decide_true, Bool.not_true,
        Bool.false_eq_true, ↓reduceIte]
      simp only [ne_eq, decide_not] at ih
      rw [ih]
      by_cases ho : key = other <;> simp [find, h, ho]
    · simp only [ne_eq, decide_not, List.filter_cons, h, decide_false, Bool.not_false, ↓reduceIte,
        find]
      simp only [ne_eq, decide_not] at ih
      rw [ih]
      by_cases ho : key = other
      · simp [ho, ho ▸ h]
      · simp [ho]

@[simp] theorem get?_empty (key : κ) : (empty : Table κ ν).get? key = none := rfl

theorem get?_insert (table : Table κ ν) (key other : κ) (value : ν) :
    (table.insert key value).get? other = if key = other then some value else table.get? other :=
  find_put key other value table.entries

theorem get?_erase (table : Table κ ν) (key other : κ) :
    (table.erase key).get? other = if key = other then none else table.get? other :=
  find_filter_ne key other table.entries

end Table

end SealedPayroll
