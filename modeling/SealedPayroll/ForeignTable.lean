import SealedPayroll.Datum
import SealedPayroll.Table

/-!
# Tables of callers outside the payroll

Callers outside the payroll store values under a namespace and a key of their
choice. Keys are compared in their key form, so `true` and `1` are one key; a
table shows a key as it was when it first came in, also after a later write
under an equal one. `get?_put` says what writing does to reading.
-/

namespace SealedPayroll

/-- A value with its key as it was first written. -/
structure Labelled (ν : Type) where
  label : Datum
  value : ν
  deriving DecidableEq

structure ForeignTable (ν : Type) where
  table : Table (String × Datum) (Labelled ν)

namespace ForeignTable

variable {ν : Type}

def empty : ForeignTable ν := ⟨.empty⟩

def get? (t : ForeignTable ν) (space : String) (key : Datum) : Option ν :=
  (t.table.get? (space, key.keyForm)).map (·.value)

def contains (t : ForeignTable ν) (space : String) (key : Datum) : Bool :=
  t.table.contains (space, key.keyForm)

/-- The key that a table shows for `key`: the one that came in first. -/
def shownKey (t : ForeignTable ν) (space : String) (key : Datum) : Datum :=
  ((t.table.get? (space, key.keyForm)).map (·.label)).getD key

def put (t : ForeignTable ν) (space : String) (key : Datum) (value : ν) : ForeignTable ν :=
  ⟨t.table.insert (space, key.keyForm) ⟨t.shownKey space key, value⟩⟩

def erase (t : ForeignTable ν) (space : String) (key : Datum) : ForeignTable ν :=
  ⟨t.table.erase (space, key.keyForm)⟩

def filter (t : ForeignTable ν) (test : ν → Bool) : ForeignTable ν :=
  ⟨t.table.filter fun _ entry => test entry.value⟩

def values (t : ForeignTable ν) : List ν := t.table.values.map (·.value)

/-- The keys of one namespace with their values, in order. -/
def under (t : ForeignTable ν) (space : String) : List (Datum × ν) :=
  (t.table.entries.filter fun (place, _) => place.1 = space).map fun (_, entry) =>
    (entry.label, entry.value)

theorem get?_put (t : ForeignTable ν) (space other : String) (key wanted : Datum) (value : ν) :
    (t.put space key value).get? other wanted =
      if (space, key.keyForm) = (other, wanted.keyForm) then some value
      else t.get? other wanted := by
  simp only [put, get?, Table.get?_insert]
  split <;> rfl

theorem get?_erase (t : ForeignTable ν) (space other : String) (key wanted : Datum) :
    (t.erase space key).get? other wanted =
      if (space, key.keyForm) = (other, wanted.keyForm) then none else t.get? other wanted := by
  simp only [erase, get?, Table.get?_erase]
  split <;> rfl

end ForeignTable

end SealedPayroll
