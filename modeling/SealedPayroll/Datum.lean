import SealedPayroll.Text.Quoted

/-!
# Untyped values

Event payloads and the storage of callers outside the payroll hold values
whose shape nobody promises. A `Datum` is such a value; equality is decidable,
so it can also be a storage key, in the form that `keyForm` gives it.
`display` is the form in which messages show one, and `displayTopics` that of
an event's topics.
-/

namespace SealedPayroll

inductive Datum where
  | null
  | bool (value : Bool)
  | int (value : Int)
  | text (value : String)
  | list (items : List Datum)
  | record (fields : List (String × Datum))

namespace Datum

mutual

protected def decEq : (a b : Datum) → Decidable (a = b)
  | .null, .null => isTrue rfl
  | .bool a, .bool b => decidable_of_iff (a = b) (by simp)
  | .int a, .int b => decidable_of_iff (a = b) (by simp)
  | .text a, .text b => decidable_of_iff (a = b) (by simp)
  | .list a, .list b =>
    match Datum.decEqItems a b with
    | isTrue h => isTrue (by rw [h])
    | isFalse h => isFalse (by simpa using h)
  | .record a, .record b =>
    match Datum.decEqFields a b with
    | isTrue h => isTrue (by rw [h])
    | isFalse h => isFalse (by simpa using h)
  | .null, .bool _ | .null, .int _ | .null, .text _ | .null, .list _ | .null, .record _
  | .bool _, .null | .bool _, .int _ | .bool _, .text _ | .bool _, .list _ | .bool _, .record _
  | .int _, .null | .int _, .bool _ | .int _, .text _ | .int _, .list _ | .int _, .record _
  | .text _, .null | .text _, .bool _ | .text _, .int _ | .text _, .list _ | .text _, .record _
  | .list _, .null | .list _, .bool _ | .list _, .int _ | .list _, .text _ | .list _, .record _
  | .record _, .null | .record _, .bool _ | .record _, .int _ | .record _, .text _
  | .record _, .list _ => isFalse (by simp)

protected def decEqItems : (a b : List Datum) → Decidable (a = b)
  | [], [] => isTrue rfl
  | a :: as, b :: bs =>
    match Datum.decEq a b, Datum.decEqItems as bs with
    | isTrue h, isTrue hs => isTrue (by rw [h, hs])
    | isFalse h, _ => isFalse (by simp [h])
    | _, isFalse hs => isFalse (by simp [hs])
  | [], _ :: _ | _ :: _, [] => isFalse (by simp)

protected def decEqFields : (a b : List (String × Datum)) → Decidable (a = b)
  | [], [] => isTrue rfl
  | (n, a) :: as, (m, b) :: bs =>
    match decEq n m, Datum.decEq a b, Datum.decEqFields as bs with
    | isTrue hn, isTrue h, isTrue hs => isTrue (by rw [hn, h, hs])
    | isFalse hn, _, _ => isFalse (by simp [hn])
    | _, isFalse h, _ => isFalse (by simp [h])
    | _, _, isFalse hs => isFalse (by simp [hs])
  | [], _ :: _ | _ :: _, [] => isFalse (by simp)

end

instance : DecidableEq Datum := Datum.decEq

def text? : Datum → Option String
  | .text value => some value
  | _ => none

mutual

/-- The form under which a value is a key: truth values count as one and zero, also inside
lists. -/
def keyForm : Datum → Datum
  | .bool b => .int (if b then 1 else 0)
  | .list items => .list (keyForms items)
  | other => other

def keyForms : List Datum → List Datum
  | [] => []
  | item :: rest => keyForm item :: keyForms rest

end

mutual

/-- The form in which messages show a value. -/
def display : Datum → String
  | .null => "None"
  | .bool true => "True"
  | .bool false => "False"
  | .int value => toString value
  | .text value => Text.quoted value
  | .list items => "[" ++ ", ".intercalate (displayItems items) ++ "]"
  | .record fields => "\x7b" ++ ", ".intercalate (displayFields fields) ++ "\x7d"

def displayItems : List Datum → List String
  | [] => []
  | item :: rest => display item :: displayItems rest

def displayFields : List (String × Datum) → List String
  | [] => []
  | (name, value) :: rest => (Text.quoted name ++ ": " ++ display value) :: displayFields rest

end

/-- Topics stand between parentheses, and a single one keeps its comma. -/
def displayTopics : List Datum → String
  | [topic] => "(" ++ topic.display ++ ",)"
  | topics => "(" ++ ", ".intercalate (displayItems topics) ++ ")"

end Datum

end SealedPayroll
