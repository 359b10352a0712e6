/-!
# Field rules

A record is built from its fields, and each field has a rule. Building one
either succeeds or names every field that broke its rule, in the order in
which the record declares its fields; a rule that spans several fields is
asked only when every single field is in order. A field that is left out is
`none`: it takes its default, or counts as missing when it has none.
-/

namespace SealedPayroll

/-- One step from a record towards a value inside it. -/
inductive PathStep where
  | field (name : String)
  | item (index : Nat)
  deriving DecidableEq, Repr

inductive Defect where
  | missing
  | stringTooShort
  | stringTooLong
  | bytesTooShort
  | bytesTooLong
  | tooFewItems
  | notAbove
  | notAtLeast
  | notAnOption
  | notAScope
  | notAnInteger
  | unreadableInteger
  | oversizedInteger
  | notAText
  | broken (rule : String)
  deriving DecidableEq, Repr

def Defect.code : Defect → String
  | .missing => "missing"
  | .stringTooShort => "string_too_short"
  | .stringTooLong => "string_too_long"
  | .bytesTooShort => "bytes_too_short"
  | .bytesTooLong => "bytes_too_long"
  | .tooFewItems => "too_short"
  | .notAbove => "greater_than"
  | .notAtLeast => "greater_than_equal"
  | .notAnOption => "literal_error"
  | .notAScope => "enum"
  | .notAnInteger => "int_type"
  | .unreadableInteger => "int_parsing"
  | .oversizedInteger => "int_parsing_size"
  | .notAText => "string_type"
  | .broken _ => "value_error"

/-- The sentence that goes with a defect, if it has one of its own. -/
def Defect.sentence? : Defect → Option String
  | .broken rule => some ("Value error, " ++ rule)
  | _ => none

structure FieldFault where
  path : List PathStep
  defect : Defect
  deriving DecidableEq, Repr

-- ---------------------------------------------------------------------------
-- Checks
-- ---------------------------------------------------------------------------

/-- A value whose fields are in order, or all that is wrong with it. -/
inductive Check (α : Type) where
  | valid (value : α)
  | invalid (faults : List FieldFault)

namespace Check

variable {α β : Type}

def map (f : α → β) : Check α → Check β
  | .valid a => .valid (f a)
  | .invalid faults => .invalid faults

/-- Applies a checked function to a checked argument and keeps the faults of both. -/
def seq : Check (α → β) → Check α → Check β
  | .valid f, .valid a => .valid (f a)
  | .valid _, .invalid faults => .invalid faults
  | .invalid faults, .valid _ => .invalid faults
  | .invalid first, .invalid second => .invalid (first ++ second)

instance : Functor Check where
  map := map

instance : Applicative Check where
  pure := valid
  seq f a := seq f (a ())

@[simp] theorem map_valid (f : α → β) (a : α) : f <$> valid a = valid (f a) := rfl
@[simp] theorem map_invalid (f : α → β) (fs : List FieldFault) :
    f <$> (invalid fs : Check α) = invalid fs := rfl
@[simp] theorem pure_eq (a : α) : (pure a : Check α) = valid a := rfl

@[simp] theorem seq_valid (f : α → β) (c : Check α) : (valid f <*> c) = f <$> c := by
  cases c <;> rfl

/-- The faults found, each seen from one step further out. -/
def within (step : PathStep) : Check α → Check α
  | .valid a => .valid a
  | .invalid faults => .invalid (faults.map fun fault => { fault with path := step :: fault.path })

/-- A rule about the whole value, asked when the value has no fault yet. -/
def ensure (holds : α → Bool) (rule : String) : Check α → Check α
  | .valid a => if holds a then .valid a else .invalid [⟨[], .broken rule⟩]
  | .invalid faults => .invalid faults

def toOption : Check α → Option α
  | .valid a => some a
  | .invalid _ => none

end Check

-- ---------------------------------------------------------------------------
-- Rules for single values
-- ---------------------------------------------------------------------------

/-- A rule for one field: what is wrong with a value, if anything. -/
abbrev Rule (α : Type) := α → Option Defect

namespace Rule

def any {α : Type} : Rule α := fun _ => none

def atLeast (least : Int) : Rule Int := fun n => if least ≤ n then none else some .notAtLeast

def above (bound : Int) : Rule Int := fun n => if bound < n then none else some .notAbove

/-- An integer that fits a signed word of `width` bits. -/
def signedWord (width : Nat) : Rule Int := fun n =>
  let bound : Nat := 1 <<< (width - 1)
  if -bound ≤ n ∧ n < bound then none else some .oversizedInteger

def nonempty : Rule String := fun text => if text.length < 1 then some .stringTooShort else none

def textSize (size : Nat) : Rule String := fun text =>
  if text.length < size then some .stringTooShort
  else if size < text.length then some .stringTooLong
  else none

def bytesSize (size : Nat) : Rule (List UInt8) := fun bytes =>
  if bytes.length < size then some .bytesTooShort
  else if size < bytes.length then some .bytesTooLong
  else none

end Rule

namespace Check

variable {α β : Type}

-- ---------------------------------------------------------------------------
-- Fields
-- ---------------------------------------------------------------------------

def field (name : String) (rule : Rule α) (value : α) : Check α :=
  match rule value with
  | none => .valid value
  | some defect => .invalid [⟨[.field name], defect⟩]

def required (name : String) (rule : Rule α) : Option α → Check α
  | some value => field name rule value
  | none => .invalid [⟨[.field name], .missing⟩]

/-- A field that takes a default when it is left out. -/
def defaulted (name : String) (rule : Rule α) (fallback : α) : Option α → Check α
  | some value => field name rule value
  | none => .valid fallback

/-- A field that may be left out, and then has no value. -/
def optional (name : String) (rule : Rule α) : Option α → Check (Option α)
  | some value => some <$> field name rule value
  | none => .valid none

/-- A field whose values are named by something else, such as a number or a word; `rule` is about
the names. -/
def decoded (name : String) (rule : Rule β) (decode : β → Option α) (otherwise : Defect)
    (given : Option β) : Check α :=
  match required name rule given with
  | .valid named =>
    match decode named with
    | some value => .valid value
    | none => .invalid [⟨[.field name], otherwise⟩]
  | .invalid faults => .invalid faults

def itemFaults (name : String) (rule : Rule α) : (index : Nat) → List α → List FieldFault
  | _, [] => []
  | index, item :: rest =>
    match rule item with
    | none => itemFaults name rule (index + 1) rest
    | some defect =>
      ⟨[.field name, .item index], defect⟩ :: itemFaults name rule (index + 1) rest

/-- A field that holds at least one item; faults of items come before those of their number. -/
def items (name : String) (rule : Rule α) : Option (List α) → Check (List α)
  | some [] => .invalid [⟨[.field name], .tooFewItems⟩]
  | some values =>
    match itemFaults name rule 0 values with
    | [] => .valid values
    | faults => .invalid faults
  | none => .invalid [⟨[.field name], .missing⟩]

end Check

end SealedPayroll
