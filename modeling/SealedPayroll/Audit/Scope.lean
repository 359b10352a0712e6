/-!
# Disclosure scopes

A view key shows an auditor one of four things. The scopes are ordered from
the widest to the narrowest by their number; using a key under a further
restriction takes the narrowest of the two.
-/

namespace SealedPayroll

inductive Scope where
  | fullCompany
  | timeRange
  | employeeList
  | aggregateOnly
  deriving DecidableEq, Repr

namespace Scope

def all : List Scope := [.fullCompany, .timeRange, .employeeList, .aggregateOnly]

def number : Scope → Nat
  | .fullCompany => 0
  | .timeRange => 1
  | .employeeList => 2
  | .aggregateOnly => 3

def name : Scope → String
  | .fullCompany => "FULL_COMPANY"
  | .timeRange => "TIME_RANGE"
  | .employeeList => "EMPLOYEE_LIST"
  | .aggregateOnly => "AGGREGATE_ONLY"

def ofNumber? (n : Int) : Option Scope :=
  all.find? fun scope => (scope.number : Int) == n

def ofName? (name : String) : Option Scope :=
  all.find? fun scope => scope.name == name

@[simp] theorem ofNumber?_number (scope : Scope) : ofNumber? scope.number = some scope := by
  cases scope <;> rfl

@[simp] theorem ofName?_name (scope : Scope) : ofName? scope.name = some scope := by
  cases scope <;> decide

/-- Every scope but the aggregate one lets single employees be checked. -/
def revealsIndividuals (scope : Scope) : Bool :=
  scope != .aggregateOnly

def meet (a b : Scope) : Scope :=
  if a.number < b.number then b else a

def narrowest? : List Scope → Option Scope
  | [] => none
  | scope :: rest => some (rest.foldl meet scope)

end Scope

end SealedPayroll
