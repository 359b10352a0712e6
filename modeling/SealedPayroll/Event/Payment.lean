import SealedPayroll.Event.Basic
import SealedPayroll.Text.Numeral

/-!
# Payment announcements

Every settled payment is announced by an event named `PayrollProcessed`.
`PaymentEvent.topics` and `PaymentEvent.payload` are what an announcement
holds, and `PaymentEvent.ofEvent` reads one back. Reading is lenient about
integers, since anyone may publish an event under that name: truth values
count as one and zero, and texts are read as integers where they write one.
-/

namespace SealedPayroll

-- ---------------------------------------------------------------------------
-- Announcements
-- ---------------------------------------------------------------------------

structure PaymentEvent where
  company : Int
  employee : String
  amount : Int
  period : Int
  timestamp : Int
  deriving DecidableEq, Repr

def payrollProcessed : String := "PayrollProcessed"

namespace PaymentEvent

def make (company : Option Int) (employee : Option String) (amount period timestamp : Option Int) :
    Check PaymentEvent :=
  PaymentEvent.mk
    <$> .required "company_id" .any company
    <*> .required "employee" .any employee
    <*> .required "amount" .any amount
    <*> .required "period" .any period
    <*> .required "timestamp" .any timestamp

def topics (company : Int) : List Datum := [.text payrollProcessed, .int company]

def payload (employee : Principal) (amount period : Int) : List Datum :=
  [.text employee, .int amount, .int period]

def integerField (name : String) : Datum → Check Int
  | .int n => .valid n
  | .bool b => .valid (if b then 1 else 0)
  | .text text =>
    match Text.readInteger text with
    | .ok n => .valid n
    | .error .unreadable => .invalid [⟨[.field name], .unreadableInteger⟩]
    | .error .tooLong => .invalid [⟨[.field name], .oversizedInteger⟩]
  | _ => .invalid [⟨[.field name], .notAnInteger⟩]

def textField (name : String) : Datum → Check String
  | .text text => .valid text
  | _ => .invalid [⟨[.field name], .notAText⟩]

def ofEvent (event : Event) : Except Fault PaymentEvent :=
  match event.topics, event.data with
  | [.text name, company], [employee, amount, period] =>
    if name = payrollProcessed then
      let read := PaymentEvent.mk
        <$> integerField "company_id" company
        <*> textField "employee" employee
        <*> integerField "amount" amount
        <*> integerField "period" period
        <*> .valid event.timestamp
      match read with
      | .valid announcement => .ok announcement
      | .invalid faults => .error (.record .paymentEvent faults)
    else .error (.argument (.foreignEvent event.topics))
  | topics, _ => .error (.argument (.foreignEvent topics))

end PaymentEvent

-- ---------------------------------------------------------------------------
-- Filters
-- ---------------------------------------------------------------------------

/-- Which announcements a reader wants; what is left open admits everything. -/
structure EventFilter where
  company : Option Int
  employee : Option String
  period : Option Int
  since : Option Int
  til : Option Int
  deriving DecidableEq, Repr

namespace EventFilter

def make (company : Option Int) (employee : Option String) (period since til : Option Int) :
    Check EventFilter :=
  EventFilter.mk
    <$> .optional "company_id" .any company
    <*> .optional "employee" .any employee
    <*> .optional "period" .any period
    <*> .optional "since" (.atLeast 0) since
    <*> .optional "until" (.atLeast 0) til

def matchesValue {α : Type} [DecidableEq α] (wanted : Option α) (value : α) : Bool :=
  wanted.all (· == value)

/-- Whether a time lies within two bounds, both included; a missing bound is no bound. -/
def inWindow (since til : Option Int) (time : Int) : Bool :=
  since.all (· ≤ time) && til.all (time ≤ ·)

def admits (filter : EventFilter) (event : PaymentEvent) : Bool :=
  matchesValue filter.company event.company && matchesValue filter.employee event.employee &&
    matchesValue filter.period event.period && inWindow filter.since filter.til event.timestamp

/-- The announcements that a filter admits; without a filter, all of them. -/
def select (filter : Option EventFilter) (events : List PaymentEvent) : List PaymentEvent :=
  events.filter fun event => filter.all (·.admits event)

end EventFilter

def paymentEvents (filter : Option EventFilter) (events : List Event) :
    Except Fault (List PaymentEvent) := do
  let announced ← (events.filter (·.name? == some payrollProcessed)).mapM PaymentEvent.ofEvent
  return EventFilter.select filter announced

end SealedPayroll
