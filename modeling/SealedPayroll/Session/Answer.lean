import SealedPayroll.Host.Basic
import SealedPayroll.Event.Payment

/-!
# Answers

What calls answer with, in one type, so that whole runs have a list of
answers.
-/

namespace SealedPayroll

inductive Answer where
  | nothing
  | bool (value : Bool)
  | int (value : Int)
  | text (value : String)
  | texts (values : List String)
  | bytes (value : Bytes)
  | clock (reading : Clock)
  | company (company : Company)
  | binding (binding : Binding)
  | bindings (bindings : List Binding)
  | commitment (record : CommitmentRecord)
  | commitments (records : List CommitmentRecord)
  | nullifier (record : NullifierRecord)
  | payment (record : PaymentRecord)
  | payments (records : List PaymentRecord)
  | announcements (events : List PaymentEvent)
  | viewKey (key : ViewKey)
  | viewKeys (keys : List ViewKey)
  | report (report : AuditReport)
  | event (event : Event)
  | events (events : List Event)
  | datum (value : Datum)
  | items (entries : List (Datum × Datum))
  | expiring (entry : Expiring Datum)
  | expiringItems (entries : List (Datum × Expiring Datum))
  | transcript (asked : Transcript)
  | outcomes (outcomes : List (Except Failure Answer))

abbrev Outcome := Except Failure Answer

def Answer.optional {α : Type} (answer : α → Answer) : Option α → Answer
  | some a => answer a
  | none => .nothing

end SealedPayroll
