import SealedPayroll.Fault.Basic

/-!
# Events

An event has topics, of which the first names it when it is a text, a
payload, and the clock reading of its publication.
-/

namespace SealedPayroll

structure Event where
  topics : List Datum
  data : List Datum
  timestamp : Int
  sequence : Int
  deriving DecidableEq

/-- The name of an event: its first topic, when that is a text. -/
def Event.name? (event : Event) : Option String :=
  match event.topics with
  | .text name :: _ => some name
  | _ => none

def Event.make (topics data : Option (List Datum)) (timestamp sequence : Option Int) :
    Check Event :=
  Event.mk
    <$> .required "topics" .any topics
    <*> .required "data" .any data
    <*> .required "timestamp" .any timestamp
    <*> .required "sequence" .any sequence

end SealedPayroll
