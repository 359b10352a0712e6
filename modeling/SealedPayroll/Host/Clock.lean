import SealedPayroll.Config
import SealedPayroll.Fault.Basic
import SealedPayroll.Number.Double

/-!
# Clocks

A reading has a timestamp in seconds and a ledger sequence number. A manual
clock is its own reading and moves when told to; a wall clock is read from
the time of day, and its sequence number counts ledgers of a fixed length.
A time of day is whole or comes with a fraction; one with a fraction is only
as fine as a double.
-/

namespace SealedPayroll

/-- A time of day in seconds: a whole number, or `digits / 10 ^ places`. -/
inductive TimeOfDay where
  | whole (seconds : Int)
  | fractional (digits : Int) (places : Nat)
  deriving DecidableEq, Repr

/-- The whole seconds of a time of day, cut towards zero after rounding to a double. -/
def TimeOfDay.wholeSeconds : TimeOfDay → Except Fault Int
  | .whole seconds => .ok seconds
  | .fractional digits places =>
    match Double.nearest? digits.natAbs (Nat.pow 10 places) with
    | some x => .ok (digits.sign * x.truncate)
    | none => .error (.width .infinite)

structure Clock where
  timestamp : Int
  sequence : Int
  deriving DecidableEq, Repr

namespace Clock

def start (timestamp sequence : Int) : Except Fault Clock :=
  if timestamp < 0 ∨ sequence < 0 then .error (.argument .clockStart) else .ok ⟨timestamp, sequence⟩

def setTimestamp (clock : Clock) (timestamp : Int) : Except Fault Clock :=
  if timestamp < 0 then .error (.argument (.timestamp timestamp))
  else .ok { clock with timestamp }

def setSequence (clock : Clock) (sequence : Int) : Except Fault Clock :=
  if sequence < 0 then .error (.argument (.sequence sequence)) else .ok { clock with sequence }

def advance (clock : Clock) (seconds ledgers : Int) : Except Fault Clock :=
  if seconds < 0 ∨ ledgers < 0 then .error (.argument .clockBackwards)
  else .ok ⟨clock.timestamp + seconds, clock.sequence + ledgers⟩

/-- The reading at a time of day: its whole seconds and the number of the ledger they fall into,
where a ledger closes every `closeSeconds` seconds. -/
def atTimeOfDay (closeSeconds : Int) (time : TimeOfDay) : Except Fault Clock :=
  if closeSeconds ≤ 0 then .error (.argument (.closeInterval closeSeconds))
  else do
    let seconds ← time.wholeSeconds
    return ⟨seconds, seconds.fdiv closeSeconds⟩

end Clock

end SealedPayroll
