import SealedPayroll.Session.Answer

/-!
# Calls to the host itself

Moving the clock, giving and withdrawing signatures, publishing events, and
storing values under namespaces that the payroll does not use. None of these
opens a transaction of its own. What happens to the payroll when a caller
stores under one of its own namespaces is not covered: `StorageCall.IsForeign`
says that a call does not.
-/

namespace SealedPayroll

-- ---------------------------------------------------------------------------
-- The calls
-- ---------------------------------------------------------------------------

inductive ClockCall where
  | advance (seconds ledgers : Int)
  | setTimestamp (timestamp : Int)
  | setSequence (sequence : Int)
  | read

inductive SignatureCall where
  | authorize (principals : List Principal)
  | deauthorize (principals : List Principal)
  | setEveryone (enabled : Bool)
  | require (principal : Principal)
  | checked
  | forget

/-- Storage under a namespace and a key of the caller's choice. -/
inductive StorageCall where
  | set (space : String) (key value : Datum)
  | get (space : String) (key : Datum)
  | has (space : String) (key : Datum)
  | remove (space : String) (key : Datum)
  | items (space : String)
  | setExpiring (space : String) (key : Datum) (entry : Expiring Datum)
  | getExpiring (space : String) (key : Datum)
  | isLive (space : String) (key : Datum)
  | removeExpiring (space : String) (key : Datum)
  | expiringItems (space : String)
  | evict
  | writeCount

/-- The namespace that a call is about. -/
def StorageCall.space? : StorageCall → Option String
  | set space _ _ | get space _ | has space _ | remove space _ | items space => some space
  | setExpiring space _ _ | getExpiring space _ | isLive space _ => some space
  | removeExpiring space _ | expiringItems space => some space
  | evict | writeCount => none

/-- A call that is about no namespace of the payroll. -/
def StorageCall.IsForeign (call : StorageCall) : Prop :=
  ∀ space ∈ call.space?, space ∉ payrollSpaces

inductive EventCall where
  | publish (topics data : List Datum)
  | all
  | count
  | truncate (mark : Int)

-- ---------------------------------------------------------------------------
-- What they do
-- ---------------------------------------------------------------------------

variable {σ : Type}

def ClockCall.move (next : Clock → Except Fault Clock) : Action σ Answer := fun host =>
  match next host.clock with
  | .ok clock => (.ok .nothing, { host with clock })
  | .error fault => (.error fault.raised, host)

def ClockCall.run : ClockCall → Action σ Answer
  | advance seconds ledgers => move (·.advance seconds ledgers)
  | setTimestamp timestamp => move (·.setTimestamp timestamp)
  | setSequence sequence => move (·.setSequence sequence)
  | read => .read fun host => .clock host.clock

def SignatureCall.change (f : Authority → Authority) : Action σ Answer := fun host =>
  (.ok .nothing, { host with authority := f host.authority })

def SignatureCall.run : SignatureCall → Action σ Answer
  | authorize principals => change (·.authorize principals)
  | deauthorize principals => change (·.deauthorize principals)
  | setEveryone enabled => change fun authority => { authority with everyone := enabled }
  | require principal => (fun _ => .nothing) <$> Host.requireAuth principal
  | checked => .read fun host => .texts host.authority.checked
  | forget => change fun authority => { authority with checked := [] }

/-- Removes an entry if there is one, and answers whether there was. -/
def StorageCall.discard (isPresent : Ledger → Bool) (f : Ledger → Ledger) : Action σ Answer := do
  if ← .read fun host => isPresent host.ledger then
    .write f
    return .bool true
  else return .bool false

def StorageCall.run : StorageCall → Action σ Answer
  | set space key value => (fun _ => .nothing) <$>
    Action.write fun ledger => ledger.putForeign space key value
  | get space key =>
    .read fun host => Answer.optional .datum (host.ledger.foreign.get? space key)
  | has space key => .read fun host => .bool (host.ledger.foreign.contains space key)
  | remove space key =>
    discard (·.foreign.contains space key) fun ledger => ledger.dropForeign space key
  | items space => .read fun host => .items (host.ledger.foreign.under space)
  | setExpiring space key entry => (fun _ => .nothing) <$>
    Action.write fun ledger =>
      { ledger with foreignExpiring := ledger.foreignExpiring.put space key entry }
  | getExpiring space key =>
    .read fun host => Answer.optional .expiring (host.ledger.foreignExpiring.get? space key)
  | isLive space key =>
    .read fun host => .bool <|
      (host.ledger.foreignExpiring.get? space key).any fun entry =>
        entry.isLive host.clock.timestamp host.clock.sequence
  | removeExpiring space key =>
    discard (·.foreignExpiring.contains space key) fun ledger =>
      { ledger with foreignExpiring := ledger.foreignExpiring.erase space key }
  | expiringItems space =>
    .read fun host => .expiringItems (host.ledger.foreignExpiring.under space)
  | evict => (fun (count : Nat) => .int count) <$> Host.evictExpired
  | writeCount => .read fun host => .int host.writes

/-- The events before a mark; a negative mark counts from the end. -/
def EventCall.before (mark : Int) (events : List Event) : List Event :=
  events.take (if mark < 0 then (events.length + mark).toNat else mark.toNat)

def EventCall.run : EventCall → Action σ Answer
  | publish topics data => .event <$> Host.publish topics data
  | all => .read fun host => .events host.events
  | count => .read fun host => .int host.events.length
  | truncate mark => (fun _ => .nothing) <$>
    Action.change fun host : Host σ => { host with events := before mark host.events }

end SealedPayroll
