import SealedPayroll.Event.Basic
import SealedPayroll.Groth16.Verdict
import SealedPayroll.Host.Authority
import SealedPayroll.Host.Clock
import SealedPayroll.Ledger

/-!
# Hosts and actions

A host is what calls run in: a clock, the signatures, the ledger with a count
of the writes made to it, the events published so far and the depth of nested
transactions. It also keeps what the pairing backend was asked, and a state
`σ` for whatever is attached from outside, such as a token ledger that calls
back.

An action runs in a host and either answers or fails; in both cases it leaves
a host behind, so a failure by itself takes nothing back. Taking back is what
transactions do, and they are the only thing that does.
-/

namespace SealedPayroll

structure Host (σ : Type) where
  clock : Clock
  authority : Authority
  ledger : Ledger
  /-- How many times something was written, counting writes that were discarded later. -/
  writes : Nat
  events : List Event
  /-- How many transactions are open. -/
  depth : Nat
  /-- Whether expired entries are swept after each transaction that succeeds. -/
  evictOnCommit : Bool
  transcript : Transcript
  attached : σ

/-- A computation in a host, which answers or fails. -/
def Action (σ α : Type) : Type := Host σ → Except Failure α × Host σ

namespace Action

variable {σ α β : Type}

/-- The answer of an action in a host, and the host it leaves. -/
def run (action : Action σ α) (host : Host σ) : Except Failure α × Host σ := action host

def after (action : Action σ α) (host : Host σ) : Host σ := (action.run host).2

protected def pure (a : α) : Action σ α := fun host => (.ok a, host)

/-- Goes on with an answer; a failure ends here and keeps the host it left. -/
protected def bind (first : Action σ α) (next : α → Action σ β) : Action σ β := fun host =>
  match first.run host with
  | (.ok a, later) => (next a).run later
  | (.error failure, later) => (.error failure, later)

instance : Monad (Action σ) where
  pure := Action.pure
  bind := Action.bind

-- ---------------------------------------------------------------------------
-- The actions that others are made of
-- ---------------------------------------------------------------------------

def fail (failure : Failure) : Action σ α := fun host => (.error failure, host)

def raise (fault : Fault) : Action σ α := fail fault.raised

/-- Refuses on the payroll's own grounds. -/
def refuse (error : PayrollError) : Action σ α := raise (.payroll error)

def read (view : Host σ → α) : Action σ α := fun host => (.ok (view host), host)

/-- Answers with what a host shows, or refuses when it shows nothing. -/
def expect (view : Host σ → Option α) (error : PayrollError) : Action σ α := fun host =>
  match view host with
  | some a => (.ok a, host)
  | none => (.error ⟨.payroll error, false⟩, host)

def change (f : Host σ → Host σ) : Action σ Unit := fun host => (.ok (), f host)

def ofExcept : Except Fault α → Action σ α
  | .ok a => pure a
  | .error fault => raise fault

/-- The record whose fields are in order, or the faults of its fields. -/
def build (kind : RecordKind) : Check α → Action σ α
  | .valid a => pure a
  | .invalid faults => raise (.record kind faults)

/-- Writes to the ledger, which counts as one write. -/
def write (f : Ledger → Ledger) : Action σ Unit :=
  change fun host => { host with ledger := f host.ledger, writes := host.writes + 1 }

/-- Answers with the outcome of an action, and never fails. -/
def outcome (action : Action σ α) : Action σ (Except Failure α) := fun host =>
  let (result, later) := action.run host
  (.ok result, later)

def ofOutcome : Except Failure α → Action σ α
  | .ok a => pure a
  | .error failure => fail failure

-- ---------------------------------------------------------------------------
-- What actions do, one by one
-- ---------------------------------------------------------------------------

@[simp] theorem run_pure (a : α) (host : Host σ) : (pure a : Action σ α).run host = (.ok a, host) :=
  rfl

theorem run_bind (first : Action σ α) (next : α → Action σ β) (host : Host σ) :
    (first >>= next).run host =
      match first.run host with
      | (.ok a, later) => (next a).run later
      | (.error failure, later) => (.error failure, later) := rfl

theorem run_bind_ok {first : Action σ α} {next : α → Action σ β} {host later : Host σ} {a : α}
    (h : first.run host = (.ok a, later)) : (first >>= next).run host = (next a).run later := by
  rw [run_bind, h]

theorem run_bind_error {first : Action σ α} {next : α → Action σ β} {host later : Host σ}
    {failure : Failure} (h : first.run host = (.error failure, later)) :
    (first >>= next).run host = (.error failure, later) := by
  rw [run_bind, h]

@[simp] theorem run_fail (failure : Failure) (host : Host σ) :
    (fail failure : Action σ α).run host = (.error failure, host) := rfl

@[simp] theorem run_raise (fault : Fault) (host : Host σ) :
    (raise fault : Action σ α).run host = (.error fault.raised, host) := rfl

@[simp] theorem run_refuse (error : PayrollError) (host : Host σ) :
    (refuse error : Action σ α).run host = (.error ⟨.payroll error, false⟩, host) := rfl

@[simp] theorem run_read (view : Host σ → α) (host : Host σ) :
    (read view).run host = (.ok (view host), host) := rfl

theorem run_expect (view : Host σ → Option α) (error : PayrollError) (host : Host σ) :
    (expect view error).run host =
      match view host with
      | some a => (.ok a, host)
      | none => (.error ⟨.payroll error, false⟩, host) := rfl

@[simp] theorem run_change (f : Host σ → Host σ) (host : Host σ) :
    (change f).run host = (.ok (), f host) := rfl

@[simp] theorem run_ofExcept_ok (a : α) (host : Host σ) :
    (ofExcept (.ok a) : Action σ α).run host = (.ok a, host) := rfl

@[simp] theorem run_ofExcept_error (fault : Fault) (host : Host σ) :
    (ofExcept (.error fault) : Action σ α).run host = (.error fault.raised, host) := rfl

@[simp] theorem run_build_valid (kind : RecordKind) (a : α) (host : Host σ) :
    (build kind (.valid a) : Action σ α).run host = (.ok a, host) := rfl

@[simp] theorem run_build_invalid (kind : RecordKind) (faults : List FieldFault) (host : Host σ) :
    (build kind (.invalid faults) : Action σ α).run host =
      (.error (Fault.record kind faults).raised, host) := rfl

@[simp] theorem run_write (f : Ledger → Ledger) (host : Host σ) :
    (write f).run host =
      (.ok (), { host with ledger := f host.ledger, writes := host.writes + 1 }) := rfl

@[simp] theorem run_outcome (action : Action σ α) (host : Host σ) :
    action.outcome.run host = (.ok (action.run host).1, (action.run host).2) := rfl

theorem bind_pure_eq (action : Action σ α) : (action >>= fun a => pure a) = action := by
  funext host
  show (action >>= fun a => pure a).run host = action.run host
  rw [run_bind]
  rcases action.run host with ⟨_ | _, _⟩ <;> rfl

theorem bind_bind {γ : Type} (first : Action σ α) (second : α → Action σ β)
    (third : β → Action σ γ) :
    (first >>= second >>= third) = first >>= fun a => second a >>= third := by
  funext host
  show (first >>= second >>= third).run host = (first >>= fun a => second a >>= third).run host
  simp only [run_bind]
  rcases first.run host with ⟨_ | _, _⟩ <;> rfl

instance : LawfulMonad (Action σ) :=
  LawfulMonad.mk' _ bind_pure_eq (fun _ _ => rfl) bind_bind

end Action

-- ---------------------------------------------------------------------------
-- What every action may use
-- ---------------------------------------------------------------------------

namespace Host

variable {σ : Type}

def now : Action σ Int := .read fun host => host.clock.timestamp

def sequence : Action σ Int := .read fun host => host.clock.sequence

def requireAuth (principal : Principal) : Action σ Unit := fun host =>
  match host.authority.require principal with
  | .ok authority => (.ok (), { host with authority })
  | .error fault => (.error fault.raised, host)

/-- Publishes an event at the current clock reading. -/
def publish (topics data : List Datum) : Action σ Event := fun host =>
  let event : Event := ⟨topics, data, host.clock.timestamp, host.clock.sequence⟩
  (.ok event, { host with events := host.events ++ [event] })

/-- Sweeps expired entries and answers how many there were; only a sweep that finds any counts
as a write. -/
def evictExpired : Action σ Nat := fun host =>
  let expired := host.ledger.expiredCount host.clock.timestamp host.clock.sequence
  (.ok expired,
    { host with
      ledger := host.ledger.evict host.clock.timestamp host.clock.sequence
      writes := if expired = 0 then host.writes else host.writes + 1 })

def inTransaction (host : Host σ) : Bool := 0 < host.depth

end Host

end SealedPayroll
