import SealedPayroll.Host.Basic

/-!
# Transactions

A transaction runs an action as one unit. The outermost one remembers the
ledger and the number of events; when a failure escapes it, it puts both
back, and a refusal is told whether anything was discarded. The write count
is not put back: it tells afterwards whether the action had written. A
transaction inside another one only counts the depth and shares the fate of
the outer one. Signatures, the clock and the transcript are never put back.
-/

namespace SealedPayroll.Host

variable {σ α : Type}

/-- The host after a failed transaction, which began in `start` and reached `reached`. -/
def rolledBack (start reached : Host σ) : Host σ :=
  { reached with
    depth := 0
    ledger := start.ledger
    events := reached.events.take start.events.length }

/-- Whether a transaction that began in `start` had written or published by `reached`. -/
def hasWritten (start reached : Host σ) : Bool :=
  reached.writes != start.writes || reached.events.length != start.events.length

def committed (reached : Host σ) : Host σ :=
  let closed := { reached with depth := 0 }
  if reached.evictOnCommit then (evictExpired.run closed).2 else closed

/-- Runs an action as one unit. -/
def transaction (body : Action σ α) : Action σ α := fun host =>
  if host.depth = 0 then
    match body.run { host with depth := 1 } with
    | (.ok a, reached) => (.ok a, committed reached)
    | (.error failure, reached) =>
      (.error (failure.discarding (hasWritten host reached)), rolledBack host reached)
  else
    -- joins the transaction around it and keeps its writes even when it fails
    let (result, reached) := body.run { host with depth := host.depth + 1 }
    (result, { reached with depth := reached.depth - 1 })

end SealedPayroll.Host
