import SealedPayroll.Session.Call
import SealedPayroll.Session.HostCall

/-!
# Programs of calls

A program is a list of steps. A step is a call, a transaction around further
steps, or the arming of the token ledger: an armed ledger runs the steps it
was given once, before the next transfer. Steps of a block can fail without
ending the block, in which case their failures are kept as outcomes, or let
their failure escape from it.

Because an armed program is part of the text that arms it, calls can nest
only as deeply as `onTransfer` is nested in the text. `deploymentAt` is the
deployment whose ledger calls back at most that deep, and
`Program.deployment` picks the depth that the text needs.
-/

namespace SealedPayroll

-- ---------------------------------------------------------------------------
-- Programs
-- ---------------------------------------------------------------------------

inductive Step where
  | call (call : Call)
  | clock (call : ClockCall)
  | signature (call : SignatureCall)
  | storage (call : StorageCall)
  | event (call : EventCall)
  | snapshot (name : String)
  | restore (name : String)
  /-- Reads what the pairing backend was asked and forgets it. -/
  | transcript
  | inTransaction
  /-- A call whose arguments make no sense. -/
  | invalid (fault : Fault)
  | transaction (steps : List Step) (escapes : Bool) (ending : Option Fault)
  | onTransfer (steps : List Step) (escapes : Bool)

/-- Steps to be run before the next transfer. -/
structure Hook where
  steps : List Step
  escapes : Bool

structure Session where
  armed : Option Hook
  /-- The outcomes of steps that the token ledger ran, since they were last collected. -/
  hookOutcomes : List Outcome
  snapshots : List (String × Ledger)

def Session.initial : Session := ⟨none, [], []⟩

namespace Step

mutual

/-- How deeply callbacks are nested in a step. -/
def hookDepth : Step → Nat
  | .transaction steps _ _ => hookDepths steps
  | .onTransfer steps _ => hookDepths steps + 1
  | _ => 0

def hookDepths : List Step → Nat
  | [] => 0
  | step :: rest => max (hookDepth step) (hookDepths rest)

end

-- ---------------------------------------------------------------------------
-- Running steps
-- ---------------------------------------------------------------------------

def attach (f : Session → Session) : Action Session Unit :=
  .change fun host => { host with attached := f host.attached }

/-- Puts the ledger kept under a name back; other state stays. -/
def restoreLedger (name : String) : Action Session Unit :=
  .change fun host =>
    match host.attached.snapshots.lookup name with
    | some ledger => { host with ledger }
    | none => host

/-- The outcome of an action, or its failure. -/
def caught (escapes : Bool) (action : Action Session Answer) : Action Session Outcome :=
  if escapes then .ok <$> action else action.outcome

mutual

def run (d : Deployment Session) : Step → Action Session Answer
  | .call c => c.run d
  | .clock c => c.run
  | .signature c => c.run
  | .storage c => c.run
  | .event c => c.run
  | .snapshot name => (fun _ => .nothing) <$>
    Action.change fun host : Host Session =>
      { host with
        attached := { host.attached with
          snapshots := (name, host.ledger) :: host.attached.snapshots } }
  | .restore name => (fun _ => .nothing) <$> restoreLedger name
  | .transcript => do
    let asked ← .read (·.transcript)
    .change fun host => { host with transcript := .empty }
    return .transcript asked
  | .inTransaction => .read fun host => .bool host.inTransaction
  | .invalid fault => .raise fault
  | .transaction steps escapes ending =>
    Host.transaction do
      let outcomes ← runAll d escapes steps
      match ending with
      | some fault => .raise fault
      | none => return .outcomes outcomes
  | .onTransfer steps escapes => (fun _ => .nothing) <$>
    attach fun session => { session with armed := some ⟨steps, escapes⟩ }

def runAll (d : Deployment Session) (escapes : Bool) : List Step → Action Session (List Outcome)
  | [] => return []
  | step :: rest => do
    let outcome ← caught escapes (run d step)
    let outcomes ← runAll d escapes rest
    return outcome :: outcomes

end

end Step

-- ---------------------------------------------------------------------------
-- Calling back
-- ---------------------------------------------------------------------------

namespace Hook

/-- Runs steps and notes the outcome of each. -/
def runNoting (d : Deployment Session) (escapes : Bool) : List Step → Action Session Unit
  | [] => return ()
  | step :: rest => do
    let outcome ← Step.caught escapes (step.run d)
    Step.attach fun session =>
      { session with hookOutcomes := session.hookOutcomes ++ [outcome] }
    runNoting d escapes rest

/-- Runs the armed steps, if there are any, and disarms them first. -/
def fire (d : Deployment Session) : Action Session Unit := do
  match ← .read (·.attached.armed) with
  | none => return ()
  | some hook =>
    -- disarmed before it runs, so that transfers of its own do not run it again
    Step.attach fun session => { session with armed := none }
    runNoting d hook.escapes hook.steps

end Hook

/-- The deployment whose token ledger calls back, at most `depth` deep. -/
def deploymentAt (base : Deployment Session) : (depth : Nat) → Deployment Session
  | 0 => base
  | depth + 1 =>
    { base with tokens := .calling fun _ _ _ => Hook.fire (deploymentAt base depth) }

-- ---------------------------------------------------------------------------
-- Sessions
-- ---------------------------------------------------------------------------

/-- A step of a session with the outcomes of the steps that the token ledger ran meanwhile. -/
structure StepRecord where
  outcome : Outcome
  hook : List Outcome

namespace Session

def enter (d : Deployment Session) (step : Step) (host : Host Session) : StepRecord × Host Session :=
  let (outcome, after) := (step.run d).run host
  (⟨outcome, after.attached.hookOutcomes⟩,
    { after with attached := { after.attached with hookOutcomes := [] } })

/-- Runs the steps of a session one after another; a failing step does not end it. -/
def play (d : Deployment Session) : List Step → Host Session → List StepRecord × Host Session
  | [], host => ([], host)
  | step :: rest, host =>
    let (record, later) := enter d step host
    let (records, last) := play d rest later
    (record :: records, last)

end Session

end SealedPayroll
