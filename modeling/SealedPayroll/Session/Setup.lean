import SealedPayroll.Session.Program

/-!
# Setting a session up

A session is given a clock reading, signatures, settings and parts. The
clock is checked first, then the settings, then the wiring: an existing host
cannot be combined with a clock of one's own. Only a token ledger that is
built over an existing host calls back and can have a minter.
-/

namespace SealedPayroll

inductive Wiring where
  /-- From a clock and signatures; the token ledger is the plain one. -/
  | parts
  /-- Over a host that exists already, with a token ledger that calls back. -/
  | host
  /-- Over a host that exists already, and with a clock besides. -/
  | conflict
  deriving DecidableEq, Repr

structure Setup where
  timestamp : Int
  sequence : Int
  authority : Authority
  config : Check ProtocolConfig
  backend : PairingBackend
  scheme : CommitmentScheme
  wiring : Wiring
  minter : Option Principal
  auditSeesRegistry : Bool
  auditSeesPayments : Bool

namespace Setup

def initialHost (clock : Clock) (authority : Authority) (config : HostConfig) : Host Session where
  clock := clock
  authority := authority
  ledger := .empty
  writes := 0
  events := []
  depth := 0
  evictOnCommit := config.evictOnCommit
  transcript := .empty
  attached := .initial

def base (setup : Setup) (config : ProtocolConfig) : Deployment Session where
  config := config
  backend := setup.backend
  scheme := setup.scheme
  tokens := .plain
  minter := match setup.wiring with
    | .parts => none
    | _ => setup.minter
  auditSeesRegistry := setup.auditSeesRegistry
  auditSeesPayments := setup.auditSeesPayments

def deployment (setup : Setup) (config : ProtocolConfig) (steps : List Step) :
    Deployment Session :=
  match setup.wiring with
  | .parts => setup.base config
  | _ => deploymentAt (setup.base config) (Step.hookDepths steps)

/-- The settings and the clock, or why there can be no session. -/
def prepare (setup : Setup) : Except Fault (ProtocolConfig × Clock) := do
  let clock ← Clock.start setup.timestamp setup.sequence
  match setup.config, setup.wiring with
  | .invalid faults, _ => throw (.record .protocolConfig faults)
  | .valid _, .conflict => throw (.payroll (.misconfigured .hostAndParts))
  | .valid config, _ => return (config, clock)

/-- Runs a session from its setup: the records of its steps and the host it leaves. -/
def play (setup : Setup) (steps : List Step) : Except Fault (List StepRecord × Host Session) := do
  let (config, clock) ← setup.prepare
  return Session.play (setup.deployment config steps) steps
    (initialHost clock setup.authority config.host)

end Setup

end SealedPayroll
