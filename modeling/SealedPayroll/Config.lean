import SealedPayroll.Check

/-!
# Settings

What a deployment can be told: how large a batch may be and whether payments
are announced, how long view keys live and on which clock, how wide a ledger
is in seconds and whether expired entries are swept after each transaction.
-/

namespace SealedPayroll

def thirtyDays : Int := 30 * 86400

/-- The clock against which an expiry is read. -/
inductive ExpiryBasis where
  | timestamp
  | sequence
  deriving DecidableEq, Repr

def ExpiryBasis.name : ExpiryBasis → String
  | .timestamp => "timestamp"
  | .sequence => "sequence"

def ExpiryBasis.ofName? : String → Option ExpiryBasis
  | "timestamp" => some .timestamp
  | "sequence" => some .sequence
  | _ => none

/-- An entry lives strictly before its expiry on the timestamp basis, and up to and including it
on the sequence basis. -/
def ExpiryBasis.isLive (basis : ExpiryBasis) (expiresAt timestamp sequence : Int) : Bool :=
  match basis with
  | .timestamp => timestamp < expiresAt
  | .sequence => sequence ≤ expiresAt

structure ExecutorConfig where
  maxBatchSize : Int
  emitEvents : Bool
  deriving DecidableEq, Repr

structure AuditConfig where
  expiryBasis : ExpiryBasis
  defaultDuration : Int
  longestDuration : Option Int
  deriving DecidableEq, Repr

structure HostConfig where
  ledgerCloseSeconds : Int
  evictOnCommit : Bool
  deriving DecidableEq, Repr

structure ProtocolConfig where
  executor : ExecutorConfig
  audit : AuditConfig
  host : HostConfig
  deriving DecidableEq, Repr

def ExecutorConfig.make (maxBatchSize : Option Int) (emitEvents : Option Bool) :
    Check ExecutorConfig :=
  ExecutorConfig.mk
    <$> .defaulted "max_batch_size" (.above 0) 50 maxBatchSize
    <*> .defaulted "emit_events" .any true emitEvents

/-- Whether the default duration respects the longest one allowed. -/
def AuditConfig.isOrdered (config : AuditConfig) : Bool :=
  match config.longestDuration with
  | some longest => config.defaultDuration ≤ longest
  | none => true

def AuditConfig.make (expiryBasis : Option String) (defaultDuration longestDuration : Option Int) :
    Check AuditConfig :=
  Check.ensure AuditConfig.isOrdered
    "default_view_key_duration must not exceed max_view_key_duration." <|
  AuditConfig.mk
    <$> .decoded "expiry_basis" .any ExpiryBasis.ofName? .notAnOption
      (expiryBasis.getD "timestamp")
    <*> .defaulted "default_view_key_duration" (.above 0) thirtyDays defaultDuration
    <*> .optional "max_view_key_duration" (.above 0) longestDuration

def HostConfig.make (ledgerCloseSeconds : Option Int) (evictOnCommit : Option Bool) :
    Check HostConfig :=
  HostConfig.mk
    <$> .defaulted "ledger_close_seconds" (.above 0) 5 ledgerCloseSeconds
    <*> .defaulted "evict_on_commit" .any false evictOnCommit

/-- The settings of a deployment from those of its parts, as far as they are given. -/
def ProtocolConfig.make (executor : Check ExecutorConfig) (audit : Check AuditConfig)
    (host : Check HostConfig) : Check ProtocolConfig :=
  ProtocolConfig.mk
    <$> executor.within (.field "executor")
    <*> audit.within (.field "audit")
    <*> host.within (.field "host")

def HostConfig.standard : HostConfig := ⟨5, false⟩

def ProtocolConfig.standard : ProtocolConfig :=
  ⟨⟨50, true⟩, ⟨.timestamp, thirtyDays, none⟩, .standard⟩

end SealedPayroll
