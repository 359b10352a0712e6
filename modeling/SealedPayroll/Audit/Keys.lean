import SealedPayroll.Deployment
import SealedPayroll.Registry.Basic

/-!
# Issuing and revoking view keys

A key is issued by the administrator of a company, for a scope with the
parameters that the scope takes and no others. It lives in the expiring tier
under its id. The counter of keys per company and auditor lives in the
durable tier, so an id is not given out twice even after its key is gone.
-/

namespace SealedPayroll.ViewKeys

variable {σ : Type}

-- ---------------------------------------------------------------------------
-- Requests
-- ---------------------------------------------------------------------------

structure Request where
  company : Int
  admin : Principal
  auditor : Principal
  scope : Scope
  duration : Option Int
  employees : Option (List Principal)
  periodStart : Option Int
  periodEnd : Option Int
  deriving DecidableEq, Repr

namespace Request

def effectiveDuration (config : AuditConfig) (request : Request) : Int :=
  request.duration.getD config.defaultDuration

/-- What is wrong with the list of employees, which the employee scope needs and no other takes. -/
def employeesDefect? (request : Request) : Option KeyParameterFault :=
  if request.scope = .employeeList then
    if (request.employees.getD []).isEmpty then some .employeesMissing else none
  else if request.employees.isSome then some .employeesRefused
  else none

/-- What is wrong with the window, which the time scope needs and no other takes. -/
def windowDefect? (request : Request) : Option PayrollError :=
  if request.scope = .timeRange then
    match request.periodStart, request.periodEnd with
    | some start, some stop =>
      if stop < start then some (.invalidPeriod (.reversed start stop)) else none
    | _, _ => some (.invalidKeyParameters request.scope.name .boundsMissing)
  else if request.periodStart.isSome || request.periodEnd.isSome then
    some (.invalidKeyParameters request.scope.name .boundsRefused)
  else none

def durationDefect? (config : AuditConfig) (request : Request) : Option PeriodFault :=
  let duration := request.effectiveDuration config
  if duration ≤ 0 then some (.emptyDuration duration)
  else
    match config.longestDuration with
    | some longest => if longest < duration then some (.longDuration duration longest) else none
    | none => none

def defect? (config : AuditConfig) (request : Request) : Option PayrollError :=
  if request.auditor = "" then some (.invalidKeyParameters request.scope.name .noAuditor)
  else
    (request.employeesDefect?.map fun fault =>
      .invalidKeyParameters request.scope.name fault).or <|
    request.windowDefect?.or <|
    (request.durationDefect? config).map .invalidPeriod

end Request

-- ---------------------------------------------------------------------------
-- Issuing, using and revoking
-- ---------------------------------------------------------------------------

/-- The key stored under an id, expired or not. -/
def stored? (ledger : Ledger) (id : String) : Option ViewKey :=
  (ledger.viewKeys.get? id).map (·.value)

/-- Demands that the registry, if the audit part sees it, knows the administrator as such. -/
def checkGranter (d : Deployment σ) (company : Int) (admin : Principal) : Action σ Unit := do
  if d.auditSeesRegistry then
    let company ← Registry.company company
    if company.admin = admin then return ()
    else .refuse (.unauthorized admin (.notCompanyAdmin company.id))
  else return ()

def issue (d : Deployment σ) (request : Request) : Action σ ViewKey :=
  let config := d.config.audit
  match request.defect? config with
  | some error => .refuse error
  | none => Host.transaction do
    Host.requireAuth request.admin
    checkGranter d request.company request.admin
    let count ← .read (·.ledger.keyCounter request.company request.auditor)
    let now ← Host.now
    let start ← match config.expiryBasis with
      | .sequence => Host.sequence
      | .timestamp => Host.now
    let id ← .ofExcept (ViewKey.deriveId request.company request.auditor count)
    let key ← .build .viewKey
      (ViewKey.make id request.company request.auditor request.admin now
        (start + request.effectiveDuration config) (some request.scope.number) (some count)
        config.expiryBasis.name request.employees request.periodStart request.periodEnd)
    -- the count goes up with every id, so that no id is given out twice
    .write fun ledger => ledger.putKeyCounter request.company request.auditor (count + 1)
    .write fun ledger =>
      { ledger with
        viewKeys := ledger.viewKeys.insert key.id ⟨key, key.expiresAt, config.expiryBasis⟩ }
    return key

def isActiveAt (clock : Clock) (key : ViewKey) : Bool :=
  key.isActive clock.timestamp clock.sequence

def grantsAccess (host : Host σ) (id : String) (auditor : Principal) : Bool :=
  (stored? host.ledger id).any fun key => key.auditor = auditor && isActiveAt host.clock key

def get (id : String) : Action σ ViewKey :=
  .expect (fun host => stored? host.ledger id) (.keyNotFound id)

/-- Revokes a key, which only the principal who granted it can. -/
def revoke (admin : Principal) (id : String) : Action σ Unit :=
  Host.transaction do
    Host.requireAuth admin
    let key ← get id
    if key.grantedBy = admin then
      .write fun ledger => { ledger with viewKeys := ledger.viewKeys.erase id }
    else .refuse (.notKeyGranter id admin)

/-- The order of keys: by time of issue, then by auditor, then by count. -/
def issuedBefore (a b : ViewKey) : Bool :=
  a.createdAt < b.createdAt || (a.createdAt == b.createdAt &&
    (a.auditor < b.auditor || (a.auditor == b.auditor && a.nonce ≤ b.nonce)))

/-- The keys of a company, in order; on demand only those that are active. -/
def list (ledger : Ledger) (clock : Clock) (company : Int) (activeOnly : Bool) : List ViewKey :=
  ((ledger.viewKeys.values.map (·.value)).filter fun key =>
    key.company = company && (!activeOnly || isActiveAt clock key)).mergeSort issuedBefore

end SealedPayroll.ViewKeys
