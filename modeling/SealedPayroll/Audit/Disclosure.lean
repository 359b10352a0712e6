import SealedPayroll.Audit.Keys
import SealedPayroll.Payment.Settlement

/-!
# What auditors see

An auditor presents a key with every question. Single amounts are confirmed
or denied, never told; a report gives totals over a window. The scope of the
key decides which questions are answered and over which people a report sums.
-/

namespace SealedPayroll.Disclosure

variable {σ : Type}

/-- The active key with an id, presented by the auditor it was issued to. -/
def present (id : String) (auditor : Principal) : Action σ ViewKey := do
  Host.requireAuth auditor
  let key ← ViewKeys.get id
  if key.auditor ≠ auditor then .refuse (.wrongAuditor id auditor)
  else if ← .read fun host => ViewKeys.isActiveAt host.clock key then return key
  else .refuse (.keyExpired id key.expiresAt)

/-- Whether a commitment opens to an amount, asked under a key and perhaps a narrower scope. -/
def verifyCommitment (d : Deployment σ) (id : String) (auditor : Principal) (commitment : Bytes)
    (amount : Int) (blinding : Bytes) (restriction : Option Scope) : Action σ Bool := do
  let key ← present id auditor
  let scope := (restriction.map key.scope.meet).getD key.scope
  if scope.revealsIndividuals then .ofExcept (d.scheme.opens commitment amount blinding)
  else .refuse (.insufficientScope id scope.name .individuals)

def verifyEmployee (d : Deployment σ) (id : String) (auditor employee : Principal) (amount : Int)
    (blinding : Bytes) : Action σ Bool := do
  let key ← present id auditor
  if key.coversEmployee employee then
    let record ← CommitmentStore.get employee
    if record.company.all (· = key.company) then
      .ofExcept (d.scheme.opens record.commitment amount blinding)
    else .refuse (.insufficientScope id key.scope.name .otherCompany)
  else .refuse (.insufficientScope id key.scope.name (.employee employee))

/-- The distinct members of a list, in the order of their last occurrence. -/
def distinct : List Principal → List Principal
  | [] => []
  | name :: rest => if name ∈ rest then distinct rest else name :: distinct rest

def listed? (key : ViewKey) : Option (List Principal) :=
  match key.scope with
  | .employeeList => key.employees
  | _ => none

def liveReport (key : ViewKey) (start stop : Int) : Action σ AuditReport := do
  let settled ← .read fun host => Payroll.payments host.ledger key.company (some start) (some stop)
  let report (people : Int) (paid : List PaymentRecord) : Action σ AuditReport :=
    .build .auditReport
      (AuditReport.make key.company people (some ((paid.map (·.amount)).foldl (· + ·) 0))
        (some paid.length) start stop true)
  match listed? key with
  | some names =>
    let employed ← .read fun host =>
      (distinct names).filter fun name => Registry.isEmployee host.ledger key.company name
    report employed.length (settled.filter fun record => names.contains record.employee)
  | none =>
    let company ← Registry.company key.company
    report company.employeeCount settled

/-- Totals over a window; without sight of registry and payments, an unverified blank. -/
def report (d : Deployment σ) (id : String) (auditor : Principal) (start stop : Int) :
    Action σ AuditReport := do
  let key ← present id auditor
  if stop < start then .refuse (.invalidPeriod (.reversed start stop))
  else if key.coversPeriod start stop then
    if d.auditSeesRegistry && d.auditSeesPayments then liveReport key start stop
    else
      .build .auditReport
        (AuditReport.make key.company none none none start stop (some false))
  else .refuse (.insufficientScope id key.scope.name .window)

end SealedPayroll.Disclosure
