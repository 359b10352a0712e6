import SealedPayroll.Audit.Scope
import SealedPayroll.Config
import SealedPayroll.Fault.Basic
import SealedPayroll.Hash.Sha256

/-!
# View keys and reports

A view key lets one auditor look at one company within a scope until it
expires. Its id is the digest of the company, the auditor and a counter; the
counter and the company number have fixed widths, so the text between them is
unambiguous.
-/

namespace SealedPayroll

structure ViewKey where
  id : String
  company : Int
  auditor : Principal
  grantedBy : Principal
  createdAt : Int
  expiresAt : Int
  scope : Scope
  nonce : Int
  basis : ExpiryBasis
  employees : Option (List String)
  periodStart : Option Int
  periodEnd : Option Int
  deriving DecidableEq, Repr

namespace ViewKey

def make (id : Option String) (company : Option Int) (auditor grantedBy : Option Principal)
    (createdAt expiresAt scope nonce : Option Int) (basis : Option String)
    (employees : Option (List String)) (periodStart periodEnd : Option Int) : Check ViewKey :=
  ViewKey.mk
    <$> .required "id" (.textSize 64) id
    <*> .required "company_id" .any company
    <*> .required "auditor" .nonempty auditor
    <*> .required "granted_by" .nonempty grantedBy
    <*> .required "created_at" .any createdAt
    <*> .required "expires_at" .any expiresAt
    <*> .decoded "scope" (.signedWord 64) Scope.ofNumber? .notAScope scope
    <*> .required "nonce" (.atLeast 0) nonce
    <*> .decoded "expiry_basis" .any ExpiryBasis.ofName? .notAnOption (basis.getD "timestamp")
    <*> .optional "employees" .any employees
    <*> .optional "period_start" .any periodStart
    <*> .optional "period_end" .any periodEnd

def idPreimage (company : Int) (auditor : Principal) (nonce : Int) : Except Fault Bytes := do
  let companyBytes ← Bytes.encodeBigEndian 8 company
  let nonceBytes ← Bytes.encodeBigEndian 8 nonce
  return Bytes.ofText "zk-payroll/view-key/v1" ++ 0 :: companyBytes ++ Bytes.ofText auditor ++
    0 :: nonceBytes

/-- The id of the key that an auditor gets for a company at a count. -/
def deriveId (company : Int) (auditor : Principal) (nonce : Int) : Except Fault String := do
  return Bytes.toHex (Sha256.digest (← idPreimage company auditor nonce))

def isActive (key : ViewKey) (timestamp sequence : Int) : Bool :=
  key.basis.isLive key.expiresAt timestamp sequence

def coversEmployee (key : ViewKey) (employee : Principal) : Bool :=
  match key.scope with
  | .employeeList => key.employees.any (·.contains employee)
  | scope => scope.revealsIndividuals

def coversPeriod (key : ViewKey) (start stop : Int) : Bool :=
  match key.scope with
  | .timeRange =>
    match key.periodStart, key.periodEnd with
    | some first, some last => first ≤ start && stop ≤ last
    | _, _ => false
  | _ => true

end ViewKey

/-- Totals over one window, without any single amount. -/
structure AuditReport where
  company : Int
  totalEmployees : Int
  totalPaid : Int
  paymentCount : Int
  periodStart : Int
  periodEnd : Int
  verified : Bool
  deriving DecidableEq, Repr

def AuditReport.make (company totalEmployees totalPaid paymentCount periodStart periodEnd :
    Option Int) (verified : Option Bool) : Check AuditReport :=
  AuditReport.mk
    <$> .required "company_id" .any company
    <*> .defaulted "total_employees" (.atLeast 0) 0 totalEmployees
    <*> .defaulted "total_paid" (.atLeast 0) 0 totalPaid
    <*> .defaulted "payment_count" (.atLeast 0) 0 paymentCount
    <*> .required "period_start" .any periodStart
    <*> .required "period_end" .any periodEnd
    <*> .defaulted "verified" .any false verified

end SealedPayroll
