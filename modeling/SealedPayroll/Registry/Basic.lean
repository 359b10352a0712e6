import SealedPayroll.Commitment.Store

/-!
# The registry of companies and employees

Companies are numbered in the order of their registration. Only a company's
administrator enrols and removes its employees, changes their commitments and
records their payments. Enrolment and removal keep the commitment store and
the company's count of employees in step with the bindings.
-/

namespace SealedPayroll.Registry

variable {σ : Type}

-- ---------------------------------------------------------------------------
-- Looking up
-- ---------------------------------------------------------------------------

def company (id : Int) : Action σ Company :=
  .expect (·.ledger.companies.get? id) (.companyNotFound id)

def employed? (ledger : Ledger) (company : Int) (employee : Principal) : Option Binding :=
  (ledger.bindings.get? employee).filter fun binding => binding.company = company

/-- The binding of an employee to a company, who has to be employed there. -/
def employee (company : Int) (employee : Principal) : Action σ Binding :=
  .expect (fun host => employed? host.ledger company employee)
    (.employeeNotFound employee (some company))

def isEmployee (ledger : Ledger) (company : Int) (employee : Principal) : Bool :=
  (employed? ledger company employee).isSome

/-- The order of employees: by the time of enrolment, then by name. -/
def enrolledBefore (a b : Binding) : Bool :=
  a.enrolledAt < b.enrolledAt || (a.enrolledAt == b.enrolledAt && a.employee ≤ b.employee)

def employees (ledger : Ledger) (company : Int) : List Binding :=
  (ledger.bindings.values.filter fun binding => binding.company = company).mergeSort enrolledBefore

-- ---------------------------------------------------------------------------
-- What administrators do
-- ---------------------------------------------------------------------------

/-- The company with a number, whose administrator has to have signed. -/
def administered (id : Int) : Action σ Company := do
  let company ← company id
  Host.requireAuth company.admin
  return company

def putCompany (company : Company) : Action σ Unit :=
  .write fun ledger => ledger.putCompany company.id company

def putBinding (employee : Principal) (binding : Binding) : Action σ Unit :=
  .write fun ledger => ledger.putBinding employee binding

/-- Registers a company and answers its number. -/
def register (admin treasury : Principal) : Action σ Int :=
  Host.transaction do
    Host.requireAuth admin
    let count ← .read (·.ledger.companyCount)
    let id : Int := count
    let company ← .build .company (Company.make id admin treasury none (← Host.now))
    .write fun ledger => ledger.putCompany id company
    .write fun ledger => ledger.setCompanyCount (count + 1)
    return id

/-- Binds an employee to a company and stores the first version of the commitment. -/
def enrol (companyId : Int) (employee : Principal) (commitment : Bytes) : Action σ Binding :=
  Host.transaction do
    let company ← administered companyId
    if let some existing ← .read (·.ledger.bindings.get? employee) then
      .refuse (.employeeAlreadyEnrolled employee existing.company)
    else
      let binding ← .build .employeeBinding
        (Binding.make companyId employee commitment (← Host.now) none)
      putBinding employee binding
      let _ ← CommitmentStore.store employee commitment (some companyId)
      putCompany { company with employeeCount := company.employeeCount + 1 }
      return binding

/-- Releases an employee and removes the commitment. -/
def release (companyId : Int) (name : Principal) : Action σ Unit :=
  Host.transaction do
    let company ← administered companyId
    let _ ← employee companyId name
    .write fun ledger => ledger.dropBinding name
    let _ ← CommitmentStore.remove name
    -- nothing in between has touched the company
    putCompany { company with employeeCount := company.employeeCount - 1 }

def updateCommitment (companyId : Int) (name : Principal) (commitment : Bytes) :
    Action σ CommitmentRecord :=
  Host.transaction do
    let _ ← administered companyId
    let binding ← employee companyId name
    let updated ← .build .employeeBinding
      (Binding.make binding.company binding.employee commitment binding.enrolledAt
        binding.lastPaymentAt)
    putBinding name updated
    CommitmentStore.update name commitment

def recordPayment (companyId : Int) (name : Principal) (timestamp : Int) : Action σ Binding :=
  Host.transaction do
    let _ ← administered companyId
    let binding ← employee companyId name
    let updated := { binding with lastPaymentAt := some timestamp }
    putBinding name updated
    return updated

end SealedPayroll.Registry
