import SealedPayroll.Fault.Cause

/-!
# Refusals of the payroll

Every way in which a call of the payroll can be refused on the payroll's own
grounds. A refusal belongs to a family: validation refusals come before
anything is written, integrity refusals may discard writes, lookups name a
record that does not exist. `name`, `code`, `message` and `attributes` are
what a caller sees of a refusal; they are functions of the cause and nothing
else.
-/

namespace SealedPayroll

inductive Family where
  | base
  | validation
  | integrity
  | notFound
  deriving DecidableEq, Repr

def Family.name : Family → String
  | .base => "ZkPayrollError"
  | .validation => "ValidationError"
  | .integrity => "IntegrityError"
  | .notFound => "NotFoundError"

inductive PayrollError where
  | general (family : Family) (message code : String)
  | companyNotFound (company : Int)
  | employeeNotFound (employee : Principal) (company : Option Int)
  | commitmentNotFound (employee : Principal)
  | keyNotFound (key : String)
  | paymentNotFound (employee : Principal) (period : Int)
  | unauthorized (principal : Principal) (denial : Denial)
  | notKeyGranter (key : String) (admin : Principal)
  | wrongAuditor (key : String) (auditor : Principal)
  | keyExpired (key : String) (expiresAt : Int)
  | insufficientScope (key scope : String) (uncovered : Uncovered)
  | lengthMismatch (lengths : List (String × Int))
  | batchTooLarge (size largest : Int)
  | invalidAmount (amount : Int)
  | invalidPeriod (fault : PeriodFault)
  | invalidKeyParameters (scope : String) (fault : KeyParameterFault)
  | invalidCommitmentInput (fault : CommitmentFault)
  | commitmentMismatch (employee : Principal)
  | nullifierAlreadyUsed (nullifier : Bytes)
  | alreadyPaid (employee : Principal) (period : Int)
  | invalidProof (employee : Principal) (index : Option Int)
  | insufficientBalance (holder : Principal) (requested available : Int)
  | alreadyInitialized (component : String)
  | notInitialized (component : String)
  | employeeAlreadyEnrolled (employee : Principal) (company : Int)
  | misconfigured (fault : WiringFault)
  deriving DecidableEq, Repr

namespace PayrollError

-- ---------------------------------------------------------------------------
-- What callers see
-- ---------------------------------------------------------------------------

def name : PayrollError → String
  | general family _ _ => family.name
  | companyNotFound _ => "CompanyNotFound"
  | employeeNotFound _ _ => "EmployeeNotFound"
  | commitmentNotFound _ => "CommitmentNotFound"
  | keyNotFound _ => "KeyNotFound"
  | paymentNotFound _ _ => "PaymentNotFound"
  | unauthorized _ _ => "Unauthorized"
  | notKeyGranter _ _ => "NotKeyGranter"
  | wrongAuditor _ _ => "WrongAuditor"
  | keyExpired _ _ => "KeyExpired"
  | insufficientScope _ _ _ => "InsufficientScope"
  | lengthMismatch _ => "ArrayLengthMismatch"
  | batchTooLarge _ _ => "BatchTooLarge"
  | invalidAmount _ => "InvalidAmount"
  | invalidPeriod _ => "InvalidPeriod"
  | invalidKeyParameters _ _ => "InvalidScopeParameters"
  | invalidCommitmentInput _ => "InvalidCommitmentInput"
  | commitmentMismatch _ => "CommitmentMismatch"
  | nullifierAlreadyUsed _ => "NullifierAlreadyUsed"
  | alreadyPaid _ _ => "AlreadyPaid"
  | invalidProof _ _ => "InvalidProof"
  | insufficientBalance _ _ _ => "InsufficientBalance"
  | alreadyInitialized _ => "AlreadyInitialized"
  | notInitialized _ => "NotInitialized"
  | employeeAlreadyEnrolled _ _ => "EmployeeAlreadyEnrolled"
  | misconfigured _ => "ConfigurationError"

def family : PayrollError → Family
  | general family _ _ => family
  | companyNotFound _ | employeeNotFound _ _ | commitmentNotFound _ | keyNotFound _
  | paymentNotFound _ _ => .notFound
  | unauthorized _ _ | notKeyGranter _ _ | wrongAuditor _ _ | keyExpired _ _
  | insufficientScope _ _ _ | lengthMismatch _ | batchTooLarge _ _ | invalidAmount _
  | invalidPeriod _ | invalidKeyParameters _ _ | invalidCommitmentInput _ => .validation
  | commitmentMismatch _ | nullifierAlreadyUsed _ | alreadyPaid _ _ | invalidProof _ _
  | insufficientBalance _ _ _ => .integrity
  | alreadyInitialized _ | notInitialized _ | employeeAlreadyEnrolled _ _
  | misconfigured _ => .base

/-- The kinds above a refusal, nearest first. -/
def lineage : PayrollError → List String
  | general .base _ _ => []
  | general _ _ _ => [Family.base.name]
  | e =>
    match e.family with
    | .base => [Family.base.name]
    | family => [family.name, Family.base.name]

def parent (e : PayrollError) : String :=
  e.lineage.headD "Exception"

def defaultCode : String := "ZK_PAYROLL_ERROR"

def code : PayrollError → String
  | general _ _ code => code
  | companyNotFound _ => "COMPANY_NOT_FOUND"
  | employeeNotFound _ _ => "EMPLOYEE_NOT_FOUND"
  | commitmentNotFound _ => "COMMITMENT_NOT_FOUND"
  | keyNotFound _ => "KEY_NOT_FOUND"
  | paymentNotFound _ _ => "PAYMENT_NOT_FOUND"
  | unauthorized _ _ => "UNAUTHORIZED"
  | notKeyGranter _ _ => "NOT_KEY_GRANTER"
  | wrongAuditor _ _ => "WRONG_AUDITOR"
  | keyExpired _ _ => "KEY_EXPIRED"
  | insufficientScope _ _ _ => "INSUFFICIENT_SCOPE"
  | lengthMismatch _ => "ARRAY_LENGTH_MISMATCH"
  | batchTooLarge _ _ => "BATCH_TOO_LARGE"
  | invalidAmount _ => "INVALID_AMOUNT"
  | invalidPeriod _ => "INVALID_PERIOD"
  | invalidKeyParameters _ _ => "INVALID_SCOPE_PARAMETERS"
  | invalidCommitmentInput _ => "INVALID_COMMITMENT_INPUT"
  | commitmentMismatch _ => "COMMITMENT_MISMATCH"
  | nullifierAlreadyUsed _ => "NULLIFIER_ALREADY_USED"
  | alreadyPaid _ _ => "ALREADY_PAID"
  | invalidProof _ _ => "INVALID_PROOF"
  | insufficientBalance _ _ _ => "INSUFFICIENT_BALANCE"
  | alreadyInitialized _ => "ALREADY_INITIALIZED"
  | notInitialized _ => "NOT_INITIALIZED"
  | employeeAlreadyEnrolled _ _ => "EMPLOYEE_ALREADY_ENROLLED"
  | misconfigured _ => "CONFIGURATION_ERROR"

/-- A remark behind `opening`, or nothing when the remark is empty. -/
def remark (opening text closing : String) : String :=
  if text = "" then "" else opening ++ text ++ closing

def message : PayrollError → String
  | general _ message _ => message
  | companyNotFound company =>
    s!"Company {company} does not exist. " ++
      "Register it first with PayrollRegistry.register_company()."
  | employeeNotFound employee none => s!"Employee '{employee}' is not enrolled."
  | employeeNotFound employee (some company) =>
    s!"Employee '{employee}' is not enrolled in company {company}."
  | commitmentNotFound employee => s!"Commitment not found for employee '{employee}'."
  | keyNotFound key => s!"View key '{key}' not found."
  | paymentNotFound employee period =>
    s!"Payment not found for employee '{employee}' in period {period}."
  | unauthorized principal denial =>
    s!"Principal '{principal}' has not authorized this call" ++ remark ": " denial.reason "" ++ "."
  | notKeyGranter key admin =>
    s!"Principal '{admin}' did not grant view key '{key}' and cannot revoke it."
  | wrongAuditor key auditor => s!"View key '{key}' was not issued to auditor '{auditor}'."
  | keyExpired key expiresAt => s!"View key '{key}' expired at {expiresAt}."
  | insufficientScope key scope uncovered =>
    s!"View key '{key}' with scope {scope} cannot perform this operation" ++
      remark " (" uncovered.detail ")" ++ "."
  | lengthMismatch lengths =>
    let shown := lengths.map fun (name, size) => s!"{name}={size}"
    "Array length mismatch: " ++ ", ".intercalate shown ++ "."
  | batchTooLarge size largest => s!"Batch of {size} entries exceeds the maximum of {largest}."
  | invalidAmount amount => s!"Amount must be positive; got {amount}."
  | invalidPeriod fault => fault.sentence
  | invalidKeyParameters scope fault =>
    s!"Invalid parameters for a {scope} view key: " ++ fault.detail
  | invalidCommitmentInput fault => fault.sentence
  | commitmentMismatch employee =>
    s!"Registry commitment for employee '{employee}' does not match the stored commitment."
  | nullifierAlreadyUsed nullifier =>
    "Nullifier already used: " ++ Bytes.toHex (nullifier.take 8) ++ "..."
  | alreadyPaid employee period => s!"Payment already made to '{employee}' for period {period}."
  | invalidProof employee none => s!"Invalid payment proof for employee '{employee}'."
  | invalidProof employee (some index) =>
    s!"Invalid payment proof for employee '{employee}' (batch entry {index})."
  | insufficientBalance holder requested available =>
    s!"Balance of '{holder}' is {available} but {requested} was requested."
  | alreadyInitialized component => s!"{component} is already initialized."
  | notInitialized component => s!"{component} is not initialized."
  | employeeAlreadyEnrolled employee company =>
    s!"Employee '{employee}' is already enrolled in company {company}."
  | misconfigured fault => fault.sentence

/-- What a refusal is about, under the names that callers know. -/
def attributes : PayrollError → List (String × Datum)
  | general _ _ _ | invalidPeriod _ | invalidCommitmentInput _ | misconfigured _ => []
  | companyNotFound company => [("company_id", .int company)]
  | employeeNotFound employee company =>
    [("employee", .text employee), ("company_id", (company.map Datum.int).getD .null)]
  | commitmentNotFound employee => [("employee", .text employee)]
  | keyNotFound key => [("key_id", .text key)]
  | paymentNotFound employee period => [("employee", .text employee), ("period", .int period)]
  | unauthorized principal _ => [("principal", .text principal)]
  | notKeyGranter key admin => [("key_id", .text key), ("admin", .text admin)]
  | wrongAuditor key auditor => [("key_id", .text key), ("auditor", .text auditor)]
  | keyExpired key expiresAt => [("key_id", .text key), ("expires_at", .int expiresAt)]
  | insufficientScope key scope _ => [("key_id", .text key), ("scope", .text scope)]
  | lengthMismatch lengths =>
    [("lengths", .record (lengths.map fun (name, size) => (name, .int size)))]
  | batchTooLarge size largest => [("size", .int size), ("max_size", .int largest)]
  | invalidAmount amount => [("amount", .int amount)]
  | invalidKeyParameters scope _ => [("scope", .text scope)]
  | commitmentMismatch employee => [("employee", .text employee)]
  | nullifierAlreadyUsed nullifier => [("nullifier", .text (Bytes.toHex nullifier))]
  | alreadyPaid employee period => [("employee", .text employee), ("period", .int period)]
  | invalidProof employee index =>
    [("employee", .text employee), ("index", (index.map Datum.int).getD .null)]
  | insufficientBalance holder requested available =>
    [("holder", .text holder), ("requested", .int requested), ("available", .int available)]
  | alreadyInitialized component | notInitialized component => [("component", .text component)]
  | employeeAlreadyEnrolled employee company =>
    [("employee", .text employee), ("company_id", .int company)]

/-- A refusal on one line, for logs. -/
def display (e : PayrollError) : String :=
  s!"{e.name}(code={Text.quoted e.code}, message={Text.quoted e.message})"

end PayrollError

end SealedPayroll
