import SealedPayroll.Bytes.Hex
import SealedPayroll.Datum

/-!
# Why a call was refused

Causes that several refusals share, each with its sentence. A cause that ends
in `stated` carries a sentence given by the caller who made the refusal.
-/

namespace SealedPayroll

/-- Whoever signs calls, holds tokens or is paid. -/
abbrev Principal := String

/-- Why a signature does not count. -/
inductive Denial where
  | unsigned
  | emptyPrincipal
  | notCompanyAdmin (company : Int)
  | stated (reason : String)
  deriving DecidableEq, Repr

/-- The reason added to the refusal; empty when none is. -/
def Denial.reason : Denial → String
  | .unsigned => ""
  | .emptyPrincipal => "empty principal"
  | .notCompanyAdmin company => s!"not the admin of company {company}"
  | .stated reason => reason

inductive Uncovered where
  | individuals
  | employee (name : Principal)
  | otherCompany
  | window
  | stated (detail : String)
  deriving DecidableEq, Repr

def Uncovered.detail : Uncovered → String
  | .individuals => "per-employee verification"
  | .employee name => s!"employee '{name}' not covered"
  | .otherCompany => "commitment belongs to another company"
  | .window => "period outside the granted range"
  | .stated detail => detail

inductive PeriodFault where
  | negative (period : Int)
  | reversed (start stop : Int)
  | emptyDuration (duration : Int)
  | longDuration (duration longest : Int)
  | stated (sentence : String)
  deriving DecidableEq, Repr

def PeriodFault.sentence : PeriodFault → String
  | .negative period => s!"period must be >= 0; got {period}."
  | .reversed start stop => s!"period_start {start} is after period_end {stop}."
  | .emptyDuration duration => s!"duration must be > 0; got {duration}."
  | .longDuration duration longest => s!"duration {duration} exceeds the maximum of {longest}."
  | .stated sentence => sentence

inductive KeyParameterFault where
  | noAuditor
  | employeesMissing
  | employeesRefused
  | boundsMissing
  | boundsRefused
  | stated (detail : String)
  deriving DecidableEq, Repr

def KeyParameterFault.detail : KeyParameterFault → String
  | .noAuditor => "auditor must be a non-empty principal."
  | .employeesMissing => "a non-empty employees list is required."
  | .employeesRefused => "employees is only accepted for EMPLOYEE_LIST."
  | .boundsMissing => "period_start and period_end are required."
  | .boundsRefused => "period bounds are only accepted for TIME_RANGE."
  | .stated detail => detail

/-- Why something cannot be hashed into a commitment, a nullifier or a recipient. -/
inductive CommitmentFault where
  | amountOutOfRange (largest amount : Int)
  | blindingSize (size : Nat)
  | nullifierBlinding
  | negativePeriod (period : Int)
  | emptyEmployee
  | stated (sentence : String)
  deriving DecidableEq, Repr

def CommitmentFault.sentence : CommitmentFault → String
  | .amountOutOfRange largest amount => s!"amount must be in [0, {largest}]; got {amount}."
  | .blindingSize size => s!"blinding must be exactly 32 bytes; got {size}."
  | .nullifierBlinding => "blinding must be exactly 32 bytes."
  | .negativePeriod period => s!"period must be >= 0; got {period}."
  | .emptyEmployee => "employee must be a non-empty string."
  | .stated sentence => sentence

inductive WiringFault where
  | hostAndParts
  | stated (sentence : String)
  deriving DecidableEq, Repr

def WiringFault.sentence : WiringFault → String
  | .hostAndParts => "Pass either an existing host or clock/authenticator/storage, not both."
  | .stated sentence => sentence

/-- Why a pairing backend does not take a point, a scalar or a product. -/
inductive PairingFault where
  | g1Size (size : Nat)
  | g2Size (size : Nat)
  | negativeScalar (scalar : Int)
  | noPairs
  | inputSize (size : Nat)
  | offCurve
  deriving DecidableEq, Repr

def PairingFault.sentence : PairingFault → String
  | .g1Size size => s!"G1 point must be 64 bytes; got {size}."
  | .g2Size size => s!"G2 point must be 128 bytes; got {size}."
  | .negativeScalar scalar => s!"scalar must be >= 0; got {scalar}."
  | .noPairs => "pairing_check requires at least one pair."
  | .inputSize size => s!"public input must be 32 bytes; got {size}."
  | .offCurve => "point not on curve"

/-- Why a number does not fit what has to hold it: a fixed number of bytes, or an integer. -/
inductive WidthFault where
  | tooBig
  | negative
  | infinite
  deriving DecidableEq, Repr

def WidthFault.sentence : WidthFault → String
  | .tooBig => "int too big to convert"
  | .negative => "can't convert negative int to unsigned"
  | .infinite => "cannot convert float infinity to integer"

end SealedPayroll
