import SealedPayroll.Check
import SealedPayroll.Fault.Payroll

/-!
# Failures

All that can stop a call: a refusal of the payroll, a record whose fields
break their rules, an argument that has no meaning, a pairing backend that
gives up, a number too wide for its encoding, or an error of the caller's own
code. A `Failure` is a fault on its way out; it remembers whether writes were
discarded because of it, which only refusals of the payroll report. What ends
the process at once, such as an interrupt from the keyboard, is not a fault
here: no transaction takes anything back for it.
-/

namespace SealedPayroll

inductive RecordKind where
  | proof
  | verificationKey
  | company
  | employeeBinding
  | commitmentRecord
  | nullifier
  | payment
  | auditReport
  | viewKey
  | event
  | paymentEvent
  | eventFilter
  | executorConfig
  | auditConfig
  | hostConfig
  | protocolConfig
  deriving DecidableEq, Repr

def RecordKind.name : RecordKind → String
  | .proof => "Groth16Proof"
  | .verificationKey => "VerificationKey"
  | .company => "Company"
  | .employeeBinding => "EmployeeBinding"
  | .commitmentRecord => "EmployeeCommitment"
  | .nullifier => "Nullifier"
  | .payment => "PaymentRecord"
  | .auditReport => "AuditReport"
  | .viewKey => "ViewKey"
  | .event => "ContractEvent"
  | .paymentEvent => "PaymentProcessedEvent"
  | .eventFilter => "EventFilter"
  | .executorConfig => "ExecutorConfig"
  | .auditConfig => "AuditConfig"
  | .hostConfig => "HostConfig"
  | .protocolConfig => "ProtocolConfig"

/-- Arguments that have no meaning to the call they were given to. -/
inductive ArgumentFault where
  | unknownScope (number : Int)
  | noScope
  | clockStart
  | timestamp (given : Int)
  | sequence (given : Int)
  | clockBackwards
  | closeInterval (given : Int)
  | foreignEvent (topics : List Datum)
  | paymentMove (current target : String) (allowed : List String)
  | backend
  deriving DecidableEq

def ArgumentFault.sentence : ArgumentFault → String
  | .unknownScope number => s!"{number} is not a valid AuditScope"
  | .noScope => "at least one scope is required."
  | .clockStart => "timestamp and sequence must be >= 0."
  | .timestamp given => s!"timestamp must be >= 0; got {given}."
  | .sequence given => s!"sequence must be >= 0; got {given}."
  | .clockBackwards => "the clock cannot move backwards."
  | .closeInterval given => s!"ledger_close_seconds must be > 0; got {given}."
  | .foreignEvent topics =>
    "not a PayrollProcessed event: topics=" ++ Datum.displayTopics topics
  | .paymentMove current target allowed =>
    s!"Invalid payment transition: {current} → {target}. Allowed from {current}: [" ++
      ", ".intercalate allowed ++ "]"
  | .backend => "backend failure"

inductive Fault where
  | payroll (error : PayrollError)
  | record (kind : RecordKind) (faults : List FieldFault)
  | argument (fault : ArgumentFault)
  | pairing (fault : PairingFault)
  | width (fault : WidthFault)
  /-- An error of the caller's own code, such as one raised inside a transaction. -/
  | interrupted (message : String)
  deriving DecidableEq

/-- The sentence that goes with a fault; the faults of a record's fields speak for themselves. -/
def Fault.message : Fault → String
  | .payroll error => error.message
  | .record _ _ => ""
  | .argument fault => fault.sentence
  | .pairing fault => fault.sentence
  | .width fault => fault.sentence
  | .interrupted message => message

/-- A fault on its way out of a call. -/
structure Failure where
  fault : Fault
  /-- Writes of the failed transaction were discarded. -/
  reverted : Bool
  deriving DecidableEq

/-- A fault as it is raised, before any transaction has dealt with it. -/
def Fault.raised (fault : Fault) : Failure := ⟨fault, false⟩

/-- The failure that leaves a transaction which discarded writes iff `wrote`. -/
def Failure.discarding (wrote : Bool) (failure : Failure) : Failure :=
  match failure.fault with
  | .payroll _ => { failure with reverted := failure.reverted || wrote }
  | _ => failure

theorem Failure.fault_discarding (wrote : Bool) (failure : Failure) :
    (failure.discarding wrote).fault = failure.fault := by
  unfold Failure.discarding; split <;> rfl

namespace Bytes

/-- An integer in exactly `width` bytes, high byte first, or why it does not fit. -/
def encodeBigEndian (width : Nat) (n : Int) : Except Fault Bytes :=
  match n with
  | .ofNat n => if n < capacity width then .ok (bigEndian width n) else .error (.width .tooBig)
  | .negSucc _ => .error (.width .negative)

end Bytes

end SealedPayroll
