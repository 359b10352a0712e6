import SealedPayroll.Fault.Basic

/-!
# The life of one payment attempt

An attempt starts pending, becomes verified when its proof is accepted and
settled when the money has moved; it can be rejected from either of the first
two states. Settled and rejected attempts stay as they are.
-/

namespace SealedPayroll

inductive PaymentState where
  | pending
  | verified
  | settled
  | rejected
  deriving DecidableEq, Repr

namespace PaymentState

def name : PaymentState → String
  | .pending => "pending"
  | .verified => "verified"
  | .settled => "settled"
  | .rejected => "rejected"

def ofName? : String → Option PaymentState
  | "pending" => some .pending
  | "verified" => some .verified
  | "settled" => some .settled
  | "rejected" => some .rejected
  | _ => none

def next : PaymentState → List PaymentState
  | .pending => [.rejected, .verified]
  | .verified => [.rejected, .settled]
  | .settled | .rejected => []

def isTerminal (state : PaymentState) : Bool := state.next.isEmpty

def advance (state target : PaymentState) : Except Fault PaymentState :=
  if target ∈ state.next then .ok target
  else .error (.argument (.paymentMove state.name target.name (state.next.map name)))

/-- The states after each of a list of moves; a move that is not possible changes nothing. -/
def advances (state : PaymentState) : List PaymentState →
    List (Except Fault PaymentState × PaymentState)
  | [] => []
  | target :: rest =>
    match state.advance target with
    | .ok reached => (.ok reached, reached) :: advances reached rest
    | .error fault => (.error fault, state) :: advances state rest

end PaymentState

end SealedPayroll
