import SealedPayroll.Fault.Basic

/-!
# Who has signed

The host knows which principals have signed the current call, either by name
or all of them at once, and keeps a record of the signatures it was asked for
and found. The record is never taken back.
-/

namespace SealedPayroll

structure Authority where
  everyone : Bool
  signers : List Principal
  checked : List Principal
  deriving DecidableEq, Repr

namespace Authority

def unrestricted : Authority := ⟨true, [], []⟩

def only (signers : List Principal) : Authority := ⟨false, signers, []⟩

def allows (authority : Authority) (principal : Principal) : Bool :=
  principal ≠ "" && (authority.everyone || authority.signers.contains principal)

def authorize (authority : Authority) (principals : List Principal) : Authority :=
  { authority with signers := authority.signers ++ principals }

def deauthorize (authority : Authority) (principals : List Principal) : Authority :=
  { authority with signers := authority.signers.filter fun signer => !principals.contains signer }

/-- Records the signature of a principal, or says why there is none. -/
def require (authority : Authority) (principal : Principal) : Except Fault Authority :=
  if principal = "" then .error (.payroll (.unauthorized principal .emptyPrincipal))
  else if authority.allows principal then
    .ok { authority with checked := authority.checked ++ [principal] }
  else .error (.payroll (.unauthorized principal .unsigned))

end Authority

end SealedPayroll
