import SealedPayroll.Commitment.Scheme
import SealedPayroll.Token.Basic

/-!
# Deployments

What the parts of a payroll are wired to: settings, pairing backend,
commitment scheme and token ledger. The audit part may be wired to the
registry and to the payments, or left without either.
-/

namespace SealedPayroll

structure Deployment (σ : Type) where
  config : ProtocolConfig
  backend : PairingBackend
  scheme : CommitmentScheme
  tokens : TokenLedger σ
  /-- Who signs for new tokens, if anybody has to. -/
  minter : Option Principal
  auditSeesRegistry : Bool
  auditSeesPayments : Bool

namespace Deployment

variable {σ : Type}

/-- The deployment with a plain token ledger and a fully wired audit part. -/
def plain (config : ProtocolConfig) (backend : PairingBackend) (scheme : CommitmentScheme) :
    Deployment σ where
  config := config
  backend := backend
  scheme := scheme
  tokens := .plain
  minter := none
  auditSeesRegistry := true
  auditSeesPayments := true

end Deployment

end SealedPayroll
