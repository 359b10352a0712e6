import SealedPayroll.Host.Transaction

/-!
# Tokens

Balances are integers, zero for whoever holds nothing. Minting creates tokens,
for which an administrator may have to sign; a transfer moves them and needs
the sender's signature. Payments reach the ledger of tokens through
`TokenLedger`, which may be one that does something of its own before it
moves anything.
-/

namespace SealedPayroll

/-- How payments move tokens: sender, recipient, amount. -/
structure TokenLedger (σ : Type) where
  transfer : Principal → Principal → Int → Action σ Unit

namespace Tokens

variable {σ : Type}

def setBalance (holder : Principal) (balance : Int) : Action σ Unit :=
  .write fun ledger => ledger.putBalance holder balance

def balance (holder : Principal) : Action σ Int := .read (·.ledger.balance holder)

/-- Creates tokens; `minter` has to sign, if there is one. -/
def mint (minter : Option Principal) (recipient : Principal) (amount : Int) : Action σ Unit :=
  if amount ≤ 0 then .refuse (.invalidAmount amount)
  else Host.transaction do
    if let some admin := minter then Host.requireAuth admin
    setBalance recipient ((← balance recipient) + amount)

/-- Moves tokens from one holder to another, who may be the same. -/
def transfer (sender recipient : Principal) (amount : Int) : Action σ Unit :=
  if amount ≤ 0 then .refuse (.invalidAmount amount)
  else Host.transaction do
    Host.requireAuth sender
    let available ← balance sender
    if available < amount then .refuse (.insufficientBalance sender amount available)
    else
      setBalance sender (available - amount)
      -- read again, since the recipient may be the sender
      setBalance recipient ((← balance recipient) + amount)

end Tokens

namespace TokenLedger

variable {σ : Type}

def plain : TokenLedger σ := ⟨Tokens.transfer⟩

def calling (hook : Principal → Principal → Int → Action σ Unit) : TokenLedger σ where
  transfer sender recipient amount := do
    hook sender recipient amount
    Tokens.transfer sender recipient amount

end TokenLedger

end SealedPayroll
