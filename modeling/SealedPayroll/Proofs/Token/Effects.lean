import SealedPayroll.Proofs.Host.Spared
import SealedPayroll.Proofs.Payment.Batch

/-!
# What the token ledger does

The ledger after tokens were minted or moved: all of it, and a sweep at the
end when theirs is the outermost transaction. Either fails before it writes
anything.
-/

namespace SealedPayroll

open SealedPayroll.Action (FailsEarly)

variable {σ : Type} {host later : Host σ}

namespace Tokens

variable {minter : Option Principal} {sender recipient : Principal} {amount : Int} {u : Unit}

theorem of_mint_ok (h : (mint minter recipient amount).run host = (.ok u, later)) :
    0 < amount ∧ (∀ admin, minter = some admin → host.authority.allows admin = true) ∧
      Ledger.Swept host.clock (host.ledger.fund recipient amount) later.ledger := by
  unfold mint at h
  split at h
  · cases h
  · rename_i positive
    obtain ⟨inner, hr, -, swept⟩ := Host.of_transaction_ok h
    cases minter with
    | none =>
      cases hr
      exact ⟨Int.not_le.mp positive, nofun, swept⟩
    | some admin =>
      obtain ⟨_, _, h₁, hr⟩ := Action.bind_eq_ok.mp hr
      obtain ⟨allowed, rfl⟩ := Host.requireAuth_eq_ok.mp h₁
      cases hr
      refine ⟨Int.not_le.mp positive, ?_, swept⟩
      rintro _ ⟨⟩
      exact allowed

theorem of_transfer_ok (h : (transfer sender recipient amount).run host = (.ok u, later)) :
    0 < amount ∧ host.authority.allows sender = true ∧ amount ≤ host.ledger.balance sender ∧
      Ledger.Swept host.clock (host.ledger.move sender recipient amount) later.ledger := by
  unfold transfer at h
  split at h
  · cases h
  · rename_i positive
    obtain ⟨inner, hr, -, swept⟩ := Host.of_transaction_ok h
    obtain ⟨_, _, h₁, hr⟩ := Action.bind_eq_ok.mp hr
    obtain ⟨signed, rfl⟩ := Host.requireAuth_eq_ok.mp h₁
    obtain ⟨available, _, h₂, hr⟩ := Action.bind_eq_ok.mp hr
    obtain ⟨rfl, rfl⟩ := Action.read_eq_ok.mp h₂
    split at hr
    · exact (Action.refuse_eq_ok.mp hr).elim
    · rename_i covered
      cases hr
      exact ⟨Int.not_le.mp positive, signed, Int.not_lt.mp covered, swept⟩

theorem mint_failsEarly {bad : Fault → Bool} (minter : Option Principal) (recipient : Principal)
    (amount : Int) : FailsEarly bad (mint minter recipient amount : Action σ Unit) := by
  unfold mint
  split
  · exact .quiet (.refuse _)
  · apply FailsEarly.transaction
    split
    · exact .bind (.requireAuth _) fun _ => .never (.bind (.read _) fun _ => .write _)
    · exact .never (.bind (.read _) fun _ => .write _)

theorem transfer_failsEarly {bad : Fault → Bool} (sender recipient : Principal) (amount : Int) :
    FailsEarly bad (transfer sender recipient amount : Action σ Unit) := by
  unfold transfer
  split
  · exact .quiet (.refuse _)
  · refine .transaction <| .bind (.requireAuth _) fun _ => .bind (.read _) fun available => ?_
    split
    · exact .quiet (.refuse _)
    · exact .never <| .bind (.write _) fun _ => .bind (.read _) fun _ => .write _

end Tokens

end SealedPayroll
