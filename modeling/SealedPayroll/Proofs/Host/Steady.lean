import SealedPayroll.Proofs.Host.Answers
import SealedPayroll.Proofs.Host.Built

/-!
# Actions that leave their setting alone

The setting of a host is what its callers decide on: the reading of the clock
and who has signed. An action is steady if it leaves both as they are, wherever
it runs and also when it fails; that it asks for signatures does not matter.
Every way of making an action has a rule for that. A rollback puts neither
back, so a transaction is steady only if its body is.
-/

namespace SealedPayroll

variable {σ α β : Type}

/-- A host with the clock and the signatures of another one. -/
structure Host.SameSetting (start reached : Host σ) : Prop where
  clock : reached.clock = start.clock
  allows : reached.authority.allows = start.authority.allows

theorem Host.SameSetting.trans {first second third : Host σ} (h₁ : SameSetting first second)
    (h₂ : SameSetting second third) : SameSetting first third :=
  ⟨h₂.clock.trans h₁.clock, h₂.allows.trans h₁.allows⟩

theorem Host.committed_sameSetting (reached : Host σ) : SameSetting reached (committed reached) := by
  unfold committed
  split <;> exact ⟨rfl, rfl⟩

namespace Action

/-- Leaves the setting alone, wherever it runs. -/
def Steady (action : Action σ α) : Prop := ∀ host, Host.SameSetting host (action.after host)

namespace Steady

theorem pure (a : α) : Steady (Pure.pure a : Action σ α) := fun _ => ⟨rfl, rfl⟩

theorem raise (fault : Fault) : Steady (Action.raise fault : Action σ α) := fun _ => ⟨rfl, rfl⟩

theorem refuse (error : PayrollError) : Steady (Action.refuse error : Action σ α) := raise _

theorem read (view : Host σ → α) : Steady (Action.read view) := fun _ => ⟨rfl, rfl⟩

theorem write (f : Ledger → Ledger) : Steady (Action.write f : Action σ Unit) := fun _ => ⟨rfl, rfl⟩

theorem publish (topics data : List Datum) :
    Steady (Host.publish topics data : Action σ Event) := fun _ => ⟨rfl, rfl⟩

theorem change {f : Host σ → Host σ} (h : ∀ host, Host.SameSetting host (f host)) :
    Steady (Action.change f) := h

theorem ofExcept (result : Except Fault α) : Steady (Action.ofExcept result : Action σ α) := by
  cases result with
  | ok a => exact pure a
  | error fault => exact raise fault

theorem build (kind : RecordKind) (check : Check α) :
    Steady (Action.build kind check : Action σ α) := by
  cases check with
  | valid a => exact pure a
  | invalid faults => exact raise _

theorem expect (view : Host σ → Option α) (error : PayrollError) :
    Steady (Action.expect view error) := by
  intro host
  rw [after, run_expect]
  split <;> exact ⟨rfl, rfl⟩

/-- A signature that is asked for is noted, and signs nothing else. -/
theorem requireAuth (principal : Principal) :
    Steady (Host.requireAuth principal : Action σ Unit) := by
  intro host
  simp only [after, run, Host.requireAuth]
  split
  · rename_i noted found
    obtain ⟨-, rfl⟩ := Host.require_eq_ok.mp found
    exact ⟨rfl, rfl⟩
  · exact ⟨rfl, rfl⟩

theorem bind {first : Action σ α} {next : α → Action σ β} (hf : Steady first)
    (hn : ∀ a, Steady (next a)) : Steady (first >>= next) := by
  intro host
  have before := hf host
  rcases hr : first.run host with ⟨failure | a, later⟩ <;> rw [after, hr] at before
  · rwa [after_bind_error hr]
  · rw [after_bind_ok hr]
    exact before.trans (hn a later)

theorem transaction {body : Action σ α} (hb : Steady body) : Steady (Host.transaction body) := by
  intro host
  by_cases hd : host.depth = 0
  · have inside : Host.SameSetting host (body.after { host with depth := 1 }) :=
      have h := hb { host with depth := 1 }
      ⟨h.clock, h.allows⟩
    rcases hr : body.run { host with depth := 1 } with ⟨failure | a, reached⟩ <;>
      rw [after, hr] at inside
    · rw [after, Host.transaction_error hd hr]
      exact ⟨inside.clock, inside.allows⟩
    · rw [after, Host.transaction_ok hd hr]
      exact inside.trans (Host.committed_sameSetting reached)
  · rw [after, Host.transaction_nested hd]
    have inside := hb { host with depth := host.depth + 1 }
    exact ⟨inside.clock, inside.allows⟩

end Steady

end Action

end SealedPayroll
