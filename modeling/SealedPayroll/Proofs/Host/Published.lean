import SealedPayroll.Proofs.Host.Built

/-!
# What is published

Events are only added, at the end, and a rollback takes back what was published
since its transaction began. An action is silent if it publishes nothing,
wherever it runs; every way of making an action has a rule for that.
-/

namespace SealedPayroll

variable {σ α β : Type} {host start reached : Host σ}

-- ---------------------------------------------------------------------------
-- Events of a transaction
-- ---------------------------------------------------------------------------

namespace Host

theorem committed_events (reached : Host σ) : (committed reached).events = reached.events := by
  unfold committed
  split <;> rfl

/-- A rollback takes back what was published since, and no more. -/
theorem rolledBack_events (h : start.events <+: reached.events) :
    (rolledBack start reached).events = start.events :=
  (List.prefix_iff_eq_take.mp h).symm

/-- A transaction that answers has published what its body did. -/
theorem transaction_events {body : Action σ α} {a : α} {later inner : Host σ}
    {result : Except Failure α} (h : (transaction body).run host = (.ok a, later))
    (hr : body.run { host with depth := host.depth + 1 } = (result, inner)) :
    later.events = inner.events := by
  by_cases hd : host.depth = 0
  · rcases result with failure | b
    · rw [transaction_error hd (by simpa [hd] using hr)] at h
      cases h
    · rw [transaction_ok hd (by simpa [hd] using hr)] at h
      cases h
      exact committed_events inner
  · rw [transaction_nested hd, hr] at h
    cases h
    rfl

end Host

namespace Action

theorem Basic.events_prefix {W : (Ledger → Ledger) → Prop} {action : Action σ α}
    (h : Basic W action) (host : Host σ) : host.events <+: (action.after host).events := by
  cases h with
  | quiet h => exact (h.still host).events ▸ List.prefix_rfl
  | write => exact List.prefix_rfl
  | publish => exact List.prefix_append _ _
  | evict => exact List.prefix_rfl

/-- Events are only added, and only at the end. -/
theorem Built.events_prefix {W : (Ledger → Ledger) → Prop} {action : Action σ α}
    (h : Built (Basic W) action) (host : Host σ) : host.events <+: (action.after host).events := by
  induction h generalizing host with
  | base h => exact h.events_prefix host
  | pure => exact List.prefix_rfl
  | @bind _ _ first _ _ _ ih₁ ih₂ =>
    have h₁ := ih₁ host
    rcases hr : first.run host with ⟨_ | a, later⟩ <;> rw [after, hr] at h₁
    · rwa [after_bind_error hr]
    · rw [after_bind_ok hr]
      exact h₁.trans (ih₂ a later)
  | outcome _ ih => exact ih host
  | @transaction _ body _ ih =>
    by_cases hd : host.depth = 0
    · have inside : host.events <+: (body.after { host with depth := 1 }).events :=
        ih { host with depth := 1 }
      rcases hr : body.run { host with depth := 1 } with ⟨_ | a, reached⟩ <;>
        rw [after, hr] at inside
      · have back := Host.rolledBack_events inside
        rw [after, Host.transaction_error hd hr]
        exact back ▸ List.prefix_rfl
      · rw [after, Host.transaction_ok hd hr, Host.committed_events]
        exact inside
    · rw [after, Host.transaction_nested hd]
      exact ih { host with depth := host.depth + 1 }

-- ---------------------------------------------------------------------------
-- Silence
-- ---------------------------------------------------------------------------

/-- Publishes nothing, wherever it runs. -/
def Silent (action : Action σ α) : Prop := ∀ host, (action.after host).events = host.events

namespace Silent

theorem quiet {action : Action σ α} (h : Quiet action) : Silent action :=
  fun host => (h.still host).events

theorem pure (a : α) : Silent (Pure.pure a : Action σ α) := fun _ => rfl

theorem write (f : Ledger → Ledger) : Silent (Action.write f : Action σ Unit) := fun _ => rfl

theorem evict : Silent (Host.evictExpired : Action σ Nat) := fun _ => rfl

theorem bind {first : Action σ α} {next : α → Action σ β} (hf : Silent first)
    (hn : ∀ a, Silent (next a)) : Silent (first >>= next) := by
  intro host
  have before := hf host
  rcases hr : first.run host with ⟨failure | a, later⟩ <;> rw [after, hr] at before
  · rwa [after_bind_error hr]
  · rw [after_bind_ok hr, hn a later, before]

theorem map {action : Action σ α} (h : Silent action) (f : α → β) : Silent (f <$> action) :=
  fun host => by rw [after_map, h host]

theorem transaction {body : Action σ α} (hb : Silent body) :
    Silent (Host.transaction body) := by
  intro host
  by_cases hd : host.depth = 0
  · have inside : (body.after { host with depth := 1 }).events = host.events :=
      hb { host with depth := 1 }
    rcases hr : body.run { host with depth := 1 } with ⟨failure | a, reached⟩ <;>
      rw [after, hr] at inside
    · rw [after, Host.transaction_error hd hr]
      exact Host.rolledBack_events (inside ▸ List.prefix_rfl)
    · rw [after, Host.transaction_ok hd hr, Host.committed_events]
      exact inside
  · rw [after, Host.transaction_nested hd]
    exact hb { host with depth := host.depth + 1 }

end Silent

end Action

end SealedPayroll
