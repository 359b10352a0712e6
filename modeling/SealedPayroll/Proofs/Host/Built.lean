import SealedPayroll.Host.Transaction

/-!
# Actions made of other actions

Whatever runs in a host is put together from a few kinds of action by
sequencing, catching failures and opening transactions. `Built P a` says that
`a` is put together from actions in `P`, and nothing else; what holds of the
actions in `P` and survives a rollback then holds of `a` (`Built.ledger_rel`).
`Basic W` are the smallest actions: those that leave storage and events alone,
a write that `W` admits, a publication and a sweep.
-/

namespace SealedPayroll

variable {σ α β : Type}

namespace Ledger

variable {clock : Clock} {l k : Ledger}

/-- The ledger, swept or not. -/
def Swept (clock : Clock) (l k : Ledger) : Prop :=
  k = l ∨ k = l.evict clock.timestamp clock.sequence

/-- What a sweep does not change holds of a swept ledger as well. -/
theorem Swept.imp {I : Ledger → Prop} (h : Swept clock l k)
    (evict : I l → I (l.evict clock.timestamp clock.sequence)) (hl : I l) : I k := by
  rcases h with rfl | rfl
  · exact hl
  · exact evict hl

end Ledger

-- ---------------------------------------------------------------------------
-- What a transaction does
-- ---------------------------------------------------------------------------

namespace Host

variable {host reached : Host σ} {body : Action σ α}

theorem transaction_ok {a : α} (hd : host.depth = 0)
    (h : body.run { host with depth := 1 } = (.ok a, reached)) :
    (transaction body).run host = (.ok a, committed reached) := by
  simp [Action.run, transaction, hd, show body _ = _ from h]

theorem transaction_error {failure : Failure} (hd : host.depth = 0)
    (h : body.run { host with depth := 1 } = (.error failure, reached)) :
    (transaction body).run host =
      (.error (failure.discarding (hasWritten host reached)), rolledBack host reached) := by
  simp [Action.run, transaction, hd, show body _ = _ from h]

theorem transaction_nested (hd : host.depth ≠ 0) :
    (transaction body).run host =
      ((body.run { host with depth := host.depth + 1 }).1,
        { (body.run { host with depth := host.depth + 1 }).2 with
          depth := (body.run { host with depth := host.depth + 1 }).2.depth - 1 }) := by
  simp [Action.run, transaction, hd]

theorem committed_ledger (reached : Host σ) :
    (committed reached).ledger = reached.ledger ∨
      (committed reached).ledger =
        reached.ledger.evict reached.clock.timestamp reached.clock.sequence := by
  unfold committed
  split
  · exact .inr rfl
  · exact .inl rfl

theorem committed_clock (reached : Host σ) : (committed reached).clock = reached.clock := by
  unfold committed
  split <;> rfl

/-- A transaction that answers has run its body to the end, and may have swept. -/
theorem of_transaction_ok {a : α} {later : Host σ}
    (h : (transaction body).run host = (.ok a, later)) :
    ∃ inner, body.run { host with depth := host.depth + 1 } = (.ok a, inner) ∧
      later.clock = inner.clock ∧
      (later.ledger = inner.ledger ∨
        later.ledger = inner.ledger.evict inner.clock.timestamp inner.clock.sequence) := by
  rcases hr : body.run { host with depth := host.depth + 1 } with ⟨raised | b, inner⟩ <;>
    by_cases hd : host.depth = 0
  · rw [transaction_error hd (by simpa [hd] using hr)] at h
    cases h
  · rw [transaction_nested hd, hr] at h
    cases h
  · rw [transaction_ok hd (by simpa [hd] using hr)] at h
    cases h
    exact ⟨inner, rfl, committed_clock inner, committed_ledger inner⟩
  · rw [transaction_nested hd, hr] at h
    cases h
    exact ⟨inner, rfl, rfl, .inl rfl⟩

/-- A transaction that fails has met the failure in its body, and may have taken its writes
back. -/
theorem of_transaction_error {failure : Failure} {later : Host σ}
    (h : (transaction body).run host = (.error failure, later)) :
    ∃ raised inner, body.run { host with depth := host.depth + 1 } = (.error raised, inner) ∧
      raised.fault = failure.fault ∧
      (later.ledger = inner.ledger ∨ later.ledger = host.ledger) := by
  rcases hr : body.run { host with depth := host.depth + 1 } with ⟨raised | b, inner⟩ <;>
    by_cases hd : host.depth = 0
  · rw [transaction_error hd (by simpa [hd] using hr)] at h
    cases h
    exact ⟨raised, inner, rfl, (Failure.fault_discarding _ _).symm, .inr rfl⟩
  · rw [transaction_nested hd, hr] at h
    cases h
    exact ⟨_, _, rfl, rfl, .inl rfl⟩
  · rw [transaction_ok hd (by simpa [hd] using hr)] at h
    cases h
  · rw [transaction_nested hd, hr] at h
    cases h

end Host

namespace Action

theorem after_bind_ok {first : Action σ α} {next : α → Action σ β} {host later : Host σ} {a : α}
    (h : first.run host = (.ok a, later)) :
    (first >>= next).after host = (next a).after later := by
  rw [after, run_bind_ok h, after]

theorem after_bind_error {first : Action σ α} {next : α → Action σ β} {host later : Host σ}
    {failure : Failure} (h : first.run host = (.error failure, later)) :
    (first >>= next).after host = later := by
  rw [after, run_bind_error h]

/-- Making an answer into another one changes nothing else. -/
theorem after_map (action : Action σ α) (f : α → β) (host : Host σ) :
    (f <$> action).after host = action.after host := by
  rw [map_eq_pure_bind]
  rcases h : action.run host with ⟨failure | a, later⟩
  · rw [after_bind_error h, after, h]
  · rw [after_bind_ok h, after, after, h]
    rfl

theorem bind_build (kind : RecordKind) (check : Check α) (next : α → Action σ β) :
    (build kind check >>= next) =
      match check with
      | .valid a => next a
      | .invalid faults => raise (.record kind faults) := by
  cases check <;> rfl

-- ---------------------------------------------------------------------------
-- Putting actions together
-- ---------------------------------------------------------------------------

/-- Actions that are put together from those in `P`. -/
inductive Built (P : ⦃α : Type⦄ → Action σ α → Prop) : ⦃α : Type⦄ → Action σ α → Prop
  | base {α : Type} {action : Action σ α} : P action → Built P action
  | pure {α : Type} (a : α) : Built P (Pure.pure a)
  | bind {α β : Type} {first : Action σ α} {next : α → Action σ β} :
      Built P first → (∀ a, Built P (next a)) → Built P (first >>= next)
  | outcome {α : Type} {action : Action σ α} : Built P action → Built P action.outcome
  | transaction {α : Type} {body : Action σ α} : Built P body → Built P (Host.transaction body)

namespace Built

variable {P Q : ⦃α : Type⦄ → Action σ α → Prop}

theorem trans {action : Action σ α} (h : Built P action)
    (hpq : ∀ ⦃α : Type⦄ (a : Action σ α), P a → Built Q a) : Built Q action := by
  induction h with
  | base h => exact hpq _ h
  | pure a => exact .pure a
  | bind _ _ ih₁ ih₂ => exact .bind ih₁ ih₂
  | outcome _ ih => exact .outcome ih
  | transaction _ ih => exact .transaction ih

theorem mono {action : Action σ α} (h : Built P action)
    (hpq : ∀ ⦃α : Type⦄ (a : Action σ α), P a → Q a) : Built Q action :=
  h.trans fun _ a ha => .base (hpq a ha)

theorem map {action : Action σ α} (h : Built P action) (f : α → β) : Built P (f <$> action) := by
  rw [map_eq_pure_bind]
  exact .bind h fun a => .pure (f a)

/-- A relation between ledgers that every action in `P` respects, that a sweep respects and that
can be chained. A transaction that fails puts back the ledger it began with, so it respects any
such relation. -/
theorem ledger_rel {S : Ledger → Ledger → Prop} (refl : ∀ l, S l l)
    (trans : ∀ {l₁ l₂ l₃}, S l₁ l₂ → S l₂ l₃ → S l₁ l₃)
    (evict : ∀ l timestamp sequence, S l (l.evict timestamp sequence))
    (base : ∀ ⦃α : Type⦄ (a : Action σ α), P a → ∀ host, S host.ledger (a.after host).ledger)
    {action : Action σ α} (h : Built P action) (host : Host σ) :
    S host.ledger (action.after host).ledger := by
  induction h generalizing host with
  | base h => exact base _ h host
  | pure a => exact refl _
  | @bind α β first next _ _ ih₁ ih₂ =>
    have h₁ := ih₁ host
    rcases hr : first.run host with ⟨_ | a, later⟩
    · rw [after_bind_error hr]
      simpa [after, hr] using h₁
    · rw [after_bind_ok hr]
      have hl : S host.ledger later.ledger := by simpa [after, hr] using h₁
      exact trans hl (ih₂ a later)
  | outcome _ ih => exact ih host
  | @transaction α body _ ih =>
    by_cases hd : host.depth = 0
    · have h₁ := ih { host with depth := 1 }
      rcases hr : body.run { host with depth := 1 } with ⟨_ | a, reached⟩
      · rw [after, Host.transaction_error hd hr]
        exact refl _
      · have hl : S host.ledger reached.ledger := by simpa [after, hr] using h₁
        rw [after, Host.transaction_ok hd hr]
        rcases Host.committed_ledger reached with h | h <;> simp only [h]
        · exact hl
        · exact trans hl (evict _ _ _)
    · rw [after, Host.transaction_nested hd]
      exact ih { host with depth := host.depth + 1 }

end Built

-- ---------------------------------------------------------------------------
-- The smallest actions
-- ---------------------------------------------------------------------------

/-- A host in which nothing was stored or published since. -/
structure Still (start reached : Host σ) : Prop where
  ledger : reached.ledger = start.ledger
  writes : reached.writes = start.writes
  events : reached.events = start.events
  depth : reached.depth = start.depth
  evictOnCommit : reached.evictOnCommit = start.evictOnCommit

theorem Still.refl (host : Host σ) : Still host host := ⟨rfl, rfl, rfl, rfl, rfl⟩

theorem Still.trans {first second third : Host σ} (h₁ : Still first second)
    (h₂ : Still second third) : Still first third where
  ledger := h₂.ledger.trans h₁.ledger
  writes := h₂.writes.trans h₁.writes
  events := h₂.events.trans h₁.events
  depth := h₂.depth.trans h₁.depth
  evictOnCommit := h₂.evictOnCommit.trans h₁.evictOnCommit

/-- The failures of an action, wherever it runs, are as they were raised. -/
def Fresh (action : Action σ α) : Prop :=
  ∀ host failure, (action.run host).1 = .error failure → failure.reverted = false

/-- Leaves storage and events alone, wherever it runs, and does not roll anything back. -/
structure Quiet (action : Action σ α) : Prop where
  still : ∀ host, Still host (action.after host)
  fresh : Fresh action

namespace Quiet

theorem ledger {action : Action σ α} (h : Quiet action) {host later : Host σ}
    {result : Except Failure α} (hr : action.run host = (result, later)) :
    later.ledger = host.ledger := by
  have still := h.still host
  rw [after, hr] at still
  exact still.ledger

theorem pure (a : α) : Quiet (Pure.pure a : Action σ α) :=
  ⟨fun _ => .refl _, fun _ _ h => nomatch h⟩

theorem bind {first : Action σ α} {next : α → Action σ β} (h : Quiet first)
    (hn : ∀ a, Quiet (next a)) : Quiet (first >>= next) := by
  constructor
  · intro host
    have h₁ := h.still host
    rcases hr : first.run host with ⟨_ | a, later⟩ <;> simp only [after, hr] at h₁
    · rwa [after_bind_error hr]
    · rw [after_bind_ok hr]
      exact h₁.trans ((hn a).still later)
  · intro host failure hf
    rcases hr : first.run host with ⟨_ | a, later⟩
    · rw [run_bind_error hr] at hf
      cases hf
      exact h.fresh host failure (by rw [hr])
    · rw [run_bind_ok hr] at hf
      exact (hn a).fresh later failure hf

theorem map {action : Action σ α} (h : Quiet action) (f : α → β) : Quiet (f <$> action) := by
  rw [map_eq_pure_bind]
  exact h.bind fun a => .pure (f a)

theorem raise (fault : Fault) : Quiet (Action.raise fault : Action σ α) :=
  ⟨fun _ => .refl _, fun _ _ h => by cases h; rfl⟩

theorem refuse (error : PayrollError) : Quiet (Action.refuse error : Action σ α) := .raise _

theorem read (view : Host σ → α) : Quiet (Action.read view) :=
  ⟨fun _ => .refl _, fun _ _ h => nomatch h⟩

theorem change {f : Host σ → Host σ} (h : ∀ host, Still host (f host)) :
    Quiet (Action.change f) :=
  ⟨h, fun _ _ h => nomatch h⟩

theorem ofExcept (result : Except Fault α) : Quiet (Action.ofExcept result : Action σ α) := by
  cases result with
  | ok a => exact .pure a
  | error fault => exact .raise fault

theorem build (kind : RecordKind) (check : Check α) :
    Quiet (Action.build kind check : Action σ α) := by
  cases check with
  | valid a => exact .pure a
  | invalid faults => exact .raise _

theorem expect (view : Host σ → Option α) (error : PayrollError) :
    Quiet (Action.expect view error) := by
  constructor
  · intro host
    rw [after, run_expect]
    split <;> exact .refl _
  · intro host failure h
    rw [run_expect] at h
    split at h <;> cases h
    rfl

theorem requireAuth (principal : Principal) : Quiet (Host.requireAuth principal : Action σ Unit) := by
  constructor
  · intro host
    simp only [after, run, Host.requireAuth]
    split <;> exact ⟨rfl, rfl, rfl, rfl, rfl⟩
  · intro host failure h
    simp only [run, Host.requireAuth] at h
    split at h <;> cases h
    rfl

end Quiet

/-- The smallest actions that store, publish or leave both alone; `W` says which writes there
are. -/
inductive Basic (W : (Ledger → Ledger) → Prop) : ⦃α : Type⦄ → Action σ α → Prop
  | quiet {α : Type} {action : Action σ α} : Quiet action → Basic W action
  | write {f : Ledger → Ledger} : W f → Basic W (Action.write f)
  | publish (topics data : List Datum) : Basic W (Host.publish topics data)
  | evict : Basic W Host.evictExpired

theorem Basic.mono {W V : (Ledger → Ledger) → Prop} {action : Action σ α} (h : Basic W action)
    (hwv : ∀ f, W f → V f) : Basic V action := by
  cases h with
  | quiet h => exact .quiet h
  | write h => exact .write (hwv _ h)
  | publish topics data => exact .publish topics data
  | evict => exact .evict

theorem Built.quiet {W : (Ledger → Ledger) → Prop} {action : Action σ α} (h : Quiet action) :
    Built (Basic W) action :=
  .base (.quiet h)

/-- A relation between ledgers that every write in `W` and every sweep respects. -/
theorem Built.basic_rel {W : (Ledger → Ledger) → Prop} {S : Ledger → Ledger → Prop}
    (refl : ∀ l, S l l) (trans : ∀ {l₁ l₂ l₃}, S l₁ l₂ → S l₂ l₃ → S l₁ l₃)
    (evict : ∀ l timestamp sequence, S l (l.evict timestamp sequence))
    (write : ∀ f, W f → ∀ l, S l (f l)) {action : Action σ α} (h : Built (Basic W) action)
    (host : Host σ) : S host.ledger (action.after host).ledger := by
  refine h.ledger_rel refl trans evict ?_ host
  intro α a ha host
  cases ha with
  | quiet hq => rw [(hq.still host).ledger]; exact refl _
  | write hw => exact write _ hw _
  | publish topics data => exact refl _
  | evict => exact evict _ _ _

end Action

end SealedPayroll
