import SealedPayroll.Proofs.Host.Built

/-!
# Histories

What a run did, as a list of events. Given what single actions tell, whatever
is put together from them has a history (`Chronicle`), and so has a run that
ends inside a transaction (`Recounts`). A failure that escapes the outermost
transaction takes back what was told inside it; a failure that is caught, or
that escapes a nested transaction, takes back nothing. An invariant may speak
of the ledger and of the history that led to it.
-/

namespace SealedPayroll

open SealedPayroll.Action (Built)

variable {σ ε α : Type}

namespace Action

/-- What actions tell when they run in a host. -/
abbrev Telling (σ ε : Type) := ⦃α : Type⦄ → Action σ α → Host σ → List ε → Prop

variable {told : Telling σ ε} {P : ⦃α : Type⦄ → Action σ α → Prop}

/-- The history of an action that runs in a host. -/
inductive Chronicle (told : Telling σ ε) : ⦃α : Type⦄ → Action σ α → Host σ → List ε → Prop
  | step {α : Type} {action : Action σ α} {host : Host σ} {events : List ε} :
      told action host events → Chronicle told action host events
  | pure {α : Type} (a : α) (host : Host σ) : Chronicle told (Pure.pure a) host []
  | bind {α β : Type} {first : Action σ α} {next : α → Action σ β} {host later : Host σ} {a : α}
      {before after : List ε} :
      first.run host = (.ok a, later) → Chronicle told first host before →
      Chronicle told (next a) later after → Chronicle told (first >>= next) host (before ++ after)
  | halted {α β : Type} {first : Action σ α} {next : α → Action σ β} {host later : Host σ}
      {failure : Failure} {before : List ε} :
      first.run host = (.error failure, later) → Chronicle told first host before →
      Chronicle told (first >>= next) host before
  | outcome {α : Type} {action : Action σ α} {host : Host σ} {events : List ε} :
      Chronicle told action host events → Chronicle told action.outcome host events
  | nested {α : Type} {body : Action σ α} {host : Host σ} {events : List ε} :
      host.depth ≠ 0 → Chronicle told body { host with depth := host.depth + 1 } events →
      Chronicle told (Host.transaction body) host events
  | committed {α : Type} {body : Action σ α} {host reached : Host σ} {a : α} {events : List ε} :
      host.depth = 0 → body.run { host with depth := 1 } = (.ok a, reached) →
      Chronicle told body { host with depth := 1 } events →
      Chronicle told (Host.transaction body) host events
  | rolledBack {α : Type} {body : Action σ α} {host reached : Host σ} {failure : Failure} :
      host.depth = 0 → body.run { host with depth := 1 } = (.error failure, reached) →
      Chronicle told (Host.transaction body) host []

/-- If every step tells something, then so does whatever is made of them. -/
theorem Built.chronicle (tells : ∀ ⦃α : Type⦄ (a : Action σ α), P a → ∀ host, ∃ events,
    told a host events) {action : Action σ α} (h : Built P action) (host : Host σ) :
    ∃ events, Chronicle told action host events := by
  induction h generalizing host with
  | base ha =>
    obtain ⟨events, he⟩ := tells _ ha host
    exact ⟨events, .step he⟩
  | pure a => exact ⟨[], .pure a host⟩
  | @bind _ _ first _ _ _ ih₁ ih₂ =>
    obtain ⟨before, hb⟩ := ih₁ host
    rcases hr : first.run host with ⟨failure | a, later⟩
    · exact ⟨before, .halted hr hb⟩
    · obtain ⟨after, ha⟩ := ih₂ a later
      exact ⟨before ++ after, .bind hr hb ha⟩
  | outcome _ ih =>
    obtain ⟨events, he⟩ := ih host
    exact ⟨events, .outcome he⟩
  | @transaction _ body _ ih =>
    by_cases hd : host.depth = 0
    · obtain ⟨events, he⟩ := ih { host with depth := 1 }
      rcases hr : body.run { host with depth := 1 } with ⟨failure | a, reached⟩
      · exact ⟨[], .rolledBack hd hr⟩
      · exact ⟨events, .committed hd hr he⟩
    · obtain ⟨events, he⟩ := ih { host with depth := host.depth + 1 }
      exact ⟨events, .nested hd he⟩

/-- What holds of a ledger and the history that led to it, whatever is told next. -/
structure Telling.Bears (told : Telling σ ε) (I : List ε → Ledger → Prop) : Prop where
  step : ∀ {α : Type} {action : Action σ α} {host : Host σ} {past events : List ε},
    told action host events → I past host.ledger → I (past ++ events) (action.after host).ledger
  evict : ∀ {past : List ε} {l : Ledger} (timestamp sequence : Int),
    I past l → I past (l.evict timestamp sequence)

theorem Chronicle.bears {I : List ε → Ledger → Prop} (hI : told.Bears I) {action : Action σ α}
    {host : Host σ} {events past : List ε} (h : Chronicle told action host events)
    (hi : I past host.ledger) : I (past ++ events) (action.after host).ledger := by
  induction h generalizing past with
  | step ht => exact hI.step ht hi
  | pure =>
    rw [List.append_nil]
    exact hi
  | bind hr _ _ ih₁ ih₂ =>
    have between := ih₁ hi
    rw [after, hr] at between
    rw [after_bind_ok hr, ← List.append_assoc]
    exact ih₂ between
  | halted hr _ ih =>
    have between := ih hi
    rw [after, hr] at between
    rwa [after_bind_error hr]
  | outcome _ ih => exact ih hi
  | nested hd _ ih =>
    rw [after, Host.transaction_nested hd]
    exact ih hi
  | @committed _ _ _ reached _ _ hd hr _ ih =>
    have inside := ih hi
    rw [after, hr] at inside
    rw [after, Host.transaction_ok hd hr]
    rcases Host.committed_ledger reached with hl | hl <;> rw [hl]
    · exact inside
    · exact hI.evict _ _ inside
  | rolledBack hd hr =>
    rw [after, Host.transaction_error hd hr, List.append_nil]
    exact hi

end Action

-- ---------------------------------------------------------------------------
-- Runs that end anywhere
-- ---------------------------------------------------------------------------

open SealedPayroll.Action (Telling Chronicle)

/-- One host is reached from another by actions made of those in `P`, with transactions opened on
the way and not closed again. -/
inductive Leads (P : ⦃α : Type⦄ → Action σ α → Prop) : Host σ → Host σ → Prop
  | here (host : Host σ) : Leads P host host
  | ran {α : Type} {action : Action σ α} {host reached : Host σ} :
      Built P action → Leads P (action.after host) reached → Leads P host reached
  | opened {host reached : Host σ} :
      Leads P { host with depth := host.depth + 1 } reached → Leads P host reached

/-- One host is reached from another, and this is what was told on the way. -/
inductive Recounts (told : Telling σ ε) : Host σ → List ε → Host σ → Prop
  | here (host : Host σ) : Recounts told host [] host
  | ran {α : Type} {action : Action σ α} {host reached : Host σ} {before after : List ε} :
      Chronicle told action host before → Recounts told (action.after host) after reached →
      Recounts told host (before ++ after) reached
  | opened {host reached : Host σ} {events : List ε} :
      Recounts told { host with depth := host.depth + 1 } events reached →
      Recounts told host events reached

variable {told : Telling σ ε} {P : ⦃α : Type⦄ → Action σ α → Prop} {host between reached : Host σ}

theorem Leads.trans (h₁ : Leads P host between) (h₂ : Leads P between reached) :
    Leads P host reached := by
  induction h₁ with
  | here => exact h₂
  | ran ha _ ih => exact .ran ha (ih h₂)
  | opened _ ih => exact .opened (ih h₂)

/-- Running an action leads on. -/
theorem Leads.run {action : Action σ α} (h : Built P action) {result : Except Failure α}
    (hr : action.run host = (result, reached)) : Leads P host reached := by
  have led : Leads P host (action.after host) := .ran h (.here _)
  rwa [Action.after, hr] at led

theorem Leads.recounts (tells : ∀ ⦃α : Type⦄ (a : Action σ α), P a → ∀ host, ∃ events,
    told a host events) (h : Leads P host reached) :
    ∃ events, Recounts told host events reached := by
  induction h with
  | here host => exact ⟨[], .here host⟩
  | ran ha _ ih =>
    obtain ⟨before, hb⟩ := ha.chronicle tells _
    obtain ⟨after, he⟩ := ih
    exact ⟨before ++ after, .ran hb he⟩
  | opened _ ih =>
    obtain ⟨events, he⟩ := ih
    exact ⟨events, .opened he⟩

theorem Recounts.bears {I : List ε → Ledger → Prop} (hI : told.Bears I) {events past : List ε}
    (h : Recounts told host events reached) (hi : I past host.ledger) :
    I (past ++ events) reached.ledger := by
  induction h generalizing past with
  | here => simpa using hi
  | ran hc _ ih =>
    rw [← List.append_assoc]
    exact ih (hc.bears hI hi)
  | opened _ ih => exact ih hi

end SealedPayroll
