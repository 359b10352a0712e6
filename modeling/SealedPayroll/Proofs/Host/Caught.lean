import SealedPayroll.Proofs.Host.Answers
import SealedPayroll.Proofs.Host.History
import SealedPayroll.Proofs.Host.Published

/-!
# Failures that are caught outside of transactions

A failure that is caught inside a transaction leaves behind whatever was done
before it, and a later commit keeps that. Where failures are caught outside of
transactions only, every call either answers or is taken back, together with
all else in its transaction. What single calls keep when they answer, and leave
as it was when they fail by themselves, then holds of the whole run
(`CaughtOutside.accounted`).
-/

namespace SealedPayroll

open SealedPayroll.Action (Basic Built Chronicle Telling)

variable {σ ε α : Type}

namespace Action

variable {P : ⦃α : Type⦄ → Action σ α → Prop} {W : (Ledger → Ledger) → Prop}

/-- Actions that are put together from those in `P` and let every failure through. -/
inductive Uncaught (P : ⦃α : Type⦄ → Action σ α → Prop) : ⦃α : Type⦄ → Action σ α → Prop
  | base {α : Type} {action : Action σ α} : P action → Uncaught P action
  | pure {α : Type} (a : α) : Uncaught P (Pure.pure a)
  | bind {α β : Type} {first : Action σ α} {next : α → Action σ β} :
      Uncaught P first → (∀ a, Uncaught P (next a)) → Uncaught P (first >>= next)
  | transaction {α : Type} {body : Action σ α} :
      Uncaught P body → Uncaught P (Host.transaction body)

/-- Actions that are put together from those in `P` and let every failure through that occurs
inside a transaction of theirs. -/
inductive CaughtOutside (P : ⦃α : Type⦄ → Action σ α → Prop) : ⦃α : Type⦄ → Action σ α → Prop
  | base {α : Type} {action : Action σ α} : P action → CaughtOutside P action
  | pure {α : Type} (a : α) : CaughtOutside P (Pure.pure a)
  | bind {α β : Type} {first : Action σ α} {next : α → Action σ β} :
      CaughtOutside P first → (∀ a, CaughtOutside P (next a)) → CaughtOutside P (first >>= next)
  | outcome {α : Type} {action : Action σ α} :
      CaughtOutside P action → CaughtOutside P action.outcome
  | transaction {α : Type} {body : Action σ α} :
      Uncaught P body → CaughtOutside P (Host.transaction body)

theorem Uncaught.built {action : Action σ α} (h : Uncaught P action) : Built P action := by
  induction h with
  | base ha => exact .base ha
  | pure a => exact .pure a
  | bind _ _ ih₁ ih₂ => exact .bind ih₁ ih₂
  | transaction _ ih => exact .transaction ih

theorem CaughtOutside.built {action : Action σ α} (h : CaughtOutside P action) :
    Built P action := by
  induction h with
  | base ha => exact .base ha
  | pure a => exact .pure a
  | bind _ _ ih₁ ih₂ => exact .bind ih₁ ih₂
  | outcome _ ih => exact .outcome ih
  | transaction hb => exact .transaction hb.built

/-- As many transactions are open afterwards as before. -/
theorem Built.depth {action : Action σ α} (h : Built (Basic W) action) (host : Host σ) :
    (action.after host).depth = host.depth := by
  induction h generalizing host with
  | base h =>
    cases h with
    | quiet hq => exact (hq.still host).depth
    | _ => rfl
  | pure => rfl
  | @bind _ _ first _ _ _ ih₁ ih₂ =>
    have before := ih₁ host
    rcases hr : first.run host with ⟨failure | a, later⟩ <;> rw [after, hr] at before
    · rwa [after_bind_error hr]
    · rw [after_bind_ok hr, ih₂ a later, before]
  | outcome _ ih => exact ih host
  | @transaction _ body _ ih =>
    by_cases hd : host.depth = 0
    · rcases hr : body.run { host with depth := 1 } with ⟨failure | a, reached⟩
      · rw [after, Host.transaction_error hd hr]
        exact hd.symm
      · rw [after, Host.transaction_ok hd hr, hd, Host.committed]
        split <;> rfl
    · rw [after, Host.transaction_nested hd]
      exact (congrArg (· - 1) (ih { host with depth := host.depth + 1 })).trans
        (Nat.add_sub_cancel _ _)

-- ---------------------------------------------------------------------------
-- Histories that account for ledger and events
-- ---------------------------------------------------------------------------

/-- What is told of steps in `P` accounts for the ledger and the events together, whatever is told
next. Nothing is asked of a step that fails inside a transaction. -/
structure Telling.Accounts (told : Telling σ ε) (P : ⦃α : Type⦄ → Action σ α → Prop)
    (I : List ε → Ledger → List Event → Prop) : Prop where
  answered : ∀ {α : Type} {action : Action σ α} {host later : Host σ} {a : α} {past : List ε},
    P action → action.run host = (.ok a, later) → I past host.ledger host.events →
      ∃ more, told action host more ∧ I (past ++ more) later.ledger later.events
  failed : ∀ {α : Type} {action : Action σ α} {host later : Host σ} {failure : Failure}
    {past : List ε}, P action → host.depth = 0 → action.run host = (.error failure, later) →
      I past host.ledger host.events →
        ∃ more, told action host more ∧ I (past ++ more) later.ledger later.events
  evict : ∀ {past : List ε} {l : Ledger} {events : List Event} (timestamp sequence : Int),
    I past l events → I past (l.evict timestamp sequence) events

variable {told : Telling σ ε} {I : List ε → Ledger → List Event → Prop} {action : Action σ α}
  {host later : Host σ} {past : List ε}

/-- What lets its failures through is accounted for when it answers, also inside a transaction. -/
theorem Uncaught.accounted (hI : told.Accounts P I) (h : Uncaught P action) {a : α}
    (hr : action.run host = (.ok a, later)) (hi : I past host.ledger host.events) :
    ∃ more, Chronicle told action host more ∧ I (past ++ more) later.ledger later.events := by
  induction h generalizing host later past with
  | base ha =>
    obtain ⟨more, ht, kept⟩ := hI.answered ha hr hi
    exact ⟨more, .step ht, kept⟩
  | pure b =>
    obtain ⟨-, rfl⟩ := pure_eq_ok.mp hr
    exact ⟨[], .pure b host, by rwa [List.append_nil]⟩
  | bind _ _ ih₁ ih₂ =>
    obtain ⟨b, between, h₁, h₂⟩ := bind_eq_ok.mp hr
    obtain ⟨before, first, kept⟩ := ih₁ h₁ hi
    obtain ⟨after, next, kept⟩ := ih₂ b h₂ kept
    exact ⟨before ++ after, .bind h₁ first next, by rwa [← List.append_assoc]⟩
  | transaction _ ih =>
    obtain ⟨inner, h₁, -, swept⟩ := Host.of_transaction_ok hr
    obtain ⟨more, inside, kept⟩ := ih h₁ (by exact hi)
    refine ⟨more, ?_, ?_⟩
    · by_cases hd : host.depth = 0
      · simp only [hd, Nat.zero_add] at h₁ inside
        exact .committed hd h₁ inside
      · exact .nested hd inside
    · rw [Host.transaction_events hr h₁]
      exact Ledger.Swept.imp (I := fun l => I (past ++ more) l inner.events) swept
        (hI.evict _ _) kept

/-- Outside of a transaction, what catches its failures outside of transactions is accounted for,
however it ends. -/
theorem CaughtOutside.accounted (hI : told.Accounts P I)
    (hp : ∀ ⦃α : Type⦄ (a : Action σ α), P a → Built (Basic W) a) (h : CaughtOutside P action)
    (h0 : host.depth = 0) (hi : I past host.ledger host.events) :
    ∃ more, Chronicle told action host more ∧
      I (past ++ more) (action.after host).ledger (action.after host).events := by
  induction h generalizing host past with
  | @base _ action ha =>
    rcases hr : action.run host with ⟨failure | a, later⟩ <;> rw [after, hr]
    · obtain ⟨more, ht, kept⟩ := hI.failed ha h0 hr hi
      exact ⟨more, .step ht, kept⟩
    · obtain ⟨more, ht, kept⟩ := hI.answered ha hr hi
      exact ⟨more, .step ht, kept⟩
  | pure a => exact ⟨[], .pure a host, by rwa [List.append_nil]⟩
  | @bind _ _ first _ hf _ ih₁ ih₂ =>
    obtain ⟨before, told₁, kept⟩ := ih₁ h0 hi
    have closed := (hf.built.trans hp).depth host
    rcases hr : first.run host with ⟨failure | a, later⟩ <;> rw [after, hr] at kept closed
    · rw [after_bind_error hr]
      exact ⟨before, .halted hr told₁, kept⟩
    · obtain ⟨after, told₂, kept⟩ := ih₂ a (closed.trans h0) kept
      rw [after_bind_ok hr]
      exact ⟨before ++ after, .bind hr told₁ told₂, by rwa [← List.append_assoc]⟩
  | outcome _ ih =>
    obtain ⟨more, ht, kept⟩ := ih h0 hi
    exact ⟨more, .outcome ht, kept⟩
  | @transaction _ body hb =>
    rcases hr : body.run { host with depth := 1 } with ⟨failure | a, reached⟩
    · -- all is taken back, and with it what the body may have left half done
      have added := Built.events_prefix (hb.built.trans hp) { host with depth := 1 }
      rw [after, hr] at added
      have back : (Host.rolledBack host reached).events = host.events :=
        Host.rolledBack_events added
      refine ⟨[], .rolledBack h0 hr, ?_⟩
      rw [after, Host.transaction_error h0 hr, List.append_nil, back]
      exact hi
    · have answers := Host.transaction_ok h0 hr
      obtain ⟨more, ht, kept⟩ := (Uncaught.transaction hb).accounted hI answers hi
      rw [after, answers]
      exact ⟨more, ht, kept⟩

end Action

end SealedPayroll
