import SealedPayroll.Proofs.Host.Mutations
import SealedPayroll.Proofs.Session.Public

/-!
# Blocks inside a transaction

A block is whatever can be put together from public calls and from storing and
removing values of any kind, under the payroll's own keys as well. When a
failure escapes from the outermost transaction around a block, storage and
events are as they were, and the failure says whether anything was discarded.
-/

namespace SealedPayroll

open SealedPayroll.Action (Basic Built Performs)

variable {σ α : Type}

/-- What a block can do in one step. -/
inductive InBlock (d : Deployment σ) : ⦃α : Type⦄ → Action σ α → Prop
  | step {α : Type} {action : Action σ α} : Public d action → InBlock d action
  | write (f : Ledger → Ledger) : InBlock d (Action.write f)

abbrev Block (d : Deployment σ) (action : Action σ α) : Prop := Built (InBlock d) action

section
variable {base d : Deployment σ} {action body : Action σ α} {host later : Host σ}

theorem Block.basic (hd : d.Operational) (h : Block d action) :
    Built (Basic fun _ => True) action := by
  refine h.trans fun α a ha => ?_
  cases ha with
  | step hp =>
    refine (hp.built hd).trans fun α a ho => ?_
    exact ho.footprint.mono fun _ _ hb => hb.mono fun _ _ => trivial
  | write f => exact .base (.write trivial)

theorem Failure.reverted_discarding {wrote : Bool} {failure : Failure}
    (h : failure.reverted = false) :
    (failure.discarding wrote).reverted = true ↔
      (∃ error, failure.fault = .payroll error) ∧ wrote = true := by
  unfold Failure.discarding
  split
  · rename_i error he
    simp [h, he]
  · rename_i hn
    rw [h]
    exact ⟨fun h => (nomatch h), fun ⟨⟨error, he⟩, _⟩ => absurd he (hn error)⟩

/-- When a failure escapes from the outermost transaction around a block, the ledger and the events
are as they were and no transaction is open. The fault is the one that the block ended with; it is
marked iff it is the payroll's own and the block had mutated anything, also in calls whose failures
were caught. Failures caught inside any block are not marked. -/
theorem Block.atomic (hd : Reentrant base d) (hb : Block d body) (h0 : host.depth = 0)
    {failure : Failure} (h : (Host.transaction body).run host = (.error failure, later)) :
    (later.ledger = host.ledger ∧ later.events = host.events ∧ later.inTransaction = false) ∧
      (∃ raised inner, body.run { host with depth := 1 } = (.error raised, inner) ∧
        failure.fault = raised.fault ∧
        (∃ mutations, Performs body { host with depth := 1 } mutations) ∧
        ∀ mutations, Performs body { host with depth := 1 } mutations →
          (failure.reverted = true ↔
            (∃ error, failure.fault = .payroll error) ∧ mutations ≠ [])) ∧
      ∀ ⦃β : Type⦄ (action : Action σ β), Block d action → ∀ start : Host σ, start.depth ≠ 0 →
        ∀ caught, (action.run start).1 = .error caught → caught.reverted = false := by
  have contained {β : Type} {action : Action σ β} (hb : Block d action) {start : Host σ}
      (hs : start.depth ≠ 0) : Action.Contained action start :=
    (hb.basic hd.operational).contained hs
  obtain ⟨⟨hl, he, hd'⟩, raised, inner, hr, hfresh, rfl, counts⟩ :=
    Host.transaction_failed (hb.basic hd.operational) h0 h
  have opened : Host.depth { host with depth := 1 } ≠ 0 := Nat.one_ne_zero
  have listed := (contained hb opened).performs
  have closed : later.inTransaction = false := by simp [Host.inTransaction, hd']
  refine ⟨⟨hl, he, closed⟩, ⟨raised, inner, hr, Failure.fault_discarding _ _, listed, ?_⟩,
    fun β action ha start hs => (contained ha hs).fresh⟩
  intro mutations hp
  rw [Failure.reverted_discarding hfresh, Failure.fault_discarding,
    (counts mutations hp).hasWritten_iff]

end

/-- Stores a value and fails. -/
def Sample.noting : Action Unit Unit := do
  Action.write fun l => l.putForeign "notes" (.int 0) .null
  Action.raise (.interrupted "boom")

/-- Stores a value in a transaction of its own, catches its failure, and fails. -/
def Sample.swallowing : Action Unit Unit := do
  let _ ← (Host.transaction noting).outcome
  Action.refuse (.invalidAmount 0)

theorem Sample.swallowing_marked :
    ∃ failure later, (Host.transaction swallowing).run host = (.error failure, later) ∧
      later.ledger = host.ledger ∧ later.events = host.events ∧ failure.reverted = true := by
  have block : Block deployment swallowing :=
    .bind (.outcome (.transaction (.bind (.base (.write _)) fun _ =>
      .base (.step (.raise _))))) fun _ => .base (.step (.raise _))
  have failed : (Host.transaction swallowing).run host =
      (.error ⟨.payroll (.invalidAmount 0), true⟩, (Host.transaction swallowing).after host) := rfl
  have inner : Performs noting { host with depth := 2 } ([.stored] ++ []) :=
    .bind (by rfl) (.stored _ _) (.quiet (.raise _))
  have outer : Performs swallowing { host with depth := 1 } ([.stored] ++ []) :=
    .bind (by rfl) (.outcome (.nested Nat.one_ne_zero inner)) (.quiet (.refuse _))
  obtain ⟨⟨hl, he, -⟩, ⟨-, -, -, -, -, marked⟩, -⟩ := Block.atomic reentrant block rfl failed
  exact ⟨_, _, failed, hl, he, (marked [.stored] outer).mpr ⟨⟨.invalidAmount 0, rfl⟩, by simp⟩⟩

end SealedPayroll
