import SealedPayroll.Proofs.Host.Built

/-!
# Failures that do not occur, or come early

An action is spared some refusals if it ends in none of them, wherever it
runs. It fails early if it has stored and published nothing by the time it
fails: it is made of steps that leave the host alone, followed by steps that
are spared the failure. Every way of making an action has a rule for either.
-/

namespace SealedPayroll

variable {σ α β : Type} {bad : PayrollError → Bool}

/-- A fault that is a refusal of some kind. -/
def Fault.refuses (bad : PayrollError → Bool) : Fault → Bool
  | .payroll error => bad error
  | _ => false

/-- A computation that fails with no refusal of some kind. -/
def Detached (bad : PayrollError → Bool) (result : Except Fault α) : Prop :=
  ∀ fault, result = .error fault → fault.refuses bad = false

namespace Detached

theorem ok (a : α) : Detached bad (.ok a) := fun _ h => nomatch h

theorem error {fault : Fault} (hf : fault.refuses bad = false) :
    Detached bad (.error fault : Except Fault α) := by
  rintro _ ⟨⟩
  exact hf

theorem bind {result : Except Fault α} {next : α → Except Fault β} (hr : Detached bad result)
    (hn : ∀ a, Detached bad (next a)) : Detached bad (result >>= next) := by
  intro fault h
  cases result with
  | error raised =>
    cases h
    exact hr fault rfl
  | ok a => exact hn a fault h

theorem map {result : Except Fault α} (hr : Detached bad result) (f : α → β) :
    Detached bad (result.map f) := by
  intro fault h
  cases result with
  | error raised =>
    cases h
    exact hr fault rfl
  | ok a => cases h

end Detached

theorem Bytes.encodeBigEndian_detached (width : Nat) (n : Int) :
    Detached bad (Bytes.encodeBigEndian width n) := by
  unfold Bytes.encodeBigEndian
  split
  · split
    · exact .ok _
    · exact .error rfl
  · exact .error rfl

/-- A missing signature is refused as such. -/
theorem Host.requireAuth_refused {principal : Principal} {host later : Host σ} {failure : Failure}
    (h : (requireAuth principal).run host = (.error failure, later)) :
    host.authority.allows principal = false ∧
      ∃ denial, failure.fault = .payroll (.unauthorized principal denial) := by
  simp only [Action.run, requireAuth, Authority.require] at h
  by_cases he : principal = ""
  · simp only [he, if_true, Prod.mk.injEq, Except.error.injEq] at h
    exact ⟨by simp [Authority.allows, he], .emptyPrincipal, by rw [← h.1, he]; rfl⟩
  · cases ha : host.authority.allows principal with
    | true => simp [he, ha] at h
    | false =>
      simp only [he, if_false, ha, Bool.false_eq_true, Prod.mk.injEq, Except.error.injEq] at h
      exact ⟨rfl, .unsigned, by rw [← h.1]; rfl⟩

namespace Action

/-- An answer that is made into another one does not change when there is none. -/
theorem map_eq_error {action : Action σ α} {f : α → β} {host later : Host σ} {failure : Failure} :
    (f <$> action).run host = (.error failure, later) ↔
      action.run host = (.error failure, later) := by
  rw [map_eq_pure_bind]
  rcases hr : action.run host with ⟨raised | a, between⟩
  · rw [run_bind_error hr]
    simp
  · rw [run_bind_ok hr]
    simp

/-- A sequence fails in its first part, or in what comes after that has answered. -/
theorem bind_eq_error {first : Action σ α} {next : α → Action σ β} {host later : Host σ}
    {failure : Failure} :
    (first >>= next).run host = (.error failure, later) ↔
      first.run host = (.error failure, later) ∨
        ∃ a between, first.run host = (.ok a, between) ∧
          (next a).run between = (.error failure, later) := by
  rcases hr : first.run host with ⟨raised | a, between⟩
  · rw [run_bind_error hr]
    simp
  · rw [run_bind_ok hr]
    constructor
    · exact fun h => .inr ⟨a, between, rfl, h⟩
    · rintro (h | ⟨_, _, h, hn⟩) <;> cases h
      exact hn

-- ---------------------------------------------------------------------------
-- No failures at all
-- ---------------------------------------------------------------------------

/-- Answers, wherever it runs. -/
def Unfailing (action : Action σ α) : Prop :=
  ∀ host failure later, action.run host ≠ (.error failure, later)

namespace Unfailing

theorem pure (a : α) : Unfailing (Pure.pure a : Action σ α) := fun _ _ _ h => nomatch h

theorem read (view : Host σ → α) : Unfailing (Action.read view) := fun _ _ _ h => nomatch h

theorem write (f : Ledger → Ledger) : Unfailing (Action.write f : Action σ Unit) :=
  fun _ _ _ h => nomatch h

theorem build (kind : RecordKind) (a : α) :
    Unfailing (Action.build kind (.valid a) : Action σ α) :=
  fun _ _ _ h => nomatch h

theorem bind {first : Action σ α} {next : α → Action σ β} (hf : Unfailing first)
    (hn : ∀ a, Unfailing (next a)) : Unfailing (first >>= next) := by
  intro host failure later h
  rcases bind_eq_error.mp h with hr | ⟨a, between, -, hr⟩
  · exact hf _ _ _ hr
  · exact hn a _ _ _ hr

theorem transaction {body : Action σ α} (hb : Unfailing body) :
    Unfailing (Host.transaction body) := by
  intro host failure later h
  obtain ⟨raised, inner, hr, -⟩ := Host.of_transaction_error h
  exact hb _ _ _ hr

end Unfailing

-- ---------------------------------------------------------------------------
-- No refusals of some kind
-- ---------------------------------------------------------------------------

/-- Fails with no refusal of some kind, wherever it runs. -/
def Spared (bad : PayrollError → Bool) (action : Action σ α) : Prop :=
  ∀ host failure later, action.run host = (.error failure, later) →
    failure.fault.refuses bad = false

namespace Spared

theorem pure (a : α) : Spared bad (Pure.pure a : Action σ α) := fun _ _ _ h => nomatch h

theorem read (view : Host σ → α) : Spared bad (Action.read view) := fun _ _ _ h => nomatch h

theorem change (f : Host σ → Host σ) : Spared bad (Action.change f) := fun _ _ _ h => nomatch h

theorem write (f : Ledger → Ledger) : Spared bad (Action.write f : Action σ Unit) := change _

theorem raise {fault : Fault} (hf : fault.refuses bad = false) :
    Spared bad (Action.raise fault : Action σ α) := by
  intro host failure later h
  cases h
  exact hf

theorem refuse {error : PayrollError} (he : bad error = false) :
    Spared bad (Action.refuse error : Action σ α) :=
  raise he

theorem ofExcept {result : Except Fault α} (hr : Detached bad result) :
    Spared bad (Action.ofExcept result : Action σ α) := by
  cases result with
  | ok a => exact pure a
  | error fault => exact raise (hr fault rfl)

theorem build (kind : RecordKind) (check : Check α) :
    Spared bad (Action.build kind check : Action σ α) := by
  cases check with
  | valid a => exact pure a
  | invalid faults => exact raise rfl

theorem expect (view : Host σ → Option α) {error : PayrollError} (he : bad error = false) :
    Spared bad (Action.expect view error) := by
  intro host failure later h
  rw [run_expect] at h
  split at h <;> cases h
  exact he

theorem requireAuth (principal : Principal)
    (he : ∀ denial, bad (.unauthorized principal denial) = false) :
    Spared bad (Host.requireAuth principal : Action σ Unit) := by
  intro host failure later h
  obtain ⟨-, denial, hf⟩ := Host.requireAuth_refused h
  rw [hf]
  exact he denial

theorem bind {first : Action σ α} {next : α → Action σ β} (hf : Spared bad first)
    (hn : ∀ a, Spared bad (next a)) : Spared bad (first >>= next) := by
  intro host failure later h
  rcases hr : first.run host with ⟨raised | a, between⟩
  · rw [run_bind_error hr] at h
    cases h
    exact hf _ _ _ hr
  · rw [run_bind_ok hr] at h
    exact hn a _ _ _ h

theorem transaction {body : Action σ α} (hb : Spared bad body) :
    Spared bad (Host.transaction body) := by
  intro host failure later h
  obtain ⟨raised, inner, hr, he, -⟩ := Host.of_transaction_error h
  rw [← he]
  exact hb _ _ _ hr

end Spared

-- ---------------------------------------------------------------------------
-- Early failures
-- ---------------------------------------------------------------------------

/-- Fails with some faults only before it has stored or published anything, wherever it runs; the
failure is then not marked. -/
def FailsEarly (bad : Fault → Bool) (action : Action σ α) : Prop :=
  ∀ host failure later, action.run host = (.error failure, later) → bad failure.fault = true →
    Still host later ∧ failure.reverted = false

namespace FailsEarly

variable {bad : Fault → Bool}

theorem spared {some : PayrollError → Bool} {action : Action σ α} (h : Spared some action) :
    FailsEarly (Fault.refuses some) action := by
  intro host failure later hr hv
  rw [h _ _ _ hr] at hv
  cases hv

theorem quiet {action : Action σ α} (h : Quiet action) : FailsEarly bad action := by
  intro host failure later hr _
  refine ⟨?_, h.fresh host failure (by rw [hr])⟩
  have still := h.still host
  rwa [after, hr] at still

theorem never {action : Action σ α} (h : Unfailing action) : FailsEarly bad action :=
  fun _ _ _ hr => absurd hr (h _ _ _)

/-- An action that fails early on all grounds has left the ledger alone when it fails. -/
theorem ledger {action : Action σ α} (h : FailsEarly (fun _ => true) action) {host later : Host σ}
    {failure : Failure} (hr : action.run host = (.error failure, later)) :
    later.ledger = host.ledger :=
  (h _ _ _ hr rfl).1.ledger

/-- What holds of the ledger before and after every answer holds afterwards. -/
theorem holds_after {action : Action σ α} (h : FailsEarly (fun _ => true) action) {host : Host σ}
    {I : Ledger → Prop} (before : I host.ledger)
    (answered : ∀ a later, action.run host = (.ok a, later) → I later.ledger) :
    I (action.after host).ledger := by
  rcases hr : action.run host with ⟨failure | a, later⟩ <;> rw [after, hr]
  · rwa [h.ledger hr]
  · exact answered a later hr

/-- What leaves the host alone may come before. -/
theorem bind {first : Action σ α} {next : α → Action σ β} (hf : Quiet first)
    (hn : ∀ a, FailsEarly bad (next a)) : FailsEarly bad (first >>= next) := by
  intro host failure later h hv
  rcases hr : first.run host with ⟨raised | a, between⟩
  · rw [run_bind_error hr] at h
    cases h
    exact quiet hf _ _ _ hr hv
  · rw [run_bind_ok hr] at h
    obtain ⟨still, fresh⟩ := hn a _ _ _ h hv
    have before := hf.still host
    rw [after, hr] at before
    exact ⟨before.trans still, fresh⟩

theorem map {action : Action σ α} (h : FailsEarly bad action) (f : α → β) :
    FailsEarly bad (f <$> action) :=
  fun host failure later hr hv => h host failure later (map_eq_error.mp hr) hv

theorem transaction {body : Action σ α} (hb : FailsEarly bad body) :
    FailsEarly bad (Host.transaction body) := by
  intro host failure later h hv
  by_cases hd : host.depth = 0
  · rcases hr : body.run { host with depth := 1 } with ⟨raised | a, inner⟩
    · rw [Host.transaction_error hd hr] at h
      cases h
      rw [Failure.fault_discarding] at hv
      obtain ⟨still, fresh⟩ := hb _ _ _ hr hv
      have kept : Host.hasWritten host inner = false := by
        simp [Host.hasWritten, still.writes, still.events]
      refine ⟨⟨rfl, still.writes, ?_, hd.symm, still.evictOnCommit⟩, ?_⟩
      · simp [Host.rolledBack, still.events]
      · unfold Failure.discarding
        split <;> simp [fresh, kept]
    · rw [Host.transaction_ok hd hr] at h
      cases h
  · rcases hr : body.run { host with depth := host.depth + 1 } with ⟨raised | a, inner⟩ <;>
      rw [Host.transaction_nested hd, hr] at h <;> cases h
    obtain ⟨still, fresh⟩ := hb _ _ _ hr hv
    refine ⟨⟨still.ledger, still.writes, still.events, ?_, still.evictOnCommit⟩, fresh⟩
    simp [still.depth]

end FailsEarly

end Action

end SealedPayroll
