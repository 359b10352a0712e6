import SealedPayroll.Proofs.Audit.Issue
import SealedPayroll.Proofs.Session.Public

/-!
# What a run does to keys

The history of a run, as far as keys are concerned: which keys were issued and
revoked, and what the clock showed in between. `KeyRun` reads it off the run
itself. A transaction that is rolled back takes its keys and revocations out of
the history but not its clock readings, since the clock is not put back. Every
run of public calls has such a history (`Course.keyRun`).
-/

namespace SealedPayroll

open SealedPayroll.Action (Basic Built Footprint)

variable {σ α : Type}

-- ---------------------------------------------------------------------------
-- Courses of calls
-- ---------------------------------------------------------------------------

/-- What can be put together from public calls, those of the callbacks of a deployment included. A
course may end inside a callback, which a program cannot. -/
abbrev Course (base : Deployment σ) (action : Action σ α) : Prop :=
  Built (fun _ a => ∃ d, Reentrant base d ∧ Public d a) action

theorem Program.course {base d : Deployment σ} (hd : Reentrant base d) {action : Action σ α}
    (h : Program d action) : Course base action :=
  h.mono fun _ _ ha => ⟨d, hd, ha⟩

theorem Course.built {base : Deployment σ} {action : Action σ α} (h : Course base action) :
    Built Operation action :=
  h.trans fun _ _ ⟨_, hd, ha⟩ => ha.built hd.operational

-- ---------------------------------------------------------------------------
-- Histories
-- ---------------------------------------------------------------------------

/-- What the history of a key is made of. -/
inductive KeyEvent where
  | issued (key : ViewKey)
  | revoked (id : String)
  | reached (clock : Clock)

namespace KeyEvent

def reading? : KeyEvent → Option Clock
  | reached clock => some clock
  | _ => none

/-- The clock readings in a history. -/
def readings (events : List KeyEvent) : List Clock := events.filterMap reading?

/-- What is left of a history when everything else was taken back. -/
def clockOnly (events : List KeyEvent) : List KeyEvent := (readings events).map reached

@[simp] theorem readings_append (before after : List KeyEvent) :
    readings (before ++ after) = readings before ++ readings after :=
  List.filterMap_append

@[simp] theorem readings_clockOnly (events : List KeyEvent) :
    readings (clockOnly events) = readings events := by
  simp [readings, clockOnly, List.filterMap_map, Function.comp_def, reading?]

@[simp] theorem revoked_notMem_clockOnly (id : String) (events : List KeyEvent) :
    revoked id ∉ clockOnly events := by
  simp [clockOnly]

end KeyEvent

namespace Action

/-- What every course is made of: the smallest actions that leave the keyring alone, and whole
issues and revocations. -/
inductive KeyStep : ⦃α : Type⦄ → Action σ α → Prop
  | besides {α : Type} {action : Action σ α} :
      Basic (Ledger.WriteTo besidesKeyring) action → KeyStep action
  | issue (d : Deployment σ) (request : ViewKeys.Request) : KeyStep (ViewKeys.issue d request)
  | revoke (admin : Principal) (id : String) : KeyStep (ViewKeys.revoke admin id)

/-- An action that runs in a host has a history. -/
inductive KeyRun : {α : Type} → Action σ α → Host σ → List KeyEvent → Prop
  | besides {α : Type} {action : Action σ α} {host : Host σ} :
      Basic (Ledger.WriteTo besidesKeyring) action →
      KeyRun action host [.reached (action.after host).clock]
  | issued {d : Deployment σ} {request : ViewKeys.Request} {host later : Host σ} {key : ViewKey} :
      (ViewKeys.issue d request).run host = (.ok key, later) →
      KeyRun (ViewKeys.issue d request) host [.issued key]
  | unissued {d : Deployment σ} {request : ViewKeys.Request} {host later : Host σ}
      {failure : Failure} :
      (ViewKeys.issue d request).run host = (.error failure, later) →
      KeyRun (ViewKeys.issue d request) host [.reached later.clock]
  | revoked {admin : Principal} {id : String} {host later : Host σ} :
      (ViewKeys.revoke admin id).run host = (.ok (), later) →
      KeyRun (ViewKeys.revoke admin id) host [.revoked id]
  | unrevoked {admin : Principal} {id : String} {host later : Host σ} {failure : Failure} :
      (ViewKeys.revoke admin id).run host = (.error failure, later) →
      KeyRun (ViewKeys.revoke admin id) host [.reached later.clock]
  | pure {α : Type} (a : α) (host : Host σ) : KeyRun (Pure.pure a) host []
  | bind {α β : Type} {first : Action σ α} {next : α → Action σ β} {host later : Host σ} {a : α}
      {before after : List KeyEvent} :
      first.run host = (.ok a, later) → KeyRun first host before →
      KeyRun (next a) later after → KeyRun (first >>= next) host (before ++ after)
  | halted {α β : Type} {first : Action σ α} {next : α → Action σ β} {host later : Host σ}
      {failure : Failure} {before : List KeyEvent} :
      first.run host = (.error failure, later) → KeyRun first host before →
      KeyRun (first >>= next) host before
  | outcome {α : Type} {action : Action σ α} {host : Host σ} {events : List KeyEvent} :
      KeyRun action host events → KeyRun action.outcome host events
  | nested {α : Type} {body : Action σ α} {host : Host σ} {events : List KeyEvent} :
      host.depth ≠ 0 → KeyRun body { host with depth := host.depth + 1 } events →
      KeyRun (Host.transaction body) host events
  | committed {α : Type} {body : Action σ α} {host reached : Host σ} {a : α}
      {events : List KeyEvent} :
      host.depth = 0 → body.run { host with depth := 1 } = (.ok a, reached) →
      KeyRun body { host with depth := 1 } events → KeyRun (Host.transaction body) host events
  | rolledBack {α : Type} {body : Action σ α} {host reached : Host σ} {failure : Failure}
      {events : List KeyEvent} :
      host.depth = 0 → body.run { host with depth := 1 } = (.error failure, reached) →
      KeyRun body { host with depth := 1 } events →
      KeyRun (Host.transaction body) host (KeyEvent.clockOnly events)

theorem KeyStep.keyRun {action : Action σ α} (h : KeyStep action) (host : Host σ) :
    ∃ events, KeyRun action host events := by
  cases h with
  | besides h => exact ⟨_, .besides h⟩
  | issue d request =>
    rcases hr : (ViewKeys.issue d request).run host with ⟨failure | key, later⟩
    · exact ⟨_, .unissued hr⟩
    · exact ⟨_, .issued hr⟩
  | revoke admin id =>
    rcases hr : (ViewKeys.revoke admin id).run host with ⟨failure | ⟨⟩, later⟩
    · exact ⟨_, .unrevoked hr⟩
    · exact ⟨_, .revoked hr⟩

theorem Built.keyRun {action : Action σ α} (h : Built KeyStep action) (host : Host σ) :
    ∃ events, KeyRun action host events := by
  induction h generalizing host with
  | base h => exact h.keyRun host
  | pure a => exact ⟨_, .pure a host⟩
  | @bind α β first next _ _ ih₁ ih₂ =>
    obtain ⟨before, hb⟩ := ih₁ host
    rcases hr : first.run host with ⟨failure | a, later⟩
    · exact ⟨_, .halted hr hb⟩
    · obtain ⟨after, ha⟩ := ih₂ a later
      exact ⟨_, .bind hr hb ha⟩
  | outcome _ ih =>
    obtain ⟨events, he⟩ := ih host
    exact ⟨_, .outcome he⟩
  | @transaction α body _ ih =>
    by_cases hd : host.depth = 0
    · obtain ⟨events, he⟩ := ih { host with depth := 1 }
      rcases hr : body.run { host with depth := 1 } with ⟨failure | a, reached⟩
      · exact ⟨_, .rolledBack hd hr he⟩
      · exact ⟨_, .committed hd hr he⟩
    · obtain ⟨events, he⟩ := ih { host with depth := host.depth + 1 }
      exact ⟨_, .nested hd he⟩

end Action

theorem Operation.keySteps {action : Action σ α} (h : Operation action) :
    Built Action.KeyStep action := by
  refine cases_keyring (motive := fun _ a => Built Action.KeyStep a) ?_ ?_ ?_ h
  · exact fun _ _ ha => ha.mono fun _ _ hb => .besides hb
  · exact fun d request => .base (.issue d request)
  · exact fun admin id => .base (.revoke admin id)

/-- Every course has a history. -/
theorem Course.keyRun {base : Deployment σ} {action : Action σ α} (h : Course base action)
    (host : Host σ) : ∃ events, Action.KeyRun action host events :=
  Built.keyRun (h.built.trans fun _ _ ha => ha.keySteps) host

end SealedPayroll
