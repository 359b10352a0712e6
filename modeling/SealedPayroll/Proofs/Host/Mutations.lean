import Mathlib.Data.List.Basic
import SealedPayroll.Proofs.Host.Built

/-!
# Mutations

The mutations of a run are listed one by one, from what the run did and
without regard to any count: a value stored or removed, a sweep that found
something, an event published. The host has only its count of writes and its
number of events to go by; `Performs.counts` says that the two together tell
how many mutations there were, also where their failures were caught.
-/

namespace SealedPayroll

variable {σ α : Type}

inductive Mutation where
  | stored
  | swept
  | published
  deriving DecidableEq

namespace Action

/-- An action that runs in a host inside a transaction performs these mutations, in order. -/
inductive Performs : {α : Type} → Action σ α → Host σ → List Mutation → Prop
  | quiet {α : Type} {action : Action σ α} {host : Host σ} :
      Quiet action → Performs action host []
  | stored (f : Ledger → Ledger) (host : Host σ) : Performs (write f) host [.stored]
  | published (topics data : List Datum) (host : Host σ) :
      Performs (Host.publish topics data) host [.published]
  | unswept {host : Host σ} :
      host.ledger.expiredCount host.clock.timestamp host.clock.sequence = 0 →
      Performs Host.evictExpired host []
  | swept {host : Host σ} :
      host.ledger.expiredCount host.clock.timestamp host.clock.sequence ≠ 0 →
      Performs Host.evictExpired host [.swept]
  | bind {α β : Type} {first : Action σ α} {next : α → Action σ β} {host later : Host σ} {a : α}
      {before after : List Mutation} :
      first.run host = (.ok a, later) → Performs first host before →
      Performs (next a) later after → Performs (first >>= next) host (before ++ after)
  | bindError {α β : Type} {first : Action σ α} {next : α → Action σ β} {host later : Host σ}
      {failure : Failure} {before : List Mutation} :
      first.run host = (.error failure, later) → Performs first host before →
      Performs (first >>= next) host before
  | outcome {α : Type} {action : Action σ α} {host : Host σ} {mutations : List Mutation} :
      Performs action host mutations → Performs action.outcome host mutations
  | nested {α : Type} {body : Action σ α} {host : Host σ} {mutations : List Mutation} :
      host.depth ≠ 0 → Performs body { host with depth := host.depth + 1 } mutations →
      Performs (Host.transaction body) host mutations

/-- What a host shows of mutations: as many more writes as something was stored or swept, and as
many more events as were published, after those that were there. -/
structure Counts (start reached : Host σ) (mutations : List Mutation) : Prop where
  writes : reached.writes = start.writes + (mutations.filter (· ≠ .published)).length
  events : ∃ more, reached.events = start.events ++ more ∧
    more.length = (mutations.filter (· = .published)).length

theorem Counts.append {start between reached : Host σ} {before after : List Mutation}
    (h₁ : Counts start between before) (h₂ : Counts between reached after) :
    Counts start reached (before ++ after) := by
  obtain ⟨more₁, he₁, hl₁⟩ := h₁.events
  obtain ⟨more₂, he₂, hl₂⟩ := h₂.events
  constructor
  · rw [h₂.writes, h₁.writes, List.filter_append, List.length_append, Nat.add_assoc]
  · refine ⟨more₁ ++ more₂, by rw [he₂, he₁, List.append_assoc], ?_⟩
    rw [List.length_append, hl₁, hl₂, List.filter_append, List.length_append]

theorem Performs.counts {action : Action σ α} {host : Host σ} {mutations : List Mutation}
    (h : Performs action host mutations) : Counts host (action.after host) mutations := by
  induction h with
  | @quiet α action host hq =>
    have hs := hq.still host
    exact ⟨hs.writes, [], by rw [hs.events, List.append_nil], rfl⟩
  | stored f host => exact ⟨rfl, [], (List.append_nil _).symm, rfl⟩
  | published topics data host => exact ⟨rfl, _, rfl, rfl⟩
  | unswept hn =>
    refine ⟨?_, [], (List.append_nil _).symm, rfl⟩
    simp [after, run, Host.evictExpired, hn]
  | swept hn =>
    refine ⟨?_, [], (List.append_nil _).symm, rfl⟩
    simp [after, run, Host.evictExpired, hn]
  | bind hr _ _ ih₁ ih₂ =>
    rw [after, hr] at ih₁
    rw [after_bind_ok hr]
    exact ih₁.append ih₂
  | bindError hr _ ih =>
    rw [after, hr] at ih
    rwa [after_bind_error hr]
  | outcome _ ih => exact ih
  | nested hd _ ih =>
    rw [after, Host.transaction_nested hd]
    exact ⟨ih.writes, ih.events⟩

/-- The host notices mutations iff there were any. -/
theorem Counts.hasWritten_iff {start reached : Host σ} {mutations : List Mutation}
    (h : Counts start reached mutations) :
    Host.hasWritten start reached = true ↔ mutations ≠ [] := by
  obtain ⟨more, he, hl⟩ := h.events
  have hw := h.writes
  have hlen : reached.events.length = start.events.length + more.length := by
    rw [he, List.length_append]
  have total := mutations.length_eq_length_filter_add (· = .published)
  simp only [← decide_not] at total
  have hne : mutations ≠ [] ↔ mutations.length ≠ 0 := by simp
  rw [hne, Host.hasWritten, Bool.or_eq_true, bne_iff_ne, bne_iff_ne]
  simp only [ne_eq] at hw hl total ⊢
  omega

-- ---------------------------------------------------------------------------
-- Inside a transaction
-- ---------------------------------------------------------------------------

/-- What holds of an action that runs inside a transaction: it keeps the depth, its failures are
as they were raised, and its mutations can be listed. -/
structure Contained (action : Action σ α) (host : Host σ) : Prop where
  depth : (action.after host).depth = host.depth
  fresh : ∀ failure, (action.run host).1 = .error failure → failure.reverted = false
  performs : ∃ mutations, Performs action host mutations

theorem Basic.contained {W : (Ledger → Ledger) → Prop} {action : Action σ α}
    (h : Basic W action) (host : Host σ) : Contained action host := by
  cases h with
  | quiet hq => exact ⟨(hq.still host).depth, hq.fresh host, [], .quiet hq⟩
  | write hw => exact ⟨rfl, fun _ h => (nomatch h), _, .stored _ _⟩
  | publish topics data => exact ⟨rfl, fun _ h => (nomatch h), _, .published _ _ _⟩
  | evict =>
    refine ⟨rfl, fun _ h => (nomatch h), ?_⟩
    by_cases hn : host.ledger.expiredCount host.clock.timestamp host.clock.sequence = 0
    · exact ⟨_, .unswept hn⟩
    · exact ⟨_, .swept hn⟩

theorem Built.contained {W : (Ledger → Ledger) → Prop} {action : Action σ α}
    (h : Built (Basic W) action) {host : Host σ} (hd : host.depth ≠ 0) :
    Contained action host := by
  induction h generalizing host with
  | base h => exact h.contained host
  | pure a => exact ⟨rfl, (Quiet.pure a).fresh host, [], .quiet (.pure a)⟩
  | @bind α β first next _ _ ih₁ ih₂ =>
    have h₁ := ih₁ hd
    obtain ⟨before, hb⟩ := h₁.performs
    rcases hr : first.run host with ⟨failure | a, later⟩
    · refine ⟨?_, ?_, before, .bindError hr hb⟩
      · rw [after_bind_error hr]
        simpa only [after, hr] using h₁.depth
      · intro raised hf
        rw [run_bind_error hr] at hf
        cases hf
        exact h₁.fresh failure (by rw [hr])
    · have hl : later.depth = host.depth := by simpa only [after, hr] using h₁.depth
      have h₂ := ih₂ a (show later.depth ≠ 0 by rwa [hl])
      obtain ⟨after, ha⟩ := h₂.performs
      refine ⟨?_, ?_, _, .bind hr hb ha⟩
      · rw [after_bind_ok hr, h₂.depth, hl]
      · intro raised hf
        rw [run_bind_ok hr] at hf
        exact h₂.fresh raised hf
  | outcome _ ih =>
    have h := ih hd
    obtain ⟨mutations, hm⟩ := h.performs
    refine ⟨h.depth, ?_, mutations, .outcome hm⟩
    intro failure hf
    cases hf
  | @transaction α body _ ih =>
    have h := ih (show Host.depth { host with depth := host.depth + 1 } ≠ 0 from Nat.succ_ne_zero _)
    obtain ⟨mutations, hm⟩ := h.performs
    refine ⟨?_, ?_, mutations, .nested hd hm⟩
    · rw [after, Host.transaction_nested hd]
      exact (congrArg (· - 1) h.depth).trans (Nat.add_sub_cancel _ _)
    · intro failure hf
      rw [Host.transaction_nested hd] at hf
      exact h.fresh failure hf

end Action

/-- When a failure escapes from the outermost transaction, everything is as it was; the failure is
the one that the body ended with, marked by what the host noticed of the mutations. -/
theorem Host.transaction_failed {W : (Ledger → Ledger) → Prop} {body : Action σ α}
    {host later : Host σ} {failure : Failure} (hb : Action.Built (Action.Basic W) body)
    (h0 : host.depth = 0) (h : (transaction body).run host = (.error failure, later)) :
    (later.ledger = host.ledger ∧ later.events = host.events ∧ later.depth = 0) ∧
      ∃ raised inner, body.run { host with depth := 1 } = (.error raised, inner) ∧
        raised.reverted = false ∧ failure = raised.discarding (hasWritten host inner) ∧
        ∀ mutations, Action.Performs body { host with depth := 1 } mutations →
          Action.Counts host inner mutations := by
  have hc := hb.contained (show Host.depth { host with depth := 1 } ≠ 0 from Nat.one_ne_zero)
  rcases hr : body.run { host with depth := 1 } with ⟨raised | a, inner⟩
  · rw [transaction_error h0 hr] at h
    cases h
    have counts (mutations : List Mutation)
        (hp : Action.Performs body { host with depth := 1 } mutations) :
        Action.Counts host inner mutations := by
      have := hp.counts
      rw [Action.after, hr] at this
      exact ⟨this.writes, this.events⟩
    refine ⟨⟨rfl, ?_, rfl⟩, raised, inner, rfl, hc.fresh raised (by rw [hr]), rfl, counts⟩
    obtain ⟨mutations, hm⟩ := hc.performs
    obtain ⟨more, he, -⟩ := (counts mutations hm).events
    show inner.events.take host.events.length = host.events
    rw [he]
    exact List.take_left
  · rw [transaction_ok h0 hr] at h
    cases h

end SealedPayroll
