import SealedPayroll.Proofs.Host.Answers
import SealedPayroll.Proofs.Host.Spared

/-!
# Two hosts side by side

A host beside another one may have been swept, may have counted more writes and
may have been asked for other signatures; everything else is the same. Actions
are paired if, inside a transaction, they go on side by side: both answer alike
and leave two such hosts again, or both fail, with faults that go together.
Every way of making an action has a rule. Reading what a sweep removes has
none, and neither has a sweep.
-/

namespace SealedPayroll

variable {σ α β : Type}

/-- The ledger after a sweep at a reading of the clock, where there was one. -/
def Ledger.sweptAt (reading : Option Clock) (ledger : Ledger) : Ledger :=
  { ledger with
    viewKeys := reading.elim ledger.viewKeys fun clock =>
      (ledger.evict clock.timestamp clock.sequence).viewKeys
    foreignExpiring := reading.elim ledger.foreignExpiring fun clock =>
      (ledger.evict clock.timestamp clock.sequence).foreignExpiring }

/-- The host that stands beside a host. -/
def Host.beside (reading : Option Clock) (extra : Nat) (checked : List Principal)
    (host : Host σ) : Host σ :=
  { host with
    ledger := host.ledger.sweptAt reading
    writes := host.writes + extra
    authority := { host.authority with checked } }

/-- A missing signature is refused alike, whatever other signatures were asked for. -/
theorem Host.requireAuth_alike {reading : Option Clock} {extra : Nat} {checked : List Principal}
    {principal : Principal} {host later : Host σ} {failure : Failure}
    (h : (requireAuth principal).run host = (.error failure, later)) :
    (requireAuth principal).run (host.beside reading extra checked) =
      (.error failure, host.beside reading extra checked) := by
  obtain ⟨missing, -⟩ := requireAuth_refused h
  have missing' : (host.beside reading extra checked).authority.allows principal = false := missing
  simp only [Action.run, requireAuth, Authority.require, missing, missing', Bool.false_eq_true,
    if_false] at h ⊢
  split at h <;> cases h
  rfl

namespace Action

/-- Two actions that go on side by side; `both` says which faults go together. -/
structure Paired (reading : Option Clock) (extra : Nat) (both : Fault → Fault → Prop)
    (action other : Action σ α) : Prop where
  answers : ∀ (host : Host σ) (checked : List Principal), host.depth ≠ 0 → ∀ a later,
    action.run host = (.ok a, later) →
      later.depth = host.depth ∧
        ∃ signed, other.run (host.beside reading extra checked) =
          (.ok a, later.beside reading extra signed)
  fails : ∀ (host : Host σ) (checked : List Principal), host.depth ≠ 0 → ∀ failure later,
    action.run host = (.error failure, later) →
      ∃ raised reached, other.run (host.beside reading extra checked) = (.error raised, reached) ∧
        both failure.fault raised.fault

namespace Paired

variable {reading : Option Clock} {extra : Nat} {both : Fault → Fault → Prop}

theorem pure (a : α) : Paired reading extra both (Pure.pure a : Action σ α) (Pure.pure a) where
  answers _ checked _ _ _ hr := by
    cases hr
    exact ⟨rfl, checked, rfl⟩
  fails _ _ _ _ _ hr := nomatch hr

theorem bind {first other : Action σ α} {next follow : α → Action σ β}
    (hf : Paired reading extra both first other)
    (hn : ∀ a, Paired reading extra both (next a) (follow a)) :
    Paired reading extra both (first >>= next) (other >>= follow) where
  answers host checked hd b later hr := by
    obtain ⟨a, between, h₁, h₂⟩ := bind_eq_ok.mp hr
    obtain ⟨depth, signed, hs⟩ := hf.answers host checked hd a between h₁
    rw [run_bind_ok hs, ← depth]
    exact (hn a).answers between signed (depth ▸ hd) b later h₂
  fails host checked hd failure later hr := by
    rcases bind_eq_error.mp hr with h₁ | ⟨a, between, h₁, h₂⟩
    · obtain ⟨raised, reached, hs, hb⟩ := hf.fails host checked hd failure later h₁
      exact ⟨raised, reached, run_bind_error hs, hb⟩
    · obtain ⟨depth, signed, hs⟩ := hf.answers host checked hd a between h₁
      rw [run_bind_ok hs]
      exact (hn a).fails between signed (depth ▸ hd) failure later h₂

theorem read {view : Host σ → α}
    (hv : ∀ host checked, view (host.beside reading extra checked) = view host) :
    Paired reading extra both (Action.read view) (Action.read view) where
  answers host checked _ a later hr := by
    obtain ⟨rfl, rfl⟩ := read_eq_ok.mp hr
    exact ⟨rfl, checked, by rw [run_read, hv]⟩
  fails _ _ _ _ _ hr := nomatch hr

theorem raise {fault raised : Fault} (hb : both fault raised) :
    Paired reading extra both (Action.raise fault : Action σ α) (Action.raise raised) where
  answers _ _ _ _ _ hr := nomatch hr
  fails _ _ _ _ _ hr := by
    cases hr
    exact ⟨_, _, rfl, hb⟩

theorem refuse {error : PayrollError} (hb : both (.payroll error) (.payroll error)) :
    Paired reading extra both (Action.refuse error : Action σ α) (Action.refuse error) :=
  raise hb

theorem ofExcept {result : Except Fault α}
    (hb : ∀ fault, result = .error fault → both fault fault) :
    Paired reading extra both (Action.ofExcept result : Action σ α) (Action.ofExcept result) := by
  cases result with
  | ok a => exact pure a
  | error fault => exact raise (hb fault rfl)

theorem build {kind : RecordKind} {check : Check α}
    (hb : ∀ faults, both (.record kind faults) (.record kind faults)) :
    Paired reading extra both (Action.build kind check : Action σ α) (Action.build kind check) := by
  cases check with
  | valid a => exact pure a
  | invalid faults => exact raise (hb faults)

theorem expect {view : Host σ → Option α} {error : PayrollError}
    (hv : ∀ host checked, view (host.beside reading extra checked) = view host)
    (hb : both (.payroll error) (.payroll error)) :
    Paired reading extra both (Action.expect view error) (Action.expect view error) where
  answers host checked _ a later hr := by
    obtain ⟨found, rfl⟩ := expect_eq_ok.mp hr
    exact ⟨rfl, checked, expect_eq_ok.mpr ⟨(hv _ _).trans found, rfl⟩⟩
  fails host checked _ failure later hr := by
    rw [run_expect] at hr
    split at hr <;> cases hr
    rename_i missing
    exact ⟨_, _, by rw [run_expect, hv, missing], hb⟩

theorem change {f : Host σ → Host σ} (hd : ∀ host, (f host).depth = host.depth)
    (hf : ∀ host checked,
      f (host.beside reading extra checked) = (f host).beside reading extra checked) :
    Paired reading extra both (Action.change f) (Action.change f) where
  answers host checked _ _ _ hr := by
    cases hr
    exact ⟨hd host, checked, by rw [run_change, hf]⟩
  fails _ _ _ _ _ hr := nomatch hr

theorem write {f : Ledger → Ledger}
    (hf : ∀ ledger, f (ledger.sweptAt reading) = (f ledger).sweptAt reading) :
    Paired reading extra both (Action.write f : Action σ Unit) (Action.write f) := by
  refine change (fun _ => rfl) fun host checked => ?_
  simp only [Host.beside, hf, Nat.add_right_comm]

theorem publish (topics data : List Datum) :
    Paired reading extra both (Host.publish topics data : Action σ Event)
      (Host.publish topics data) where
  answers _ checked _ _ _ hr := by
    cases hr
    exact ⟨rfl, checked, rfl⟩
  fails _ _ _ _ _ hr := nomatch hr

theorem requireAuth {principal : Principal}
    (hb : ∀ denial, both (.payroll (.unauthorized principal denial))
      (.payroll (.unauthorized principal denial))) :
    Paired reading extra both (Host.requireAuth principal : Action σ Unit)
      (Host.requireAuth principal) where
  answers host checked _ _ later hr := by
    obtain ⟨allowed, rfl⟩ := Host.requireAuth_eq_ok.mp hr
    exact ⟨rfl, _, Host.requireAuth_eq_ok.mpr ⟨allowed, rfl⟩⟩
  fails host checked _ failure later hr := by
    obtain ⟨-, denial, hf⟩ := Host.requireAuth_refused hr
    exact ⟨failure, _, Host.requireAuth_alike hr, hf ▸ hb denial⟩

/-- A transaction inside another one is paired as its body is. -/
theorem transaction {body other : Action σ α} (hb : Paired reading extra both body other) :
    Paired reading extra both (Host.transaction body) (Host.transaction other) where
  answers host checked hd a later hr := by
    obtain ⟨inner, h, rfl⟩ := (Host.transaction_eq_ok hd).mp hr
    obtain ⟨depth, signed, hs⟩ := hb.answers _ checked (Nat.succ_ne_zero host.depth) a inner h
    refine ⟨?_, signed, (Host.transaction_eq_ok (by exact hd)).mpr ⟨_, hs, rfl⟩⟩
    show inner.depth - 1 = host.depth
    rw [depth]
    rfl
  fails host checked hd failure later hr := by
    rw [Host.transaction_nested hd] at hr
    rcases h : body.run { host with depth := host.depth + 1 } with ⟨raised | a, inner⟩ <;>
      rw [h] at hr <;> cases hr
    obtain ⟨met, reached, hs, hf⟩ :=
      hb.fails _ checked (Nat.succ_ne_zero host.depth) failure inner h
    have hs : other.run { host.beside reading extra checked with
        depth := (host.beside reading extra checked).depth + 1 } = (.error met, reached) := hs
    exact ⟨met, _, by rw [Host.transaction_nested (by exact hd), hs], hf⟩

end Paired

end Action

end SealedPayroll
