import SealedPayroll.Proofs.Operation.Components

/-!
# What settlements uphold

`Respected` asks for a relation that single operations respect in every host.
Some relations hold of a settlement only because it was screened first, and
fail of its operations taken by themselves. A relation is upheld if it can be
chained, and if settlements keep it as soon as the transfers in them do; then
it holds between any two places of a run (`Upheld.passes`), because what a
transfer runs besides is itself made of settlements and less.
-/

namespace SealedPayroll

open SealedPayroll.Action (Quiet Footprint Built)

variable {σ α β : Type} {S : Ledger → Ledger → Prop}

-- ---------------------------------------------------------------------------
-- Keeping a relation
-- ---------------------------------------------------------------------------

/-- A relation between ledgers holds from each host to the one that an action leaves. -/
def Action.Keeps (S : Ledger → Ledger → Prop) (action : Action σ α) : Prop :=
  ∀ host, S host.ledger (action.after host).ledger

/-- A relation between ledgers that can be chained, and that sweeps respect. -/
structure Chained (S : Ledger → Ledger → Prop) : Prop where
  refl : ∀ l, S l l
  trans : ∀ {l₁ l₂ l₃}, S l₁ l₂ → S l₂ l₃ → S l₁ l₃
  evict : ∀ l timestamp sequence, S l (l.evict timestamp sequence)

open SealedPayroll.Action (Keeps)

theorem Action.Keeps.run {action : Action σ α} (h : Keeps S action) {host later : Host σ}
    {result : Except Failure α} (hr : action.run host = (result, later)) :
    S host.ledger later.ledger := by
  have kept := h host
  rwa [Action.after, hr] at kept

namespace Chained

/-- An invariant that sweeps do not break. -/
theorem of_invariant {I : Ledger → Prop}
    (evict : ∀ l timestamp sequence, I l → I (l.evict timestamp sequence)) :
    Chained fun l k => I l → I k where
  refl _ h := h
  trans h₁ h₂ h := h₂ (h₁ h)
  evict := evict

variable {P : ⦃α : Type⦄ → Action σ α → Prop} {action : Action σ α}

theorem built (hs : Chained S) (hp : ∀ ⦃α : Type⦄ (a : Action σ α), P a → Keeps S a)
    (h : Built P action) : Keeps S action :=
  h.ledger_rel hs.refl hs.trans hs.evict hp

theorem footprint (hs : Chained S) {parts : List Ledger.Part}
    (hw : ∀ part ∈ parts, ∀ f, Ledger.Write part f → ∀ l, S l (f l))
    (h : Footprint parts action) : Keeps S action :=
  Built.basic_rel hs.refl hs.trans hs.evict (fun f ⟨part, hp, hf⟩ => hw part hp f hf) h

theorem quiet (hs : Chained S) (h : Quiet action) : Keeps S action := fun host => by
  rw [(h.still host).ledger]
  exact hs.refl _

theorem transaction (hs : Chained S) (h : Keeps S action) : Keeps S (Host.transaction action) :=
  hs.built (P := fun _ a => Keeps S a) (fun _ _ h => h) (.transaction (.base h))

theorem bind (hs : Chained S) {first : Action σ α} {next : α → Action σ β}
    (hf : Keeps S first) (hn : ∀ a, Keeps S (next a)) : Keeps S (first >>= next) :=
  hs.built (P := fun _ a => Keeps S a) (fun _ _ h => h)
    (.bind (.base hf) fun a => .base (hn a))

/-- Looking something up first changes nothing, and the rest knows what was found. -/
theorem bind_expect (hs : Chained S) {view : Host σ → Option α} {error : PayrollError}
    {next : α → Action σ β}
    (hn : ∀ a host, view host = some a → S host.ledger ((next a).after host).ledger) :
    Keeps S (Action.expect view error >>= next) := by
  intro host
  rcases found : view host with _ | a
  · have hr : (Action.expect view error).run host = (.error ⟨.payroll error, false⟩, host) := by
      rw [Action.run_expect, found]
    rw [Action.after_bind_error hr]
    exact hs.refl _
  · have hr : (Action.expect view error).run host = (.ok a, host) := by
      rw [Action.run_expect, found]
    rw [Action.after_bind_ok hr]
    exact hn a host found

end Chained

-- ---------------------------------------------------------------------------
-- Places of a run
-- ---------------------------------------------------------------------------

/-- A deployment whose transfers keep a relation, whatever they run besides. -/
def Deployment.Keeps (S : Ledger → Ledger → Prop) (d : Deployment σ) : Prop :=
  ∀ sender recipient amount, Action.Keeps S (d.tokens.transfer sender recipient amount)

/-- A relation that is kept wherever the transfers of the deployment keep it. -/
structure Upheld (σ : Type) (S : Ledger → Ledger → Prop) : Prop extends Chained S where
  transfer : ∀ sender recipient amount,
    Action.Keeps S (Tokens.transfer sender recipient amount : Action σ Unit)
  undertaking : ∀ {d : Deployment σ}, d.Keeps S → ∀ ⦃α : Type⦄ (a : Action σ α),
    Undertaking d a → Action.Keeps S a
  begins : ∀ {d : Deployment σ} {batch : Payroll.Batch} {host before start : Host σ}
    {company : Company} {index : Nat} {entry : Payroll.Entry}, d.Keeps S →
    Payroll.TransferBegins d batch host company index entry before start →
    S host.ledger start.ledger

namespace Upheld

variable {base d e : Deployment σ} {host reached : Host σ}

theorem program (hs : Upheld σ S) (hd : d.Keeps S) {action : Action σ α}
    (h : Program d action) : Action.Keeps S action :=
  hs.built (hs.undertaking hd) (h.trans fun _ _ ha => ha.undertaken)

theorem reentrant (hs : Upheld σ S) (h : Reentrant base d) : d.Keeps S := by
  induction h with
  | plain => exact hs.transfer
  | calling hc _ ih =>
    obtain ⟨hook, hp, rfl⟩ := hc
    exact fun _ _ _ => hs.bind (hs.program ih (hp _ _ _)) fun _ => hs.transfer _ _ _

/-- What is upheld holds between any two places of a run. -/
theorem passes (hs : Upheld σ S) (h : Passes base d host e reached)
    (hd : Reentrant base d) : S host.ledger reached.ledger := by
  induction h with
  | here => exact hs.refl _
  | ran hp _ ih => exact hs.trans (hs.program (hs.reentrant hd) hp _) (ih hd)
  | opened _ ih => exact ih hd
  | paying _ hi ht _ ih => exact hs.trans (hs.begins (hs.reentrant hd) ht) (ih hi)
  | transferring _ hi _ ih => exact ih hi

end Upheld

end SealedPayroll
