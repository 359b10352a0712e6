import SealedPayroll.Proofs.Host.History
import SealedPayroll.Proofs.Operation.Affair
import SealedPayroll.Proofs.Session.Public
import SealedPayroll.Proofs.Session.Upheld

/-!
# Regimes

A regime says what a caller can do in one step. `Public` admits every public
call; `Mediated` all but those that write to the commitment store past the
registry, so that the registry keeps the store. The places of a run are those
of `Passes`, with every program on the way keeping to the regime, callbacks
included. Whatever the regime, a run gets from place to place by affairs of the
deployment (`Regime.Passes.leads`); what these keep holds everywhere, and what
they tell is the history of the run.
-/

namespace SealedPayroll

open SealedPayroll.Action (Built Footprint Keeps Telling)

variable {σ : Type}

/-- What a caller can do in one step, by deployment. -/
abbrev Regime (σ : Type) := Deployment σ → ⦃α : Type⦄ → Action σ α → Prop

/-- What a caller can do in one step without writing to the commitment store past the registry:
calls that do not, and whatever stays out of the payroll's tables. -/
inductive Mediated (d : Deployment σ) : ⦃α : Type⦄ → Action σ α → Prop
  | call (call : Call) : call.bypasses = false → Mediated d (call.run d)
  | aside {α : Type} {action : Action σ α} :
      Public d action → Footprint [.foreign, .foreignExpiring] action → Mediated d action

theorem Mediated.public {d : Deployment σ} {α : Type} {action : Action σ α}
    (h : Mediated d action) : Public d action := by
  cases h with
  | call call => exact .call call
  | aside h => exact h

/-- The beginning of a transfer is reached by the steps of the settlement before it. -/
theorem Payroll.Settles.begins {P : ⦃α : Type⦄ → Action σ α → Prop} {d : Deployment σ}
    (hs : Settles P d) {batch : Batch} {host before start : Host σ} {company : Company}
    {index : Nat} {entry : Entry}
    (h : TransferBegins d batch host company index entry before start) : Leads P host start := by
  obtain ⟨screened, records, hscreen, hsettled⟩ := h.reached
  obtain ⟨approved, record, happrove, henter⟩ := h.entered
  have screen := Leads.run (.base (hs.quiet (screen_quiet _ _))) hscreen
  have settled := Leads.run (hs.settleFrom _ _ _ _) hsettled
  have approve := Leads.run (.base (hs.quiet (approve_quiet _ _ _ _))) happrove
  have entered := Leads.run (.base (hs.enter _ _ _)) henter
  exact .opened (screen.trans (settled.trans (approve.trans entered)))

theorem Leads.keeps {P : ⦃α : Type⦄ → Action σ α → Prop} {S : Ledger → Ledger → Prop}
    {host reached : Host σ} (hs : Chained S)
    (hp : ∀ ⦃α : Type⦄ (a : Action σ α), P a → Keeps S a) (h : Leads P host reached) :
    S host.ledger reached.ledger := by
  induction h with
  | here => exact hs.refl _
  | ran ha _ ih => exact hs.trans (hs.built hp ha _) ih
  | opened _ ih => exact ih

namespace Regime

-- ---------------------------------------------------------------------------
-- Places
-- ---------------------------------------------------------------------------

/-- `d` is `base` with a token ledger that runs a program in `inner` before each transfer. -/
def CallsBack (R : Regime σ) (base inner d : Deployment σ) : Prop :=
  ∃ hook : Principal → Principal → Int → Action σ Unit,
    (∀ sender recipient amount, Built (R inner) (hook sender recipient amount)) ∧
      d = { base with tokens := .calling hook }

/-- `d` is `base` with a token ledger that calls back, to some depth, or not at all. -/
inductive Reentrant (R : Regime σ) (base : Deployment σ) : Deployment σ → Prop
  | plain : Reentrant R base { base with tokens := .plain }
  | calling {inner d : Deployment σ} :
      CallsBack R base inner d → Reentrant R base inner → Reentrant R base d

/-- The places of a run whose programs keep to a regime. -/
inductive Passes (R : Regime σ) (base : Deployment σ) :
    Deployment σ → Host σ → Deployment σ → Host σ → Prop
  | here (d : Deployment σ) (host : Host σ) : Passes R base d host d host
  | ran {d e : Deployment σ} {host reached : Host σ} {α : Type} {action : Action σ α} :
      Built (R d) action → Passes R base d (action.after host) e reached →
      Passes R base d host e reached
  | opened {d e : Deployment σ} {host reached : Host σ} :
      Passes R base d { host with depth := host.depth + 1 } e reached →
      Passes R base d host e reached
  | paying {d inner e : Deployment σ} {host before start reached : Host σ}
      {batch : Payroll.Batch} {company : Company} {index : Nat} {entry : Payroll.Entry} :
      CallsBack R base inner d → Reentrant R base inner →
      Payroll.TransferBegins d batch host company index entry before start →
      Passes R base inner start e reached → Passes R base d host e reached
  | transferring {d inner e : Deployment σ} {host reached : Host σ} :
      CallsBack R base inner d → Reentrant R base inner → Passes R base inner host e reached →
      Passes R base d host e reached

/-- A run that starts in an initial host and keeps to a regime can be in `host`. -/
def Reachable (R : Regime σ) (base d : Deployment σ) (host : Host σ) : Prop :=
  ∃ outer start, Reentrant R base outer ∧ start.Initial ∧ Passes R base outer start d host

theorem Passes.trans {R : Regime σ} {base d e f : Deployment σ} {host reached last : Host σ}
    (h₁ : Passes R base d host e reached) (h₂ : Passes R base e reached f last) :
    Passes R base d host f last := by
  induction h₁ with
  | here => exact h₂
  | ran ha _ ih => exact .ran ha (ih h₂)
  | opened _ ih => exact .opened (ih h₂)
  | paying hc hi ht _ ih => exact .paying hc hi ht (ih h₂)
  | transferring hc hi _ ih => exact .transferring hc hi (ih h₂)

theorem Reachable.passes {R : Regime σ} {base d e : Deployment σ} {host reached : Host σ}
    (h : Reachable R base d host) (hp : Passes R base d host e reached) :
    Reachable R base e reached := by
  obtain ⟨outer, start, hr, hi, h⟩ := h
  exact ⟨outer, start, hr, hi, h.trans hp⟩

-- ---------------------------------------------------------------------------
-- Regimes among each other
-- ---------------------------------------------------------------------------

variable {R : Regime σ} {base d inner e : Deployment σ} {host reached : Host σ}

section
variable (hR : ∀ (d : Deployment σ) ⦃α : Type⦄ (a : Action σ α), R d a → Public d a)
include hR

theorem CallsBack.public (h : CallsBack R base inner d) : SealedPayroll.CallsBack base inner d := by
  obtain ⟨hook, hp, hd⟩ := h
  exact ⟨hook, fun _ _ _ => (hp _ _ _).mono (hR inner), hd⟩

theorem Reentrant.public (h : Reentrant R base d) : SealedPayroll.Reentrant base d := by
  induction h with
  | plain => exact .plain
  | calling hc _ ih => exact .calling (hc.public hR) ih

theorem Passes.public (h : Passes R base d host e reached) :
    SealedPayroll.Passes base d host e reached := by
  induction h with
  | here => exact .here _ _
  | ran ha _ ih => exact .ran (ha.mono (hR _)) ih
  | opened _ ih => exact .opened ih
  | paying hc hi ht _ ih => exact .paying (hc.public hR) (hi.public hR) ht ih
  | transferring hc hi _ ih => exact .transferring (hc.public hR) (hi.public hR) ih

theorem Reachable.public (h : Reachable R base d host) : SealedPayroll.Reachable base d host := by
  obtain ⟨outer, start, hr, hi, hp⟩ := h
  exact ⟨outer, start, hr.public hR, hi, hp.public hR⟩

end

/-- Every run keeps to the regime that admits all public calls. -/
theorem Reentrant.of_public (h : SealedPayroll.Reentrant base d) : Reentrant Public base d := by
  induction h with
  | plain => exact .plain
  | calling hc _ ih => exact .calling hc ih

theorem Passes.of_public (h : SealedPayroll.Passes base d host e reached) :
    Passes Public base d host e reached := by
  induction h with
  | here => exact .here _ _
  | ran ha _ ih => exact .ran ha ih
  | opened _ ih => exact .opened ih
  | paying hc hi ht _ ih => exact .paying hc (.of_public hi) ht ih
  | transferring hc hi _ ih => exact .transferring hc (.of_public hi) ih

theorem Reachable.of_public (h : SealedPayroll.Reachable base d host) :
    Reachable Public base d host := by
  obtain ⟨outer, start, hr, hi, hp⟩ := h
  exact ⟨outer, start, .of_public hr, hi, .of_public hp⟩

-- ---------------------------------------------------------------------------
-- From place to place
-- ---------------------------------------------------------------------------

/-- The steps of a regime are made of affairs, as soon as transfers are. -/
def Orderly (R : Regime σ) (direct : Prop) : Prop :=
  ∀ {base d : Deployment σ}, base.Conforms direct d → ∀ ⦃α : Type⦄ (a : Action σ α), R d a →
    Affairs base direct a

theorem orderly_public : Orderly (σ := σ) Public True := by
  intro base d hd α a h
  refine Public.call_or_aside (motive := fun _ a => Affairs base True a) ?_ ?_ h
  · exact fun call => call.affairs hd fun _ => trivial
  · exact fun _ a _ ha => .base (.aside ha (by simp [asides]))

theorem orderly_mediated : Orderly (σ := σ) Mediated False := by
  intro base d hd α a h
  cases h with
  | call call hc => exact call.affairs hd fun hb => by simp [hc] at hb
  | aside _ ha => exact .base (.aside ha (by simp [asides]))

variable {direct : Prop}

theorem Reentrant.conforms (hR : Orderly R direct) (h : Reentrant R base d) :
    base.Conforms direct d := by
  induction h with
  | plain => exact ⟨rfl, rfl, rfl, fun _ _ _ => .base ⟨_, .transfer _ _ _⟩⟩
  | calling hc _ ih =>
    obtain ⟨hook, hp, rfl⟩ := hc
    refine ⟨rfl, rfl, rfl, fun _ _ _ => ?_⟩
    exact .bind ((hp _ _ _).trans (hR ih)) fun _ => .base ⟨_, .transfer _ _ _⟩

/-- A run gets from place to place by affairs. -/
theorem Passes.leads (hR : Orderly R direct) (h : Passes R base d host e reached)
    (hd : Reentrant R base d) :
    Reentrant R base e ∧ Leads (IsAffair base direct) host reached := by
  induction h with
  | here => exact ⟨hd, .here _⟩
  | ran ha _ ih =>
    obtain ⟨he, led⟩ := ih hd
    exact ⟨he, .ran (ha.trans (hR (hd.conforms hR))) led⟩
  | opened _ ih =>
    obtain ⟨he, led⟩ := ih hd
    exact ⟨he, .opened led⟩
  | paying _ hi ht _ ih =>
    obtain ⟨he, led⟩ := ih hi
    exact ⟨he, ((hd.conforms hR).settles.begins ht).trans led⟩
  | transferring _ hi _ ih => exact ih hi

/-- What every affair keeps holds wherever a run is. -/
theorem Reachable.holds (hR : Orderly R direct) (h : Reachable R base d host)
    {I : Ledger → Prop} (empty : I .empty)
    (evict : ∀ l timestamp sequence, I l → I (l.evict timestamp sequence))
    (affair : ∀ ⦃α : Type⦄ {parts : List Ledger.Part} {action : Action σ α},
      Affair base direct parts action → Keeps (fun l k => I l → I k) action) : I host.ledger := by
  obtain ⟨outer, start, hr, hi, hp⟩ := h
  refine (hp.leads hR hr).2.keeps (.of_invariant evict) (fun _ _ ⟨_, ha⟩ => affair ha) ?_
  rwa [hi.ledger]

/-- A run has a history, if every affair tells one. -/
theorem Reachable.recounts {ε : Type} {told : Telling σ ε} (hR : Orderly R direct)
    (h : Reachable R base d host)
    (tells : ∀ ⦃α : Type⦄ {parts : List Ledger.Part} {action : Action σ α},
      Affair base direct parts action → ∀ host, ∃ events, told action host events) :
    ∃ start events, start.Initial ∧ Recounts told start events host := by
  obtain ⟨outer, start, hr, hi, hp⟩ := h
  obtain ⟨events, he⟩ := (hp.leads hR hr).2.recounts fun _ _ ⟨_, ha⟩ => tells ha
  exact ⟨start, events, hi, he⟩

end Regime

theorem Sample.staffed_mediated : Regime.Reachable Mediated deployment deployment staffed := by
  have program : Built (Mediated deployment) setUp :=
    .bind (.base (.call _ rfl)) fun _ => .bind (.base (.call _ rfl)) fun _ =>
      .bind (.base (.call _ rfl)) fun _ => .bind (.base (.call _ rfl)) fun _ => .pure _
  exact ⟨deployment, host, .plain, initial, .ran program (.here _ _)⟩

end SealedPayroll
