import SealedPayroll.Proofs.Operation.Basic

/-!
# Runs of public calls

A program is whatever can be put together from public calls: in any order,
with the next one depending on what was seen before, with failures caught or
let through, inside transactions or not, and with the clock and the signatures
changing in between. A re-entrant deployment is one whose token ledger runs
such a program before each transfer, in a deployment that may be re-entrant
again. `Passes` are the places that a run can be at: between two steps, inside
an open transaction, or inside a callback.
-/

namespace SealedPayroll

open SealedPayroll.Action (Quiet Footprint Built)

variable {σ : Type}

-- ---------------------------------------------------------------------------
-- Programs
-- ---------------------------------------------------------------------------

/-- What a caller can do in one step. Storage under the payroll's own namespaces is left out. -/
inductive Public (d : Deployment σ) : ⦃α : Type⦄ → Action σ α → Prop
  | call (call : Call) : Public d (call.run d)
  | clock (call : ClockCall) : Public d call.run
  | signature (call : SignatureCall) : Public d call.run
  | storage {call : StorageCall} (apart : call.IsForeign) : Public d call.run
  | publish (topics data : List Datum) : Public d (Host.publish topics data)
  | read {α : Type} (view : Host σ → α) : Public d (Action.read view)
  | attach (f : σ → σ) :
      Public d (Action.change fun host => { host with attached := f host.attached })
  | raise {α : Type} (fault : Fault) : Public d (Action.raise fault : Action σ α)

abbrev Program (d : Deployment σ) {α : Type} (action : Action σ α) : Prop :=
  Built (Public d) action

theorem Public.built {d : Deployment σ} (hd : d.Operational) {α : Type} {action : Action σ α}
    (h : Public d action) : Built Operation action := by
  cases h with
  | call call => exact call.built hd
  | clock call => exact .base (.quiet call.quiet)
  | signature call => exact .base (.quiet call.quiet)
  | storage apart => exact StorageCall.built apart
  | publish topics data => exact .base (.publish _ _)
  | read view => exact .base (.quiet (.read _))
  | attach f => exact .base (.quiet (.change fun _ => ⟨rfl, rfl, rfl, rfl, rfl⟩))
  | raise fault => exact .base (.quiet (.raise _))

theorem Program.built {d : Deployment σ} (hd : d.Operational) {α : Type} {action : Action σ α}
    (h : Program d action) : Built Operation action :=
  h.trans fun _ _ ha => ha.built hd

-- ---------------------------------------------------------------------------
-- Callbacks
-- ---------------------------------------------------------------------------

/-- `d` is `base` with a token ledger that runs a program in `inner` before each transfer. -/
def CallsBack (base inner d : Deployment σ) : Prop :=
  ∃ hook : Principal → Principal → Int → Action σ Unit,
    (∀ sender recipient amount, Program inner (hook sender recipient amount)) ∧
      d = { base with tokens := .calling hook }

/-- `d` is `base` with a token ledger that calls back, to some depth, or not at all. -/
inductive Reentrant (base : Deployment σ) : Deployment σ → Prop
  | plain : Reentrant base { base with tokens := .plain }
  | calling {inner d : Deployment σ} :
      CallsBack base inner d → Reentrant base inner → Reentrant base d

theorem Reentrant.operational {base d : Deployment σ} (h : Reentrant base d) : d.Operational := by
  induction h with
  | plain => exact fun _ _ _ => .base (.transfer _ _ _)
  | calling hc _ ih =>
    obtain ⟨hook, hp, rfl⟩ := hc
    exact fun _ _ _ => .bind ((hp _ _ _).built ih) fun _ => .base (.transfer _ _ _)

namespace Payroll

/-- In a batch that is paid from `host`, the transfer of an entry begins: its settlement begins
in `before`, and all but the transfer and the announcement has been done by `start`. A single
payment is a batch of one entry. -/
structure TransferBegins (d : Deployment σ) (batch : Batch) (host : Host σ) (company : Company)
    (index : Nat) (entry : Entry) (before start : Host σ) : Prop where
  listed : batch.entries[index]? = some entry
  reached : ∃ screened records,
    (screen d batch).run { host with depth := host.depth + 1 } = (.ok company, screened) ∧
    (settleFrom d company batch.period 0 (batch.entries.take index)).run screened =
      (.ok records, before)
  entered : ∃ approved record,
    (approve d company index entry).run before = (.ok (), approved) ∧
    (enter company batch.period entry).run approved = (.ok record, start)

end Payroll

-- ---------------------------------------------------------------------------
-- Places
-- ---------------------------------------------------------------------------

/-- A run that is in `host` in deployment `d` can get to be in `reached` in deployment `e`: by
running a program, by opening a transaction, or by getting to a callback. -/
inductive Passes (base : Deployment σ) :
    Deployment σ → Host σ → Deployment σ → Host σ → Prop
  | here (d : Deployment σ) (host : Host σ) : Passes base d host d host
  | ran {d e : Deployment σ} {host reached : Host σ} {α : Type} {action : Action σ α} :
      Program d action → Passes base d (action.after host) e reached → Passes base d host e reached
  | opened {d e : Deployment σ} {host reached : Host σ} :
      Passes base d { host with depth := host.depth + 1 } e reached → Passes base d host e reached
  | paying {d inner e : Deployment σ} {host before start reached : Host σ}
      {batch : Payroll.Batch} {company : Company} {index : Nat} {entry : Payroll.Entry} :
      CallsBack base inner d → Reentrant base inner →
      Payroll.TransferBegins d batch host company index entry before start →
      Passes base inner start e reached → Passes base d host e reached
  | transferring {d inner e : Deployment σ} {host reached : Host σ} :
      CallsBack base inner d → Reentrant base inner → Passes base inner host e reached →
      Passes base d host e reached

/-- A host before anything was stored or published in it. -/
structure Host.Initial (host : Host σ) : Prop where
  ledger : host.ledger = .empty
  events : host.events = []
  depth : host.depth = 0

/-- A run that starts in an initial host can be in `host`, in deployment `d`. -/
def Reachable (base d : Deployment σ) (host : Host σ) : Prop :=
  ∃ outer start, Reentrant base outer ∧ start.Initial ∧ Passes base outer start d host

section
variable {base d e : Deployment σ} {host reached : Host σ}

theorem Passes.trans {f : Deployment σ} {last : Host σ} (h₁ : Passes base d host e reached)
    (h₂ : Passes base e reached f last) : Passes base d host f last := by
  induction h₁ with
  | here => exact h₂
  | ran hp _ ih => exact .ran hp (ih h₂)
  | opened _ ih => exact .opened (ih h₂)
  | paying hc hi ht _ ih => exact .paying hc hi ht (ih h₂)
  | transferring hc hi _ ih => exact .transferring hc hi (ih h₂)

theorem Reachable.passes (h : Reachable base d host) (hp : Passes base d host e reached) :
    Reachable base e reached := by
  obtain ⟨outer, start, hr, hi, h⟩ := h
  exact ⟨outer, start, hr, hi, h.trans hp⟩

end

-- ---------------------------------------------------------------------------
-- What every place of a run respects
-- ---------------------------------------------------------------------------

section
variable {base d e : Deployment σ} {host reached : Host σ} {S : Ledger → Ledger → Prop}

/-- A relation between ledgers that operations and sweeps respect and that can be chained. -/
structure Respected (σ : Type) (S : Ledger → Ledger → Prop) : Prop where
  refl : ∀ l, S l l
  trans : ∀ {l₁ l₂ l₃}, S l₁ l₂ → S l₂ l₃ → S l₁ l₃
  evict : ∀ l timestamp sequence, S l (l.evict timestamp sequence)
  operation : ∀ {α : Type} (action : Action σ α), Operation action → ∀ host,
    S host.ledger (action.after host).ledger

theorem Respected.built (hs : Respected σ S) {α : Type} {action : Action σ α}
    (h : Built Operation action) (host : Host σ) : S host.ledger (action.after host).ledger :=
  h.ledger_rel hs.refl hs.trans hs.evict (fun _ a ha host => hs.operation a ha host) host

theorem Respected.run (hs : Respected σ S) {α : Type} {action : Action σ α}
    (h : Built Operation action) {result : Except Failure α}
    (hr : action.run host = (result, reached)) : S host.ledger reached.ledger := by
  have := hs.built h host
  simpa only [Action.after, hr] using this

/-- It is enough that every write of the payroll respects a relation. -/
theorem Respected.of_writes (refl : ∀ l, S l l) (trans : ∀ {l₁ l₂ l₃}, S l₁ l₂ → S l₂ l₃ → S l₁ l₃)
    (evict : ∀ l timestamp sequence, S l (l.evict timestamp sequence))
    (write : ∀ part f, Ledger.Write part f → ∀ l, S l (f l)) : Respected σ S where
  refl := refl
  trans := trans
  evict := evict
  operation _ h host :=
    Built.basic_rel refl trans evict (fun f ⟨part, _, hf⟩ l => write part f hf l) h.footprint host

theorem Respected.transferBegins (hs : Respected σ S) (hd : d.Operational)
    {batch : Payroll.Batch} {company : Company} {index : Nat} {entry : Payroll.Entry}
    {before start : Host σ}
    (h : Payroll.TransferBegins d batch host company index entry before start) :
    S host.ledger before.ledger ∧ S before.ledger start.ledger := by
  obtain ⟨screened, records, hscreen, hsettled⟩ := h.reached
  obtain ⟨approved, record, happrove, henter⟩ := h.entered
  have h₁ := hs.run (.base (.quiet (Payroll.screen_quiet _ _))) hscreen
  have h₂ := hs.run (Payroll.settleFrom_built hd _ _ _ _) hsettled
  have h₃ := hs.run (.base (.quiet (Payroll.approve_quiet _ _ _ _))) happrove
  have h₄ := hs.run (.base (.enter _ _ _)) henter
  exact ⟨hs.trans h₁ h₂, hs.trans h₃ h₄⟩

/-- What operations respect holds between any two places of a run. -/
theorem Passes.respected (hs : Respected σ S) (h : Passes base d host e reached)
    (hd : Reentrant base d) : Reentrant base e ∧ S host.ledger reached.ledger := by
  induction h with
  | here => exact ⟨hd, hs.refl _⟩
  | ran hp _ ih =>
    obtain ⟨he, h⟩ := ih hd
    exact ⟨he, hs.trans (hs.built (hp.built hd.operational) _) h⟩
  | opened _ ih => exact ih hd
  | paying _ hi ht _ ih =>
    obtain ⟨he, h⟩ := ih hi
    obtain ⟨hb, hs'⟩ := hs.transferBegins hd.operational ht
    exact ⟨he, hs.trans (hs.trans hb hs') h⟩
  | transferring _ hi _ ih => exact ih hi

theorem Reachable.reentrant (h : Reachable base d host) : Reentrant base d := by
  obtain ⟨outer, start, hr, -, hp⟩ := h
  have anything : Respected σ fun _ _ => True :=
    ⟨fun _ => trivial, fun _ _ => trivial, fun _ _ _ => trivial, fun _ _ _ => trivial⟩
  exact (hp.respected anything hr).1

theorem Reachable.respected (h : Reachable base d host) (hs : Respected σ S) :
    S .empty host.ledger := by
  obtain ⟨outer, start, hr, hi, hp⟩ := h
  exact hi.ledger ▸ (hp.respected hs hr).2

/-- What holds of the empty ledger, and what sweeps and the writes of the payroll keep, holds
wherever a run is. -/
theorem Reachable.invariant {P : Ledger → Prop} (h : Reachable base d host) (empty : P .empty)
    (evict : ∀ l timestamp sequence, P l → P (l.evict timestamp sequence))
    (write : ∀ part f, Ledger.Write part f → ∀ l, P l → P (f l)) : P host.ledger :=
  h.respected (S := fun l k => P l → P k)
    (.of_writes (fun _ h => h) (fun h₁ h₂ h => h₂ (h₁ h)) evict write) empty

end

-- ---------------------------------------------------------------------------
-- A deployment to try things on
-- ---------------------------------------------------------------------------

namespace Sample

/-- Standard settings and a backend that accepts whatever has the right shape. -/
def deployment : Deployment Unit := .plain .standard .structural .sha256

def host : Host Unit where
  clock := ⟨0, 0⟩
  authority := .unrestricted
  ledger := .empty
  writes := 0
  events := []
  depth := 0
  evictOnCommit := false
  transcript := .empty
  attached := ()

theorem reentrant : Reentrant deployment deployment := .plain

theorem initial : host.Initial := ⟨rfl, rfl, rfl⟩

theorem reachable : Reachable deployment deployment host :=
  ⟨deployment, host, reentrant, initial, .here _ _⟩

/-- The commitment of every employee here. -/
def commitment : Bytes := .replicate 32 0

def key : VerificationKey where
  alpha := .replicate 64 0
  beta := .replicate 128 0
  gamma := .replicate 128 0
  delta := .replicate 128 0
  ic := .replicate 4 (.replicate 64 0)

/-- Registers a company with one employee, funds it, and sets the verification key. -/
def setUp : Action Unit Unit := do
  let _ ← Call.run deployment (.registry (.register "admin" "treasury"))
  let _ ← Call.run deployment (.registry (.enrol 0 "worker" commitment))
  let _ ← Call.run deployment (.tokens (.mint "treasury" 100))
  let _ ← Call.run deployment (.verifier (.setKey key))

/-- The host after the company was set up. -/
def staffed : Host Unit := setUp.after host

theorem setUp_program : Program deployment setUp :=
  .bind (.base (.call _)) fun _ => .bind (.base (.call _)) fun _ =>
    .bind (.base (.call _)) fun _ => .bind (.base (.call _)) fun _ => .pure _

theorem staffed_reachable : Reachable deployment deployment staffed :=
  reachable.passes (.ran setUp_program (.here _ _))

def company : Company := ⟨0, "admin", "treasury", 1, 0⟩

theorem staffed_ledger :
    staffed.ledger = { Ledger.empty with
      companyCount := 1
      companies := Table.empty.insert 0 company
      bindings := Table.empty.insert "worker" ⟨0, "worker", commitment, 0, none⟩
      commitments := Table.empty.insert "worker" ⟨"worker", some 0, commitment, 1, 0, 0⟩
      verificationKey := some key
      balances := Table.empty.insert "treasury" 100
      arrivals := ⟨[(.company 0, ()), (.companyCount, ()), (.binding "worker", ()),
        (.commitment "worker", ()), (.balance "treasury", ()), (.verificationKey, ())],
        by decide⟩ } := by
  rfl

end Sample

end SealedPayroll
