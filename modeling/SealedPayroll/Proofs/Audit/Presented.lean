import SealedPayroll.Proofs.Host.Spared
import SealedPayroll.Proofs.Payment.Settle
import SealedPayroll.Session.Call

/-!
# Presenting a key

Every question of an auditor begins with presenting a key. `present_eq_ok`
says when a key is accepted; what comes afterwards turns no key down, so a
question turns the key down iff it grants no access at that moment. Which
other refusals a question meets is not covered here.
-/

namespace SealedPayroll

variable {σ α : Type} {host later : Host σ} {id : String} {auditor : Principal} {key : ViewKey}

/-- The host after a signature is the same in all that a question can see. -/
@[simp] theorem Host.sign_ledger (host : Host σ) (name : Principal) :
    (host.sign name).ledger = host.ledger := rfl

@[simp] theorem Host.sign_clock (host : Host σ) (name : Principal) :
    (host.sign name).clock = host.clock := rfl

/-- Refusals of a key, whatever it is used for. -/
def PayrollError.turnsKeyDown : PayrollError → Bool
  | .keyNotFound _ | .wrongAuditor _ _ | .keyExpired _ _ => true
  | _ => false

/-- An action ends in a refusal of the key it was given. -/
def TurnsDown (action : Action σ α) (host : Host σ) : Prop :=
  ∃ failure later, action.run host = (.error failure, later) ∧
    failure.fault.refuses PayrollError.turnsKeyDown = true

theorem TurnsDown.map {action : Action σ α} {β : Type} (f : α → β) :
    TurnsDown (f <$> action) host ↔ TurnsDown action host := by
  simp only [TurnsDown, Action.map_eq_error]

theorem ViewKeys.grantsAccess_iff :
    grantsAccess host id auditor = true ↔
      ∃ key, stored? host.ledger id = some key ∧ key.auditor = auditor ∧
        isActiveAt host.clock key = true := by
  unfold grantsAccess
  cases stored? host.ledger id <;> simp

namespace Disclosure

open SealedPayroll.Action (Spared)
open PayrollError (turnsKeyDown)

theorem present_eq_ok :
    (present id auditor).run host = (.ok key, later) ↔
      host.authority.allows auditor = true ∧ ViewKeys.stored? host.ledger id = some key ∧
        key.auditor = auditor ∧ ViewKeys.isActiveAt host.clock key = true ∧
        host.sign auditor = later := by
  constructor
  · intro h
    obtain ⟨_, _, h₁, h⟩ := Action.bind_eq_ok.mp h
    obtain ⟨ha, rfl⟩ := Host.requireAuth_eq_ok.mp h₁
    obtain ⟨found, _, h₂, h⟩ := Action.bind_eq_ok.mp h
    obtain ⟨hs, rfl⟩ := Action.expect_eq_ok.mp h₂
    split at h
    · exact (Action.refuse_eq_ok.mp h).elim
    · rename_i hn
      obtain ⟨active, _, h₃, h⟩ := Action.bind_eq_ok.mp h
      obtain ⟨rfl, rfl⟩ := Action.read_eq_ok.mp h₃
      split at h
      · rename_i hact
        obtain ⟨rfl, rfl⟩ := Action.pure_eq_ok.mp h
        exact ⟨ha, hs, Decidable.not_not.mp hn, hact, rfl⟩
      · exact (Action.refuse_eq_ok.mp h).elim
  · rintro ⟨ha, hs, hn, hact, rfl⟩
    refine Action.bind_eq_ok.mpr ⟨(), _, Host.requireAuth_eq_ok.mpr ⟨ha, rfl⟩,
      Action.bind_eq_ok.mpr ⟨key, _, Action.expect_eq_ok.mpr ⟨hs, rfl⟩, ?_⟩⟩
    rw [if_neg (Decidable.not_not.mpr hn)]
    refine Action.bind_eq_ok.mpr ⟨_, _, Action.read_eq_ok.mpr ⟨rfl, rfl⟩, ?_⟩
    simp only [hact, if_true]
    exact Action.pure_eq_ok.mpr ⟨rfl, rfl⟩

theorem present_turnsDown (ha : host.authority.allows auditor = true)
    (hn : ViewKeys.grantsAccess host id auditor = false) :
    TurnsDown (present id auditor) host := by
  have signed : (Host.requireAuth auditor).run host = (.ok (), host.sign auditor) :=
    Host.requireAuth_eq_ok.mpr ⟨ha, rfl⟩
  rw [TurnsDown, present, Action.run_bind_ok signed]
  cases hs : ViewKeys.stored? host.ledger id with
  | none =>
    refine ⟨⟨.payroll (.keyNotFound id), false⟩, host.sign auditor, ?_, rfl⟩
    simp [ViewKeys.get, Action.run_bind, Action.run_expect, hs]
  | some key =>
    have found : (ViewKeys.get id).run (host.sign auditor) = (.ok key, host.sign auditor) :=
      Action.expect_eq_ok.mpr ⟨hs, rfl⟩
    rw [Action.run_bind_ok found]
    by_cases he : key.auditor = auditor
    · refine ⟨⟨.payroll (.keyExpired id key.expiresAt), false⟩, host.sign auditor, ?_, rfl⟩
      have inactive : ViewKeys.isActiveAt host.clock key = false := by
        simpa [ViewKeys.grantsAccess, hs, he] using hn
      simp [he, Action.run_bind, inactive]
    · refine ⟨⟨.payroll (.wrongAuditor id auditor), false⟩, host.sign auditor, ?_, rfl⟩
      simp [he]

/-- A question turns the key down iff the key grants no access, unless it does so later on. -/
theorem question_turnsDown {next : ViewKey → Action σ α}
    (hn : ∀ key, Spared turnsKeyDown (next key)) (ha : host.authority.allows auditor = true) :
    TurnsDown (present id auditor >>= next) host ↔
      ViewKeys.grantsAccess host id auditor = false := by
  cases hg : ViewKeys.grantsAccess host id auditor with
  | true =>
    obtain ⟨key, hs, he, active⟩ := ViewKeys.grantsAccess_iff.mp hg
    have presented : (present id auditor).run host = (.ok key, host.sign auditor) :=
      present_eq_ok.mpr ⟨ha, hs, he, active, rfl⟩
    rw [TurnsDown, Action.run_bind_ok presented]
    refine ⟨fun ⟨failure, later, hr, hf⟩ => ?_, fun h => (nomatch h)⟩
    rw [hn key _ _ _ hr] at hf
    cases hf
  | false =>
    refine ⟨fun _ => rfl, fun _ => ?_⟩
    obtain ⟨failure, later, hr, hf⟩ := present_turnsDown ha hg
    exact ⟨failure, later, Action.run_bind_error hr, hf⟩

-- ---------------------------------------------------------------------------
-- The three questions
-- ---------------------------------------------------------------------------

section
variable {d : Deployment σ}

/-- A scheme that turns no key down, whatever it raises. -/
def KeepsOut (scheme : CommitmentScheme) : Prop :=
  ∀ amount blinding, Detached turnsKeyDown (scheme.commit amount blinding)

theorem sha256_keepsOut : KeepsOut .sha256 := by
  intro amount blinding
  refine .map ?_ _
  unfold CommitmentScheme.preimage
  split
  · exact .error rfl
  · split
    · exact .error rfl
    · exact .ok _

theorem plain_keepsOut : KeepsOut .plain := fun _ _ => Bytes.encodeBigEndian_detached _ _

theorem opens_detached (hs : KeepsOut d.scheme) (commitment : Bytes) (amount : Int)
    (blinding : Bytes) : Detached turnsKeyDown (d.scheme.opens commitment amount blinding) := by
  unfold CommitmentScheme.opens
  split
  · exact (hs _ _).map _
  · exact .ok _

theorem verifyCommitment_turnsDown (hs : KeepsOut d.scheme)
    (ha : host.authority.allows auditor = true) (commitment : Bytes) (amount : Int)
    (blinding : Bytes) (restriction : Option Scope) :
    TurnsDown (verifyCommitment d id auditor commitment amount blinding restriction) host ↔
      ViewKeys.grantsAccess host id auditor = false := by
  refine question_turnsDown (fun key => ?_) ha
  dsimp only
  split
  · exact .ofExcept (opens_detached hs _ _ _)
  · exact .refuse rfl

theorem verifyEmployee_turnsDown (hs : KeepsOut d.scheme)
    (ha : host.authority.allows auditor = true) (employee : Principal) (amount : Int)
    (blinding : Bytes) :
    TurnsDown (verifyEmployee d id auditor employee amount blinding) host ↔
      ViewKeys.grantsAccess host id auditor = false := by
  refine question_turnsDown (fun key => ?_) ha
  split
  · refine .bind (.expect _ rfl) fun record => ?_
    split
    · exact .ofExcept (opens_detached hs _ _ _)
    · exact .refuse rfl
  · exact .refuse rfl

theorem liveReport_spared (key : ViewKey) (start stop : Int) :
    Spared turnsKeyDown (liveReport key start stop : Action σ AuditReport) := by
  refine .bind (.read _) fun settled => ?_
  dsimp only
  split
  · exact .bind (.read _) fun employed => .build _ _
  · exact .bind (.expect _ rfl) fun company => .build _ _

theorem report_turnsDown (ha : host.authority.allows auditor = true) (start stop : Int) :
    TurnsDown (report d id auditor start stop) host ↔
      ViewKeys.grantsAccess host id auditor = false := by
  refine question_turnsDown (fun key => ?_) ha
  split
  · exact .refuse rfl
  · split
    · split
      · exact liveReport_spared _ _ _
      · exact .build _ _
    · exact .refuse rfl

end

end Disclosure

-- ---------------------------------------------------------------------------
-- Calls
-- ---------------------------------------------------------------------------

/-- The key and the auditor in the calls that answer under a key. -/
def AuditCall.presented? : AuditCall → Option (String × Principal)
  | .verifyCommitment id auditor _ _ _ _ => some (id, auditor)
  | .verifyEmployee id auditor _ _ _ => some (id, auditor)
  | .report id auditor _ _ => some (id, auditor)
  | _ => none

/-- Whatever an auditor who has signed asks under a key, the key is turned down iff it grants no
access. -/
theorem AuditCall.turnsDown_iff {d : Deployment σ} (hs : Disclosure.KeepsOut d.scheme)
    (ha : host.authority.allows auditor = true) {call : AuditCall}
    (hc : call.presented? = some (id, auditor)) :
    TurnsDown (call.run d) host ↔ ViewKeys.grantsAccess host id auditor = false := by
  cases call with
  | verifyCommitment =>
    cases hc
    exact (TurnsDown.map _).trans (Disclosure.verifyCommitment_turnsDown hs ha _ _ _ _)
  | verifyEmployee =>
    cases hc
    exact (TurnsDown.map _).trans (Disclosure.verifyEmployee_turnsDown hs ha _ _ _)
  | report =>
    cases hc
    exact (TurnsDown.map _).trans (Disclosure.report_turnsDown ha _ _)
  | _ => cases hc

end SealedPayroll
