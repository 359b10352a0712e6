import SealedPayroll.Proofs.Host.Answers
import SealedPayroll.Proofs.Host.Spared
import SealedPayroll.Proofs.Operation.Footprint

/-!
# Issuing and revoking

What a key is made of when it is issued, and what issuing and revoking do to
the ledger: all of it or nothing, with a sweep at the end when theirs is the
outermost transaction. Which requests are refused, and on what grounds, is not
covered here.
-/

namespace SealedPayroll

open SealedPayroll.Action (FailsEarly)

variable {σ : Type} {host later : Host σ}

/-- What the clock shows on a basis. -/
def Clock.reading (clock : Clock) : ExpiryBasis → Int
  | .timestamp => clock.timestamp
  | .sequence => clock.sequence

/-- The id of a key is the one that belongs to its company, its auditor and its count. -/
def ViewKey.Derived (key : ViewKey) : Prop :=
  ViewKey.deriveId key.company key.auditor key.nonce = .ok key.id

/-- What is stored of a key. -/
def ViewKey.entry (key : ViewKey) : Expiring ViewKey := ⟨key, key.expiresAt, key.basis⟩

namespace Ledger

/-- The ledger with a key stored and counted. -/
def grant (l : Ledger) (key : ViewKey) : Ledger :=
  { l.putKeyCounter key.company key.auditor (l.keyCounter key.company key.auditor + 1) with
    viewKeys := l.viewKeys.insert key.id key.entry }

def revoke (l : Ledger) (id : String) : Ledger := { l with viewKeys := l.viewKeys.erase id }

theorem keyCounter_grant (l : Ledger) (key : ViewKey) (company : Int) (auditor : Principal) :
    (l.grant key).keyCounter company auditor =
      if key.company = company ∧ key.auditor = auditor then l.keyCounter company auditor + 1
      else l.keyCounter company auditor := by
  simp only [keyCounter, grant, putKeyCounter, Table.get?_insert, Prod.mk.injEq]
  split
  · rename_i h
    obtain ⟨rfl, rfl⟩ := h
    rfl
  · rfl

end Ledger

namespace ViewKeys

/-- The key that a request asks for. -/
def Request.key (config : AuditConfig) (request : Request) (clock : Clock) (count : Nat)
    (id : String) : ViewKey where
  id := id
  company := request.company
  auditor := request.auditor
  grantedBy := request.admin
  createdAt := clock.timestamp
  expiresAt := clock.reading config.expiryBasis + request.effectiveDuration config
  scope := request.scope
  nonce := count
  basis := config.expiryBasis
  employees := request.employees
  periodStart := request.periodStart
  periodEnd := request.periodEnd

variable {d : Deployment σ} {request : Request} {key : ViewKey}

-- ---------------------------------------------------------------------------
-- Successes
-- ---------------------------------------------------------------------------

theorem of_checkGranter_ok {company : Int} {admin : Principal} {u : Unit}
    (h : (checkGranter d company admin).run host = (.ok u, later)) : host = later := by
  unfold checkGranter at h
  split at h
  · obtain ⟨found, _, h₁, h⟩ := Action.bind_eq_ok.mp h
    obtain ⟨-, rfl⟩ := Action.expect_eq_ok.mp h₁
    split at h
    · exact (Action.pure_eq_ok.mp h).2
    · exact (Action.refuse_eq_ok.mp h).elim
  · exact (Action.pure_eq_ok.mp h).2

theorem of_issue_ok (h : (issue d request).run host = (.ok key, later)) :
    (∃ id, key = request.key d.config.audit host.clock
      (host.ledger.keyCounter request.company request.auditor) id) ∧
      key.Derived ∧ later.clock = host.clock ∧
      (later.ledger = host.ledger.grant key ∨
        later.ledger = (host.ledger.grant key).evict host.clock.timestamp host.clock.sequence) := by
  simp only [issue] at h
  split at h
  · cases h
  · obtain ⟨inner, h, clock, swept⟩ := Host.of_transaction_ok h
    obtain ⟨_, signed, h₁, h⟩ := Action.bind_eq_ok.mp h
    obtain ⟨-, hs⟩ := Host.requireAuth_eq_ok.mp h₁
    have hc : signed.clock = host.clock := by rw [← hs]
    have hl : signed.ledger = host.ledger := by rw [← hs]
    clear hs h₁
    obtain ⟨_, _, h₂, h⟩ := Action.bind_eq_ok.mp h
    obtain rfl := of_checkGranter_ok h₂
    obtain ⟨count, _, h₃, h⟩ := Action.bind_eq_ok.mp h
    obtain ⟨rfl, rfl⟩ := Action.read_eq_ok.mp h₃
    obtain ⟨now, _, h₄, h⟩ := Action.bind_eq_ok.mp h
    obtain ⟨rfl, rfl⟩ := Action.read_eq_ok.mp h₄
    -- the two bases differ in the reading only, and go on alike
    split at h
    all_goals
      rename_i hb
      obtain ⟨start, _, h₅, h⟩ := Action.bind_eq_ok.mp h
      obtain ⟨rfl, rfl⟩ := Action.read_eq_ok.mp h₅
      obtain ⟨id, _, h₆, h⟩ := Action.bind_eq_ok.mp h
      obtain ⟨derived, rfl⟩ := Action.ofExcept_eq_ok.mp h₆
      obtain ⟨made, _, h₇, h⟩ := Action.bind_eq_ok.mp h
      obtain ⟨valid, rfl⟩ := Action.build_eq_ok.mp h₇
      obtain ⟨-, rfl⟩ := ViewKey.make_eq_valid.mp valid
      cases h
      rw [hc] at clock swept
      simp only [hc, hl] at *
      refine ⟨⟨id, ?_⟩, derived, clock, swept⟩
      simp only [Request.key, Clock.reading, hb]

theorem of_revoke_ok {admin : Principal} {id : String} {u : Unit}
    (h : (revoke admin id).run host = (.ok u, later)) :
    later.clock = host.clock ∧
      (later.ledger = host.ledger.revoke id ∨
        later.ledger = (host.ledger.revoke id).evict host.clock.timestamp host.clock.sequence) := by
  obtain ⟨inner, h, clock, swept⟩ := Host.of_transaction_ok h
  obtain ⟨_, _, h₁, h⟩ := Action.bind_eq_ok.mp h
  obtain ⟨-, rfl⟩ := Host.requireAuth_eq_ok.mp h₁
  obtain ⟨key, _, h₂, h⟩ := Action.bind_eq_ok.mp h
  obtain ⟨-, rfl⟩ := Action.expect_eq_ok.mp h₂
  split at h
  · cases h
    exact ⟨clock, swept⟩
  · exact (Action.refuse_eq_ok.mp h).elim

-- ---------------------------------------------------------------------------
-- Failures
-- ---------------------------------------------------------------------------

theorem issue_failsEarly {bad : Fault → Bool} (d : Deployment σ) (request : Request) :
    FailsEarly bad (issue d request) := by
  unfold issue
  dsimp only
  split
  · exact .quiet (.refuse _)
  · refine .transaction <| .bind (.requireAuth _) fun _ =>
      .bind (checkGranter_quiet _ _ _) fun _ => .bind (.read _) fun _ => .bind (.read _) fun _ => ?_
    split <;>
      exact .bind (.read _) fun _ => .bind (.ofExcept _) fun _ => .bind (.build _ _) fun _ =>
        .never fun _ _ _ h => nomatch h

theorem revoke_failsEarly {bad : Fault → Bool} (admin : Principal) (id : String) :
    FailsEarly bad (revoke admin id : Action σ Unit) := by
  refine .transaction <| .bind (.requireAuth _) fun _ => .bind (.expect _ _) fun key => ?_
  split
  · exact .never fun _ _ _ h => nomatch h
  · exact .quiet (.refuse _)

end ViewKeys

end SealedPayroll
