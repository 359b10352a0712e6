import SealedPayroll.Proofs.Audit.Presented
import SealedPayroll.Proofs.Audit.Trace
import SealedPayroll.Proofs.Ledger.Rows
import SealedPayroll.Proofs.Session.Public

/-!
# The lifetime of a key

Once issued, a key can be used by its auditor until it is revoked or runs out,
whatever else happens, as long as the clock does not move backwards. The
invariant is `Standing`: the counter is past the count of the key, so its id is
not given out again, and the key is stored unless it was revoked or a sweep
found it expired.

The clock matters to the invariant. If it moved back after a sweep, a key that
is gone would be within its duration again.
-/

namespace SealedPayroll

open SealedPayroll.Action (Basic Built KeyRun)
open SealedPayroll.ViewKeys (isActiveAt grantsAccess)

variable {σ α : Type} {host : Host σ} {clock later : Clock} {key other : ViewKey} {l k : Ledger}
  {past events before after : List KeyEvent}

-- ---------------------------------------------------------------------------
-- Clocks that do not move backwards
-- ---------------------------------------------------------------------------

instance : LE Clock := ⟨fun a b => a.timestamp ≤ b.timestamp ∧ a.sequence ≤ b.sequence⟩

instance (a b : Clock) : Decidable (a ≤ b) := inferInstanceAs (Decidable (_ ∧ _))

theorem Clock.le_refl (clock : Clock) : clock ≤ clock := ⟨Int.le_refl _, Int.le_refl _⟩

/-- From a reading on, neither clock moves backwards. -/
def KeyEvent.Forward (clock : Clock) (events : List KeyEvent) : Prop :=
  (clock :: readings events).Pairwise (· ≤ ·)

instance (clock : Clock) (events : List KeyEvent) : Decidable (KeyEvent.Forward clock events) :=
  inferInstanceAs (Decidable (List.Pairwise _ _))

namespace KeyEvent.Forward

theorem le (h : Forward clock events) (hl : later ∈ clock :: readings events) : clock ≤ later := by
  cases hl with
  | head => exact clock.le_refl
  | tail _ hl => exact List.rel_of_pairwise_cons h hl

theorem append (h : Forward clock (before ++ after)) (hl : later ∈ clock :: readings before) :
    Forward clock before ∧ Forward later after := by
  rw [Forward, readings_append, ← List.cons_append, List.pairwise_append] at h
  obtain ⟨hb, ha, hba⟩ := h
  exact ⟨hb, List.pairwise_cons.mpr ⟨fun reading hr => hba _ hl _ hr, ha⟩⟩

theorem clockOnly (h : Forward clock (clockOnly events)) : Forward clock events := by
  rwa [Forward, readings_clockOnly] at h

end KeyEvent.Forward

open KeyEvent (Forward readings)

theorem KeyEvent.mem_readings_reached (clock later : Clock) :
    later ∈ clock :: readings [.reached later] :=
  List.mem_cons_of_mem _ (List.mem_singleton_self _)

/-- The clock of the host that is left has been read. -/
theorem Action.KeyRun.clock_mem {action : Action σ α} (h : KeyRun action host events) :
    (action.after host).clock ∈ host.clock :: readings events := by
  induction h with
  | besides => exact KeyEvent.mem_readings_reached _ _
  | issued hr =>
    obtain ⟨-, -, clock, -⟩ := ViewKeys.of_issue_ok hr
    rw [after, hr, clock]
    exact List.mem_cons_self
  | unissued hr =>
    rw [after, hr]
    exact KeyEvent.mem_readings_reached _ _
  | revoked hr =>
    rw [after, hr, (ViewKeys.of_revoke_ok hr).1]
    exact List.mem_cons_self
  | unrevoked hr =>
    rw [after, hr]
    exact KeyEvent.mem_readings_reached _ _
  | pure => exact List.mem_cons_self
  | bind hr _ _ ih₁ ih₂ =>
    rw [after, hr] at ih₁
    rw [after_bind_ok hr, KeyEvent.readings_append, ← List.cons_append, List.mem_append]
    cases List.mem_cons.mp ih₂ with
    | inl same => exact .inl (same ▸ ih₁)
    | inr read => exact .inr read
  | halted hr _ ih =>
    rw [after, hr] at ih
    rwa [after_bind_error hr]
  | outcome _ ih => exact ih
  | nested hd _ ih =>
    rw [after, Host.transaction_nested hd]
    exact ih
  | committed hd hr _ ih =>
    rw [after, hr] at ih
    rw [after, Host.transaction_ok hd hr, Host.committed_clock]
    exact ih
  | rolledBack hd hr _ ih =>
    rw [after, hr] at ih
    rw [after, Host.transaction_error hd hr, KeyEvent.readings_clockOnly]
    exact ih

-- ---------------------------------------------------------------------------
-- The invariant
-- ---------------------------------------------------------------------------

/-- After a history, a key is counted, and it is stored as it was issued unless it was revoked or
has expired. -/
structure Standing (key : ViewKey) (past : List KeyEvent) (l : Ledger) (clock : Clock) : Prop where
  counted : key.nonce < l.keyCounter key.company key.auditor
  held : l.viewKeys.get? key.id = some key.entry ∧ .revoked key.id ∉ past ∨
    l.viewKeys.get? key.id = none ∧ (.revoked key.id ∈ past ∨ isActiveAt clock key = false)

theorem ViewKeys.inactive_mono (hc : clock ≤ later) (h : isActiveAt clock key = false) :
    isActiveAt later key = false := by
  obtain ⟨ht, hs⟩ := hc
  simp only [isActiveAt, ViewKey.isActive, ExpiryBasis.isLive] at h ⊢
  split <;> simp_all <;> omega

/-- The ids of two keys differ, unless the keys belong to the same company, auditor and count. -/
def ViewKey.Apart (key other : ViewKey) : Prop :=
  deriveId other.company other.auditor other.nonce =
      deriveId key.company key.auditor key.nonce →
    other.company = key.company ∧ other.auditor = key.auditor ∧ other.nonce = key.nonce

namespace Standing

theorem of_same (h : Standing key past l clock) (hn : k.keyCounters = l.keyCounters)
    (hv : k.viewKeys = l.viewKeys) : Standing key past k clock := by
  obtain ⟨counted, held⟩ := h
  constructor
  · rwa [Ledger.keyCounter, hn]
  · rwa [hv]

theorem of_past (h : Standing key past l clock)
    (hp : KeyEvent.revoked key.id ∈ past ↔ .revoked key.id ∈ events) :
    Standing key events l clock := by
  obtain ⟨counted, held⟩ := h
  rw [hp] at held
  exact ⟨counted, held⟩

theorem of_later (h : Standing key past l clock) (hc : clock ≤ later) :
    Standing key past l later := by
  refine ⟨h.counted, h.held.imp id fun ⟨gone, cause⟩ => ⟨gone, cause.imp id ?_⟩⟩
  exact ViewKeys.inactive_mono hc

theorem evict (h : Standing key past l clock) :
    Standing key past (l.evict clock.timestamp clock.sequence) clock := by
  refine ⟨h.counted, ?_⟩
  simp only [Ledger.evict, Table.get?_filter]
  rcases h.held with ⟨stored, kept⟩ | ⟨gone, cause⟩
  · cases live : isActiveAt clock key with
    | true => exact .inl ⟨by rw [stored]; exact Option.filter_some_pos live, kept⟩
    | false => exact .inr ⟨by simp [stored, show key.entry.isLive _ _ = false from live], .inr rfl⟩
  · exact .inr ⟨by rw [gone]; rfl, cause⟩

/-- A sweep at the end does not matter. -/
theorem of_swept (h : Standing key past l clock)
    (hk : k = l ∨ k = l.evict clock.timestamp clock.sequence) : Standing key past k clock := by
  rcases hk with rfl | rfl
  · exact h
  · exact h.evict

theorem revoke (h : Standing key past l clock) (id : String) :
    Standing key (past ++ [.revoked id]) (l.revoke id) clock := by
  refine ⟨h.counted, ?_⟩
  simp only [Ledger.revoke, Table.get?_erase, List.mem_append, List.mem_singleton,
    KeyEvent.revoked.injEq]
  by_cases he : id = key.id
  · simp [he]
  · simpa [he, Ne.symm he] using h.held

/-- A key that is issued later has another id, because the counter is past the earlier key. -/
theorem grant (h : Standing key past l clock) (hk : key.Derived) (ho : other.Derived)
    (hn : other.nonce = l.keyCounter other.company other.auditor) (apart : key.Apart other) :
    Standing key (past ++ [.issued other]) (l.grant other) clock := by
  have fresh : other.id ≠ key.id := fun he => by
    obtain ⟨hc, ha, same⟩ := apart (ho.trans (he ▸ hk.symm))
    have counted := h.counted
    rw [← same, ← hc, ← ha, hn] at counted
    exact Int.lt_irrefl _ counted
  constructor
  · have counted := h.counted
    rw [Ledger.keyCounter_grant]
    split <;> omega
  · simpa [Ledger.grant, Table.get?_insert, fresh] using h.held

/-- What leaves the keyring alone. -/
theorem of_basic {action : Action σ α} (h : Standing key past host.ledger host.clock)
    (ha : Basic (Ledger.WriteTo besidesKeyring) action)
    (hc : host.clock ≤ (action.after host).clock) :
    Standing key past (action.after host).ledger (action.after host).clock := by
  cases ha with
  | quiet hq =>
    rw [(hq.still host).ledger]
    exact h.of_later hc
  | write hw =>
    obtain ⟨part, hp, hw⟩ := hw
    simp only [besidesKeyring, books, remainder] at hp
    have counters : part ≠ .keyCounters := by rintro rfl; simp at hp
    have keys : part ≠ .viewKeys := by rintro rfl; simp at hp
    exact h.of_same (hw.agree counters.symm _) (hw.agree keys.symm _)
  | publish => exact h
  | evict => exact h.evict

end Standing

/-- No other key of a history has the id of a key. -/
def ViewKey.Unmatched (key : ViewKey) (events : List KeyEvent) : Prop :=
  ∀ other, .issued other ∈ events → key.Apart other

/-- A key stands through a run that goes forward and in which no other key takes its id. -/
theorem Action.KeyRun.standing {action : Action σ α} (h : KeyRun action host events)
    (hk : key.Derived) (hs : Standing key past host.ledger host.clock)
    (hf : Forward host.clock events) (hu : key.Unmatched events) :
    Standing key (past ++ events) (action.after host).ledger (action.after host).clock := by
  induction h generalizing past with
  | besides ha =>
    have moved := hf.le (KeyEvent.mem_readings_reached _ _)
    exact (hs.of_basic ha moved).of_past (by simp)
  | issued hr =>
    obtain ⟨⟨id, rfl⟩, derived, clock, swept⟩ := ViewKeys.of_issue_ok hr
    rw [after, hr, clock]
    exact (hs.grant hk derived rfl (hu _ (List.mem_singleton_self _))).of_swept swept
  | @unissued _ _ host later _ hr =>
    have moved : host.clock ≤ later.clock := hf.le (KeyEvent.mem_readings_reached _ _)
    rw [after, hr, (ViewKeys.issue_failsEarly _ _).ledger hr]
    exact (hs.of_later moved).of_past (by simp)
  | revoked hr =>
    obtain ⟨clock, swept⟩ := ViewKeys.of_revoke_ok hr
    rw [after, hr, clock]
    exact (hs.revoke _).of_swept swept
  | @unrevoked _ _ host later _ hr =>
    have moved : host.clock ≤ later.clock := hf.le (KeyEvent.mem_readings_reached _ _)
    rw [after, hr, (ViewKeys.revoke_failsEarly _ _).ledger hr]
    exact (hs.of_later moved).of_past (by simp)
  | pure => exact hs.of_past (by simp)
  | bind hr hb _ ih₁ ih₂ =>
    have read := hb.clock_mem
    rw [after, hr] at ih₁ read
    obtain ⟨hf₁, hf₂⟩ := hf.append read
    have between := ih₁ hs hf₁ fun other ho => hu other (List.mem_append_left _ ho)
    rw [after_bind_ok hr, ← List.append_assoc]
    exact ih₂ between hf₂ fun other ho => hu other (List.mem_append_right _ ho)
  | halted hr _ ih =>
    rw [after, hr] at ih
    rw [after_bind_error hr]
    exact ih hs hf hu
  | outcome _ ih => exact ih hs hf hu
  | nested hd _ ih =>
    rw [after, Host.transaction_nested hd]
    exact ih hs hf hu
  | @committed _ _ _ reached _ _ hd hr _ ih =>
    rw [after, hr] at ih
    rw [after, Host.transaction_ok hd hr, Host.committed_clock]
    exact (ih hs hf hu).of_swept (Host.committed_ledger reached)
  | rolledBack hd hr hb =>
    -- what happened inside does not matter, except that time has passed
    have read := hb.clock_mem
    rw [after, hr] at read
    rw [after, Host.transaction_error hd hr]
    exact (hs.of_later (hf.clockOnly.le read)).of_past (by simp)

-- ---------------------------------------------------------------------------
-- Use
-- ---------------------------------------------------------------------------

theorem Standing.grantsAccess_iff (h : Standing key past host.ledger host.clock)
    {auditor : Principal} :
    grantsAccess host key.id auditor = true ↔
      auditor = key.auditor ∧ .revoked key.id ∉ past ∧ isActiveAt host.clock key = true := by
  rw [ViewKeys.grantsAccess_iff, ViewKeys.stored?]
  rcases h.held with ⟨stored, kept⟩ | ⟨gone, cause⟩
  · rw [stored]
    constructor
    · rintro ⟨_, ⟨⟩, rfl, active⟩
      exact ⟨rfl, kept, active⟩
    · rintro ⟨rfl, -, active⟩
      exact ⟨key, rfl, rfl, active⟩
  · rw [gone]
    refine ⟨fun ⟨_, h, _⟩ => (nomatch h), fun ⟨_, kept, active⟩ => ?_⟩
    rcases cause with revoked | expired
    · exact absurd revoked kept
    · rw [expired] at active
      cases active

namespace ViewKeys

/-- Within the duration of a key that was issued on a request. The last moment of it counts on the
sequence basis only. -/
def Request.Timely (config : AuditConfig) (request : Request) (issuedAt now : Clock) : Prop :=
  match config.expiryBasis with
  | .timestamp => now.timestamp < issuedAt.timestamp + request.effectiveDuration config
  | .sequence => now.sequence ≤ issuedAt.sequence + request.effectiveDuration config

/-- A key that was issued on a request can be used: by its auditor, unless it was revoked, and
within its duration. -/
structure Usable (config : AuditConfig) (request : Request) (key : ViewKey) (issuedAt now : Clock)
    (events : List KeyEvent) (auditor : Principal) : Prop where
  own : auditor = request.auditor
  kept : .revoked key.id ∉ events
  timely : request.Timely config issuedAt now

theorem isActiveAt_key {config : AuditConfig} {request : Request} {issuedAt now : Clock}
    {count : Nat} {id : String} :
    isActiveAt now (request.key config issuedAt count id) = true ↔
      request.Timely config issuedAt now := by
  obtain ⟨basis, _, _⟩ := config
  cases basis <;> exact decide_eq_true_iff

instance (config : AuditConfig) (request : Request) (issuedAt now : Clock) :
    Decidable (request.Timely config issuedAt now) :=
  decidable_of_iff (isActiveAt now (request.key config issuedAt 0 "") = true) isActiveAt_key

section
variable {base d : Deployment σ} {request : Request} {granted : Host σ}

/-- A key stands as soon as it is issued. -/
theorem standing_of_issue (h : (issue d request).run host = (.ok key, granted)) :
    Standing key [] granted.ledger granted.clock := by
  obtain ⟨⟨id, rfl⟩, -, clock, swept⟩ := of_issue_ok h
  rw [clock]
  refine Standing.of_swept ⟨?_, .inl ⟨?_, List.not_mem_nil⟩⟩ swept
  · rw [Ledger.keyCounter_grant, if_pos ⟨rfl, rfl⟩]
    exact Int.lt_succ _
  · exact (Table.get?_insert ..).trans (if_pos rfl)

/-- A key that was issued can be used throughout its lifetime and at no other time. After every
course of calls that goes forward, it grants access iff it is usable by the history of the course,
and what an auditor who has signed asks under it turns it down iff it is not. -/
theorem usable_lifetime (hs : Disclosure.KeepsOut d.scheme)
    (hk : (issue d request).run host = (.ok key, granted)) {action : Action σ α}
    (ha : Course base action) :
    (∃ events, KeyRun action granted events) ∧
      ∀ events, KeyRun action granted events → Forward granted.clock events →
        key.Unmatched events → ∀ now, action.after granted = now → ∀ auditor,
          (grantsAccess now key.id auditor = true ↔
            Usable d.config.audit request key host.clock now.clock events auditor) ∧
          (now.authority.allows auditor = true →
            ∀ call : AuditCall, call.presented? = some (key.id, auditor) →
              (TurnsDown (call.run d) now ↔
                ¬ Usable d.config.audit request key host.clock now.clock events auditor)) := by
  refine ⟨ha.keyRun granted, ?_⟩
  rintro events run forward unmatched now rfl auditor
  have standing := run.standing (of_issue_ok hk).2.1 (standing_of_issue hk) forward unmatched
  have grants : grantsAccess (action.after granted) key.id auditor = true ↔
      Usable d.config.audit request key host.clock (action.after granted).clock events auditor := by
    rw [standing.grantsAccess_iff, List.nil_append]
    obtain ⟨⟨id, rfl⟩, -, -, -⟩ := of_issue_ok hk
    rw [isActiveAt_key]
    exact ⟨fun ⟨own, kept, timely⟩ => ⟨own, kept, timely⟩, fun h => ⟨h.own, h.kept, h.timely⟩⟩
  refine ⟨grants, fun signed call hc => ?_⟩
  rw [AuditCall.turnsDown_iff hs signed hc, ← grants, Bool.not_eq_true]

end

end ViewKeys

namespace Sample

/-- The request of the administrator for a key for an auditor. -/
def asked : ViewKeys.Request := ⟨0, "admin", "auditor", .fullCompany, none, none, none, none⟩

/-- The key that is issued on it. -/
def lent : ViewKey :=
  asked.key deployment.config.audit ⟨0, 0⟩ 0
    "31cb16b1690d462ad70fe00b9d769d6aded282989f5c8486dd925947d1106fd1"

/-- The host after the key was issued. -/
def lending : Host Unit := (ViewKeys.issue deployment asked).after staffed

theorem lending_run : (ViewKeys.issue deployment asked).run staffed = (.ok lent, lending) := by
  have issued : ((ViewKeys.issue deployment asked).run staffed).1.toOption = some lent := by
    decide +kernel
  rw [lending, Action.after]
  rcases hr : (ViewKeys.issue deployment asked).run staffed with ⟨failure | key, later⟩
  · rw [hr] at issued
    cases issued
  · rw [hr] at issued
    cases issued
    rfl

/-- Revokes the key and fails. -/
def recanting : Action Unit Unit := do
  let _ ← Call.run deployment (.audit (.revoke "admin" lent.id))
  Action.raise (.interrupted "boom")

/-- Revokes the key in a transaction that fails, and waits until the last second of the key. -/
def waiting : Action Unit Answer := do
  let _ ← (Host.transaction recanting).outcome
  ClockCall.run (.advance (thirtyDays - 1) 0)

theorem waiting_course : Course deployment waiting :=
  Program.course reentrant <| .bind (.outcome (.transaction (.bind (.base (.call _)) fun _ =>
    .base (.raise _)))) fun _ => .base (.clock _)

theorem waiting_history :
    KeyRun waiting lending [.reached ⟨0, 0⟩, .reached ⟨thirtyDays - 1, 0⟩] := by
  let opened : Host Unit := { lending with depth := 1 }
  let call : Action Unit Answer := Call.run deployment (.audit (.revoke "admin" lent.id))
  let reached : Host Unit := (ViewKeys.revoke "admin" lent.id).after opened
  let boom : Action Unit Unit := .raise (.interrupted "boom")
  obtain ⟨_, revoked⟩ := Action.of_isOk (ViewKeys.revoke "admin" lent.id) opened (by decide +kernel)
  have called : call.run opened = (.ok .nothing, reached) :=
    Action.run_bind_ok revoked
  have raised : KeyRun boom reached [.reached (boom.after reached).clock] :=
    .besides (.quiet (.raise _))
  have inside : KeyRun recanting opened _ :=
    .bind called (.bind revoked (.revoked revoked) (.pure _ _)) raised
  have failed : recanting.run opened =
      (.error (Fault.raised (.interrupted "boom")), reached) := Action.run_bind_ok called
  have rolled : KeyRun (Host.transaction recanting) lending
      [.reached (boom.after reached).clock] :=
    .rolledBack (by decide +kernel) failed inside
  let advance : Action Unit Answer := ClockCall.run (.advance (thirtyDays - 1) 0)
  let waited := (Host.transaction recanting).after lending
  have passed : KeyRun advance waited [.reached (advance.after waited).clock] :=
    .besides (.quiet (ClockCall.quiet _))
  rw [show (boom.after reached).clock = ⟨0, 0⟩ by decide +kernel] at rolled
  rw [show (advance.after waited).clock = ⟨thirtyDays - 1, 0⟩ by decide +kernel] at passed
  exact .bind (Action.run_outcome _ _) (.outcome rolled) passed

/-- A revocation that was rolled back does not count, so the key can be used until it runs out. -/
theorem waiting_usable :
    grantsAccess (waiting.after lending) lent.id "auditor" = true ∧
      ¬ TurnsDown (AuditCall.run deployment (.report lent.id "auditor" 0 9))
        (waiting.after lending) := by
  have forward : Forward lending.clock [.reached ⟨0, 0⟩, .reached ⟨thirtyDays - 1, 0⟩] := by
    rw [(ViewKeys.of_issue_ok lending_run).2.2.1]
    decide +kernel
  have unmatched : lent.Unmatched [.reached ⟨0, 0⟩, .reached ⟨thirtyDays - 1, 0⟩] := by
    intro other ho
    simp at ho
  obtain ⟨grants, questions⟩ := (ViewKeys.usable_lifetime Disclosure.sha256_keepsOut lending_run
    waiting_course).2 _ waiting_history forward unmatched _ rfl "auditor"
  have usable : ViewKeys.Usable deployment.config.audit asked lent staffed.clock
      (waiting.after lending).clock [.reached ⟨0, 0⟩, .reached ⟨thirtyDays - 1, 0⟩] "auditor" :=
    ⟨rfl, by simp, by decide +kernel⟩
  refine ⟨grants.mpr usable, fun turned => ?_⟩
  exact (questions (by decide +kernel) (.report lent.id "auditor" 0 9) rfl).mp turned usable

end Sample

end SealedPayroll
