import SealedPayroll.Proofs.Audit.Granted

/-!
# The keys that are stored

From one place of a run to another, counters of keys only grow, and a key that
is there in the end was there in the beginning or has a count that was not
given out then (`Ledger.Renews`). So no two keys ever have the same count for a
company and an auditor, whatever is revoked or swept in between. What a request
has to say for itself before a key is issued shows in the key: its parameters
are those of its scope, and its term is no longer than the settings allow. None
of this depends on what the digests of ids are.
-/

namespace SealedPayroll

open SealedPayroll.Action (Footprint Keeps)
open SealedPayroll.Ledger (Swept)

variable {σ α : Type} {host later : Host σ} {l k : Ledger} {config : AuditConfig}

-- ---------------------------------------------------------------------------
-- What a key is issued for
-- ---------------------------------------------------------------------------

/-- A key has the parameters that its scope takes, and no others. -/
structure ViewKey.Scoped (key : ViewKey) : Prop where
  listed : key.scope = .employeeList → ∃ names, key.employees = some names ∧ names ≠ []
  unlisted : key.scope ≠ .employeeList → key.employees = none
  windowed : key.scope = .timeRange →
    ∃ first last, key.periodStart = some first ∧ key.periodEnd = some last ∧ first ≤ last
  unwindowed : key.scope ≠ .timeRange → key.periodStart = none ∧ key.periodEnd = none

/-- A key that expires by the time has some time to live, and no more than the settings allow. -/
def ViewKey.Termed (config : AuditConfig) (key : ViewKey) : Prop :=
  key.basis = .timestamp → 0 < key.expiresAt - key.createdAt ∧
    ∀ longest, config.longestDuration = some longest → key.expiresAt - key.createdAt ≤ longest

namespace ViewKeys

variable {d : Deployment σ} {request : Request} {clock : Clock} {count : Nat} {id : String}

theorem Request.defect?_eq_none : request.defect? config = none ↔
    request.auditor ≠ "" ∧ request.employeesDefect? = none ∧ request.windowDefect? = none ∧
      request.durationDefect? config = none := by
  rw [defect?]
  split
  · rename_i empty
    simp [empty]
  · rename_i given
    simp only [Option.or_eq_none_iff, Option.map_eq_none_iff, given, ne_eq, not_false_eq_true,
      true_and]

/-- What a request says of employees agrees with its scope. -/
theorem Request.of_employeesDefect? (h : request.employeesDefect? = none) :
    (request.scope = .employeeList → ∃ names, request.employees = some names ∧ names ≠ []) ∧
      (request.scope ≠ .employeeList → request.employees = none) := by
  constructor
  · intro listed
    rw [employeesDefect?, if_pos listed] at h
    split at h
    · cases h
    · rename_i given
      rcases hn : request.employees with _ | names
      · simp [hn] at given
      · rw [hn, Option.getD_some, List.isEmpty_iff] at given
        exact ⟨names, rfl, given⟩
  · intro unlisted
    rw [employeesDefect?, if_neg unlisted] at h
    split at h
    · cases h
    · rename_i missing
      exact Option.not_isSome_iff_eq_none.mp missing

/-- What a request says of a window agrees with its scope. -/
theorem Request.of_windowDefect? (h : request.windowDefect? = none) :
    (request.scope = .timeRange → ∃ first last,
        request.periodStart = some first ∧ request.periodEnd = some last ∧ first ≤ last) ∧
      (request.scope ≠ .timeRange → request.periodStart = none ∧ request.periodEnd = none) := by
  constructor
  · intro windowed
    rw [windowDefect?, if_pos windowed] at h
    split at h
    · rename_i first last hs he
      split at h
      · cases h
      · rename_i ordered
        exact ⟨first, last, hs, he, Int.not_lt.mp ordered⟩
    · cases h
  · intro unwindowed
    rw [windowDefect?, if_neg unwindowed] at h
    split at h
    · cases h
    · rename_i missing
      rw [Bool.or_eq_true, not_or] at missing
      obtain ⟨start, stop⟩ := missing
      exact ⟨Option.not_isSome_iff_eq_none.mp start, Option.not_isSome_iff_eq_none.mp stop⟩

theorem Request.scoped_key (employees : request.employeesDefect? = none)
    (window : request.windowDefect? = none) : (request.key config clock count id).Scoped where
  listed := (of_employeesDefect? employees).1
  unlisted := (of_employeesDefect? employees).2
  windowed := (of_windowDefect? window).1
  unwindowed := (of_windowDefect? window).2

theorem Request.termed_key (h : request.durationDefect? config = none) :
    (request.key config clock count id).Termed config := by
  intro timed
  have term : (request.key config clock count id).expiresAt -
      (request.key config clock count id).createdAt = request.effectiveDuration config := by
    have basis : config.expiryBasis = .timestamp := timed
    simp only [key, basis, Clock.reading]
    omega
  rw [term]
  simp only [durationDefect?] at h
  split at h
  · cases h
  · rename_i positive
    refine ⟨Int.not_le.mp positive, fun longest hl => ?_⟩
    simp only [hl] at h
    split at h
    · cases h
    · rename_i short
      exact Int.not_lt.mp short

/-- A key is issued only if nothing is wrong with the request. -/
theorem defect?_of_issue {key : ViewKey} (h : (issue d request).run host = (.ok key, later)) :
    request.defect? d.config.audit = none := by
  simp only [issue] at h
  split at h
  · cases h
  · assumption

end ViewKeys

-- ---------------------------------------------------------------------------
-- Keys that come
-- ---------------------------------------------------------------------------

/-- An entry of a key that was issued somewhere between two ledgers. -/
structure Ledger.Issued (config : AuditConfig) (l k : Ledger) (entry : Expiring ViewKey) :
    Prop where
  stored : entry = entry.value.entry
  parameters : entry.value.Scoped
  term : entry.value.Termed config
  new : (l.keyCounter entry.value.company entry.value.auditor : Int) ≤ entry.value.nonce
  counted : entry.value.nonce < k.keyCounter entry.value.company entry.value.auditor

/-- Counters grow, and whatever keys there are were there before or have been issued since. -/
structure Ledger.Renews (config : AuditConfig) (l k : Ledger) : Prop where
  counters : ∀ company auditor, l.keyCounter company auditor ≤ k.keyCounter company auditor
  keys : ∀ id entry, k.viewKeys.get? id = some entry →
    l.viewKeys.get? id = some entry ∨ l.Issued config k entry

namespace Ledger.Renews

theorem of_shrinks (shrinks : l.Shrinks k) (hc : k.keyCounters = l.keyCounters) :
    l.Renews config k where
  counters company auditor := by rw [keyCounter, keyCounter, hc]
  keys id entry held := .inl (shrinks id entry held)

theorem trans {m : Ledger} (h₁ : l.Renews config k) (h₂ : k.Renews config m) :
    l.Renews config m where
  counters company auditor := Nat.le_trans (h₁.counters _ _) (h₂.counters _ _)
  keys id entry held := by
    rcases h₂.keys id entry held with between | ⟨stored, parameters, term, new, counted⟩
    · rcases h₁.keys id entry between with before | ⟨stored, parameters, term, new, counted⟩
      · exact .inl before
      · have grown := h₂.counters entry.value.company entry.value.auditor
        exact .inr ⟨stored, parameters, term, new, by omega⟩
    · have grown := h₁.counters entry.value.company entry.value.auditor
      exact .inr ⟨stored, parameters, term, by omega, counted⟩

theorem chained (config : AuditConfig) : Chained (Ledger.Renews config) where
  refl _ := .of_shrinks (.of_same rfl) rfl
  trans := trans
  evict l timestamp sequence := .of_shrinks (.evict l timestamp sequence) rfl

/-- A key that is granted takes the count as it stands. -/
theorem grant {key : ViewKey} (parameters : key.Scoped) (term : key.Termed config)
    (count : key.nonce = l.keyCounter key.company key.auditor) : l.Renews config (l.grant key) where
  counters company auditor := by
    rw [keyCounter_grant]
    split <;> omega
  keys id entry held := by
    simp only [Ledger.grant, Table.get?_insert] at held
    split at held
    · cases held
      refine .inr ⟨rfl, parameters, term, Int.le_of_eq count.symm, ?_⟩
      simp only [ViewKey.entry, keyCounter_grant, and_self, if_true]
      omega
    · exact .inl held

end Ledger.Renews

theorem Affair.renews {base : Deployment σ} {direct : Prop} {parts : List Ledger.Part}
    {action : Action σ α} (h : Affair base direct parts action) :
    Keeps (Ledger.Renews base.config.audit) action := by
  have chained := Ledger.Renews.chained base.config.audit
  have footprint := h.footprint
  intro host
  cases h with
  | @issue d request settings _ =>
    apply (ViewKeys.issue_failsEarly d request).holds_after (chained.refl _)
    intro key later hr
    have sound := ViewKeys.Request.defect?_eq_none.mp (ViewKeys.defect?_of_issue hr)
    obtain ⟨-, employees, window, duration⟩ := sound
    obtain ⟨⟨id, made⟩, -, -, swept⟩ := ViewKeys.of_issue_ok hr
    have granted : host.ledger.Renews base.config.audit (host.ledger.grant key) := by
      rw [made, ← settings]
      exact .grant (ViewKeys.Request.scoped_key employees window)
        (ViewKeys.Request.termed_key duration) rfl
    exact Swept.imp swept (fun h => chained.trans h (chained.evict _ _ _)) granted
  | revoke admin id =>
    apply (ViewKeys.revoke_failsEarly admin id).holds_after (chained.refl _)
    intro _ later hr
    obtain ⟨-, swept⟩ := ViewKeys.of_revoke_ok hr
    exact Swept.imp swept (fun h => chained.trans h (chained.evict _ _ _))
      (.of_shrinks (.revoke _ _) rfl)
  | _ =>
    exact .of_shrinks (.besides footprint (by decide) host)
      (footprint.agree .keyCounters (by decide) rfl host)

/-- A key that stands under an id of its own, in an entry that lives as long as the key does. Its
count was given out, the administrator of its company has granted it, and its parameters and its
term are what they should be. -/
structure Ledger.KeyInOrder (config : AuditConfig) (l : Ledger) (id : String)
    (entry : Expiring ViewKey) : Prop where
  own : entry.value.id = id
  derived : ViewKey.deriveId entry.value.company entry.value.auditor entry.value.nonce = .ok id
  expiry : entry.expiresAt = entry.value.expiresAt
  basis : entry.basis = entry.value.basis
  lives : ∀ timestamp sequence,
    entry.isLive timestamp sequence = entry.value.isActive timestamp sequence
  count : 0 ≤ entry.value.nonce ∧
    entry.value.nonce < l.keyCounter entry.value.company entry.value.auditor
  granter : ∃ company, l.companies.get? entry.value.company = some company ∧
    company.admin = entry.value.grantedBy
  parameters : entry.value.Scoped
  term : entry.value.Termed config

/-- An entry that is stored for a key lives as long as the key. -/
theorem Expiring.isLive_key {entry : Expiring ViewKey} (stored : entry = entry.value.entry)
    (timestamp sequence : Int) :
    entry.isLive timestamp sequence = entry.value.isActive timestamp sequence := by
  rw [stored]
  rfl

-- ---------------------------------------------------------------------------
-- Runs
-- ---------------------------------------------------------------------------

section
variable {base d e : Deployment σ} {reached : Host σ}

theorem Passes.renews (h : Passes base d host e reached) (hd : Reentrant base d) :
    host.ledger.Renews base.config.audit reached.ledger :=
  ((Regime.Passes.of_public h).leads Regime.orderly_public (.of_public hd)).2.keeps
    (Ledger.Renews.chained _) fun _ _ ⟨_, ha⟩ => ha.renews

/-- Every key that is stored was issued at some time. -/
theorem Reachable.issued (h : Reachable base d host) (id : String) (entry : Expiring ViewKey)
    (held : host.ledger.viewKeys.get? id = some entry) :
    Ledger.empty.Issued base.config.audit host.ledger entry := by
  obtain ⟨outer, start, hr, hi, hp⟩ := h
  have renews := hp.renews hr
  rw [hi.ledger] at renews
  exact (renews.keys id entry held).resolve_left nofun

theorem Reachable.keyInOrder (h : Reachable base d host) (wired : base.auditSeesRegistry = true)
    {id : String} {entry : Expiring ViewKey} (held : host.ledger.viewKeys.get? id = some entry) :
    host.ledger.KeyInOrder base.config.audit id entry := by
  obtain ⟨stored, parameters, term, new, counted⟩ := h.issued id entry held
  obtain ⟨own, derived, granter⟩ := h.granted wired id entry held
  obtain ⟨company, found, admin⟩ := Option.map_eq_some_iff.mp granter
  exact
    { own := own
      derived := own ▸ derived
      expiry := congrArg _ stored
      basis := congrArg _ stored
      lives := Expiring.isLive_key stored
      count := ⟨new, counted⟩
      granter := ⟨company, found, admin⟩
      parameters := parameters
      term := term }

/-- Wherever a run is in a deployment whose audit part sees the registry, the keys are in order, and
a sweep removes those that are not active any more. No two keys have the same count for a company
and an auditor, and one that comes later has a higher count than all that were there before. -/
theorem Reachable.stored_keys (h : Reachable base d host) (wired : base.auditSeesRegistry = true) :
    (∀ id entry, host.ledger.viewKeys.get? id = some entry →
        host.ledger.KeyInOrder base.config.audit id entry) ∧
      (∀ clock, (Host.evictExpired.after { host with clock }).ledger.viewKeys =
        host.ledger.viewKeys.filter fun _ entry => ViewKeys.isActiveAt clock entry.value) ∧
      (∀ id other entry held, host.ledger.viewKeys.get? id = some entry →
        host.ledger.viewKeys.get? other = some held →
        entry.value.company = held.value.company → entry.value.auditor = held.value.auditor →
        entry.value.nonce = held.value.nonce → id = other) ∧
      ∀ e reached, Passes base d host e reached → ∀ id entry,
        reached.ledger.viewKeys.get? id = some entry →
          host.ledger.viewKeys.get? id = some entry ∨
          ∀ other held, host.ledger.viewKeys.get? other = some held →
            entry.value.company = held.value.company → entry.value.auditor = held.value.auditor →
            held.value.nonce < entry.value.nonce := by
  refine ⟨fun _ _ held => h.keyInOrder wired held, fun clock => ?_, ?_, ?_⟩
  · refine Table.eq_of_entries (List.filter_congr fun row member => ?_)
    have held := Table.get?_eq_some_iff.mpr member
    exact (h.keyInOrder wired held).lives _ _
  · intro id other entry held hi ho company auditor nonce
    have same := (h.keyInOrder wired hi).derived
    rw [company, auditor, nonce, (h.keyInOrder wired ho).derived] at same
    cases same
    rfl
  · intro e reached hp id entry there
    refine ((hp.renews h.reentrant).keys id entry there).imp_right ?_
    intro later other held before company auditor
    have counted := (h.issued other held before).counted
    have new := later.new
    rw [company, auditor] at new
    omega

end

namespace Sample

/-- Revokes the key, and has one issued that shows the first nine seconds for an hour. -/
def relending : Action Unit Unit := do
  let _ ← Call.run deployment (.audit (.revoke "admin" lent.id))
  let _ ← Call.run deployment (.audit (.issue { asked with
    scope := .timeRange, duration := some 3600, periodStart := some 0, periodEnd := some 9 }))

/-- The key that was issued in place of another one does not take over its count. -/
theorem relent_keys :
    let relent := relending.after lending
    relent.ledger.viewKeys.contains lent.id = false ∧ relent.ledger.viewKeys.values.length = 1 ∧
      ∀ id entry, relent.ledger.viewKeys.get? id = some entry →
        entry.value.Scoped ∧ entry.value.nonce < relent.ledger.keyCounter 0 "auditor" ∧
          lent.nonce < entry.value.nonce := by
  have first : Passes deployment deployment staffed deployment lending := by
    rw [lending, ← Action.after_map _ Answer.viewKey]
    exact .ran (.base (.call (.audit (.issue asked)))) (.here _ _)
  have program : Program deployment relending :=
    .bind (.base (.call _)) fun _ => .bind (.base (.call _)) fun _ => .pure _
  have second : Passes deployment deployment lending deployment (relending.after lending) :=
    .ran program (.here _ _)
  have reached := staffed_reachable.passes first
  obtain ⟨-, -, -, later⟩ := reached.stored_keys rfl
  obtain ⟨sound, -, -, -⟩ := (reached.passes second).stored_keys rfl
  obtain ⟨only, listed⟩ :
      (∀ row ∈ lending.ledger.viewKeys.entries, row.1 = lent.id ∧ row.2.value = lent) ∧
        lending.ledger.viewKeys.contains lent.id = true := by
    decide +kernel
  obtain ⟨gone, single, labels⟩ :
      (relending.after lending).ledger.viewKeys.contains lent.id = false ∧
        (relending.after lending).ledger.viewKeys.values.length = 1 ∧
        ∀ row ∈ (relending.after lending).ledger.viewKeys.entries,
          row.2.value.company = 0 ∧ row.2.value.auditor = "auditor" := by
    decide +kernel
  refine ⟨gone, single, fun id entry now => ?_⟩
  obtain ⟨company, auditor⟩ := labels _ (Table.get?_eq_some_iff.mp now)
  have inOrder := sound id entry now
  have counted := inOrder.count.2
  rw [company, auditor] at counted
  refine ⟨inOrder.parameters, counted, ?_⟩
  rcases later _ _ second id entry now with before | new
  · obtain ⟨rfl, -⟩ := only _ (Table.get?_eq_some_iff.mp before)
    rw [Table.contains_eq_false_iff.mp gone] at now
    cases now
  · obtain ⟨held, there⟩ := Table.contains_eq_true_iff.mp listed
    have same : held.value = lent := (only _ (Table.get?_eq_some_iff.mp there)).2
    rw [← same]
    refine new lent.id held there ?_ ?_ <;> rw [same]
    · exact company
    · exact auditor

end Sample

end SealedPayroll
