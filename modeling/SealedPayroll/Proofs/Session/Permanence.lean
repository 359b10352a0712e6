import SealedPayroll.Proofs.Audit.Trace
import SealedPayroll.Proofs.Host.Published
import SealedPayroll.Proofs.Operation.Early
import SealedPayroll.Proofs.Registry.Companies

/-!
# What is committed stays

Whatever a run of public calls does, with callbacks, caught failures and
transactions that are taken back, nothing goes from the books, the verification
key is not exchanged, companies keep their numbers and all but their counts of
employees, and events are only added at the end (`Host.Persists`). The one
thing that could undo this, the rollback of a transaction, goes back no further
than to where the transaction began. Hosts are taken between calls here; what
the transaction around a host does to it later is not covered.

A run also has a history of its marks: the nullifiers that it used up, the keys
that it set and the companies that it registered, those that were taken back
left out. No mark can be made twice.
-/

namespace SealedPayroll

open SealedPayroll.Action (Built Chronicle Footprint Telling)

variable {σ α β : Type} {base : Deployment σ} {host start : Host σ}

-- ---------------------------------------------------------------------------
-- Marks
-- ---------------------------------------------------------------------------

/-- The parts of the ledger besides the nullifiers, the verification key and the count of
companies. -/
def unmarked : List Ledger.Part :=
  [.companies, .bindings, .commitments, .balances, .payments, .totals, .keyCounters, .foreign,
    .viewKeys, .foreignExpiring]

namespace Action

/-- What every course is made of: uses of nullifiers, settings of the key, registrations, and
whatever leaves the unique parts of the ledger alone. -/
inductive MarkStep : ⦃α : Type⦄ → Action σ α → Prop
  | besides {α : Type} {action : Action σ α} : Footprint unmarked action → MarkStep action
  | use (value : Bytes) : MarkStep (Nullifiers.use value)
  | setKey (key : VerificationKey) : MarkStep (Verifier.setKey key)
  | register (admin treasury : Principal) : MarkStep (Registry.register admin treasury)

theorem Built.unmarked {parts : List Ledger.Part} {action : Action σ α} (h : Footprint parts action)
    (hp : parts ⊆ unmarked) : Built MarkStep action :=
  .base (.besides (h.widen hp))

end Action

open SealedPayroll.Action (MarkStep)

theorem Operation.markSteps {action : Action σ α} (h : Operation action) :
    Built MarkStep action := by
  cases h with
  | quiet hq => exact .base (.besides (.quiet hq))
  | publish topics data => exact .base (.besides (.base (.publish _ _)))
  | evict => exact .base (.besides (.base .evict))
  | foreign apart => exact .base (.besides (.write (.foreign apart _ _) (by simp [unmarked])))
  | unforeign apart => exact .base (.besides (.write (.unforeign apart _) (by simp [unmarked])))
  | foreignExpiring f => exact .base (.besides (.write (.foreignExpiring f) (by simp [unmarked])))
  | register admin treasury => exact .base (.register admin treasury)
  | enrol => exact .unmarked (Registry.enrol_footprint _ _ _) (by simp [unmarked])
  | release => exact .unmarked (Registry.release_footprint _ _) (by simp [unmarked])
  | updateCommitment =>
    exact .unmarked (Registry.updateCommitment_footprint _ _ _) (by simp [unmarked])
  | recordPayment => exact .unmarked (Registry.recordPayment_footprint _ _ _) (by simp [unmarked])
  | store => exact .unmarked (CommitmentStore.store_footprint _ _ _) (by simp [unmarked])
  | update => exact .unmarked (CommitmentStore.update_footprint _ _) (by simp [unmarked])
  | updateAll => exact .unmarked (CommitmentStore.updateAll_footprint _) (by simp [unmarked])
  | remove => exact .unmarked (CommitmentStore.remove_footprint _) (by simp [unmarked])
  | setKey key => exact .base (.setKey key)
  | mint => exact .unmarked (Tokens.mint_footprint _ _ _) (by simp [unmarked])
  | transfer => exact .unmarked (Tokens.transfer_footprint _ _ _) (by simp [unmarked])
  | issue => exact .unmarked (ViewKeys.issue_footprint _ _) (by simp [unmarked])
  | revoke => exact .unmarked (ViewKeys.revoke_footprint _ _) (by simp [unmarked])
  | use value => exact .base (.use value)
  | enter company period entry =>
    -- a use that answers stays, whatever becomes of the booking after it
    exact .bind (.base (.use entry.nullifier)) fun _ =>
      .unmarked (Payroll.book_footprint company period entry) (by simp [unmarked])

theorem Course.markSteps {action : Action σ α} (h : Course base action) : Built MarkStep action :=
  h.built.trans fun _ _ ha => ha.markSteps

-- ---------------------------------------------------------------------------
-- Verification key and companies
-- ---------------------------------------------------------------------------

/-- The verification key stays, once there is one. -/
def Ledger.HoldsKey (l k : Ledger) : Prop :=
  ∀ key, l.verificationKey = some key → k.verificationKey = some key

theorem holdsKey_chained : Chained Ledger.HoldsKey where
  refl _ _ h := h
  trans h₁ h₂ key h := h₂ key (h₁ key h)
  evict _ _ _ _ h := h

theorem Action.MarkStep.holdsKey {action : Action σ α} (h : MarkStep action) :
    Action.Keeps Ledger.HoldsKey action := by
  intro host
  have still {parts : List Ledger.Part} {β : Type} {other : Action σ β} (h : Footprint parts other)
      (hp : .verificationKey ∉ parts) : host.ledger.HoldsKey (other.after host).ledger := by
    have same : (other.after host).ledger.verificationKey = host.ledger.verificationKey :=
      h.agree .verificationKey hp rfl host
    intro key hk
    rw [same, hk]
  cases h with
  | besides h => exact still h (by decide)
  | use value => exact still (Nullifiers.use_footprint value) (by decide)
  | register admin treasury => exact still (Registry.register_footprint admin treasury) (by decide)
  | setKey given =>
    intro key hk
    refine (Verifier.setKey_failsEarly given).holds_after
      (I := fun l => l.verificationKey = some key) hk fun _ later hr => ?_
    have absent := (Verifier.of_setKey_ok hr).1
    rw [hk] at absent
    cases absent

theorem Course.holdsKey {action : Action σ α} (h : Course base action) :
    Action.Keeps Ledger.HoldsKey action :=
  holdsKey_chained.built (fun _ _ ha => ha.holdsKey) h.markSteps

theorem staysEnumerated_chained : Chained StaysEnumerated where
  refl _ h := .of_same h rfl rfl
  trans h₁ h₂ h := (h₁ h).trans (h₂ (h₁ h).enumerated)
  evict _ _ _ h := .of_same h rfl rfl

theorem Course.affairs {action : Action σ α} (h : Course base action) : Affairs base True action :=
  h.trans fun _ _ ⟨_, hd, ha⟩ =>
    Regime.orderly_public ((Regime.Reentrant.of_public hd).conforms Regime.orderly_public) _ ha

theorem Course.staysEnumerated {action : Action σ α} (h : Course base action) :
    Action.Keeps StaysEnumerated action :=
  staysEnumerated_chained.built (fun _ _ ⟨_, ha⟩ => ha.staysEnumerated) h.affairs

-- ---------------------------------------------------------------------------
-- What stays
-- ---------------------------------------------------------------------------

/-- What one host has on record, another one has as well. -/
structure Host.Persists (host later : Host σ) : Prop where
  nullifiers : ∀ value usage, host.ledger.nullifiers.get? value = some usage →
    later.ledger.nullifiers.get? value = some usage
  payments : ∀ key record, host.ledger.payments.get? key = some record →
    later.ledger.payments.get? key = some record
  verificationKey : ∀ key, host.ledger.verificationKey = some key →
    later.ledger.verificationKey = some key
  companyCount : host.ledger.companyCount ≤ later.ledger.companyCount
  companies : ∀ id company, host.ledger.companies.get? id = some company →
    ∃ count, later.ledger.companies.get? id = some { company with employeeCount := count }
  events : host.events <+: later.events

theorem Course.persists {action : Action σ α} (h : Course base action)
    (enumerated : host.ledger.Enumerated) : host.Persists (action.after host) := by
  have kept := (postsMany_respected.built h.built host).kept
  have succeeds := h.staysEnumerated host enumerated
  have operations : Footprint (books ++ besidesBooks) action :=
    h.built.trans fun _ _ ha => ha.footprint
  exact {
    nullifiers := kept.nullifiers
    payments := kept.payments
    verificationKey := h.holdsKey host
    companyCount := succeeds.count
    companies := succeeds.companies
    events := operations.events_prefix host }

-- ---------------------------------------------------------------------------
-- What happens once
-- ---------------------------------------------------------------------------

/-- What a run does that nobody can do again. -/
inductive Mark where
  | used (value : Bytes)
  | keySet (key : VerificationKey)
  | registered (id : Int)
  deriving DecidableEq

namespace Mark

def used? : Mark → Option Bytes
  | used value => some value
  | _ => none

def keySet? : Mark → Option VerificationKey
  | keySet key => some key
  | _ => none

def registered? : Mark → Option Int
  | registered id => some id
  | _ => none

/-- What actions tell of the marks that they make: a call that fails makes none. -/
inductive Told : ⦃α : Type⦄ → Action σ α → Host σ → List Mark → Prop
  | besides {α : Type} {action : Action σ α} {host : Host σ} :
      Footprint unmarked action → Told action host []
  | used {value : Bytes} {host later : Host σ} {usage : NullifierRecord} :
      (Nullifiers.use value).run host = (.ok usage, later) →
      Told (Nullifiers.use value) host [.used value]
  | unused {value : Bytes} {host later : Host σ} {failure : Failure} :
      (Nullifiers.use value).run host = (.error failure, later) →
      Told (Nullifiers.use value) host []
  | keySet {key : VerificationKey} {host later : Host σ} :
      (Verifier.setKey key).run host = (.ok (), later) →
      Told (Verifier.setKey key) host [.keySet key]
  | keyUnset {key : VerificationKey} {host later : Host σ} {failure : Failure} :
      (Verifier.setKey key).run host = (.error failure, later) →
      Told (Verifier.setKey key) host []
  | registered {admin treasury : Principal} {host later : Host σ} {id : Int} :
      (Registry.register admin treasury).run host = (.ok id, later) →
      Told (Registry.register admin treasury) host [.registered id]
  | unregistered {admin treasury : Principal} {host later : Host σ} {failure : Failure} :
      (Registry.register admin treasury).run host = (.error failure, later) →
      Told (Registry.register admin treasury) host []

/-- The marks in a history are those on record, in the same order. -/
structure Recorded (past : List Mark) (l : Ledger) : Prop where
  nullifiers : past.filterMap used? = l.nullifiers.entries.map Prod.fst
  verificationKey : past.filterMap keySet? = l.verificationKey.toList
  companies : past.filterMap registered? = (List.range l.companyCount).map Int.ofNat

end Mark

open Mark (Told Recorded used? keySet? registered?)

theorem Action.MarkStep.told {action : Action σ α} (h : MarkStep action) (host : Host σ) :
    ∃ marks, Told action host marks := by
  cases h with
  | besides h => exact ⟨_, .besides h⟩
  | use value =>
    rcases hr : (Nullifiers.use value).run host with ⟨failure | usage, later⟩
    · exact ⟨_, .unused hr⟩
    · exact ⟨_, .used hr⟩
  | setKey key =>
    rcases hr : (Verifier.setKey key).run host with ⟨failure | ⟨⟩, later⟩
    · exact ⟨_, .keyUnset hr⟩
    · exact ⟨_, .keySet hr⟩
  | register admin treasury =>
    rcases hr : (Registry.register admin treasury).run host with ⟨failure | id, later⟩
    · exact ⟨_, .unregistered hr⟩
    · exact ⟨_, .registered hr⟩

namespace Mark.Recorded

variable {past : List Mark} {l k : Ledger}

theorem empty : Recorded [] .empty := ⟨rfl, rfl, rfl⟩

theorem of_same (h : Recorded past l) (hn : k.nullifiers = l.nullifiers)
    (hk : k.verificationKey = l.verificationKey) (hc : k.companyCount = l.companyCount) :
    Recorded past k :=
  ⟨hn ▸ h.nullifiers, hk ▸ h.verificationKey, hc ▸ h.companies⟩

theorem of_footprint (h : Recorded past host.ledger) {action : Action σ α}
    (ha : Footprint unmarked action) : Recorded past (action.after host).ledger :=
  h.of_same (ha.agree .nullifiers (by decide) rfl host)
    (ha.agree .verificationKey (by decide) rfl host) (ha.agree .companyCount (by decide) rfl host)

theorem swept {clock : Clock} (hs : Ledger.Swept clock l k) (h : Recorded past l) :
    Recorded past k :=
  hs.imp (fun h => h.of_same rfl rfl rfl) h

theorem useUp (h : Recorded past l) {value : Bytes} (free : l.nullifiers.get? value = none)
    (timestamp : Int) : Recorded (past ++ [.used value]) (l.useUp value timestamp) where
  nullifiers := by
    simp only [Ledger.useUp, Ledger.putNullifier, Table.entries_insert_new _ free, List.map_append,
      ← h.nullifiers, List.filterMap_append]
    rfl
  verificationKey := by
    simpa [List.filterMap_cons, keySet?, Ledger.useUp, Ledger.putNullifier] using h.verificationKey
  companies := by
    simpa [List.filterMap_cons, registered?, Ledger.useUp, Ledger.putNullifier] using h.companies

theorem setKey (h : Recorded past l) (absent : l.verificationKey = none) (key : VerificationKey) :
    Recorded (past ++ [.keySet key]) (l.setVerificationKey key) where
  nullifiers := by
    simpa [List.filterMap_cons, used?, Ledger.setVerificationKey] using h.nullifiers
  verificationKey := by
    have none := h.verificationKey
    rw [absent] at none
    rw [List.filterMap_append, none]
    rfl
  companies := by
    simpa [List.filterMap_cons, registered?, Ledger.setVerificationKey] using h.companies

theorem register (h : Recorded past l) (company : Company) :
    Recorded (past ++ [.registered l.companyCount]) (l.register company) where
  nullifiers := by
    simpa [List.filterMap_cons, used?, Ledger.register, Ledger.setCompanyCount, Ledger.putCompany]
      using h.nullifiers
  verificationKey := by
    simpa [List.filterMap_cons, keySet?, Ledger.register, Ledger.setCompanyCount,
      Ledger.putCompany] using h.verificationKey
  companies := by
    rw [List.filterMap_append, h.companies, Ledger.register, Ledger.setCompanyCount,
      List.range_succ, List.map_append]
    rfl

/-- Nobody can do any of it again. -/
theorem once (h : Recorded past l) :
    (past.filterMap used?).Nodup ∧ (past.filterMap keySet?).length ≤ 1 ∧
      (past.filterMap registered?).Nodup := by
  refine ⟨h.nullifiers ▸ l.nullifiers.nodup, ?_, ?_⟩
  · rw [h.verificationKey]
    cases l.verificationKey <;> simp
  · rw [h.companies]
    exact List.Pairwise.map _ (fun _ _ hne he => hne (Int.ofNat.inj he)) List.nodup_range

end Mark.Recorded

/-- Every mark that is made goes on record. -/
theorem Mark.told_bears : Telling.Bears (Told : Telling σ Mark) Recorded where
  step ht h := by
    cases ht with
    | besides ha =>
      rw [List.append_nil]
      exact h.of_footprint ha
    | used hr =>
      obtain ⟨free, -, -, -, swept⟩ := Nullifiers.use_swept hr
      rw [Action.after, hr]
      exact .swept swept (h.useUp free _)
    | unused hr =>
      rw [Action.after, hr, List.append_nil, Nullifiers.of_use_error hr]
      exact h
    | @keySet key _ _ hr =>
      obtain ⟨absent, swept⟩ := Verifier.of_setKey_ok hr
      rw [Action.after, hr]
      exact .swept swept (h.setKey absent key)
    | keyUnset hr =>
      rw [Action.after, hr, List.append_nil, (Verifier.setKey_failsEarly _).ledger hr]
      exact h
    | registered hr =>
      obtain ⟨rfl, swept⟩ := Registry.of_register_ok hr
      rw [Action.after, hr]
      exact .swept swept (h.register _)
    | unregistered hr =>
      rw [Action.after, hr, List.append_nil, (Registry.register_failsEarly _ _).ledger hr]
      exact h
  evict _ _ h := h.of_same rfl rfl rfl

/-- Between calls, what is on record in a run stays on record while it goes on. The history of the
run up to there, with what was rolled back left out, tells of every nullifier once, of one
verification key at most, and of every number of a company once, and these are on record. -/
theorem Course.permanent {earlier : Action σ α} {later : Action σ β} (hi : start.Initial)
    (he : Course base earlier) (hl : Course base later) :
    (earlier.after start).Persists (later.after (earlier.after start)) ∧
      (∃ past, Chronicle Told earlier start past) ∧
      ∀ past, Chronicle Told earlier start past →
        (past.filterMap used?).Nodup ∧ (past.filterMap keySet?).length ≤ 1 ∧
          (past.filterMap registered?).Nodup ∧ Recorded past (earlier.after start).ledger := by
  have empty : start.ledger.Enumerated := hi.ledger ▸ .empty
  refine ⟨hl.persists (he.staysEnumerated start empty).enumerated, ?_, fun past told => ?_⟩
  · exact he.markSteps.chronicle (fun _ _ ha => ha.told) start
  · have recorded : Recorded ([] ++ past) (earlier.after start).ledger :=
      told.bears Mark.told_bears (hi.ledger ▸ .empty)
    obtain ⟨used, keySet, registered⟩ := recorded.once
    exact ⟨used, keySet, registered, recorded⟩

namespace Sample

/-- Uses a nullifier, takes that back, and uses it once more. -/
def retrying : Action Unit Unit := do
  let _ ← Action.outcome <| Host.transaction do
    let _ ← Call.run deployment (.nullifiers (.use commitment))
    (Action.raise (.argument .backend) : Action Unit Unit)
  let _ ← Call.run deployment (.nullifiers (.use commitment))

theorem retrying_program : Program deployment retrying :=
  .bind (.outcome (.transaction (.bind (.base (.call _)) fun _ => .base (.raise _)))) fun _ =>
    .bind (.base (.call _)) fun _ => .pure _

theorem retrying_permanent :
    ∃ past, Chronicle Told retrying Sample.host past ∧ past.filterMap used? = [commitment] ∧
      (setUp.after (retrying.after Sample.host)).ledger.nullifiers.get? commitment =
        some ⟨commitment, 0⟩ := by
  obtain ⟨persists, ⟨past, told⟩, once⟩ :=
    Course.permanent initial (retrying_program.course reentrant) (setUp_program.course reentrant)
  obtain ⟨-, -, -, recorded⟩ := once past told
  refine ⟨past, told, recorded.nullifiers.trans ?_, persists.nullifiers _ _ ?_⟩
  · rfl
  · rfl

end Sample

end SealedPayroll
