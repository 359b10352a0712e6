import SealedPayroll.Proofs.Commitment.Records
import SealedPayroll.Proofs.Host.Published
import SealedPayroll.Proofs.Ledger.Arrivals
import SealedPayroll.Proofs.Registry.Effects
import SealedPayroll.Proofs.Session.Atomicity

/-!
# Batches of updates

A batch of updates is applied in order, so one update sees those before it. As
none adds or removes a record, whether an update is in order can be told from
the ledger before the batch (`CommitmentStore.defect?`). If all are, the batch
answers and the ledger is the fold of its updates (`Ledger.reviseAll`);
otherwise the first that is not decides the failure, and the transaction takes
back what was written (`Reachable.updates_all_or_none`).
-/

namespace SealedPayroll

open SealedPayroll.Ledger (Swept)

variable {σ : Type} {host later : Host σ} {l : Ledger} {now : Int}
  {update other : Principal × Bytes} {updates : List (Principal × Bytes)} {fault : Fault}

-- ---------------------------------------------------------------------------
-- Records
-- ---------------------------------------------------------------------------

/-- The record after it was given commitments in turn: the last one stays, and each made a
version. -/
def CommitmentRecord.renewed (record : CommitmentRecord) (now : Int) (commitments : List Bytes) :
    CommitmentRecord :=
  match commitments.getLast? with
  | none => record
  | some last =>
    { record with
      commitment := last, version := record.version + commitments.length, updatedAt := now }

theorem CommitmentRecord.renewed_cons (record : CommitmentRecord) (now : Int) (commitment : Bytes)
    (rest : List Bytes) :
    record.renewed now (commitment :: rest) = (record.revised commitment now).renewed now rest := by
  cases rest with
  | nil => rfl
  | cons next more =>
    simp only [renewed, List.getLast?_cons_cons, List.length_cons]
    split
    · rename_i none
      cases List.getLast?_eq_none_iff.mp none
    · simp only [revised, CommitmentRecord.mk.injEq, true_and, and_true]
      push_cast
      omega

/-- The commitment of a record that is otherwise in order has the wrong size. -/
theorem CommitmentRecord.make_eq_invalid {employee : Principal} {company : Option Int}
    {commitment : Bytes} {version createdAt updatedAt : Int} {defect : Defect}
    (named : employee ≠ "") (counted : 1 ≤ version)
    (wrong : Rule.bytesSize 32 commitment = some defect) :
    make employee company commitment (some version) createdAt updatedAt =
      .invalid [⟨[.field "commitment"], defect⟩] := by
  have employed := Rule.nonempty_eq_none.mpr named
  have versioned := Rule.atLeast_eq_none.mpr counted
  cases company <;>
    simp [make, Check.required, Check.optional, Check.defaulted, Check.field, employed, wrong,
      versioned] <;> rfl

-- ---------------------------------------------------------------------------
-- The ledger after updates
-- ---------------------------------------------------------------------------

/-- The commitments that updates give to an employee, in turn. -/
def CommitmentStore.given (name : Principal) (updates : List (Principal × Bytes)) : List Bytes :=
  (updates.filter (·.1 = name)).map (·.2)

namespace Ledger

/-- The ledger after an update of a record, if there is one. -/
def revise (now : Int) (l : Ledger) (update : Principal × Bytes) : Ledger :=
  match l.commitments.get? update.1 with
  | none => l
  | some record =>
    l.putCommitment update.1 (record.revised update.2 now)

/-- The ledger after updates one by one. -/
def reviseAll (now : Int) (l : Ledger) (updates : List (Principal × Bytes)) : Ledger :=
  updates.foldl (revise now) l

theorem get?_revise (now : Int) (l : Ledger) (update : Principal × Bytes) (name : Principal) :
    (l.revise now update).commitments.get? name =
      if update.1 = name then (l.commitments.get? name).map (·.revised update.2 now)
      else l.commitments.get? name := by
  unfold revise
  split
  · rename_i none
    split
    · rename_i same
      rw [← same, none]
      rfl
    · rfl
  · rename_i record held
    rw [putCommitment, Table.get?_insert]
    split
    · rename_i same
      rw [← same, held]
      rfl
    · rfl

theorem get?_reviseAll (now : Int) (l : Ledger) (updates : List (Principal × Bytes))
    (name : Principal) :
    (l.reviseAll now updates).commitments.get? name =
      (l.commitments.get? name).map (·.renewed now (CommitmentStore.given name updates)) := by
  induction updates generalizing l with
  | nil => exact Option.map_id'.symm
  | cons update rest ih =>
    rw [reviseAll, List.foldl_cons, ← reviseAll, ih, get?_revise]
    by_cases same : update.1 = name
    · rw [if_pos same, Option.map_map]
      simp only [CommitmentStore.given, List.filter_cons, same, decide_true, if_true, List.map_cons]
      congr 1
      funext record
      exact (record.renewed_cons now _ _).symm
    · rw [if_neg same]
      simp only [CommitmentStore.given, List.filter_cons, same, decide_false, Bool.false_eq_true,
        if_false]

theorem contains_revise (now : Int) (l : Ledger) (update : Principal × Bytes) (name : Principal) :
    (l.revise now update).commitments.contains name = l.commitments.contains name := by
  rw [Table.contains, get?_revise, Table.contains]
  split
  · exact Option.isSome_map
  · rfl

/-- An update writes to the commitment records only, and in place. -/
theorem revise_besides (h : l.InOrder) (now : Int) (update : Principal × Bytes) :
    l.revise now update = { l with commitments := (l.revise now update).commitments } := by
  unfold revise
  split
  · rfl
  · rename_i record held
    have present : .commitment update.1 ∈ l.keysOf .commitments :=
      List.mem_map_of_mem (Table.mem_keys_iff.mpr (Table.contains_eq_true_iff.mpr ⟨_, held⟩))
    rw [putCommitment, h.arrived_of_mem present]

theorem InOrder.revise (h : l.InOrder) (now : Int) (update : Principal × Bytes) :
    (l.revise now update).InOrder := by
  unfold Ledger.revise
  split
  · exact h
  · exact (Write.commitment _ _).inOrder h

/-- Updates write to the commitment records only, and in place. -/
theorem reviseAll_besides (h : l.InOrder) (now : Int) (updates : List (Principal × Bytes)) :
    l.reviseAll now updates =
      { l with commitments := (l.reviseAll now updates).commitments } := by
  induction updates generalizing l with
  | nil => rfl
  | cons update rest ih =>
    rw [reviseAll, List.foldl_cons, ← reviseAll, ih (h.revise now update), revise_besides h]

theorem Recorded.revise (h : l.Recorded) (now : Int) (update : Principal × Bytes) :
    (l.revise now update).Recorded := by
  unfold Ledger.revise
  split
  · exact h
  · rename_i record held
    obtain ⟨own, named, version⟩ := h update.1 record held
    exact h.insert ⟨own, named, Int.le_add_one version⟩

end Ledger

namespace CommitmentStore

-- ---------------------------------------------------------------------------
-- Updates that are not in order
-- ---------------------------------------------------------------------------

/-- What is wrong with an update, if anything: there is no record, or the commitment has the wrong
size. -/
def defect? (l : Ledger) (update : Principal × Bytes) : Option Fault :=
  if l.commitments.contains update.1 then
    (Rule.bytesSize 32 update.2).map fun defect =>
      .record .commitmentRecord [⟨[.field "commitment"], defect⟩]
  else some (.payroll (.commitmentNotFound update.1))

theorem defect?_eq_none :
    defect? l update = none ↔
      l.commitments.contains update.1 = true ∧ update.2.length = 32 := by
  unfold defect?
  split
  · rename_i stored
    rw [Option.map_eq_none_iff, Rule.bytesSize_eq_none]
    exact ⟨fun sized => ⟨stored, sized⟩, And.right⟩
  · rename_i missing
    constructor
    · intro h
      cases h
    · intro h
      exact absurd h.1 missing

/-- Updates neither add records nor remove any. -/
theorem defect?_revise (now : Int) (l : Ledger) (update other : Principal × Bytes) :
    defect? (l.revise now update) other = defect? l other := by
  rw [defect?, Ledger.contains_revise, defect?]

-- ---------------------------------------------------------------------------
-- Runs
-- ---------------------------------------------------------------------------

/-- The host after updates. -/
def renew (host : Host σ) (updates : List (Principal × Bytes)) : Host σ :=
  { host with
    ledger := host.ledger.reviseAll host.clock.timestamp updates
    writes := host.writes + updates.length }

theorem renew_append (host : Host σ) (first second : List (Principal × Bytes)) :
    renew host (first ++ second) = renew (renew host first) second := by
  simp only [renew, Ledger.reviseAll, List.foldl_append, List.length_append, Nat.add_assoc]

theorem run_revise (recorded : host.ledger.Recorded) (inOrder : defect? host.ledger update = none) :
    ∃ record, (renew host [update]).ledger.commitments.get? update.1 = some record ∧
      (revise update.1 update.2).run host = (.ok record, renew host [update]) := by
  obtain ⟨stored, sized⟩ := defect?_eq_none.mp inOrder
  obtain ⟨record, held⟩ := Table.contains_eq_true_iff.mp stored
  obtain ⟨own, named, version⟩ := recorded update.1 record held
  have valid : CommitmentRecord.make record.employee record.company update.2
      (some (record.version + 1)) record.createdAt host.clock.timestamp =
        .valid (record.revised update.2 host.clock.timestamp) :=
    CommitmentRecord.make_eq_valid.mpr
      ⟨⟨own ▸ named, sized, Int.le_add_one version⟩, rfl⟩
  refine ⟨record.revised update.2 host.clock.timestamp, ?_, ?_⟩
  · rw [renew, Ledger.reviseAll, List.foldl_cons, List.foldl_nil, Ledger.get?_revise, if_pos rfl,
      held]
    rfl
  · have revised : host.ledger.revise host.clock.timestamp update =
        host.ledger.putCommitment update.1 (record.revised update.2 host.clock.timestamp) := by
      rw [Ledger.revise, held]
    rw [renew, Ledger.reviseAll, List.foldl_cons, List.foldl_nil, revised]
    refine Action.bind_eq_ok.mpr ⟨record, host, Action.expect_eq_ok.mpr ⟨held, rfl⟩, ?_⟩
    refine Action.bind_eq_ok.mpr ⟨_, host, rfl, ?_⟩
    exact Action.bind_eq_ok.mpr ⟨_, host, Action.build_eq_ok.mpr ⟨valid, rfl⟩, rfl⟩

theorem run_revise_error (recorded : host.ledger.Recorded)
    (wrong : defect? host.ledger update = some fault) :
    (revise update.1 update.2).run host = (.error fault.raised, host) := by
  unfold defect? at wrong
  split at wrong
  · rename_i stored
    obtain ⟨record, held⟩ := Table.contains_eq_true_iff.mp stored
    obtain ⟨own, named, version⟩ := recorded update.1 record held
    obtain ⟨defect, size, rfl⟩ := Option.map_eq_some_iff.mp wrong
    have invalid : CommitmentRecord.make record.employee record.company update.2
        (some (record.version + 1)) record.createdAt host.clock.timestamp =
          .invalid [⟨[.field "commitment"], defect⟩] :=
      CommitmentRecord.make_eq_invalid (own ▸ named) (Int.le_add_one version) size
    have found : (get update.1).run host = (.ok record, host) :=
      Action.expect_eq_ok.mpr ⟨held, rfl⟩
    have now : (Host.now : Action σ Int).run host = (.ok host.clock.timestamp, host) := rfl
    rw [revise, Action.run_bind_ok found, Action.run_bind_ok now, invalid]
    rfl
  · rename_i missing
    cases wrong
    rw [Bool.not_eq_true, Table.contains_eq_false_iff] at missing
    have refused : (get update.1).run host =
        (.error (Fault.payroll (.commitmentNotFound update.1)).raised, host) := by
      rw [get, Action.run_expect, missing]
      rfl
    rw [revise, Action.run_bind_error refused]

/-- After an update that is in order the others are as they were before it. -/
theorem inOrder_renew (update : Principal × Bytes)
    (inOrder : ∀ other ∈ updates, defect? host.ledger other = none) :
    ∀ other ∈ updates, defect? (renew host [update]).ledger other = none :=
  fun other member => (defect?_revise _ _ _ other).trans (inOrder other member)

theorem run_reviseAll (host : Host σ) (recorded : host.ledger.Recorded)
    (inOrder : ∀ update ∈ updates, defect? host.ledger update = none) :
    ∃ answers, (reviseAll updates).run host = (.ok answers, renew host updates) ∧
      answers.length = updates.length ∧
      ∀ i update, updates[i]? = some update →
        answers[i]? = (renew host (updates.take (i + 1))).ledger.commitments.get? update.1 := by
  induction updates generalizing host with
  | nil => exact ⟨[], rfl, rfl, fun _ _ listed => nomatch listed⟩
  | cons first rest ih =>
    obtain ⟨record, held, revised⟩ := run_revise recorded (inOrder first (.head _))
    have others := inOrder_renew first fun other member => inOrder other (.tail _ member)
    obtain ⟨answers, answered, count, each⟩ := ih _ (recorded.revise _ _) others
    refine ⟨record :: answers, ?_, congrArg (· + 1) count, fun i update listed => ?_⟩
    · refine Action.bind_eq_ok.mpr ⟨record, _, revised, ?_⟩
      refine Action.bind_eq_ok.mpr ⟨answers, _, answered, ?_⟩
      rw [← renew_append]
      rfl
    · cases i with
      | zero =>
        cases listed
        exact held.symm
      | succ i =>
        rw [List.getElem?_cons_succ, each i update listed, ← renew_append]
        rfl

theorem run_reviseAll_error (host : Host σ) {earlier : List (Principal × Bytes)}
    (recorded : host.ledger.Recorded)
    (inOrder : ∀ update ∈ earlier, defect? host.ledger update = none)
    (wrong : defect? host.ledger update = some fault) (rest : List (Principal × Bytes)) :
    (reviseAll (earlier ++ update :: rest)).run host =
      (.error fault.raised, renew host earlier) := by
  induction earlier generalizing host with
  | nil => exact Action.run_bind_error (run_revise_error recorded wrong)
  | cons first more ih =>
    obtain ⟨record, -, revised⟩ := run_revise recorded (inOrder first (.head _))
    have others := inOrder_renew first fun other member => inOrder other (.tail _ member)
    have failed := ih _ (recorded.revise _ _) others ((defect?_revise _ _ _ update).trans wrong)
    rw [← renew_append] at failed
    exact (Action.run_bind_ok revised).trans (Action.run_bind_error failed)

-- ---------------------------------------------------------------------------
-- The transaction
-- ---------------------------------------------------------------------------

/-- What updates made at one time answer, and what becomes of the records. -/
structure Revised (now : Int) (updates : List (Principal × Bytes))
    (before after : Table Principal CommitmentRecord) (answers : List CommitmentRecord) : Prop where
  count : answers.length = updates.length
  answers : ∀ (i : Nat) (update : Principal × Bytes), updates[i]? = some update →
    ∃ record, before.get? update.1 = some record ∧
      answers[i]? = some { record with
        commitment := update.2
        version := record.version + (given update.1 (updates.take (i + 1))).length
        updatedAt := now }
  records : ∀ name, after.get? name =
    (before.get? name).map fun record => record.renewed now (given name updates)

theorem getLast?_given_take {i : Nat} (listed : updates[i]? = some update) :
    (given update.1 (updates.take (i + 1))).getLast? = some update.2 := by
  rw [List.take_add_one, listed, given, List.filter_append, List.map_append]
  simp

theorem revised_renew {answers : List CommitmentRecord}
    (inOrder : ∀ update ∈ updates, defect? host.ledger update = none)
    (count : answers.length = updates.length)
    (each : ∀ (i : Nat) (update : Principal × Bytes), updates[i]? = some update →
      answers[i]? = (renew host (updates.take (i + 1))).ledger.commitments.get? update.1) :
    Revised host.clock.timestamp updates host.ledger.commitments
      (renew host updates).ledger.commitments answers where
  count := count
  answers i update listed := by
    obtain ⟨stored, -⟩ := defect?_eq_none.mp (inOrder update (List.mem_of_getElem? listed))
    obtain ⟨record, held⟩ := Table.contains_eq_true_iff.mp stored
    refine ⟨record, held, (each i update listed).trans ?_⟩
    rw [renew, Ledger.get?_reviseAll, held, Option.map_some, CommitmentRecord.renewed,
      getLast?_given_take listed]
  records name := Ledger.get?_reviseAll _ _ _ name

/-- An update that is not in order, after others that are. -/
theorem exists_wrong (h : ¬ ∀ update ∈ updates, defect? l update = none) :
    ∃ earlier update rest fault, updates = earlier ++ update :: rest ∧
      (∀ other ∈ earlier, defect? l other = none) ∧ defect? l update = some fault := by
  induction updates with
  | nil => exact absurd (fun _ member => nomatch member) h
  | cons first rest ih =>
    cases wrong : defect? l first with
    | some fault => exact ⟨[], first, rest, fault, rfl, fun _ member => (nomatch member), wrong⟩
    | none =>
      obtain ⟨earlier, update, more, fault, rfl, inOrder, found⟩ :=
        ih fun all => h (List.forall_mem_cons.mpr ⟨wrong, all⟩)
      exact ⟨first :: earlier, update, more, fault, rfl,
        List.forall_mem_cons.mpr ⟨wrong, inOrder⟩, found⟩

theorem run_updateAll (outermost : host.depth = 0) (recorded : host.ledger.Recorded)
    (inOrder : ∀ update ∈ updates, defect? host.ledger update = none) :
    ∃ answers, (updateAll updates).run host =
        (.ok answers, Host.committed (renew { host with depth := 1 } updates)) ∧
      Revised host.clock.timestamp updates host.ledger.commitments
        (renew host updates).ledger.commitments answers := by
  obtain ⟨answers, answered, count, each⟩ :=
    run_reviseAll { host with depth := 1 } recorded inOrder
  exact ⟨answers, Host.transaction_ok outermost answered, revised_renew inOrder count each⟩

theorem run_updateAll_error (outermost : host.depth = 0) (recorded : host.ledger.Recorded)
    {earlier : List (Principal × Bytes)}
    (inOrder : ∀ update ∈ earlier, defect? host.ledger update = none)
    (wrong : defect? host.ledger update = some fault) (rest : List (Principal × Bytes)) :
    (updateAll (earlier ++ update :: rest)).run host =
      (.error (fault.raised.discarding !earlier.isEmpty),
        { host with writes := host.writes + earlier.length }) := by
  have failed := run_reviseAll_error { host with depth := 1 } recorded inOrder wrong rest
  have wrote : Host.hasWritten host (renew { host with depth := 1 } earlier) =
      !earlier.isEmpty := by
    cases earlier <;> simp [Host.hasWritten, renew]
  have back : Host.rolledBack host (renew { host with depth := 1 } earlier) =
      { host with writes := host.writes + earlier.length } := by
    simp only [Host.rolledBack, renew, List.take_length, outermost]
  rw [updateAll, Host.transaction_error outermost failed, wrote, back]

/-- What is committed of updates: the records, and a sweep at the end. -/
theorem swept_committed (h : host.ledger.InOrder) (updates : List (Principal × Bytes)) :
    Swept host.clock
      { host.ledger with commitments := (renew host updates).ledger.commitments }
      (Host.committed (renew { host with depth := 1 } updates)).ledger := by
  have besides : (renew { host with depth := 1 } updates).ledger =
      { host.ledger with commitments := (renew host updates).ledger.commitments } :=
    Ledger.reviseAll_besides h _ _
  rw [← besides]
  exact Host.committed_ledger _

/-- A missing record is marked iff something came before it, and nothing else ever is. -/
theorem reverted_iff {earlier : List (Principal × Bytes)} (wrong : defect? l update = some fault) :
    (fault.raised.discarding !earlier.isEmpty).reverted = true ↔
      fault = .payroll (.commitmentNotFound update.1) ∧ earlier ≠ [] := by
  have kind : (∃ error, fault = .payroll error) ↔
      fault = .payroll (.commitmentNotFound update.1) := by
    unfold defect? at wrong
    split at wrong
    · obtain ⟨defect, -, rfl⟩ := Option.map_eq_some_iff.mp wrong
      simp
    · cases wrong
      simp
  rw [Failure.reverted_discarding rfl, Fault.raised, kind]
  simp

end CommitmentStore

open CommitmentStore (Revised defect? updateAll)

/-- A batch of updates outside of transactions is carried out iff all of its updates are in order:
every employee has a record, and every commitment has 32 bytes. Then the records are those of the
fold, and nothing else has changed. Otherwise the first update that is not in order decides the
failure, and nothing has changed; a missing record is marked as reverted iff something came
before it. -/
theorem Reachable.updates_all_or_none {base d : Deployment σ} (h : Reachable base d host)
    (outermost : host.depth = 0) (updates : List (Principal × Bytes)) :
    ((∃ answers later, (updateAll updates).run host = (.ok answers, later)) ↔
        ∀ update ∈ updates,
          host.ledger.commitments.contains update.1 = true ∧ update.2.length = 32) ∧
      (∀ answers later, (updateAll updates).run host = (.ok answers, later) →
        ∃ records, Revised host.clock.timestamp updates host.ledger.commitments records answers ∧
          Swept host.clock { host.ledger with commitments := records } later.ledger ∧
          later.events = host.events) ∧
      ∀ failure later, (updateAll updates).run host = (.error failure, later) →
        ∃ earlier update rest, updates = earlier ++ update :: rest ∧
          (∀ other ∈ earlier, defect? host.ledger other = none) ∧
          defect? host.ledger update = some failure.fault ∧
          later.ledger = host.ledger ∧ later.events = host.events ∧
          (failure.reverted = true ↔
            failure.fault = .payroll (.commitmentNotFound update.1) ∧ earlier ≠ []) := by
  have recorded := h.recorded
  by_cases inOrder : ∀ update ∈ updates, defect? host.ledger update = none
  · obtain ⟨answers, answered, revised⟩ :=
      CommitmentStore.run_updateAll outermost recorded inOrder
    refine ⟨⟨fun _ update member => CommitmentStore.defect?_eq_none.mp (inOrder update member),
      fun _ => ⟨_, _, answered⟩⟩, fun others later again => ?_, fun failure later failed => ?_⟩
    · cases answered.symm.trans again
      exact ⟨_, revised, CommitmentStore.swept_committed h.inOrder updates, Host.committed_events _⟩
    · cases answered.symm.trans failed
  · obtain ⟨earlier, update, rest, fault, rfl, before, wrong⟩ :=
      CommitmentStore.exists_wrong inOrder
    have failed := CommitmentStore.run_updateAll_error outermost recorded before wrong rest
    refine ⟨⟨fun ⟨_, _, answered⟩ => ?_, fun all => ?_⟩, fun answers later answered => ?_,
      fun failure later again => ?_⟩
    · cases failed.symm.trans answered
    · exact absurd (fun other member => CommitmentStore.defect?_eq_none.mpr (all other member))
        inOrder
    · cases failed.symm.trans answered
    · cases failed.symm.trans again
      rw [Failure.fault_discarding]
      exact ⟨earlier, update, rest, rfl, before, wrong, rfl, rfl,
        CommitmentStore.reverted_iff wrong⟩

namespace Sample

/-- Two updates of the same record. -/
def twice : List (Principal × Bytes) := [("worker", .replicate 32 1), ("worker", .replicate 32 2)]

/-- Updates of one record count on from each other, and all of them are taken back for one that
comes later. -/
theorem twice_updated :
    (∃ answers later, (updateAll twice).run staffed = (.ok answers, later) ∧
      (answers[0]?.map (·.version) = some 2 ∧ answers[1]?.map (·.version) = some 3) ∧
      (later.ledger.commitments.get? "worker").map (·.commitment) = some (.replicate 32 2)) ∧
    ∃ failure later, (updateAll (twice ++ [("nobody", commitment)])).run staffed =
        (.error failure, later) ∧
      later.ledger = staffed.ledger ∧ failure.reverted = true := by
  have held : staffed.ledger.commitments.get? "worker" =
      some ⟨"worker", some 0, commitment, 1, 0, 0⟩ := by
    rw [staffed_ledger]
    rfl
  constructor
  · obtain ⟨answered, effect, -⟩ := staffed_reachable.updates_all_or_none rfl twice
    obtain ⟨answers, later, hr⟩ := answered.mpr (by decide +kernel)
    obtain ⟨records, revised, swept, -⟩ := effect answers later hr
    obtain ⟨_, found, first⟩ := revised.answers 0 _ rfl
    cases held.symm.trans found
    obtain ⟨_, found, second⟩ := revised.answers 1 _ rfl
    cases held.symm.trans found
    have kept : later.ledger.commitments = records :=
      swept.imp (I := fun k => k.commitments = records) (fun same => same) rfl
    refine ⟨answers, later, hr, ⟨by rw [first]; rfl, by rw [second]; rfl⟩, ?_⟩
    rw [kept, revised.records, held]
    rfl
  · obtain ⟨answered, -, refusal⟩ :=
      staffed_reachable.updates_all_or_none rfl (twice ++ [("nobody", commitment)])
    rcases hr : (updateAll (twice ++ [("nobody", commitment)])).run staffed with
      ⟨failure | answers, later⟩
    · obtain ⟨earlier, update, rest, parts, -, wrong, kept, -, marked⟩ := refusal failure later hr
      refine ⟨failure, later, rfl, kept, marked.mpr ?_⟩
      have inOrder : ∀ other ∈ twice, defect? staffed.ledger other = none := by decide +kernel
      have missing : defect? staffed.ledger ("nobody", commitment) =
          some (.payroll (.commitmentNotFound "nobody")) := by decide +kernel
      rcases earlier with _ | ⟨first, _ | ⟨second, _ | ⟨third, more⟩⟩⟩
      · cases parts
        exact absurd ((inOrder _ (.head _)).symm.trans wrong) nofun
      · cases parts
        exact absurd ((inOrder _ (.tail _ (.head _))).symm.trans wrong) nofun
      · cases parts
        exact ⟨Option.some.inj (wrong.symm.trans missing), List.cons_ne_nil _ _⟩
      · simp [twice] at parts
    · exact absurd (answered.mp ⟨answers, later, hr⟩) (by decide +kernel)

end Sample

end SealedPayroll
