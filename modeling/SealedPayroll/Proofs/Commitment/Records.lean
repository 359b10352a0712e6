import SealedPayroll.Proofs.Session.Public
import SealedPayroll.Proofs.Session.Upheld

/-!
# What the commitment store holds

Every commitment record stands under the name of its employee and counts a
version (`Ledger.Recorded`). This holds wherever a run is, also where callers
have written to the store past the registry: whether there is a binding to go
with a record, or a record to go with a binding, is not said here.
-/

namespace SealedPayroll

open SealedPayroll.Action (Footprint Keeps)

variable {σ : Type}

/-- A record that stands under the name of its employee. -/
structure CommitmentRecord.Sound (name : Principal) (record : CommitmentRecord) : Prop where
  own : record.employee = name
  named : name ≠ ""
  version : 1 ≤ record.version

/-- The commitment records are sound. -/
def Ledger.Recorded (l : Ledger) : Prop :=
  ∀ name record, l.commitments.get? name = some record → record.Sound name

namespace Ledger.Recorded

variable {l k : Ledger} {name : Principal} {record : CommitmentRecord}

theorem empty : Ledger.empty.Recorded := fun _ _ held => nomatch held

theorem of_same (h : l.Recorded) (hc : k.commitments = l.commitments) : k.Recorded :=
  fun name record held => h name record (hc ▸ held)

theorem insert (h : l.Recorded) (sound : record.Sound name) :
    (l.putCommitment name record).Recorded := by
  intro other held found
  rw [Ledger.putCommitment, Table.get?_insert] at found
  split at found
  · rename_i same
    cases found
    exact same ▸ sound
  · exact h other held found

theorem erase (h : l.Recorded) (name : Principal) :
    (l.dropCommitment name).Recorded := by
  intro other held found
  rw [Ledger.dropCommitment, Table.get?_erase] at found
  split at found
  · cases found
  · exact h other held found

end Ledger.Recorded

/-- From a ledger whose commitment records are sound one of that kind is reached. -/
abbrev StaysRecorded (l k : Ledger) : Prop := l.Recorded → k.Recorded

theorem StaysRecorded.chained : Chained StaysRecorded :=
  .of_invariant fun _ _ _ h => h

theorem StaysRecorded.besides {α : Type} {action : Action σ α} {parts : List Ledger.Part}
    (h : Footprint parts action) (hp : .commitments ∉ parts) : Keeps StaysRecorded action :=
  fun host recorded => recorded.of_same (h.agree .commitments hp rfl host)

-- ---------------------------------------------------------------------------
-- The operations
-- ---------------------------------------------------------------------------

open StaysRecorded (chained)

namespace CommitmentStore

theorem store_recorded (name : Principal) (commitment : Bytes) (company : Option Int) :
    Keeps StaysRecorded (store name commitment company : Action σ CommitmentRecord) := by
  refine chained.transaction <| chained.bind (chained.quiet (.read _)) fun now => ?_
  rw [Action.bind_build]
  split
  · rename_i record valid
    obtain ⟨⟨named, -, version⟩, made⟩ := CommitmentRecord.make_eq_valid.mp valid
    refine chained.bind (fun host recorded => ?_) fun _ => chained.quiet (.pure _)
    exact recorded.insert (by rw [made]; exact ⟨rfl, named, version⟩)
  · exact chained.quiet (.raise _)

theorem revise_recorded (name : Principal) (commitment : Bytes) :
    Keeps StaysRecorded (revise name commitment : Action σ CommitmentRecord) := by
  refine chained.bind_expect fun record host held recorded => ?_
  obtain ⟨own, named, -⟩ := recorded name record held
  have now : (Host.now : Action σ Int).run host = (.ok host.clock.timestamp, host) := rfl
  rw [Action.after_bind_ok now, Action.bind_build]
  split
  · rename_i revised valid
    obtain ⟨⟨-, -, version⟩, made⟩ := CommitmentRecord.make_eq_valid.mp valid
    exact recorded.insert (by rw [made]; exact ⟨own, named, version⟩)
  · exact recorded

theorem update_recorded (name : Principal) (commitment : Bytes) :
    Keeps StaysRecorded (update name commitment : Action σ CommitmentRecord) :=
  chained.transaction (revise_recorded name commitment)

theorem reviseAll_recorded (updates : List (Principal × Bytes)) :
    Keeps StaysRecorded (reviseAll updates : Action σ (List CommitmentRecord)) := by
  induction updates with
  | nil => exact chained.quiet (.pure _)
  | cons first rest ih =>
    exact chained.bind (revise_recorded _ _) fun _ =>
      chained.bind ih fun _ => chained.quiet (.pure _)

theorem updateAll_recorded (updates : List (Principal × Bytes)) :
    Keeps StaysRecorded (updateAll updates : Action σ (List CommitmentRecord)) :=
  chained.transaction (reviseAll_recorded updates)

theorem remove_recorded (name : Principal) :
    Keeps StaysRecorded (remove name : Action σ Bool) := by
  refine chained.transaction <| chained.bind (chained.quiet (.read _)) fun present => ?_
  split
  · exact chained.bind (fun _ recorded => recorded.erase name) fun _ => chained.quiet (.pure _)
  · exact chained.quiet (.pure _)

end CommitmentStore

namespace Registry

theorem enrol_recorded (id : Int) (name : Principal) (commitment : Bytes) :
    Keeps StaysRecorded (enrol id name commitment : Action σ Binding) := by
  refine chained.transaction <| chained.bind (chained.quiet (administered_quiet id)) fun company =>
    chained.bind (chained.quiet (.read _)) fun existing => ?_
  split
  · exact chained.quiet (.refuse _)
  · exact chained.bind (chained.quiet (.read _)) fun _ =>
      chained.bind (chained.quiet (.build _ _)) fun binding =>
      chained.bind (fun _ recorded => recorded) fun _ =>
      chained.bind (CommitmentStore.store_recorded _ _ _) fun _ =>
      chained.bind (fun _ recorded => recorded) fun _ => chained.quiet (.pure _)

theorem release_recorded (id : Int) (name : Principal) :
    Keeps StaysRecorded (release id name : Action σ Unit) :=
  chained.transaction <| chained.bind (chained.quiet (administered_quiet id)) fun _ =>
    chained.bind (chained.quiet (.expect _ _)) fun _ =>
    chained.bind (fun _ recorded => recorded) fun _ =>
    chained.bind (CommitmentStore.remove_recorded _) fun _ => fun _ recorded => recorded

theorem updateCommitment_recorded (id : Int) (name : Principal) (commitment : Bytes) :
    Keeps StaysRecorded (updateCommitment id name commitment : Action σ CommitmentRecord) :=
  chained.transaction <| chained.bind (chained.quiet (administered_quiet id)) fun _ =>
    chained.bind (chained.quiet (.expect _ _)) fun _ =>
    chained.bind (chained.quiet (.build _ _)) fun _ =>
    chained.bind (fun _ recorded => recorded) fun _ => CommitmentStore.update_recorded _ _

end Registry

theorem Operation.staysRecorded {α : Type} {action : Action σ α} (h : Operation action) :
    Keeps StaysRecorded action := by
  cases h with
  | quiet hq => exact chained.quiet hq
  | publish topics data => exact fun _ recorded => recorded
  | evict => exact fun _ recorded => recorded
  | foreign => exact fun _ recorded => recorded
  | unforeign => exact fun _ recorded => recorded
  | foreignExpiring f => exact fun _ recorded => recorded
  | register => exact .besides (Registry.register_footprint _ _) (by decide)
  | enrol => exact Registry.enrol_recorded _ _ _
  | release => exact Registry.release_recorded _ _
  | updateCommitment => exact Registry.updateCommitment_recorded _ _ _
  | recordPayment => exact .besides (Registry.recordPayment_footprint _ _ _) (by decide)
  | store => exact CommitmentStore.store_recorded _ _ _
  | update => exact CommitmentStore.update_recorded _ _
  | updateAll => exact CommitmentStore.updateAll_recorded _
  | remove => exact CommitmentStore.remove_recorded _
  | setKey => exact .besides (Verifier.setKey_footprint _) (by decide)
  | mint => exact .besides (Tokens.mint_footprint _ _ _) (by decide)
  | transfer => exact .besides (Tokens.transfer_footprint _ _ _) (by decide)
  | issue => exact .besides (ViewKeys.issue_footprint _ _) (by decide)
  | revoke => exact .besides (ViewKeys.revoke_footprint _ _) (by decide)
  | use => exact .besides (Nullifiers.use_footprint _) (by decide)
  | enter => exact .besides (Payroll.enter_footprint _ _ _) (by decide)

/-- The commitment records are sound wherever a run is. -/
theorem Reachable.recorded {base d : Deployment σ} {host : Host σ} (h : Reachable base d host) :
    host.ledger.Recorded := by
  have respected : Respected σ StaysRecorded :=
    ⟨chained.refl, chained.trans, chained.evict, fun _ ha => ha.staysRecorded⟩
  exact h.respected respected .empty

end SealedPayroll
