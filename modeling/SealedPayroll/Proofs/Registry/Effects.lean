import SealedPayroll.Proofs.Host.Spared
import SealedPayroll.Proofs.Payment.Settle

/-!
# What the registry does

The ledger after each operation of the registry that answers: all of the
operation, and a sweep at the end when its transaction is the outermost. An
operation that fails leaves the ledger alone, because it has checked everything
before it writes. Only a change of commitment relies on the commitment store
for that: it fails late if there is no record for a binding.
-/

namespace SealedPayroll

open SealedPayroll.Action (FailsEarly Quiet Spared Unfailing)

variable {σ : Type} {host later : Host σ}

/-- What is refused when a binding and the commitment record do not go together. -/
def PayrollError.isDrift : PayrollError → Bool
  | .commitmentNotFound _ | .commitmentMismatch _ => true
  | _ => false

open PayrollError (isDrift)

-- ---------------------------------------------------------------------------
-- Ledgers
-- ---------------------------------------------------------------------------

/-- The record that is stored along with a new binding. -/
def Binding.record (binding : Binding) : CommitmentRecord :=
  ⟨binding.employee, binding.company, binding.commitment, 1, binding.enrolledAt,
    binding.enrolledAt⟩

/-- The record with another commitment, and one version later. -/
def CommitmentRecord.revised (record : CommitmentRecord) (commitment : Bytes) (timestamp : Int) :
    CommitmentRecord :=
  { record with commitment := commitment, version := record.version + 1, updatedAt := timestamp }

namespace Ledger

def register (l : Ledger) (company : Company) : Ledger :=
  (l.putCompany company.id company).setCompanyCount (l.companyCount + 1)

/-- The ledger with a company brought up to date. -/
def staff (l : Ledger) (company : Company) (count : Int) : Ledger :=
  l.putCompany company.id { company with employeeCount := count }

/-- The ledger with a binding and a commitment record. -/
def bind (l : Ledger) (name : Principal) (binding : Binding) (record : CommitmentRecord) : Ledger :=
  (l.putBinding name binding).putCommitment name record

/-- The ledger without the commitment record of an employee, who may have none. -/
def uncommit (l : Ledger) (name : Principal) : Ledger :=
  { l with
    commitments := l.commitments.erase name
    arrivals :=
      if l.commitments.contains name then l.departed (.commitment name) else l.arrivals }

def unbind (l : Ledger) (name : Principal) : Ledger := (l.dropBinding name).uncommit name

theorem bindings_unbind (l : Ledger) (name : Principal) :
    (l.unbind name).bindings = l.bindings.erase name := rfl

theorem commitments_unbind (l : Ledger) (name : Principal) :
    (l.unbind name).commitments = l.commitments.erase name := rfl

end Ledger

theorem Table.erase_of_new {κ ν : Type} [DecidableEq κ] {table : Table κ ν} {key : κ}
    (h : table.get? key = none) : table.erase key = table := by
  apply Table.eq_of_entries
  apply List.filter_eq_self.mpr
  rintro ⟨other, value⟩ hm
  simp only [decide_eq_true_eq]
  rintro rfl
  rw [Table.get?_eq_some_iff.mpr hm] at h
  cases h

-- ---------------------------------------------------------------------------
-- The commitment store
-- ---------------------------------------------------------------------------

namespace CommitmentStore

variable {employee : Principal} {commitment : Bytes} {record : CommitmentRecord}

theorem of_store_ok {company : Option Int} (hd : host.depth ≠ 0)
    (h : (store employee commitment company).run host = (.ok record, later)) :
    record = ⟨employee, company, commitment, 1, host.clock.timestamp, host.clock.timestamp⟩ ∧
      { host with
        ledger := host.ledger.putCommitment employee record
        writes := host.writes + 1 } = later := by
  obtain ⟨inner, hr, rfl⟩ := (Host.transaction_eq_ok hd).mp h
  obtain ⟨now, _, h₁, hr⟩ := Action.bind_eq_ok.mp hr
  obtain ⟨rfl, rfl⟩ := Action.read_eq_ok.mp h₁
  obtain ⟨made, _, h₂, hr⟩ := Action.bind_eq_ok.mp hr
  obtain ⟨valid, rfl⟩ := Action.build_eq_ok.mp h₂
  obtain ⟨-, rfl⟩ := CommitmentRecord.make_eq_valid.mp valid
  cases hr
  exact ⟨rfl, rfl⟩

theorem store_unfailing (he : employee ≠ "") (hc : commitment.length = 32)
    (company : Option Int) :
    Unfailing (store employee commitment company : Action σ CommitmentRecord) := by
  refine .transaction <| .bind (.read _) fun now => ?_
  rw [CommitmentRecord.make_eq_valid.mpr ⟨⟨he, hc, Int.le_refl 1⟩, rfl⟩]
  exact .bind (.build _ _) fun _ => .bind (.write _) fun _ => .pure _

theorem update_eq_ok (hd : host.depth ≠ 0) :
    (update employee commitment).run host = (.ok record, later) ↔
      ∃ stored, host.ledger.commitments.get? employee = some stored ∧
        (stored.employee ≠ "" ∧ commitment.length = 32 ∧ 0 ≤ stored.version) ∧
        stored.revised commitment host.clock.timestamp = record ∧
        { host with
          ledger := host.ledger.putCommitment employee record
          writes := host.writes + 1 } = later := by
  have version (stored : CommitmentRecord) : 1 ≤ stored.version + 1 ↔ 0 ≤ stored.version := by
    omega
  rw [update, Host.transaction_eq_ok hd]
  constructor
  · rintro ⟨inner, h, rfl⟩
    obtain ⟨stored, _, h₁, h⟩ := Action.bind_eq_ok.mp h
    obtain ⟨hs, rfl⟩ := Action.expect_eq_ok.mp h₁
    obtain ⟨now, _, h₂, h⟩ := Action.bind_eq_ok.mp h
    obtain ⟨rfl, rfl⟩ := Action.read_eq_ok.mp h₂
    obtain ⟨revised, _, h₃, h⟩ := Action.bind_eq_ok.mp h
    obtain ⟨valid, rfl⟩ := Action.build_eq_ok.mp h₃
    obtain ⟨⟨he, hc, hv⟩, rfl⟩ := CommitmentRecord.make_eq_valid.mp valid
    cases h
    exact ⟨stored, hs, ⟨he, hc, (version stored).mp hv⟩, rfl, rfl⟩
  · rintro ⟨stored, hs, ⟨he, hc, hv⟩, rfl, rfl⟩
    refine ⟨{ host with
      ledger := host.ledger.putCommitment employee
        (stored.revised commitment host.clock.timestamp)
      writes := host.writes + 1
      depth := host.depth + 1 }, ?_, rfl⟩
    exact Action.bind_eq_ok.mpr ⟨stored, _, Action.expect_eq_ok.mpr ⟨hs, rfl⟩,
      Action.bind_eq_ok.mpr ⟨_, _, Action.read_eq_ok.mpr ⟨rfl, rfl⟩,
        Action.bind_eq_ok.mpr ⟨_, _, Action.build_eq_ok.mpr
          ⟨CommitmentRecord.make_eq_valid.mpr ⟨⟨he, hc, (version stored).mpr hv⟩, rfl⟩, rfl⟩, rfl⟩⟩⟩

theorem of_remove_ok {present : Bool} (hd : host.depth ≠ 0)
    (h : (remove employee).run host = (.ok present, later)) :
    later.clock = host.clock ∧ later.ledger = host.ledger.uncommit employee := by
  obtain ⟨inner, hr, rfl⟩ := (Host.transaction_eq_ok hd).mp h
  obtain ⟨found, _, h₁, hr⟩ := Action.bind_eq_ok.mp hr
  obtain ⟨rfl, rfl⟩ := Action.read_eq_ok.mp h₁
  split at hr
  · rename_i present
    cases hr
    exact ⟨rfl, by rw [Ledger.uncommit, if_pos present]; rfl⟩
  · rename_i absent
    cases hr
    refine ⟨rfl, ?_⟩
    rw [Ledger.uncommit, if_neg absent, Table.erase_of_new
      (Table.contains_eq_false_iff.mp (Bool.not_eq_true _ ▸ absent))]

theorem remove_unfailing (employee : Principal) : Unfailing (remove employee : Action σ Bool) := by
  refine .transaction <| .bind (.read _) fun present => ?_
  split
  · exact .bind (.write _) fun _ => .pure _
  · exact .pure _

end CommitmentStore

namespace Registry

variable {id : Int} {name admin treasury : Principal} {commitment : Bytes} {failure : Failure}

-- ---------------------------------------------------------------------------
-- Successes
-- ---------------------------------------------------------------------------

theorem of_register_ok (h : (register admin treasury).run host = (.ok id, later)) :
    id = host.ledger.companyCount ∧
      Ledger.Swept host.clock
        (host.ledger.register ⟨id, admin, treasury, 0, host.clock.timestamp⟩) later.ledger := by
  obtain ⟨inner, hr, -, swept⟩ := Host.of_transaction_ok h
  obtain ⟨_, _, h₁, hr⟩ := Action.bind_eq_ok.mp hr
  obtain ⟨-, rfl⟩ := Host.requireAuth_eq_ok.mp h₁
  obtain ⟨count, _, h₂, hr⟩ := Action.bind_eq_ok.mp hr
  obtain ⟨rfl, rfl⟩ := Action.read_eq_ok.mp h₂
  obtain ⟨now, _, h₃, hr⟩ := Action.bind_eq_ok.mp hr
  obtain ⟨rfl, rfl⟩ := Action.read_eq_ok.mp h₃
  obtain ⟨made, _, h₄, hr⟩ := Action.bind_eq_ok.mp hr
  obtain ⟨valid, rfl⟩ := Action.build_eq_ok.mp h₄
  obtain ⟨-, rfl⟩ := Company.make_eq_valid.mp valid
  cases hr
  exact ⟨rfl, swept⟩

theorem of_enrol_ok {binding : Binding}
    (h : (enrol id name commitment).run host = (.ok binding, later)) :
    ∃ company, host.ledger.companies.get? id = some company ∧
      host.authority.allows company.admin = true ∧ host.ledger.bindings.get? name = none ∧
      (name ≠ "" ∧ commitment.length = 32) ∧
      binding = ⟨id, name, commitment, host.clock.timestamp, none⟩ ∧
      Ledger.Swept host.clock
        ((host.ledger.bind name binding binding.record).staff company (company.employeeCount + 1))
        later.ledger := by
  obtain ⟨inner, hr, -, swept⟩ := Host.of_transaction_ok h
  obtain ⟨company, _, h₁, hr⟩ := Action.bind_eq_ok.mp hr
  obtain ⟨hc, ha, rfl⟩ := administered_eq_ok.mp h₁
  obtain ⟨existing, _, h₂, hr⟩ := Action.bind_eq_ok.mp hr
  obtain ⟨free, rfl⟩ := Action.read_eq_ok.mp h₂
  cases existing with
  | some found => exact (Action.refuse_eq_ok.mp hr).elim
  | none =>
    obtain ⟨now, _, h₃, hr⟩ := Action.bind_eq_ok.mp hr
    obtain ⟨rfl, rfl⟩ := Action.read_eq_ok.mp h₃
    obtain ⟨made, _, h₄, hr⟩ := Action.bind_eq_ok.mp hr
    obtain ⟨valid, rfl⟩ := Action.build_eq_ok.mp h₄
    obtain ⟨hv, rfl⟩ := Binding.make_eq_valid.mp valid
    obtain ⟨_, _, h₅, hr⟩ := Action.bind_eq_ok.mp hr
    cases h₅
    obtain ⟨record, _, h₆, hr⟩ := Action.bind_eq_ok.mp hr
    obtain ⟨rfl, rfl⟩ := CommitmentStore.of_store_ok (by exact Nat.succ_ne_zero _) h₆
    cases hr
    exact ⟨company, hc, ha, free, hv, rfl, swept⟩

theorem of_release_ok {u : Unit} (h : (release id name).run host = (.ok u, later)) :
    ∃ company binding, host.ledger.companies.get? id = some company ∧
      host.authority.allows company.admin = true ∧
      employed? host.ledger id name = some binding ∧
      Ledger.Swept host.clock
        ((host.ledger.unbind name).staff company (company.employeeCount - 1)) later.ledger := by
  obtain ⟨inner, hr, -, swept⟩ := Host.of_transaction_ok h
  obtain ⟨company, _, h₁, hr⟩ := Action.bind_eq_ok.mp hr
  obtain ⟨hc, ha, rfl⟩ := administered_eq_ok.mp h₁
  obtain ⟨binding, _, h₂, hr⟩ := Action.bind_eq_ok.mp hr
  obtain ⟨hb, rfl⟩ := Action.expect_eq_ok.mp h₂
  obtain ⟨_, _, h₃, hr⟩ := Action.bind_eq_ok.mp hr
  cases h₃
  obtain ⟨present, removed, h₄, hr⟩ := Action.bind_eq_ok.mp hr
  obtain ⟨clock, reached⟩ := CommitmentStore.of_remove_ok (by exact Nat.succ_ne_zero _) h₄
  cases hr
  refine ⟨company, binding, hc, ha, hb, ?_⟩
  simp only [clock, reached] at swept
  exact swept

theorem of_updateCommitment_ok {record : CommitmentRecord}
    (h : (updateCommitment id name commitment).run host = (.ok record, later)) :
    ∃ company binding stored, host.ledger.companies.get? id = some company ∧
      host.authority.allows company.admin = true ∧
      employed? host.ledger id name = some binding ∧
      host.ledger.commitments.get? name = some stored ∧
      record = stored.revised commitment host.clock.timestamp ∧
      Ledger.Swept host.clock
        (host.ledger.bind name { binding with commitment := commitment } record) later.ledger := by
  obtain ⟨inner, hr, -, swept⟩ := Host.of_transaction_ok h
  obtain ⟨company, _, h₁, hr⟩ := Action.bind_eq_ok.mp hr
  obtain ⟨hc, ha, rfl⟩ := administered_eq_ok.mp h₁
  obtain ⟨binding, _, h₂, hr⟩ := Action.bind_eq_ok.mp hr
  obtain ⟨hb, rfl⟩ := Action.expect_eq_ok.mp h₂
  obtain ⟨made, _, h₃, hr⟩ := Action.bind_eq_ok.mp hr
  obtain ⟨valid, rfl⟩ := Action.build_eq_ok.mp h₃
  obtain ⟨-, rfl⟩ := Binding.make_eq_valid.mp valid
  obtain ⟨_, _, h₄, hr⟩ := Action.bind_eq_ok.mp hr
  cases h₄
  obtain ⟨stored, hs, -, rfl, rfl⟩ :=
    (CommitmentStore.update_eq_ok (by exact Nat.succ_ne_zero _)).mp hr
  exact ⟨company, binding, stored, hc, ha, hb, hs, rfl, swept⟩

theorem of_recordPayment_ok {timestamp : Int} {updated : Binding}
    (h : (recordPayment id name timestamp).run host = (.ok updated, later)) :
    ∃ company binding, host.ledger.companies.get? id = some company ∧
      host.authority.allows company.admin = true ∧
      employed? host.ledger id name = some binding ∧
      Ledger.Swept host.clock
        (host.ledger.putBinding name { binding with lastPaymentAt := some timestamp })
        later.ledger := by
  obtain ⟨inner, hr, -, swept⟩ := Host.of_transaction_ok h
  obtain ⟨company, _, h₁, hr⟩ := Action.bind_eq_ok.mp hr
  obtain ⟨hc, ha, rfl⟩ := administered_eq_ok.mp h₁
  obtain ⟨binding, _, h₂, hr⟩ := Action.bind_eq_ok.mp hr
  obtain ⟨hb, rfl⟩ := Action.expect_eq_ok.mp h₂
  cases hr
  exact ⟨company, binding, hc, ha, hb, swept⟩

-- ---------------------------------------------------------------------------
-- Failures
-- ---------------------------------------------------------------------------

section
variable {bad : Fault → Bool}

theorem register_failsEarly (admin treasury : Principal) :
    FailsEarly bad (register admin treasury : Action σ Int) :=
  .transaction <| .bind (.requireAuth _) fun _ => .bind (.read _) fun _ => .bind (.read _) fun _ =>
    .bind (.build _ _) fun _ => .never <| .bind (.write _) fun _ => .bind (.write _) fun _ =>
      .pure _

theorem enrol_failsEarly (id : Int) (name : Principal) (commitment : Bytes) :
    FailsEarly bad (enrol id name commitment : Action σ Binding) := by
  refine .transaction <| .bind (administered_quiet _) fun company =>
    .bind (.read _) fun existing => ?_
  split
  · exact .quiet (.refuse _)
  · refine .bind (.read _) fun now => ?_
    rw [Action.bind_build]
    split
    · rename_i binding valid
      obtain ⟨⟨he, hc⟩, -⟩ := Binding.make_eq_valid.mp valid
      exact .never <| .bind (.write _) fun _ =>
        .bind (CommitmentStore.store_unfailing he hc _) fun _ => .bind (.write _) fun _ => .pure _
    · exact .quiet (.raise _)

theorem release_failsEarly (id : Int) (name : Principal) :
    FailsEarly bad (release id name : Action σ Unit) :=
  .transaction <| .bind (administered_quiet _) fun _ => .bind (.expect _ _) fun _ =>
    .never <| .bind (.write _) fun _ => .bind (CommitmentStore.remove_unfailing _) fun _ =>
      .write _

theorem recordPayment_failsEarly (id : Int) (name : Principal) (timestamp : Int) :
    FailsEarly bad (recordPayment id name timestamp : Action σ Binding) :=
  .transaction <| .bind (administered_quiet _) fun _ => .bind (.expect _ _) fun _ =>
    .never <| .bind (.write _) fun _ => .pure _

theorem administered_spared {bad : PayrollError → Bool} (id : Int)
    (hf : bad (.companyNotFound id) = false)
    (hu : ∀ admin denial, bad (.unauthorized admin denial) = false) :
    Spared bad (administered id : Action σ Company) :=
  .bind (.expect _ hf) fun _ => .bind (.requireAuth _ (hu _)) fun _ => .pure _

end

/-- A change of commitment that fails has left the ledger alone, and not for want of a record, where
every binding has one. -/
theorem of_updateCommitment_error
    (stored : ∀ binding, employed? host.ledger id name = some binding →
      ∃ record, host.ledger.commitments.get? name = some record ∧ record.employee ≠ "" ∧
        0 ≤ record.version)
    (h : (updateCommitment id name commitment).run host = (.error failure, later)) :
    later.ledger = host.ledger ∧ failure.fault.refuses isDrift = false := by
  obtain ⟨raised, inner, hr, same, hl⟩ := Host.of_transaction_error h
  suffices kept : inner.ledger = host.ledger ∧ raised.fault.refuses isDrift = false by
    rw [← same]
    exact ⟨hl.elim (fun hi => hi.trans kept.1) fun hh => hh, kept.2⟩
  rcases Action.bind_eq_error.mp hr with h₁ | ⟨company, _, h₁, hr⟩
  · have spared : Spared isDrift (administered id : Action σ Company) :=
      administered_spared id rfl fun _ _ => rfl
    have still := (administered_quiet id).ledger h₁
    exact ⟨still, spared _ _ _ h₁⟩
  obtain ⟨-, -, rfl⟩ := administered_eq_ok.mp h₁
  rcases Action.bind_eq_error.mp hr with h₂ | ⟨binding, _, h₂, hr⟩
  · have still := (Quiet.expect _ _).ledger h₂
    exact ⟨still, Spared.expect _ rfl _ _ _ h₂⟩
  obtain ⟨hb, rfl⟩ := Action.expect_eq_ok.mp h₂
  rcases Action.bind_eq_error.mp hr with h₃ | ⟨updated, _, h₃, hr⟩
  · have still := (Quiet.build _ _).ledger h₃
    exact ⟨still, Spared.build _ _ _ _ _ h₃⟩
  obtain ⟨valid, rfl⟩ := Action.build_eq_ok.mp h₃
  obtain ⟨⟨-, hc⟩, -⟩ := Binding.make_eq_valid.mp valid
  obtain ⟨record, hs, he, hv⟩ := stored binding hb
  -- by now the record is found, and nothing is wrong with the next version of it
  rcases Action.bind_eq_error.mp hr with h₄ | ⟨_, _, h₄, hr⟩
  · cases h₄
  cases h₄
  cases hr.symm.trans ((CommitmentStore.update_eq_ok (by exact Nat.succ_ne_zero _)).mpr
    ⟨record, hs, ⟨he, hc, hv⟩, rfl, rfl⟩)

end Registry

end SealedPayroll
