import SealedPayroll.Proofs.Host.Beside
import SealedPayroll.Proofs.Payment.InStep
import SealedPayroll.Proofs.Payment.PayBatch

/-!
# An entry by itself

An entry can be settled in the middle of a batch or paid by itself, in a
transaction of its own. Both go on side by side: the two hosts differ by what
a sweep has removed, by the writes that it counted and by the signatures that
were asked for. So both answer alike, or both fail, with faults that differ at
most by the position of the entry (`pay_follows`).
-/

namespace SealedPayroll

open SealedPayroll.Action (Paired)

variable {σ : Type} {d : Deployment σ} {host later twin reached : Host σ}
variable {reading : Option Clock} {extra index : Nat}

-- ---------------------------------------------------------------------------
-- Faults that go together
-- ---------------------------------------------------------------------------

def PayrollError.isProofRefusal : PayrollError → Bool
  | .invalidProof _ _ => true
  | _ => false

open PayrollError (isProofRefusal)

/-- What an entry of a batch fails with, and what its payment by itself fails with: a refused proof
is told with its position, and everything else in the same way. -/
inductive Fault.Placed (backend : PairingBackend) (index : Nat) : Fault → Fault → Prop
  | proof (employee : Principal) :
      Placed backend index (.payroll (.invalidProof employee (some index)))
        (.payroll (.invalidProof employee (some 0)))
  | same (fault : Fault) :
      (backend.Detached isProofRefusal → fault.refuses isProofRefusal = false) →
      Placed backend index fault fault

theorem Fault.Placed.eq_of_other {backend : PairingBackend} {fault raised : Fault}
    (h : Placed backend index fault raised) (hr : raised.refuses isProofRefusal = false) :
    fault = raised := by
  cases h with
  | proof employee => cases hr
  | same => rfl

-- ---------------------------------------------------------------------------
-- One step of a settlement
-- ---------------------------------------------------------------------------

section
variable {backend : PairingBackend}

theorem Verifier.verify_paired (proof : Proof) (inputs : List Bytes) :
    Paired reading extra (Fault.Placed backend index)
      (verify backend proof inputs : Action σ Bool) (verify backend proof inputs) := by
  refine .bind (.expect (fun _ _ => rfl) (.same _ fun _ => rfl)) fun key => ?_
  refine .bind (.change (fun _ => rfl) fun _ _ => rfl) fun _ => .ofExcept fun fault raised => ?_
  exact .same _ fun detached => Groth16.verdict_detached detached _ _ _ _ raised

theorem Nullifiers.use_paired (value : Bytes) :
    Paired reading extra (Fault.Placed backend index)
      (use value : Action σ NullifierRecord) (use value) := by
  refine .transaction <| .bind (.read fun _ _ => rfl) fun used => ?_
  split
  · exact .refuse (.same _ fun _ => rfl)
  · exact .bind (.read fun _ _ => rfl) fun _ => .bind (.build fun _ => .same _ fun _ => rfl)
      fun record => .bind (.write fun _ => rfl) fun _ => .pure _

theorem Registry.administered_paired (id : Int) :
    Paired reading extra (Fault.Placed backend index)
      (administered id : Action σ Company) (administered id) :=
  .bind (.expect (fun _ _ => rfl) (.same _ fun _ => rfl)) fun _ =>
    .bind (.requireAuth fun _ => .same _ fun _ => rfl) fun _ => .pure _

theorem Registry.recordPayment_paired (id : Int) (name : Principal) (timestamp : Int) :
    Paired reading extra (Fault.Placed backend index)
      (recordPayment id name timestamp : Action σ Binding) (recordPayment id name timestamp) :=
  .transaction <| .bind (administered_paired id) fun _ =>
    .bind (.expect (fun _ _ => rfl) (.same _ fun _ => rfl)) fun _ =>
      .bind (.write fun _ => rfl) fun _ => .pure _

theorem Tokens.transfer_paired (sender recipient : Principal) (amount : Int) :
    Paired reading extra (Fault.Placed backend index)
      (transfer sender recipient amount : Action σ Unit) (transfer sender recipient amount) := by
  unfold transfer
  split
  · exact .refuse (.same _ fun _ => rfl)
  · refine .transaction <| .bind (.requireAuth fun _ => .same _ fun _ => rfl) fun _ =>
      .bind (.read fun _ _ => rfl) fun _ => ?_
    split
    · exact .refuse (.same _ fun _ => rfl)
    · exact .bind (.write fun _ => rfl) fun _ =>
        .bind (.read fun _ _ => rfl) fun _ => .write fun _ => rfl

end

namespace Payroll

variable {company : Company} {period : Int} {entry : Entry}

theorem approve_paired (company : Company) (index : Nat) (entry : Entry) :
    Paired reading extra (Fault.Placed d.backend index)
      (approve d company index entry) (approve d company 0 entry) := by
  refine .bind (.expect (fun _ _ => rfl) (.same _ fun _ => rfl)) fun binding =>
    .bind (.expect (fun _ _ => rfl) (.same _ fun _ => rfl)) fun stored => ?_
  split
  · exact .refuse (.same _ fun _ => rfl)
  · refine .bind (.ofExcept fun fault raised => .same _ fun _ =>
      recipientHash_detached (fun _ => rfl) _ _ raised) fun recipient => ?_
    refine .bind (Verifier.verify_paired _ _) fun accepted => ?_
    -- the one place where the position of an entry shows
    split
    · exact .pure _
    · exact .raise (.proof _)

theorem enter_paired (company : Company) (period : Int) (entry : Entry) :
    Paired reading extra (Fault.Placed d.backend index)
      (enter company period entry : Action σ PaymentRecord) (enter company period entry) := by
  refine .bind (Nullifiers.use_paired _) fun _ => .bind (.read fun _ _ => rfl) fun paid => ?_
  split
  · exact .refuse (.same _ fun _ => rfl)
  · exact .bind (.read fun _ _ => rfl) fun _ => .bind (.build fun _ => .same _ fun _ => rfl)
      fun record => .bind (.write fun _ => rfl) fun _ => .bind (.write fun _ => rfl) fun _ =>
        .bind (Registry.recordPayment_paired _ _ _) fun _ => .pure _

theorem settle_paired (ht : d.tokens = .plain) (company : Company) (period : Int) (index : Nat)
    (entry : Entry) :
    Paired reading extra (Fault.Placed d.backend index)
      (settle d company period index entry) (settle d company period 0 entry) := by
  refine .bind (approve_paired _ _ _) fun _ => .bind (enter_paired _ _ _) fun record => ?_
  rw [ht]
  refine .bind (Tokens.transfer_paired _ _ _) fun _ => ?_
  split
  · exact .bind (.publish _ _) fun _ => .pure _
  · exact .pure _

end Payroll

-- ---------------------------------------------------------------------------
-- Commits
-- ---------------------------------------------------------------------------

namespace Ledger

variable (ledger : Ledger) (timestamp sequence : Int)

theorem evict_evict :
    (ledger.evict timestamp sequence).evict timestamp sequence =
      ledger.evict timestamp sequence := by
  simp only [evict, ForeignTable.filter, Table.filter_filter_of_imp _ fun _ _ live => live]

theorem expiredCount_evict :
    (ledger.evict timestamp sequence).expiredCount timestamp sequence = 0 := by
  simp only [expiredCount, evict, ForeignTable.filter, ForeignTable.values, Table.values,
    Table.filter, Nat.add_eq_zero_iff, List.length_eq_zero_iff, List.filter_eq_nil_iff]
  constructor
  · simp +contextual
  · rintro _ member
    simp only [List.mem_map, List.mem_filter] at member
    obtain ⟨_, ⟨_, ⟨-, live⟩, rfl⟩, rfl⟩ := member
    simpa using live

end Ledger

namespace Host

/-- When a commit sweeps, if it does. -/
def sweepTime (host : Host σ) : Option Clock :=
  if host.evictOnCommit then some host.clock else none

/-- How many writes a commit counts. -/
def sweepWrites (host : Host σ) : Nat :=
  if host.evictOnCommit ∧
    host.ledger.expiredCount host.clock.timestamp host.clock.sequence ≠ 0 then 1 else 0

/-- The host after a commit, with other signatures asked for. -/
def closed (checked : List Principal) (host : Host σ) : Host σ :=
  { host.beside host.sweepTime host.sweepWrites checked with depth := 0 }

theorem committed_eq_closed (host : Host σ) :
    committed host = host.closed host.authority.checked := by
  rw [Payroll.Host.committed_eq]
  unfold closed beside sweepTime sweepWrites
  cases host.evictOnCommit <;> rfl

/-- What stands beside a host has not been swept at all, or as the commit of that host sweeps. -/
def Coupled (host : Host σ) (reading : Option Clock) (extra : Nat) : Prop :=
  reading = none ∧ extra = 0 ∨ reading = host.sweepTime ∧ extra = host.sweepWrites

/-- A commit makes up for a sweep that there was not, and finds nothing after one that there was. -/
theorem committed_beside (checked : List Principal) (h : host.Coupled reading extra) :
    committed (host.beside reading extra checked) = host.closed checked := by
  rcases h with ⟨rfl, rfl⟩ | ⟨rfl, rfl⟩
  · exact committed_eq_closed _
  · rw [Payroll.Host.committed_eq]
    unfold closed beside sweepTime sweepWrites
    cases he : host.evictOnCommit with
    | false => simp
    | true =>
      have swept : host.ledger.sweptAt (some host.clock) =
          host.ledger.evict host.clock.timestamp host.clock.sequence := rfl
      simp [swept, Ledger.evict_evict, Ledger.expiredCount_evict]

/-- The host outside of all transactions in which a payment by itself starts, while a batch has got
as far as `host`. -/
def Follows (host twin : Host σ) : Prop :=
  ∃ reading extra checked, host.Coupled reading extra ∧
    twin = { host.beside reading extra checked with depth := 0 }

theorem Follows.closed (host : Host σ) (checked : List Principal) :
    host.Follows (host.closed checked) :=
  ⟨_, _, checked, .inr ⟨rfl, rfl⟩, rfl⟩

end Host

-- ---------------------------------------------------------------------------
-- One entry
-- ---------------------------------------------------------------------------

namespace Payroll

variable {id : Int} {batch : Batch} {company : Company} {period : Int} {entry : Entry}

/-- An entry of a batch without a defect has none by itself. -/
theorem Batch.defect?_alone {config : ExecutorConfig} (h : batch.defect? config = none)
    (member : entry ∈ batch.entries) :
    (Batch.ofEntries batch.company [entry] batch.period).defect? config = none := by
  obtain ⟨period, positive⟩ := positive_of_sound h
  obtain ⟨aligned, size, -, -⟩ := defect?_eq_none.mp h
  obtain ⟨ha, hp, hn⟩ := isAligned_iff.mp aligned
  have listed : (entry.employee) ∈ batch.employees := by
    rw [← (map_rows ha hp hn).1]
    exact List.mem_map_of_mem member
  have room := List.length_pos_of_mem listed
  refine defect?_eq_none.mpr ⟨rfl, ?_, by simpa [ofEntries] using positive entry member, period⟩
  show ((1 : Nat) : Int) ≤ config.maxBatchSize
  omega

/-- A host in the middle of a batch. -/
structure Screened (d : Deployment σ) (id : Int) (company : Company) (period : Int)
    (host : Host σ) : Prop where
  depth : host.depth = 1
  keyed : host.ledger.verificationKey ≠ none
  registered : host.ledger.companies.get? id = some company
  numbered : company.id = id
  signed : host.authority.allows company.admin = true
  period : 0 ≤ period

theorem Screened.settled (h : Screened d id company period host) (entry : Entry) :
    Screened d id company period (entry.settled d company period host) :=
  ⟨h.depth, h.keyed, h.registered, h.numbered, h.signed, h.period⟩

/-- What a settlement does not touch. -/
theorem Screened.of_settle (h : Screened d id company period host) (ht : d.tokens = .plain)
    (positive : 0 < entry.amount) {record : PaymentRecord}
    (hr : (settle d company period index entry).run host = (.ok record, later)) :
    entry.settled d company period host = later := by
  have hd : host.depth ≠ 0 := by simp [h.depth]
  exact ((settle_eq_ok ht hd (h.numbered ▸ h.registered) h.signed h.period positive).mp hr).2.2.2.2

/-- An entry is settled in a batch iff it is paid by itself. -/
theorem pay_follows (h : Screened d id company period host) (ht : d.tokens = .plain)
    (hs : (Batch.ofEntries id [entry] period).defect? d.config.executor = none)
    (hf : host.Follows twin) (index : Nat) :
    (∃ record signed,
      (settle d company period index entry).run host =
          (.ok record, entry.settled d company period host) ∧
        (pay d id entry period).run twin =
          (.ok record, (entry.settled d company period host).closed signed)) ∨
    ∃ failure later raised reached,
      (settle d company period index entry).run host = (.error failure, later) ∧
        (pay d id entry period).run twin = (.error raised, reached) ∧
          Fault.Placed d.backend index failure.fault raised.fault := by
  obtain ⟨reading, extra, checked, coupled, rfl⟩ := hf
  have positive : 0 < entry.amount := (Batch.positive_of_sound hs).2 entry (.head _)
  have hd : host.depth ≠ 0 := by simp [h.depth]
  have body {result : Except Failure PaymentRecord × Host σ}
      (hr : (settle d company period 0 entry).run
        (host.beside reading extra (checked ++ [company.admin])) = result) :
      (screen d (.ofEntries id [entry] period) >>= fun company =>
        settle d company period 0 entry).run { host.beside reading extra checked with depth := 1 } =
          result := by
    rw [← hr, ← h.depth]
    exact Action.run_bind_ok (screen_eq_ok.mpr ⟨hs, h.keyed, h.registered, h.signed, rfl⟩)
  have paired : Paired reading extra (Fault.Placed d.backend index)
      (settle d company period index entry) (settle d company period 0 entry) :=
    settle_paired ht _ _ _ _
  rcases hr : (settle d company period index entry).run host with ⟨failure | record, later⟩
  · obtain ⟨raised, reached, fails, placed⟩ := paired.fails host _ hd failure later hr
    refine .inr ⟨failure, later, _, _, rfl, Host.transaction_error rfl (body fails), ?_⟩
    rwa [Failure.fault_discarding]
  · obtain ⟨-, signed, answers⟩ := paired.answers host _ hd record later hr
    obtain rfl := h.of_settle ht positive hr
    have coupled : (entry.settled d company period host).Coupled reading extra := coupled
    refine .inl ⟨record, signed, rfl, ?_⟩
    rw [← Host.committed_beside signed coupled]
    exact Host.transaction_ok rfl (body answers)

end Payroll

end SealedPayroll
