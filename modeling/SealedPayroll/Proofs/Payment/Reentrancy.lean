import Mathlib.Data.List.Nodup
import SealedPayroll.Proofs.Payment.Callbacks
import SealedPayroll.Proofs.Payment.PayBatch
import SealedPayroll.Proofs.Payment.Transfers

/-!
# Callbacks cannot pay again

Callbacks run where the transfer of an entry begins and nowhere else. There the
nullifier of the entry is used up and its payment is on the books, and neither
ever leaves them. So nothing that a callback runs, in whatever deployment and
to whatever depth, can use the nullifier for a payment or pay the employee for
the period once more.
-/

namespace SealedPayroll

variable {σ : Type} {base inner d e : Deployment σ} {host later : Host σ}

-- ---------------------------------------------------------------------------
-- Entries that are barred
-- ---------------------------------------------------------------------------

namespace Payroll

variable {company : Company} {period : Int} {index : Nat} {entry : Entry}

/-- An entry whose nullifier is used up or whose employee has been paid for the period. -/
def Entry.Barred (ledger : Ledger) (period : Int) (entry : Entry) : Prop :=
  Nullifiers.isUsed ledger entry.nullifier = true ∨ isPaid ledger entry.employee period = true

theorem Entry.Barred.kept {l k : Ledger} (hk : Kept l k) (h : entry.Barred l period) :
    entry.Barred k period := by
  rcases h with h | h
  · obtain ⟨usage, hu⟩ := Table.contains_eq_true_iff.mp h
    exact .inl (Table.contains_eq_true_iff.mpr ⟨usage, hk.nullifiers _ _ hu⟩)
  · obtain ⟨record, hr⟩ := Table.contains_eq_true_iff.mp h
    exact .inr (Table.contains_eq_true_iff.mpr ⟨record, hk.payments _ _ hr⟩)

theorem not_barred_of_settle {record : PaymentRecord}
    (h : (settle d company period index entry).run host = (.ok record, later)) :
    ¬ entry.Barred host.ledger period := by
  obtain ⟨approved, start, moved, happrove, henter, -⟩ := of_settle_ok h
  have still := (approve_quiet d company index entry).still host
  rw [Action.after, happrove] at still
  obtain ⟨-, hu, -, hp, -⟩ := of_enter_ok henter
  rw [still.ledger] at hu hp
  rintro (h | h)
  · rw [Nullifiers.isUsed, Table.contains_eq_false_iff.mpr hu] at h
    cases h
  · rw [isPaid, Table.contains_eq_false_iff.mpr hp] at h
    cases h

/-- None of the entries that are settled was barred, however early. -/
theorem not_barred_of_settleFrom {entries : List Entry} {records : List PaymentRecord}
    (hd : d.Operational)
    (h : (settleFrom d company period index entries).run host = (.ok records, later)) :
    ∀ entry ∈ entries, ¬ entry.Barred host.ledger period := by
  induction entries generalizing host later index records with
  | nil => simp
  | cons first rest ih =>
    obtain ⟨record, between, hsettle, h⟩ := Action.bind_eq_ok.mp h
    obtain ⟨records, reached, hrest, -⟩ := Action.bind_eq_ok.mp h
    have kept := (postsMany_respected.run (settle_built hd company period index first) hsettle).kept
    rintro entry (_ | ⟨_, he⟩)
    · exact not_barred_of_settle hsettle
    · exact fun hb => ih hrest entry he (hb.kept kept)

-- ---------------------------------------------------------------------------
-- Calls that are refused
-- ---------------------------------------------------------------------------

theorem Batch.mem_entries_of_nullifier {batch : Batch} (ha : batch.isAligned = true)
    {nullifier : Bytes} (hn : nullifier ∈ batch.nullifiers) :
    ∃ entry ∈ batch.entries, entry.nullifier = nullifier := by
  obtain ⟨ha, hp, hv⟩ := Batch.isAligned_iff.mp ha
  obtain ⟨-, -, hrows⟩ := Batch.map_rows ha hp hv
  exact List.mem_map.mp (hrows.symm ▸ hn)

theorem Batch.mem_entries_of_employee {batch : Batch} (ha : batch.isAligned = true)
    {employee : Principal} (he : employee ∈ batch.employees) :
    ∃ entry ∈ batch.entries, entry.employee = employee := by
  obtain ⟨ha, hp, hv⟩ := Batch.isAligned_iff.mp ha
  obtain ⟨hrows, -⟩ := Batch.map_rows ha hp hv
  exact List.mem_map.mp (hrows.symm ▸ he)

/-- A batch fails if it names a nullifier that is used up or an employee who is paid. -/
theorem payBatch_refused (hd : d.Operational) (batch : Batch)
    (h : (∃ nullifier ∈ batch.nullifiers, Nullifiers.isUsed host.ledger nullifier = true) ∨
      ∃ employee ∈ batch.employees, isPaid host.ledger employee batch.period = true) :
    ∃ failure later, (payBatch d batch).run host = (.error failure, later) := by
  rcases hr : (payBatch d batch).run host with ⟨failure | records, later⟩
  · exact ⟨failure, later, rfl⟩
  · exfalso
    obtain ⟨reached, h₁, -⟩ := Host.of_transaction_ok hr
    obtain ⟨company, screened, hscreen, hsettled⟩ := Action.bind_eq_ok.mp h₁
    obtain ⟨hdefect, -, -, -, rfl⟩ := screen_eq_ok.mp hscreen
    have ha := (Batch.defect?_eq_none.mp hdefect).1
    have hbarred := not_barred_of_settleFrom hd hsettled
    rcases h with ⟨nullifier, hm, hu⟩ | ⟨employee, hm, hp⟩
    · obtain ⟨entry, he, rfl⟩ := Batch.mem_entries_of_nullifier ha hm
      exact hbarred entry he (.inl hu)
    · obtain ⟨entry, he, rfl⟩ := Batch.mem_entries_of_employee ha hm
      exact hbarred entry he (.inr hp)

theorem pay_refused (hd : d.Operational) {id : Int} (h : entry.Barred host.ledger period) :
    ∃ failure later, (pay d id entry period).run host = (.error failure, later) := by
  obtain ⟨failure, later, hr⟩ :=
    payBatch_refused hd (.ofEntries id [entry] period) (h.imp
      (fun hu => ⟨entry.nullifier, List.mem_cons_self, hu⟩)
      fun hp => ⟨entry.employee, List.mem_cons_self, hp⟩)
  rw [payBatch_ofEntries, map_eq_pure_bind, Action.run_bind] at hr
  rcases hp : (pay d id entry period).run host with ⟨raised | record, reached⟩
  · exact ⟨raised, reached, rfl⟩
  · rw [hp] at hr
    cases hr

theorem TransferBegins.onBooks {batch : Batch} {before start : Host σ}
    (h : TransferBegins d batch host company index entry before start) :
    entry.OnBooks company batch.period before start := by
  obtain ⟨approved, record, happrove, henter⟩ := h.entered
  have still := (approve_quiet d company index entry).still before
  rw [Action.after, happrove] at still
  exact .of_enter still.ledger henter

/-- In a host, no call to pay gets through that names the nullifier of an entry or that pays its
employee for the period. -/
structure Entry.Shut (e : Deployment σ) (host : Host σ) (period : Int) (entry : Entry) : Prop where
  batches : ∀ batch : Batch, entry.nullifier ∈ batch.nullifiers ∨
    entry.employee ∈ batch.employees ∧ batch.period = period →
      ∃ failure later, (payBatch e batch).run host = (.error failure, later)
  payments : ∀ (company : Int) (other : Entry) (til : Int), other.nullifier = entry.nullifier ∨
    other.employee = entry.employee ∧ til = period →
      ∃ failure later, (pay e company other til).run host = (.error failure, later)

theorem Entry.OnBooks.shut {before start reached : Host σ}
    (h : entry.OnBooks company period before start) (he : e.Operational)
    (hk : Kept start.ledger reached.ledger) : entry.Shut e reached period := by
  obtain ⟨usage, hu⟩ := Table.contains_eq_true_iff.mp h.used
  obtain ⟨record, hp⟩ := Table.contains_eq_true_iff.mp h.paid
  have used : Nullifiers.isUsed reached.ledger entry.nullifier = true :=
    Table.contains_eq_true_iff.mpr ⟨usage, hk.nullifiers _ _ hu⟩
  have paid : isPaid reached.ledger entry.employee period = true :=
    Table.contains_eq_true_iff.mpr ⟨record, hk.payments _ _ hp⟩
  constructor
  · rintro batch (hm | ⟨hm, rfl⟩)
    · exact payBatch_refused he _ (.inl ⟨_, hm, used⟩)
    · exact payBatch_refused he _ (.inr ⟨_, hm, paid⟩)
  · rintro id other til (hm | ⟨hm, rfl⟩)
    · exact pay_refused he (.inl (hm ▸ used))
    · exact pay_refused he (.inr (hm ▸ paid))

-- ---------------------------------------------------------------------------
-- Batches that are paid although the ledger calls back
-- ---------------------------------------------------------------------------

end Payroll

/-- No employee is paid twice for a period, and no nullifier has paid twice. -/
structure Ledger.PaidOnce (l : Ledger) : Prop where
  payees : (l.payments.values.map fun r => (r.employee, r.period)).Nodup
  nullifiers : (l.payments.values.map (·.proofHash)).Nodup

theorem Books.paidOnce {l : Ledger} (h : Books l) : l.PaidOnce := by
  have keys : l.payments.values.map (fun r => (r.employee, r.period)) =
      l.payments.entries.map Prod.fst := by
    rw [Table.values, List.map_map]
    refine List.map_congr_left fun row hr => ?_
    exact (h.keyed row.1 row.2 (Table.get?_eq_some_iff.mpr hr)).symm
  have payees : (l.payments.values.map fun r => (r.employee, r.period)).Nodup :=
    keys ▸ l.payments.nodup
  refine ⟨payees, ?_⟩
  exact (List.Nodup.of_map _ payees).map_on fun a ha b hb he => h.eq_of_proofHash ha hb he

namespace Payroll

variable {hook : Principal → Principal → Int → Action σ Unit} {company : Company} {batch : Batch}

/-- What is left of a batch whose transfers called back: for each entry one record, which was not
on the books before and is now, one callback, and one transfer of its amount. -/
structure Batch.PaidThrough (hook : Principal → Principal → Int → Action σ Unit)
    (company : Company) (batch : Batch) (host : Host σ) (records : List PaymentRecord)
    (later : Host σ) : Prop where
  made : List.Forall₂ (fun entry record => ∃ timestamp, record =
    ⟨company.id, entry.employee, entry.amount, entry.nullifier, timestamp, batch.period⟩)
      batch.entries records
  new : ∀ record ∈ records, host.ledger.payments.get? (record.employee, record.period) = none
  distinct : (records.map fun r => (r.employee, r.period)).Nodup
  booked : ∀ record ∈ records,
    later.ledger.payments.get? (record.employee, record.period) = some record
  transfers : ∃ screened callbacks last, screened.ledger = host.ledger ∧
    Payroll.PaidThrough hook company batch.period screened batch.entries records callbacks last ∧
    later.ledger.balances = last.ledger.balances ∧
    ∀ holder, later.ledger.balance holder = host.ledger.balance holder +
      (callbacks.map (Callback.gain holder)).sum +
      ((batch.entries.filter (·.employee = holder)).map (·.amount)).sum -
      if company.treasury = holder then (batch.entries.map (·.amount)).sum else 0

theorem Batch.PaidThrough.of_payBatch {records : List PaymentRecord}
    (ht : d.tokens = .calling hook) (hh : HookContained hook) (hk : HookKeeps hook)
    (h : (payBatch d batch).run host = (.ok records, later)) :
    ∃ company, batch.PaidThrough hook company host records later := by
  obtain ⟨last, h, -, hl⟩ := Host.of_transaction_ok h
  obtain ⟨company, screened, hscreen, hsettled⟩ := Action.bind_eq_ok.mp h
  obtain ⟨-, -, -, -, rfl⟩ := screen_eq_ok.mp hscreen
  obtain ⟨callbacks, hpaid⟩ := PaidThrough.of_settleFrom ht hh
    (show host.depth + 1 ≠ 0 from Nat.succ_ne_zero _) hsettled
  obtain ⟨hnew, hnodup⟩ := hpaid.new hk
  have payments : later.ledger.payments = last.ledger.payments := by
    rcases hl with hl | hl <;> rw [hl]
    rfl
  have balances : later.ledger.balances = last.ledger.balances := by
    rcases hl with hl | hl <;> rw [hl]
    rfl
  refine ⟨company, hpaid.made, hnew, hnodup, ?_,
    Host.sign { host with depth := host.depth + 1 } company.admin, callbacks, last, rfl, hpaid,
    balances, ?_⟩
  · rw [payments]
    exact hpaid.booked hk
  · intro holder
    rw [Ledger.balance, balances]
    exact hpaid.balance holder

/-- A token ledger that runs any program of public calls before each transfer, in a deployment that
may call back in turn, cannot break the books. The program is run where the transfer of an entry
begins and nowhere else: whatever else a hook does in other hosts, no run of a batch or a payment
shows it, be it one that answers or one that fails. Whenever the transfer of an entry begins, its
nullifier is used up, its employee is paid and the total includes its amount; from there on and at
every place inside the callback, calls that name the nullifier or pay the employee for the period
fail. When a batch or a single payment answers, no employee was paid twice for a period, no
nullifier has paid twice, and each entry has made one record and one transfer. -/
theorem callbacks_cannot_pay_again (h : Reachable base d host) (ht : d.tokens = .calling hook)
    (hp : ∀ sender recipient amount, Program inner (hook sender recipient amount))
    (hi : Reentrant base inner) :
    (∀ (batch : Batch) (other : Principal → Principal → Int → Action σ Unit),
      batch.AgreeOnTransfers d host hook other →
        (payBatch { d with tokens := .calling other } batch).run host =
          (payBatch d batch).run host) ∧
    (∀ (id : Int) (entry : Entry) (period : Int)
        (other : Principal → Principal → Int → Action σ Unit),
      (Batch.ofEntries id [entry] period).AgreeOnTransfers d host hook other →
        (pay { d with tokens := .calling other } id entry period).run host =
          (pay d id entry period).run host) ∧
    (∀ (batch : Batch) (company : Company) (index : Nat) (entry : Entry) (before start : Host σ),
      TransferBegins d batch host company index entry before start →
        entry.OnBooks company batch.period before start ∧
        ∀ e reached, Passes base inner start e reached → entry.Shut e reached batch.period) ∧
    (∀ (batch : Batch) (records : List PaymentRecord) (later : Host σ),
      (payBatch d batch).run host = (.ok records, later) →
        later.ledger.PaidOnce ∧ ∃ company, batch.PaidThrough hook company host records later) ∧
    ∀ (id : Int) (entry : Entry) (period : Int) (record : PaymentRecord) (later : Host σ),
      (pay d id entry period).run host = (.ok record, later) →
        later.ledger.PaidOnce ∧ ∃ company,
          (Batch.ofEntries id [entry] period).PaidThrough hook company host [record] later := by
  have built (sender recipient : Principal) (amount : Int) :
      Action.Built Operation (hook sender recipient amount) :=
    (hp sender recipient amount).built hi.operational
  have contained : HookContained hook := fun sender recipient amount _ hd =>
    ((built sender recipient amount).trans fun _ _ ho => ho.footprint).contained hd
  have keeps : HookKeeps hook := fun sender recipient amount _ _ hr =>
    (postsMany_respected.run (built sender recipient amount) hr).kept
  have paid (batch : Batch) (records : List PaymentRecord) (later : Host σ)
      (hr : (payBatch d batch).run host = (.ok records, later)) :
      later.ledger.PaidOnce ∧ ∃ company, batch.PaidThrough hook company host records later := by
    have posted := postsMany_respected.run (payBatch_built h.reentrant.operational batch) hr
    exact ⟨(h.books.postsMany posted).paidOnce, Batch.PaidThrough.of_payBatch ht contained keeps hr⟩
  refine ⟨fun batch other => payBatch_congr ht, fun id entry period other => pay_congr ht, ?_,
    paid, ?_⟩
  · intro batch company index entry before start hb
    refine ⟨hb.onBooks, fun e reached hpass => ?_⟩
    obtain ⟨he, posted⟩ := hpass.respected postsMany_respected hi
    exact hb.onBooks.shut he.operational posted.kept
  · intro id entry period record later hr
    refine paid (.ofEntries id [entry] period) [record] later ?_
    rw [payBatch_ofEntries, map_eq_pure_bind]
    exact Action.bind_eq_ok.mpr ⟨record, later, hr, rfl⟩

end Payroll

namespace Sample

open Payroll

/-- Takes the employee on anew and tries to pay once more for the period. -/
def rehiring (_ _ : Principal) (_ : Int) : Action Unit Unit := do
  let _ ← Call.run deployment (.registry (.release 0 "worker"))
  let _ ← Call.run deployment (.registry (.enrol 0 "worker" commitment))
  let _ ← (Call.run deployment (.payments (.pay 0 (entry (.replicate 32 2)) 202601))).outcome

/-- The deployment whose transfers take the employee on anew. -/
def hostile : Deployment Unit := { deployment with tokens := .calling rehiring }

theorem rehiring_program (sender recipient : Principal) (amount : Int) :
    Program deployment (rehiring sender recipient amount) :=
  .bind (.base (.call _)) fun _ => .bind (.base (.call _)) fun _ =>
    .bind (.outcome (.base (.call _))) fun _ => .pure _

theorem hostile_reachable : Reachable deployment hostile staffed := by
  have calls : CallsBack deployment deployment hostile := ⟨rehiring, rehiring_program, rfl⟩
  -- nothing in the set-up moves tokens, so it is the same in both deployments
  have program : Program hostile setUp :=
    .bind (.base (.call (.registry (.register "admin" "treasury")))) fun _ =>
      .bind (.base (.call (.registry (.enrol 0 "worker" commitment)))) fun _ =>
        .bind (.base (.call (.tokens (.mint "treasury" 100)))) fun _ =>
          .bind (.base (.call (.verifier (.setKey key)))) fun _ => .pure _
  exact ⟨hostile, host, .calling calls reentrant, initial, .ran program (.here _ _)⟩

/-- The host in which the payment is about to be approved, and the one in which its transfer
begins. -/
def approving : Host Unit := Host.sign { staffed with depth := 1 } "admin"

def transferring : Host Unit :=
  (enter company 202601 (entry (.replicate 32 1))).after
    ((approve hostile company 0 (entry (.replicate 32 1))).after approving)

theorem transferring_begins :
    TransferBegins hostile (payday (.replicate 32 1) 202601) staffed company 0
      (entry (.replicate 32 1)) approving transferring := by
  obtain ⟨_, approved⟩ := Action.of_isOk (approve hostile company 0 (entry (.replicate 32 1)))
    approving (by decide +kernel)
  obtain ⟨record, entered⟩ := Action.of_isOk (enter company 202601 (entry (.replicate 32 1)))
    ((approve hostile company 0 (entry (.replicate 32 1))).after approving) (by decide +kernel)
  exact ⟨rfl, ⟨approving, [], by rfl, rfl⟩, _, record, approved, entered⟩

/-- Does the same once the nullifier of the payment is used up, and stops everything before. -/
def wary (sender recipient : Principal) (amount : Int) : Action Unit Unit := do
  if ← .read fun host => Nullifiers.isUsed host.ledger (.replicate 32 1) then
    rehiring sender recipient amount
  else .raise (.interrupted "too early")

/-- The batch is paid although the callback tries to pay once more, and the attempt fails. It makes
no difference whether the callback looks first if the nullifier is used up. -/
theorem rehiring_paid :
    (payBatch { hostile with tokens := .calling wary } (payday (.replicate 32 1) 202601)).run
        staffed = (payBatch hostile (payday (.replicate 32 1) 202601)).run staffed ∧
    (∃ records later,
      (payBatch hostile (payday (.replicate 32 1) 202601)).run staffed = (.ok records, later) ∧
        later.ledger.PaidOnce ∧ later.ledger.balance "worker" = 10) ∧
      ∃ failure later, (pay deployment 0 (entry (.replicate 32 2)) 202601).run transferring =
        (.error failure, later) := by
  obtain ⟨only, -, begins, paid, -⟩ :=
    callbacks_cannot_pay_again hostile_reachable rfl rehiring_program reentrant
  refine ⟨only _ wary fun company index due before start begun => ?_, ?_, ?_⟩
  · have used := (begins _ _ _ _ _ _ begun).1.used
    have due : due.nullifier = .replicate 32 1 := by
      rcases index with _ | index <;> cases begun.listed
      rfl
    rw [due] at used
    simp only [wary, Action.run_bind, Action.run_read, used, if_true]
  · obtain ⟨records, hr⟩ := Action.of_isOk
      (payBatch hostile (payday (.replicate 32 1) 202601)) staffed (by decide +kernel)
    exact ⟨records, _, hr, (paid _ _ _ hr).1, by decide +kernel⟩
  · obtain ⟨-, shut⟩ := begins _ _ _ _ _ _ transferring_begins
    exact (shut deployment transferring (.here _ _)).payments 0 _ _ (.inr ⟨rfl, rfl⟩)

end Sample

end SealedPayroll
