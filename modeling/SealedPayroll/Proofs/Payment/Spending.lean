import SealedPayroll.Proofs.Payment.PayBatch
import SealedPayroll.Proofs.Registry.Holdings
import SealedPayroll.Proofs.Token.Effects

/-!
# What a payment may take

However far a settlement gets, it changes what one company holds, the one whose
administrator has signed, and takes tokens from nobody who has not signed
(`Ledger.Spends`). So does a batch, whichever entry it stops at. Transfers go
to the plain token ledger here.
-/

namespace SealedPayroll

open SealedPayroll.Action (Quiet)
open SealedPayroll.Ledger (Confined Swept)

variable {σ : Type} {host later : Host σ} {d : Deployment σ}

/-- At most one company holds something else, and nobody who has not signed holds fewer tokens. -/
structure Ledger.Spends (clock : Clock) (allows : Principal → Bool) (company : Int)
    (l k : Ledger) : Prop where
  confined : Confined clock company l k
  funds : ∀ holder, allows holder = false → l.balance holder ≤ k.balance holder

namespace Ledger.Spends

variable {clock : Clock} {allows : Principal → Bool} {id : Int} {l k m : Ledger}

theorem refl (clock : Clock) (allows : Principal → Bool) (id : Int) (l : Ledger) :
    Spends clock allows id l l :=
  ⟨.refl clock id l, fun _ _ => Int.le_refl _⟩

theorem trans (h₁ : Spends clock allows id l k) (h₂ : Spends clock allows id k m) :
    Spends clock allows id l m :=
  ⟨h₁.confined.trans h₂.confined, fun holder ha => Int.le_trans (h₁.funds holder ha)
    (h₂.funds holder ha)⟩

theorem swept (h : Spends clock allows id l k) (hs : Swept clock k m) :
    Spends clock allows id l m := by
  refine ⟨h.confined.swept hs, fun holder ha => ?_⟩
  have kept := h.funds holder ha
  rcases hs with rfl | rfl <;> exact kept

/-- A change of something else than balances. -/
theorem of_balances (h : Confined clock id l k) (hb : k.balances = l.balances) :
    Spends clock allows id l k := by
  refine ⟨h, fun holder _ => ?_⟩
  have same : k.balance holder = l.balance holder := by rw [balance, balance, hb]
  exact Int.le_of_eq same.symm

theorem useUp (l : Ledger) (value : Bytes) (timestamp : Int) :
    Spends clock allows id l (l.useUp value timestamp) :=
  of_balances (fun _ _ => rfl) rfl

theorem post {record : PaymentRecord} (hr : record.company = id)
    (new : l.payments.get? (record.employee, record.period) = none) :
    Spends clock allows id l (l.post record) :=
  of_balances (.post hr new) rfl

theorem rebind {name : Principal} {binding : Binding} (hb : binding.company = id)
    (bound : ∀ old, l.bindings.get? name = some old → old.company = id) :
    Spends clock allows id l (l.putBinding name binding) :=
  of_balances (.binding hb bound) rfl

theorem move {sender : Principal} (signed : allows sender = true)
    (recipient : Principal) {amount : Int} (positive : 0 < amount) :
    Spends clock allows id l (l.move sender recipient amount) := by
  refine ⟨fun other _ => rfl, fun holder unsigned => ?_⟩
  have other : sender ≠ holder := by
    rintro rfl
    cases signed.symm.trans unsigned
  rw [balance_move, if_neg other]
  split <;> omega

end Ledger.Spends

open Ledger (Spends)

variable {company : Company} {period : Int} {index : Nat} {entry : Payroll.Entry}

-- ---------------------------------------------------------------------------
-- Settlements
-- ---------------------------------------------------------------------------

theorem Registry.recordPayment_spends (allows : Principal → Bool) {id timestamp : Int}
    {name : Principal} {result : Except Failure Binding}
    (h : (recordPayment id name timestamp).run host = (result, later)) :
    Spends host.clock allows id host.ledger later.ledger := by
  rcases result with failure | updated
  · rw [(recordPayment_failsEarly _ _ _).ledger h]
    exact .refl _ _ _ _
  · obtain ⟨_, binding, -, -, employed, swept⟩ := of_recordPayment_ok h
    obtain ⟨own, bound⟩ := of_employed employed
    exact (Spends.rebind (by exact own) bound).swept swept

namespace Payroll

theorem book_spends (allows : Principal → Bool) {result : Except Failure PaymentRecord}
    (h : (book company period entry).run host = (result, later)) :
    Spends host.clock allows company.id host.ledger later.ledger := by
  rcases run_book company period entry host with ⟨failure, hr⟩ | ⟨unpaid, valid⟩
  · cases h.symm.trans hr
    exact .refl _ _ _ _
  rw [run_book_due unpaid valid, map_eq_pure_bind] at h
  let posted := host.ledger.post (entry.record company period host)
  have post : Spends host.clock allows company.id host.ledger posted :=
    .post rfl (Table.contains_eq_false_iff.mp unpaid)
  rcases hn : (Registry.recordPayment company.id entry.employee host.clock.timestamp).run
      { host with ledger := posted, writes := host.writes + 2 } with ⟨failure | updated, noted⟩
  · rw [Action.run_bind_error hn] at h
    cases h
    exact post.trans (Registry.recordPayment_spends allows hn)
  · rw [Action.run_bind_ok hn] at h
    cases h
    exact post.trans (Registry.recordPayment_spends allows hn)

/-- Entering a payment spends nothing yet. If it fails it may leave a used nullifier behind, or a
payment that the binding does not know of. -/
theorem enter_spends (allows : Principal → Bool) {result : Except Failure PaymentRecord}
    (h : (enter company period entry).run host = (result, later)) :
    Spends host.clock allows company.id host.ledger later.ledger := by
  rcases hu : (Nullifiers.use entry.nullifier).run host with ⟨failure | usage, used⟩
  · rw [enter, Action.run_bind_error hu] at h
    cases h
    rw [Nullifiers.of_use_error hu]
    exact .refl _ _ _ _
  · rw [enter, Action.run_bind_ok hu] at h
    obtain ⟨-, -, -, clock, swept⟩ := Nullifiers.use_swept hu
    have booked : Spends used.clock allows company.id used.ledger later.ledger :=
      book_spends allows h
    rw [clock] at booked
    exact ((Spends.useUp _ _ _).swept swept).trans booked

theorem settle_spends {result : Except Failure PaymentRecord} (ht : d.tokens = .plain)
    (hd : host.depth ≠ 0) (hc : host.ledger.companies.get? company.id = some company)
    (ha : host.authority.allows company.admin = true)
    (h : (settle d company period index entry).run host = (result, later)) :
    Spends host.clock host.authority.allows company.id host.ledger later.ledger := by
  rcases h₁ : (approve d company index entry).run host with ⟨failure | _, approved⟩
  · rw [settle, Action.run_bind_error h₁] at h
    cases h
    rw [(approve_quiet _ _ _ _).ledger h₁]
    exact .refl _ _ _ _
  rw [settle, Action.run_bind_ok h₁] at h
  obtain ⟨hap, rfl⟩ := approve_eq_ok.mp h₁
  rcases h₂ : (enter company period entry).run _ with ⟨failure | record, entered⟩
  all_goals
    have entering := enter_spends host.authority.allows h₂
  · rw [Action.run_bind_error h₂] at h
    cases h
    exact entering
  rw [Action.run_bind_ok h₂] at h
  obtain ⟨-, -, -, -, -, -, -, rfl⟩ := (enter_eq_ok (by exact hd) (by exact hc) (by exact ha)
    hap.recipient).mp h₂
  rw [ht] at h
  rcases h₃ : (Tokens.transfer company.treasury entry.employee entry.amount).run _ with
    ⟨failure | _, paid⟩
  · rw [TokenLedger.plain, Action.run_bind_error h₃] at h
    cases h
    rwa [(Tokens.transfer_failsEarly _ _ _).ledger h₃]
  · rw [TokenLedger.plain, Action.run_bind_ok h₃, run_announced] at h
    cases h
    obtain ⟨positive, signed, -, swept⟩ := Tokens.of_transfer_ok h₃
    exact entering.trans ((Spends.move (by exact signed) _ positive).swept swept)

theorem settleFrom_spends {entries : List Entry} {result : Except Failure (List PaymentRecord)}
    (ht : d.tokens = .plain) (hd : host.depth ≠ 0)
    (hc : host.ledger.companies.get? company.id = some company)
    (ha : host.authority.allows company.admin = true) (hq : 0 ≤ period)
    (hm : ∀ entry ∈ entries, 0 < entry.amount)
    (h : (settleFrom d company period index entries).run host = (result, later)) :
    Spends host.clock host.authority.allows company.id host.ledger later.ledger := by
  induction entries generalizing index host result with
  | nil =>
    cases h
    exact .refl _ _ _ _
  | cons entry rest ih =>
    rcases h₁ : (settle d company period index entry).run host with ⟨failure | record, settled⟩
    · rw [settleFrom, Action.run_bind_error h₁] at h
      cases h
      exact settle_spends ht hd hc ha h₁
    rw [settleFrom, Action.run_bind_ok h₁] at h
    have first : Spends host.clock host.authority.allows company.id host.ledger settled.ledger :=
      settle_spends ht hd hc ha h₁
    obtain ⟨-, -, -, -, rfl⟩ := (settle_eq_ok ht hd hc ha hq (hm entry (.head _))).mp h₁
    rcases h₂ : (settleFrom d company period (index + 1) rest).run _ with
      ⟨failure | records, reached⟩
    · rw [Action.run_bind_error h₂] at h
      cases h
      exact first.trans (ih (by exact hd) (by exact hc) (by exact ha)
        (fun other ho => hm other (.tail _ ho)) h₂)
    · rw [Action.run_bind_ok h₂] at h
      cases h
      exact first.trans (ih (by exact hd) (by exact hc) (by exact ha)
        (fun other ho => hm other (.tail _ ho)) h₂)

-- ---------------------------------------------------------------------------
-- Batches
-- ---------------------------------------------------------------------------

/-- Spending for the company of a batch, whose administrator has signed. -/
def Batch.Spent (host : Host σ) (batch : Batch) (k : Ledger) : Prop :=
  (∃ company, host.ledger.companies.get? batch.company = some company ∧
    host.authority.allows company.admin = true) ∧
      Spends host.clock host.authority.allows batch.company host.ledger k

/-- Inside its transaction, a batch is turned down as it stands, or it is settled as far as it
goes. The clock stands still if all goes well. -/
theorem screened_spent {batch : Batch} {result : Except Failure (List PaymentRecord)}
    (ht : d.tokens = .plain) (hn : host.ledger.Numbered) (hd : host.depth ≠ 0)
    (h : (screen d batch >>= fun company =>
      settleFrom d company batch.period 0 batch.entries).run host = (result, later)) :
    (later.ledger = host.ledger ∧ ∃ failure, result = .error failure) ∨
      batch.Spent host later.ledger ∧
        ∀ records, result = .ok records → later.clock = host.clock := by
  rcases hs : (screen d batch).run host with ⟨failure | company, screened⟩
  · rw [Action.run_bind_error hs] at h
    cases h
    exact .inl ⟨(screen_quiet d batch).ledger hs, failure, rfl⟩
  rw [Action.run_bind_ok hs] at h
  obtain ⟨sound, -, hc, ha, rfl⟩ := screen_eq_ok.mp hs
  obtain ⟨hq, hm⟩ := Batch.positive_of_sound sound
  have number : company.id = batch.company := hn _ _ hc
  have found : host.ledger.companies.get? company.id = some company := by rw [number, hc]
  have spends := settleFrom_spends ht (by exact hd) (by exact found) (by exact ha) hq hm h
  rw [number] at spends
  refine .inr ⟨⟨⟨company, hc, ha⟩, spends⟩, ?_⟩
  rintro records rfl
  obtain ⟨-, -, rfl⟩ :=
    (settleFrom_eq_ok ht (by exact hd) (by exact found) (by exact ha) hq hm).mp h
  rw [settledAll_host]
  rfl

theorem payBatch_spent (ht : d.tokens = .plain) (hn : host.ledger.Numbered) (batch : Batch) :
    ((payBatch d batch).after host).ledger = host.ledger ∨
      batch.Spent host ((payBatch d batch).after host).ledger := by
  rcases h : (payBatch d batch).run host with ⟨failure | records, later⟩ <;> rw [Action.after, h]
  · obtain ⟨raised, inner, hr, -, kept | discarded⟩ := Host.of_transaction_error h
    · rw [kept]
      exact (screened_spent ht (by exact hn) (by exact Nat.succ_ne_zero _) hr).imp And.left And.left
    · exact .inl discarded
  · obtain ⟨inner, hr, -, swept⟩ := Host.of_transaction_ok h
    rcases screened_spent ht (by exact hn) (by exact Nat.succ_ne_zero _) hr with
      ⟨-, failure, failed⟩ | ⟨⟨signed, spends⟩, clock⟩
    · cases failed
    · rw [clock records rfl] at swept
      exact .inr ⟨signed, Spends.swept spends swept⟩

theorem payBatch_heeds (ht : d.tokens = .plain) (hn : host.ledger.Numbered) (batch : Batch) :
    host.Heeds ((payBatch d batch).after host) := by
  rcases payBatch_spent ht hn batch with same | ⟨⟨company, found, signed⟩, spends⟩
  · exact .of_same same
  · exact .of_confined spends.confined (Registry.signed_of found signed)

/-- A batch takes tokens from nobody who has not signed. -/
theorem payBatch_funds (ht : d.tokens = .plain) (hn : host.ledger.Numbered) (batch : Batch)
    {holder : Principal} (unsigned : host.authority.allows holder = false) :
    host.ledger.balance holder ≤ ((payBatch d batch).after host).ledger.balance holder := by
  rcases payBatch_spent ht hn batch with same | ⟨-, spends⟩
  · exact Int.le_of_eq (by rw [same])
  · exact spends.funds holder unsigned

end Payroll

end SealedPayroll
