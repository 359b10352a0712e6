import SealedPayroll.Proofs.Session.Public

/-!
# Where transfers begin

A payment calls the token ledger where the transfer of an entry begins
(`TransferBegins`) and nowhere else: with another token ledger, which does the
same in those hosts and whatever it likes in all others, a batch runs as before
(`payBatch_congr`), and so does a single payment. Whether they answer or fail
does not matter. That the token ledger is called in each of those hosts is not
said here.
-/

namespace SealedPayroll

variable {σ α β : Type} {d : Deployment σ} {host : Host σ}

-- ---------------------------------------------------------------------------
-- Actions that differ in part
-- ---------------------------------------------------------------------------

theorem Action.run_bind_congr {first : Action σ α} {next follow : α → Action σ β}
    (h : ∀ a between, first.run host = (.ok a, between) →
      (next a).run between = (follow a).run between) :
    (first >>= next).run host = (first >>= follow).run host := by
  rcases hr : first.run host with ⟨failure | a, between⟩
  · rw [Action.run_bind_error hr, Action.run_bind_error hr]
  · rw [Action.run_bind_ok hr, Action.run_bind_ok hr, h a between hr]

theorem Host.transaction_congr {body other : Action σ α}
    (h : body.run { host with depth := host.depth + 1 } =
      other.run { host with depth := host.depth + 1 }) :
    (transaction body).run host = (transaction other).run host := by
  by_cases hd : host.depth = 0
  · rw [hd] at h
    rcases hr : other.run { host with depth := 1 } with ⟨failure | a, reached⟩
    · rw [transaction_error hd (h.trans hr), transaction_error hd hr]
    · rw [transaction_ok hd (h.trans hr), transaction_ok hd hr]
  · rw [transaction_nested hd, transaction_nested hd, h]

theorem TokenLedger.calling_congr {hook other : Principal → Principal → Int → Action σ Unit}
    {sender recipient : Principal} {amount : Int}
    (h : (other sender recipient amount).run host = (hook sender recipient amount).run host) :
    ((calling other).transfer sender recipient amount).run host =
      ((calling hook).transfer sender recipient amount).run host := by
  rw [calling, calling, Action.run_bind, Action.run_bind, h]

namespace Payroll

variable {company : Company} {period : Int} {index : Nat} {entry : Entry} {batch : Batch}
  {tokens : TokenLedger σ}

-- ---------------------------------------------------------------------------
-- Entries
-- ---------------------------------------------------------------------------

/-- A settlement calls the token ledger once its entry is approved and entered. -/
theorem settle_congr
    (h : ∀ approved record start, (approve d company index entry).run host = (.ok (), approved) →
      (enter company period entry).run approved = (.ok record, start) →
        (tokens.transfer company.treasury entry.employee entry.amount).run start =
          (d.tokens.transfer company.treasury entry.employee entry.amount).run start) :
    (settle { d with tokens } company period index entry).run host =
      (settle d company period index entry).run host := by
  refine Action.run_bind_congr fun _ approved happrove => ?_
  refine Action.run_bind_congr fun record start henter => ?_
  rw [Action.run_bind, Action.run_bind, h approved record start happrove henter]

/-- Each entry is settled where the entries before it have led. -/
theorem settleFrom_congr {entries : List Entry}
    (h : ∀ k entry records before approved record start, entries[k]? = some entry →
      (settleFrom d company period index (entries.take k)).run host = (.ok records, before) →
      (approve d company (index + k) entry).run before = (.ok (), approved) →
      (enter company period entry).run approved = (.ok record, start) →
        (tokens.transfer company.treasury entry.employee entry.amount).run start =
          (d.tokens.transfer company.treasury entry.employee entry.amount).run start) :
    (settleFrom { d with tokens } company period index entries).run host =
      (settleFrom d company period index entries).run host := by
  induction entries generalizing host index with
  | nil => rfl
  | cons first rest ih =>
    have here : (settle { d with tokens } company period index first).run host =
        (settle d company period index first).run host :=
      settle_congr fun approved record start => h 0 first [] host approved record start rfl rfl
    rw [settleFrom, settleFrom, Action.run_bind, Action.run_bind, here]
    rcases hs : (settle d company period index first).run host with ⟨failure | record, between⟩
    · rfl
    · dsimp only
      rw [Action.run_bind, Action.run_bind, ih]
      intro k entry records before approved made start listed earlier happrove henter
      refine h (k + 1) entry (record :: records) before approved made start listed ?_ ?_ henter
      · rw [List.take_succ_cons, settleFrom, Action.run_bind_ok hs, Action.run_bind_ok earlier]
        rfl
      · rwa [← Nat.add_assoc, Nat.add_right_comm]

-- ---------------------------------------------------------------------------
-- Batches and single payments
-- ---------------------------------------------------------------------------

/-- Wherever the transfer of an entry of a batch begins, two hooks do the same. -/
def Batch.AgreeOnTransfers (d : Deployment σ) (batch : Batch) (host : Host σ)
    (hook other : Principal → Principal → Int → Action σ Unit) : Prop :=
  ∀ company index entry before start,
    TransferBegins d batch host company index entry before start →
      (other company.treasury entry.employee entry.amount).run start =
        (hook company.treasury entry.employee entry.amount).run start

variable {hook other : Principal → Principal → Int → Action σ Unit}

/-- A batch runs a hook where the transfer of an entry begins, and nowhere else. -/
theorem payBatch_congr (ht : d.tokens = .calling hook)
    (h : batch.AgreeOnTransfers d host hook other) :
    (payBatch { d with tokens := .calling other } batch).run host =
      (payBatch d batch).run host := by
  refine Host.transaction_congr (Action.run_bind_congr fun company screened hscreen => ?_)
  refine settleFrom_congr fun k entry records before approved record start listed earlier
    happrove henter => ?_
  rw [Nat.zero_add] at happrove
  rw [ht]
  exact TokenLedger.calling_congr (h company k entry before start
    ⟨listed, ⟨screened, records, hscreen, earlier⟩, ⟨approved, record, happrove, henter⟩⟩)

/-- So does a single payment, as a batch of one entry. -/
theorem pay_congr {id : Int} (ht : d.tokens = .calling hook)
    (h : (Batch.ofEntries id [entry] period).AgreeOnTransfers d host hook other) :
    (pay { d with tokens := .calling other } id entry period).run host =
      (pay d id entry period).run host := by
  refine Host.transaction_congr (Action.run_bind_congr fun company screened hscreen => ?_)
  refine settle_congr fun approved record start happrove henter => ?_
  rw [ht]
  exact TokenLedger.calling_congr (h company 0 entry screened start
    ⟨rfl, ⟨screened, [], hscreen, rfl⟩, ⟨approved, record, happrove, henter⟩⟩)

end Payroll

end SealedPayroll
