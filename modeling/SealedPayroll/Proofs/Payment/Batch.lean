import Mathlib.Algebra.Ring.Int.Defs
import SealedPayroll.Proofs.Ledger.Alike
import SealedPayroll.Proofs.Payment.Settle

/-!
# Settling a batch

Each entry is checked against a host that the entries before it have changed.
Here the same is said of the host before the first of them: what an earlier
entry can spoil for a later one is its payee, its nullifier and the balance of
the treasury, and nothing else (`settleFrom_eq_ok`).
-/

namespace SealedPayroll

variable {σ : Type} {host later : Host σ}

-- ---------------------------------------------------------------------------
-- One entry after another
-- ---------------------------------------------------------------------------

theorem Verifier.answer_congr {backend : PairingBackend} {proof : Proof} {inputs : List Bytes}
    (hk : later.ledger.verificationKey = host.ledger.verificationKey) :
    ((verify backend proof inputs).run later).1 = ((verify backend proof inputs).run host).1 := by
  simp only [verify, Action.run_bind, Action.run_expect, Action.run_change, hk]
  cases host.ledger.verificationKey with
  | none => rfl
  | some key =>
    dsimp only
    cases (Groth16.verdict backend key proof inputs).2 <;> rfl

/-- Bringing a binding up to date changes neither who is bound where nor the commitment. -/
theorem Registry.employed_note {ledger : Ledger} {name other : Principal} {timestamp id : Int}
    {commitment : Bytes} :
    (∃ binding, employed? (ledger.note name timestamp) id other = some binding ∧
        binding.commitment = commitment) ↔
      ∃ binding, employed? ledger id other = some binding ∧ binding.commitment = commitment := by
  simp only [employed?, Ledger.note]
  cases hb : ledger.bindings.get? name with
  | none => rfl
  | some bound =>
    simp only [Table.get?_insert]
    by_cases he : name = other
    · subst he
      simp only [if_pos, hb, Option.filter_eq_some_iff, Option.some.injEq, decide_eq_true_eq]
      constructor
      · rintro ⟨_, ⟨rfl, hi⟩, hc⟩
        exact ⟨bound, ⟨rfl, hi⟩, hc⟩
      · rintro ⟨_, ⟨rfl, hi⟩, hc⟩
        exact ⟨_, ⟨rfl, hi⟩, hc⟩
    · simp only [if_neg he]

namespace Ledger

/-- The ledger with more tokens on a balance. -/
def fund (ledger : Ledger) (holder : Principal) (amount : Int) : Ledger :=
  ledger.putBalance holder (ledger.balance holder + amount)

/-- A transfer takes away what it then adds, also when both happen to one balance. -/
theorem move_eq (ledger : Ledger) (sender recipient : Principal) (amount : Int) :
    ledger.move sender recipient amount = (ledger.fund sender (-amount)).fund recipient amount := rfl

theorem balance_fund (ledger : Ledger) (holder other : Principal) (amount : Int) :
    (ledger.fund holder amount).balance other =
      ledger.balance other + if holder = other then amount else 0 := by
  simp only [fund, putBalance, balance, Table.get?_insert]
  split
  · rename_i h
    subst h
    rfl
  · simp

theorem balance_move (ledger : Ledger) (sender recipient holder : Principal) (amount : Int) :
    (ledger.move sender recipient amount).balance holder =
      ledger.balance holder + (if recipient = holder then amount else 0) -
        if sender = holder then amount else 0 := by
  rw [move_eq, balance_fund, balance_fund]
  split <;> split <;> omega

end Ledger

namespace Payroll

variable {d : Deployment σ} {company : Company} {period : Int} {index : Nat} {entry other : Entry}

theorem Entry.approved_settled {id : Int} :
    other.Approved d id (entry.settled d company period host) ↔ other.Approved d id host := by
  have answer (stored : CommitmentRecord) (recipient : Bytes) :
      ((Verifier.verifyPayment d.backend other.proof stored.commitment other.nullifier
        recipient).run (entry.settled d company period host)).1 =
      ((Verifier.verifyPayment d.backend other.proof stored.commitment other.nullifier
        recipient).run host).1 := Verifier.answer_congr rfl
  constructor
  · rintro ⟨binding, stored, recipient, hb, hs, hc, hr, hv⟩
    obtain ⟨found, hf, hc⟩ := Registry.employed_note.mp ⟨binding, hb, hc⟩
    exact ⟨found, stored, recipient, hf, hs, hc, hr, answer stored recipient ▸ hv⟩
  · rintro ⟨binding, stored, recipient, hb, hs, hc, hr, hv⟩
    obtain ⟨found, hf, hc⟩ := Registry.employed_note.mpr ⟨binding, hb, hc⟩
    exact ⟨found, stored, recipient, hf, hs, hc, hr, (answer stored recipient).symm ▸ hv⟩

/-- What one entry spoils for another, which may be for another company or period. -/
theorem Entry.due_settled {id otherPeriod : Int} :
    other.Due d id otherPeriod (entry.settled d company period host) ↔
      other.Due d id otherPeriod host ∧
        (entry.employee = other.employee → period ≠ otherPeriod) ∧
        entry.nullifier ≠ other.nullifier := by
  have hu : Nullifiers.isUsed (entry.settled d company period host).ledger other.nullifier = false ↔
      Nullifiers.isUsed host.ledger other.nullifier = false ∧ entry.nullifier ≠ other.nullifier := by
    simp only [Nullifiers.isUsed, Table.contains_eq_false_iff]
    exact Table.get?_insert_eq_none
  have hp : isPaid (entry.settled d company period host).ledger other.employee otherPeriod = false ↔
      isPaid host.ledger other.employee otherPeriod = false ∧
        (entry.employee = other.employee → period ≠ otherPeriod) := by
    simp only [isPaid, Table.contains_eq_false_iff]
    refine Table.get?_insert_eq_none.trans (and_congr_right fun _ => ?_)
    simp [Entry.record]
  constructor
  · rintro ⟨ha, h₁, h₂⟩
    exact ⟨⟨approved_settled.mp ha, (hu.mp h₁).1, (hp.mp h₂).1⟩, (hp.mp h₂).2, (hu.mp h₁).2⟩
  · rintro ⟨⟨ha, h₁, h₂⟩, he, hn⟩
    exact ⟨approved_settled.mpr ha, hu.mpr ⟨h₁, hn⟩, hp.mpr ⟨h₂, he⟩⟩

-- ---------------------------------------------------------------------------
-- All entries
-- ---------------------------------------------------------------------------

/-- What entries take from a treasury: all but what it pays to itself. -/
def spent (treasury : Principal) (entries : List Entry) : Int :=
  ((entries.filter (·.employee ≠ treasury)).map (·.amount)).sum

@[simp] theorem spent_nil (treasury : Principal) : spent treasury [] = 0 := rfl

theorem spent_cons (treasury : Principal) (entry : Entry) (entries : List Entry) :
    spent treasury (entry :: entries) =
      (if entry.employee = treasury then 0 else entry.amount) + spent treasury entries := by
  by_cases h : entry.employee = treasury <;> simp [spent, h]

/-- Each entry is covered by what the entries before it leave of a balance. -/
def Covered (treasury : Principal) (balance : Int) (entries : List Entry) : Prop :=
  ∀ i entry, entries[i]? = some entry → entry.amount ≤ balance - spent treasury (entries.take i)

theorem covered_cons {treasury : Principal} {balance : Int} {entries : List Entry} :
    Covered treasury balance (entry :: entries) ↔
      entry.amount ≤ balance ∧
        Covered treasury (balance - spent treasury [entry]) entries := by
  have next (i : Nat) : balance - spent treasury ((entry :: entries).take (i + 1)) =
      balance - spent treasury [entry] - spent treasury (entries.take i) := by
    rw [List.take_succ_cons, spent_cons, spent_cons, spent_nil]
    omega
  constructor
  · intro h
    refine ⟨by simpa [spent] using h 0 entry rfl, fun i other ho => ?_⟩
    rw [← next]
    exact h (i + 1) other ho
  · rintro ⟨h₀, h⟩ (_ | i) other ho
    · cases ho
      simpa [spent] using h₀
    · rw [next]
      exact h i other ho

/-- What has to hold of entries for all of them to be settled, besides their amounts. -/
structure Settleable (d : Deployment σ) (company : Company) (period : Int) (host : Host σ)
    (entries : List Entry) : Prop where
  due : ∀ entry ∈ entries, entry.Due d company.id period host
  payees : (entries.map (·.employee)).Nodup
  nullifiers : (entries.map (·.nullifier)).Nodup
  signed : entries ≠ [] → host.authority.allows company.treasury = true
  covered : Covered company.treasury (host.ledger.balance company.treasury) entries

theorem settleable_cons {entries : List Entry} :
    Settleable d company period host (entry :: entries) ↔
      (entry.Due d company.id period host ∧ host.authority.allows company.treasury = true ∧
        entry.amount ≤ host.ledger.balance company.treasury) ∧
        Settleable d company period (entry.settled d company period host) entries := by
  have left : (entry.settled d company period host).ledger.balance company.treasury =
      host.ledger.balance company.treasury - spent company.treasury [entry] := by
    show (Ledger.move _ company.treasury entry.employee entry.amount).balance _ = _
    rw [Ledger.balance_move, spent_cons, spent_nil, if_pos rfl]
    show host.ledger.balance company.treasury + _ - _ = _
    split <;> omega
  constructor
  · rintro ⟨hdue, hp, hn, hs, hc⟩
    rw [List.map_cons, List.nodup_cons] at hp hn
    obtain ⟨hc₀, hc⟩ := covered_cons.mp hc
    refine ⟨⟨hdue _ (.head _), hs (by simp), hc₀⟩, ⟨?_, hp.2, hn.2, fun _ => hs (by simp), ?_⟩⟩
    · intro other ho
      refine Entry.due_settled.mpr ⟨hdue _ (.tail _ ho), ?_, ?_⟩
      · exact fun he => absurd (List.mem_map.mpr ⟨other, ho, he.symm⟩) hp.1
      · exact fun he => hn.1 (List.mem_map.mpr ⟨other, ho, he.symm⟩)
    · rw [left]
      exact hc
  · rintro ⟨⟨hdue₀, hs, hc₀⟩, hdue, hp, hn, -, hc⟩
    rw [left] at hc
    refine ⟨?_, ?_, ?_, fun _ => hs, covered_cons.mpr ⟨hc₀, hc⟩⟩
    · rintro other (_ | ⟨_, ho⟩)
      · exact hdue₀
      · exact (Entry.due_settled.mp (hdue other ho)).1
    · rw [List.map_cons, List.nodup_cons]
      refine ⟨fun hm => ?_, hp⟩
      obtain ⟨other, ho, he⟩ := List.mem_map.mp hm
      exact (Entry.due_settled.mp (hdue other ho)).2.1 he.symm rfl
    · rw [List.map_cons, List.nodup_cons]
      refine ⟨fun hm => ?_, hn⟩
      obtain ⟨other, ho, he⟩ := List.mem_map.mp hm
      exact (Entry.due_settled.mp (hdue other ho)).2.2 he.symm

/-- Only the treasury's signature matters, and what is on the ledger under which key. -/
theorem settleable_congr {entries : List Entry} (hl : later.ledger.Alike host.ledger)
    (ha : later.authority.allows company.treasury = host.authority.allows company.treasury) :
    Settleable d company period later entries ↔ Settleable d company period host entries := by
  have due (entry : Entry) :
      entry.Due d company.id period later ↔ entry.Due d company.id period host := by
    have answer (inputs : List Bytes) :
        ((Verifier.verify d.backend entry.proof inputs).run later).1 =
          ((Verifier.verify d.backend entry.proof inputs).run host).1 :=
      Verifier.answer_congr hl.verificationKey
    have approved : entry.Approved d company.id later ↔ entry.Approved d company.id host := by
      simp only [Entry.Approved, Registry.employed?, hl.bindings entry.employee, hl.commitments,
        Verifier.verifyPayment, answer]
    have unused : Nullifiers.isUsed later.ledger entry.nullifier =
        Nullifiers.isUsed host.ledger entry.nullifier := hl.nullifiers.contains _
    have unpaid : isPaid later.ledger entry.employee period =
        isPaid host.ledger entry.employee period := hl.payments.contains _
    constructor
    · rintro ⟨h, hu, hp⟩
      exact ⟨approved.mp h, unused ▸ hu, unpaid ▸ hp⟩
    · rintro ⟨h, hu, hp⟩
      exact ⟨approved.mpr h, unused.symm ▸ hu, unpaid.symm ▸ hp⟩
  have funds := hl.balance company.treasury
  constructor
  · rintro ⟨hdue, hp, hn, hs, hc⟩
    exact ⟨fun entry he => (due entry).mp (hdue entry he), hp, hn, ha ▸ hs, funds ▸ hc⟩
  · rintro ⟨hdue, hp, hn, hs, hc⟩
    exact ⟨fun entry he => (due entry).mpr (hdue entry he), hp, hn, ha.symm ▸ hs,
      funds.symm ▸ hc⟩

/-- The host after entries were settled. -/
def settledAll (d : Deployment σ) (company : Company) (period : Int) (host : Host σ)
    (entries : List Entry) : Host σ :=
  entries.foldl (Entry.settled d company period) host

theorem settleFrom_eq_ok {entries : List Entry} {records : List PaymentRecord}
    (ht : d.tokens = .plain) (hd : host.depth ≠ 0)
    (hc : host.ledger.companies.get? company.id = some company)
    (ha : host.authority.allows company.admin = true) (hp : 0 ≤ period)
    (hm : ∀ entry ∈ entries, 0 < entry.amount) :
    (settleFrom d company period index entries).run host = (.ok records, later) ↔
      Settleable d company period host entries ∧
        entries.map (·.record company period host) = records ∧
        settledAll d company period host entries = later := by
  induction entries generalizing host later index records with
  | nil =>
    rw [settleFrom, Action.pure_eq_ok]
    constructor
    · rintro ⟨rfl, rfl⟩
      exact ⟨⟨by simp, .nil, .nil, fun h => absurd rfl h, fun i _ h => by simp at h⟩, rfl, rfl⟩
    · rintro ⟨-, rfl, rfl⟩
      exact ⟨rfl, rfl⟩
  | cons entry rest ih =>
    have hr : ∀ other ∈ rest, 0 < other.amount := fun _ h => hm _ (.tail _ h)
    rw [settleable_cons]
    constructor
    · intro h
      obtain ⟨record, between, h₁, h⟩ := Action.bind_eq_ok.mp h
      obtain ⟨hdue, hs, hf, rfl, rfl⟩ := (settle_eq_ok ht hd hc ha hp (hm _ (.head _))).mp h₁
      obtain ⟨rest, reached, h₂, h⟩ := Action.bind_eq_ok.mp h
      obtain ⟨hrest, rfl, rfl⟩ := (ih (by exact hd) (by exact hc) (by exact ha) hr).mp h₂
      obtain ⟨rfl, rfl⟩ := Action.pure_eq_ok.mp h
      exact ⟨⟨⟨hdue, hs, hf⟩, hrest⟩, rfl, rfl⟩
    · rintro ⟨⟨⟨hdue, hs, hf⟩, hrest⟩, rfl, rfl⟩
      exact Action.bind_eq_ok.mpr ⟨_, _, (settle_eq_ok ht hd hc ha hp (hm _ (.head _))).mpr
        ⟨hdue, hs, hf, rfl, rfl⟩, Action.bind_eq_ok.mpr ⟨_, _,
          (ih (by exact hd) (by exact hc) (by exact ha) hr).mpr ⟨hrest, rfl, rfl⟩, rfl⟩⟩

end Payroll

end SealedPayroll
