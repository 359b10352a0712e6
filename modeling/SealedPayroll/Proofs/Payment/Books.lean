import Mathlib.Logic.Relation
import SealedPayroll.Proofs.Host.Answers
import SealedPayroll.Proofs.Ledger.Rows
import SealedPayroll.Proofs.Session.Public

/-!
# The books

The books are the used nullifiers and the payments. `Posts` is what one
operation can do to them; a run posts any number of times. From this follows
what the books look like in every host that a run can be in (`Books`), and
that nothing leaves them while the run goes on (`Kept`).
-/

namespace SealedPayroll

open SealedPayroll.Action (Quiet Footprint Built)

variable {σ : Type}

-- ---------------------------------------------------------------------------
-- What operations do to the books
-- ---------------------------------------------------------------------------

/-- One change of the books: none at all, the use of a nullifier, or the use of one for a
payment. -/
inductive Posts (l k : Ledger) : Prop
  | nothing : k.nullifiers = l.nullifiers → k.payments = l.payments → Posts l k
  | used (value : Bytes) (usage : NullifierRecord) :
      l.nullifiers.get? value = none → value.length = 32 →
      k.nullifiers = l.nullifiers.insert value usage → k.payments = l.payments → Posts l k
  | entered (record : PaymentRecord) (usage : NullifierRecord) :
      l.nullifiers.get? record.proofHash = none → record.proofHash.length = 32 →
      l.payments.get? (record.employee, record.period) = none →
      k.nullifiers = l.nullifiers.insert record.proofHash usage →
      k.payments = l.payments.insert (record.employee, record.period) record → Posts l k

/-- The ledger with a nullifier used up. -/
def Ledger.useUp (ledger : Ledger) (value : Bytes) (timestamp : Int) : Ledger :=
  ledger.putNullifier value ⟨value, timestamp⟩

namespace Nullifiers

variable {value : Bytes} {record : NullifierRecord} {host later : Host σ}

/-- What using a nullifier does, and when it can be done. -/
theorem use_swept (h : (use value).run host = (.ok record, later)) :
    host.ledger.nullifiers.get? value = none ∧ value.length = 32 ∧
      record = ⟨value, host.clock.timestamp⟩ ∧ later.clock = host.clock ∧
      Ledger.Swept host.clock (host.ledger.useUp value host.clock.timestamp) later.ledger := by
  obtain ⟨inner, hr, clock, swept⟩ := Host.of_transaction_ok h
  obtain ⟨used, _, h₁, hr⟩ := Action.bind_eq_ok.mp hr
  cases h₁
  split at hr
  · cases hr
  · rename_i unused
    obtain ⟨now, _, h₂, hr⟩ := Action.bind_eq_ok.mp hr
    cases h₂
    obtain ⟨made, _, h₃, hr⟩ := Action.bind_eq_ok.mp hr
    obtain ⟨valid, rfl⟩ := Action.build_eq_ok.mp h₃
    obtain ⟨sized, rfl⟩ := NullifierRecord.make_eq_valid.mp valid
    cases hr
    have free : host.ledger.nullifiers.get? value = none := by
      simpa only [isUsed, Bool.not_eq_true, Table.contains_eq_false_iff] using unused
    exact ⟨free, sized, rfl, clock, swept⟩

theorem of_use_ok (h : (use value).run host = (.ok record, later)) :
    host.ledger.nullifiers.get? value = none ∧ value.length = 32 ∧
      later.clock = host.clock ∧
      later.ledger.nullifiers = host.ledger.nullifiers.insert value record ∧
      later.ledger.payments = host.ledger.payments ∧ later.ledger.totals = host.ledger.totals := by
  obtain ⟨free, sized, rfl, clock, swept⟩ := use_swept h
  refine ⟨free, sized, clock, ?_⟩
  rcases swept with hl | hl <;> rw [hl] <;> exact ⟨rfl, rfl, rfl⟩

/-- A failed use of a nullifier uses nothing up. -/
theorem of_use_error {failure : Failure} (h : (use value).run host = (.error failure, later)) :
    later.ledger = host.ledger := by
  obtain ⟨raised, inner, hr, -, hl⟩ := Host.of_transaction_error h
  have hi : inner.ledger = host.ledger := by
    simp only [Action.run_bind, Action.run_read] at hr
    split at hr
    · cases hr
      rfl
    · simp only [Host.now, Action.bind_build, Action.run_bind, Action.run_read] at hr
      split at hr <;> cases hr
      rfl
  rcases hl with hl | hl
  · rw [hl, hi]
  · exact hl

end Nullifiers

/-- The ledger with a payment on its books and in the total of its company. -/
def Ledger.post (ledger : Ledger) (record : PaymentRecord) : Ledger :=
  (ledger.putPayment record.employee record.period record).putTotal record.company
    (ledger.totalPaid record.company + record.amount)

theorem Ledger.totalPaid_post (l : Ledger) (record : PaymentRecord) (company : Int) :
    (l.post record).totalPaid company =
      l.totalPaid company + if record.company = company then record.amount else 0 := by
  simp only [post, putTotal, putPayment, totalPaid, Table.get?_insert]
  split
  · rename_i h
    subst h
    rfl
  · exact (Int.add_zero _).symm

namespace Payroll

variable {company : Company} {period : Int} {entry : Entry} {host later : Host σ}

/-- The record of an entry that is settled in a host. -/
def Entry.record (company : Company) (period : Int) (host : Host σ) (entry : Entry) :
    PaymentRecord :=
  ⟨company.id, entry.employee, entry.amount, entry.nullifier, host.clock.timestamp, period⟩

/-- A payment that can be booked is, and then the binding is brought up to date. -/
theorem run_book_due (hp : isPaid host.ledger entry.employee period = false)
    (hv : entry.employee ≠ "" ∧ 0 < entry.amount ∧ entry.nullifier.length = 32 ∧ 0 ≤ period) :
    (book company period entry).run host =
      ((fun _ => entry.record company period host) <$>
        Registry.recordPayment company.id entry.employee host.clock.timestamp).run
        { host with
          ledger := host.ledger.post (entry.record company period host)
          writes := host.writes + 2 } := by
  have hb := PaymentRecord.make_eq_valid.mpr
    ⟨hv, rfl (a := entry.record company period host)⟩
  simp only [Entry.record] at hb
  simp only [book, Action.run_bind, Action.run_read, hp, Host.now, hb, Action.run_build_valid,
    Bool.false_eq_true, if_false, Action.run_write, map_eq_pure_bind]
  rfl

theorem run_book (company : Company) (period : Int) (entry : Entry) (host : Host σ) :
    (∃ failure, (book company period entry).run host = (.error failure, host)) ∨
      isPaid host.ledger entry.employee period = false ∧
        (entry.employee ≠ "" ∧ 0 < entry.amount ∧ entry.nullifier.length = 32 ∧ 0 ≤ period) := by
  cases hp : isPaid host.ledger entry.employee period with
  | true =>
    refine .inl ⟨⟨.payroll (.alreadyPaid entry.employee period), false⟩, ?_⟩
    simp only [book, Action.run_bind, Action.run_read, hp, if_true, Action.run_refuse]
  | false =>
    cases hb : PaymentRecord.make company.id entry.employee entry.amount entry.nullifier
        host.clock.timestamp period with
    | invalid faults =>
      refine .inl ⟨(Fault.record .payment faults).raised, ?_⟩
      simp only [book, Action.run_bind, Action.run_read, hp, Host.now, hb,
        Action.run_build_invalid, Bool.false_eq_true, if_false]
    | valid record => exact .inr ⟨rfl, (PaymentRecord.make_eq_valid.mp hb).1⟩

/-- A booking that gets as far as the books stays on them, also when the binding cannot be
brought up to date. -/
theorem book_cases {result : Except Failure PaymentRecord}
    (h : (book company period entry).run host = (result, later)) :
    (∃ failure, result = .error failure) ∧ later = host ∨
      (∀ record, result = .ok record → record = entry.record company period host) ∧
        host.ledger.payments.get? (entry.employee, period) = none ∧
        later.ledger.nullifiers = host.ledger.nullifiers ∧
        later.ledger.payments = host.ledger.payments.insert (entry.employee, period)
          (entry.record company period host) ∧
        later.ledger.totals = host.ledger.totals.insert company.id
          (host.ledger.totalPaid company.id + entry.amount) := by
  rcases run_book company period entry host with ⟨failure, hr⟩ | ⟨hp, hv⟩
  · rw [hr] at h
    cases h
    exact .inl ⟨⟨failure, rfl⟩, rfl⟩
  · rw [run_book_due hp hv] at h
    rw [isPaid, Table.contains_eq_false_iff] at hp
    have agree (part : Ledger.Part) (hp : part ∉ [.bindings]) (he : part.expires = false) :
        part.Agree (host.ledger.post (entry.record company period host)) later.ledger := by
      have := Footprint.agree part (.map (Registry.recordPayment_footprint company.id entry.employee
        host.clock.timestamp) fun _ => entry.record company period host) hp he
        { host with
          ledger := host.ledger.post (entry.record company period host)
          writes := host.writes + 2 }
      rwa [Action.after, h] at this
    refine .inr ⟨?_, hp, agree .nullifiers (by decide) rfl, agree .payments (by decide) rfl,
      agree .totals (by decide) rfl⟩
    rintro record rfl
    rw [map_eq_pure_bind] at h
    obtain ⟨binding, reached, -, h⟩ := Action.bind_eq_ok.mp h
    cases h
    rfl

theorem of_enter_ok {record : PaymentRecord}
    (h : (enter company period entry).run host = (.ok record, later)) :
    record = entry.record company period host ∧
      host.ledger.nullifiers.get? entry.nullifier = none ∧ entry.nullifier.length = 32 ∧
      host.ledger.payments.get? (entry.employee, period) = none ∧
      (∃ usage, later.ledger.nullifiers = host.ledger.nullifiers.insert entry.nullifier usage) ∧
      later.ledger.payments = host.ledger.payments.insert (entry.employee, period) record ∧
      later.ledger.totals = host.ledger.totals.insert company.id
        (host.ledger.totalPaid company.id + entry.amount) := by
  obtain ⟨usage, between, hu, h⟩ := Action.bind_eq_ok.mp h
  obtain ⟨hn, hv, hc, hn', hp', ht'⟩ := Nullifiers.of_use_ok hu
  have same : entry.record company period between = entry.record company period host := by
    rw [Entry.record, Entry.record, hc]
  rcases book_cases h with ⟨⟨failure, hf⟩, -⟩ | ⟨hr, hp, hn'', hp'', ht''⟩
  · cases hf
  · cases hr _ rfl
    rw [Ledger.totalPaid, hp', ht', same] at *
    exact ⟨rfl, hn, hv, hp, ⟨usage, hn''.trans hn'⟩, hp'', ht''⟩

theorem enter_posts (company : Company) (period : Int) (entry : Entry) (host : Host σ) :
    Posts host.ledger ((enter company period entry).after host).ledger := by
  rcases hu : (Nullifiers.use entry.nullifier).run host with ⟨failure | usage, between⟩
  · rw [enter, Action.after_bind_error hu, Nullifiers.of_use_error hu]
    exact .nothing rfl rfl
  · obtain ⟨hn, hv, -, hn', hp', -⟩ := Nullifiers.of_use_ok hu
    rw [enter, Action.after_bind_ok hu]
    rcases hb : (book company period entry).run between with ⟨result, later⟩
    rw [Action.after, hb]
    rcases book_cases hb with ⟨-, rfl⟩ | ⟨-, hp, hn'', hp'', -⟩
    · exact .used entry.nullifier usage hn hv hn' hp'
    · rw [hp'] at hp hp''
      exact .entered (entry.record company period between) usage hn hv hp (hn''.trans hn') hp''

end Payroll

-- ---------------------------------------------------------------------------
-- What runs do to the books
-- ---------------------------------------------------------------------------

/-- What a run does to the books: any number of changes. -/
abbrev PostsMany : Ledger → Ledger → Prop := Relation.ReflTransGen Posts

theorem Operation.posts {α : Type} {action : Action σ α} (h : Operation action) (host : Host σ) :
    Posts host.ledger (action.after host).ledger := by
  refine cases_books (motive := fun _ a => Posts host.ledger (a.after host).ledger) ?_ ?_ ?_ h
  · intro _ action h
    exact .nothing (Footprint.agree .nullifiers h (by decide) rfl host)
      (Footprint.agree .payments h (by decide) rfl host)
  · intro value
    rcases hu : (Nullifiers.use value).run host with ⟨failure | usage, later⟩
    · rw [Action.after, hu, Nullifiers.of_use_error hu]
      exact .nothing rfl rfl
    · obtain ⟨hn, hv, -, hn', hp', -⟩ := Nullifiers.of_use_ok hu
      rw [Action.after, hu]
      exact .used value usage hn hv hn' hp'
  · intro company period entry
    exact Payroll.enter_posts company period entry host

theorem postsMany_respected : Respected σ PostsMany where
  refl _ := .refl
  trans := .trans
  evict _ _ _ := .single (.nothing rfl rfl)
  operation _ h host := .single (h.posts host)

/-- What is on the books in one ledger is on the books in another. -/
structure Kept (l k : Ledger) : Prop where
  nullifiers : ∀ value usage, l.nullifiers.get? value = some usage →
    k.nullifiers.get? value = some usage
  payments : ∀ key record, l.payments.get? key = some record → k.payments.get? key = some record

/-- Writing under a new key keeps what is there. -/
theorem Table.get?_insert_kept {κ ν : Type} [DecidableEq κ] {table : Table κ ν} {new : κ}
    (value : ν) (hn : table.get? new = none) {key : κ} {found : ν}
    (h : table.get? key = some found) : (table.insert new value).get? key = some found := by
  rw [get?_insert, if_neg]
  · exact h
  · rintro rfl
    rw [hn] at h
    cases h

theorem Posts.kept {l k : Ledger} (h : Posts l k) : Kept l k := by
  cases h with
  | nothing hn hp => exact ⟨fun _ _ h => hn ▸ h, fun _ _ h => hp ▸ h⟩
  | used value usage hu _ hn hp =>
    exact ⟨fun _ _ h => hn ▸ Table.get?_insert_kept usage hu h, fun _ _ h => hp ▸ h⟩
  | entered record usage hu _ hfree hn hp =>
    exact ⟨fun _ _ h => hn ▸ Table.get?_insert_kept usage hu h,
      fun _ _ h => hp ▸ Table.get?_insert_kept record hfree h⟩

/-- The books are in order: payments stand under their employee and period, each with a used
nullifier of its own. -/
structure Books (l : Ledger) : Prop where
  keyed : ∀ key record, l.payments.get? key = some record → key = (record.employee, record.period)
  sized : ∀ value usage, l.nullifiers.get? value = some usage → value.length = 32
  used : ∀ key record, l.payments.get? key = some record →
    ∃ usage, l.nullifiers.get? record.proofHash = some usage
  own : ∀ key other record another, l.payments.get? key = some record →
    l.payments.get? other = some another → record.proofHash = another.proofHash → key = other

namespace Books

variable {l : Ledger} {a b : PaymentRecord}

theorem length_proofHash (h : Books l) (ha : a ∈ l.payments.values) : a.proofHash.length = 32 := by
  obtain ⟨key, ha⟩ := Table.mem_values_iff.mp ha
  obtain ⟨usage, hu⟩ := h.used key a ha
  exact h.sized _ _ hu

theorem eq_of_proofHash (h : Books l) (ha : a ∈ l.payments.values) (hb : b ∈ l.payments.values)
    (he : a.proofHash = b.proofHash) : a = b := by
  obtain ⟨key, ha⟩ := Table.mem_values_iff.mp ha
  obtain ⟨other, hb⟩ := Table.mem_values_iff.mp hb
  cases h.own _ _ _ _ ha hb he
  exact Option.some.inj (ha.symm.trans hb)

end Books

/-- What has been paid for has another nullifier than one that is unused. -/
theorem Books.fresh {l : Ledger} (h : Books l) {value : Bytes}
    (hu : l.nullifiers.get? value = none) (key : Principal × Int) (record : PaymentRecord)
    (hr : l.payments.get? key = some record) : record.proofHash ≠ value := by
  rintro rfl
  obtain ⟨usage, hf⟩ := h.used key record hr
  rw [hu] at hf
  cases hf

theorem Books.sized_insert {l : Ledger} (h : Books l) {value : Bytes} (usage : NullifierRecord)
    (hv : value.length = 32) (other : Bytes) (found : NullifierRecord)
    (hf : (l.nullifiers.insert value usage).get? other = some found) : other.length = 32 := by
  rw [Table.get?_insert] at hf
  split at hf
  · rename_i he
    exact he ▸ hv
  · exact h.sized _ _ hf

theorem Books.own_insert {l : Ledger} (h : Books l) {record : PaymentRecord}
    (hu : l.nullifiers.get? record.proofHash = none) {key other : Principal × Int}
    {found another : PaymentRecord}
    (hf : (l.payments.insert (record.employee, record.period) record).get? key = some found)
    (ha : (l.payments.insert (record.employee, record.period) record).get? other = some another)
    (he : found.proofHash = another.proofHash) : key = other := by
  rw [Table.get?_insert] at hf ha
  split at hf <;> split at ha
  · rename_i h₁ h₂
    exact h₁.symm.trans h₂
  · cases hf
    exact absurd he.symm (h.fresh hu _ _ ha)
  · cases ha
    exact absurd he (h.fresh hu _ _ hf)
  · exact h.own _ _ _ _ hf ha he

theorem Books.posts {l k : Ledger} (h : Books l) (hp : Posts l k) : Books k := by
  have kept := hp.kept
  cases hp with
  | nothing hn hp => exact ⟨hp ▸ h.keyed, hn ▸ h.sized, hn ▸ hp ▸ h.used, hp ▸ h.own⟩
  | used value usage hu hv hn hp =>
    refine ⟨hp ▸ h.keyed, hn ▸ h.sized_insert usage hv, ?_, hp ▸ h.own⟩
    intro key record hr
    obtain ⟨found, hf⟩ := h.used key record (hp ▸ hr)
    exact ⟨found, kept.nullifiers _ _ hf⟩
  | entered record usage hu hv hfree hn hp =>
    refine ⟨?_, hn ▸ h.sized_insert usage hv, ?_, fun _ _ _ _ hf ha => ?_⟩
    · intro key found hf
      rw [hp, Table.get?_insert] at hf
      split at hf
      · rename_i he
        cases hf
        exact he.symm
      · exact h.keyed _ _ hf
    · intro key found hf
      rw [hp, Table.get?_insert] at hf
      split at hf
      · cases hf
        exact ⟨usage, by rw [hn, Table.get?_insert, if_pos rfl]⟩
      · obtain ⟨other, ho⟩ := h.used key found hf
        exact ⟨other, kept.nullifiers _ _ ho⟩
    · rw [hp] at hf ha
      exact h.own_insert hu hf ha

theorem Books.empty : Books .empty where
  keyed _ _ h := nomatch h
  sized _ _ h := nomatch h
  used _ _ h := nomatch h
  own _ _ _ _ h := nomatch h

theorem PostsMany.kept {l k : Ledger} (h : PostsMany l k) : Kept l k := by
  induction h with
  | refl => exact ⟨fun _ _ h => h, fun _ _ h => h⟩
  | tail _ hp ih =>
    exact ⟨fun _ _ h => hp.kept.nullifiers _ _ (ih.nullifiers _ _ h),
      fun _ _ h => hp.kept.payments _ _ (ih.payments _ _ h)⟩

theorem Books.postsMany {l k : Ledger} (h : Books l) (hp : PostsMany l k) : Books k := by
  induction hp with
  | refl => exact h
  | tail _ hp ih => exact ih.posts hp

/-- The books are in order wherever a run is. -/
theorem Reachable.books {base d : Deployment σ} {host : Host σ} (h : Reachable base d host) :
    Books host.ledger :=
  Books.empty.postsMany (h.respected postsMany_respected)

end SealedPayroll
