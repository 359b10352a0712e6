import SealedPayroll.Proofs.Payment.Scalars
import SealedPayroll.Proofs.Session.Upheld

/-!
# Payments and their nullifiers

Every payment on the books was made by a registered company, for a positive
amount, under a nullifier that was used at the time of the payment and for no
other payment (`Reachable.payments_linked`). The other way round nothing is
said: a nullifier can be used up without a payment.

Which company a settlement pays for is known from its screening only, so the
invariant is upheld by whole settlements and not by their operations.
-/

namespace SealedPayroll

open SealedPayroll.Action (Footprint Built Keeps)

variable {σ : Type}

-- ---------------------------------------------------------------------------
-- The invariant
-- ---------------------------------------------------------------------------

/-- A payment is linked to its company and to its nullifier. -/
structure PaymentRecord.Linked (l : Ledger) (record : PaymentRecord) : Prop where
  registered : l.companies.contains record.company = true
  positive : 0 < record.amount
  dated : l.nullifiers.get? record.proofHash = some ⟨record.proofHash, record.timestamp⟩

/-- All payments are linked, and companies stand under their numbers. -/
structure Ledger.Linked (l : Ledger) : Prop where
  numbered : l.Numbered
  linked : ∀ key record, l.payments.get? key = some record → record.Linked l

theorem Ledger.Linked.empty : Ledger.empty.Linked where
  numbered _ _ h := nomatch h
  linked _ _ h := nomatch h

/-- What one ledger has of companies and used nullifiers another one has as well. -/
structure Extends (l k : Ledger) : Prop where
  companies : ∀ id, l.companies.contains id = true → k.companies.contains id = true
  nullifiers : ∀ value usage, l.nullifiers.get? value = some usage →
    k.nullifiers.get? value = some usage

theorem PaymentRecord.Linked.extends {l k : Ledger} {record : PaymentRecord}
    (h : record.Linked l) (he : Extends l k) : record.Linked k :=
  ⟨he.companies _ h.registered, h.positive, he.nullifiers _ _ h.dated⟩

/-- From a linked ledger a linked one is reached, and what is registered stays registered. -/
def Links (l k : Ledger) : Prop := l.Linked → k.Linked ∧ Extends l k

theorem Links.chained : Chained Links where
  refl _ h := ⟨h, fun _ h => h, fun _ _ h => h⟩
  trans h₁ h₂ h :=
    have ⟨hm, e₁⟩ := h₁ h
    have ⟨hk, e₂⟩ := h₂ hm
    ⟨hk, fun id h => e₂.companies id (e₁.companies id h),
      fun v u h => e₂.nullifiers v u (e₁.nullifiers v u h)⟩
  evict _ _ _ h := ⟨⟨h.numbered, fun key record hr =>
    (h.linked key record hr).extends ⟨fun _ h => h, fun _ _ h => h⟩⟩, fun _ h => h, fun _ _ h => h⟩

/-- A ledger is reached that has more of everything, and whose new payments are linked. -/
theorem Links.of_new {l k : Ledger} (hn : l.Numbered → k.Numbered) (he : Extends l k)
    (new : ∀ key record, k.payments.get? key = some record →
      l.payments.get? key = some record ∨ record.Linked k) : Links l k := by
  intro h
  refine ⟨⟨hn h.numbered, fun key record hr => ?_⟩, he⟩
  rcases new key record hr with old | linked
  · exact (h.linked key record old).extends he
  · exact linked

-- ---------------------------------------------------------------------------
-- Operations
-- ---------------------------------------------------------------------------

theorem Ledger.Write.companies_grow {part : Ledger.Part} {f : Ledger → Ledger}
    (h : Ledger.Write part f) (l : Ledger) (id : Int) (hc : l.companies.contains id = true) :
    (f l).companies.contains id = true := by
  cases h with
  | company company =>
    obtain ⟨found, hf⟩ := Table.contains_eq_true_iff.mp hc
    simp only [Table.contains_eq_true_iff, Ledger.putCompany, Table.get?_insert]
    split
    · exact ⟨_, rfl⟩
    · exact ⟨found, hf⟩
  | _ => exact hc

theorem Links.of_write {part : Ledger.Part} {f : Ledger → Ledger} (hp : part ∈ besidesBooks)
    (h : Ledger.Write part f) (l : Ledger) : Links l (f l) := by
  have payments : (f l).payments = l.payments :=
    h.agree (show Ledger.Part.payments ≠ part by rintro rfl; simp [besidesBooks] at hp) l
  have nullifiers : (f l).nullifiers = l.nullifiers :=
    h.agree (show Ledger.Part.nullifiers ≠ part by rintro rfl; simp [besidesBooks] at hp) l
  refine .of_new h.numbered ⟨h.companies_grow l, fun _ _ hu => nullifiers ▸ hu⟩ ?_
  exact fun key record hr => .inl (payments ▸ hr)

theorem Links.besides {α : Type} {action : Action σ α} (h : Footprint besidesBooks action) :
    Keeps Links action :=
  chained.footprint (fun _ hp _ hw l => of_write hp hw l) h

/-- Actions that write to the books only leave companies alone, and their numbers. -/
theorem Links.of_posts {l k : Ledger} (hc : k.companies = l.companies) (hp : Posts l k)
    (new : ∀ key record, k.payments.get? key = some record →
      l.payments.get? key = some record ∨ record.Linked k) : Links l k := by
  refine .of_new (fun hn => ?_) ⟨fun _ h => hc ▸ h, hp.kept.nullifiers⟩ new
  unfold Ledger.Numbered
  rw [hc]
  exact hn

namespace Nullifiers

variable {value : Bytes} {usage : NullifierRecord} {host later : Host σ}

theorem use_companies (value : Bytes) (host : Host σ) :
    ((use value).after host).ledger.companies = host.ledger.companies :=
  Footprint.agree .companies (use_footprint value) (by decide) rfl host

theorem use_payments (value : Bytes) (host : Host σ) :
    ((use value).after host).ledger.payments = host.ledger.payments :=
  Footprint.agree .payments (use_footprint value) (by decide) rfl host

theorem use_links (value : Bytes) : Keeps Links (use value : Action σ NullifierRecord) := by
  intro host
  refine .of_posts (use_companies value host) ((Operation.use value).posts host) ?_
  exact fun key record hr => .inl (use_payments value host ▸ hr)

end Nullifiers

namespace Payroll

variable {d : Deployment σ} {company : Company} {period : Int} {entry : Entry}
  {host before start : Host σ}

/-- Entering a payment puts at most one on the books, with all that it is linked to. -/
theorem enter_new (hc : host.ledger.companies.contains company.id = true) {key : Principal × Int}
    {record : PaymentRecord}
    (hr : ((enter company period entry).after host).ledger.payments.get? key = some record) :
    host.ledger.payments.get? key = some record ∨
      record.Linked ((enter company period entry).after host).ledger := by
  have companies : ((enter company period entry).after host).ledger.companies =
      host.ledger.companies :=
    Footprint.agree .companies (enter_footprint _ _ _) (by decide) rfl host
  rcases hu : (Nullifiers.use entry.nullifier).run host with ⟨failure | usage, between⟩
  · simp only [enter, Action.after_bind_error hu, Nullifiers.of_use_error hu] at hr
    exact .inl hr
  · obtain ⟨-, -, clock, nullifiers, payments, -⟩ := Nullifiers.of_use_ok hu
    obtain ⟨-, -, rfl, -, -⟩ := Nullifiers.use_swept hu
    have same : (enter company period entry).after host =
        (book company period entry).after between := Action.after_bind_ok hu
    rcases hb : (book company period entry).run between with ⟨result, later⟩
    rw [same, Action.after, hb] at hr companies ⊢
    rcases run_book company period entry between with ⟨failure, hf⟩ | ⟨-, -, positive, -, -⟩
    · cases hb.symm.trans hf
      exact .inl (payments ▸ hr)
    · rcases book_cases hb with ⟨-, rfl⟩ | ⟨-, -, used, booked, -⟩
      · exact .inl (payments ▸ hr)
      · rw [booked, Table.get?_insert] at hr
        split at hr
        · cases hr
          refine .inr ⟨companies ▸ hc, positive, ?_⟩
          rw [used, nullifiers, Entry.record, Table.get?_insert, if_pos rfl, clock]
        · exact .inl (payments ▸ hr)

theorem enter_links (hc : host.ledger.companies.contains company.id = true) :
    Links host.ledger ((enter company period entry).after host).ledger :=
  .of_posts (Footprint.agree .companies (enter_footprint _ _ _) (by decide) rfl host)
    (enter_posts company period entry host) fun _ _ => enter_new hc

-- ---------------------------------------------------------------------------
-- Settlements
-- ---------------------------------------------------------------------------

/-- The invariant as long as a company is registered. -/
def LinksFor (company : Company) (l k : Ledger) : Prop :=
  l.companies.contains company.id = true → Links l k

theorem LinksFor.chained (company : Company) : Chained (LinksFor company) where
  refl l _ := Links.chained.refl l
  trans h₁ h₂ hc hl :=
    have extended := (h₁ hc hl).2
    Links.chained.trans (h₁ hc) (h₂ (extended.companies _ hc)) hl
  evict l t s _ := Links.chained.evict l t s

theorem LinksFor.keeps {α : Type} {action : Action σ α} (h : Keeps Links action)
    (company : Company) : Keeps (LinksFor company) action :=
  fun host _ => h host

theorem settle_links (ht : d.Keeps Links) (company : Company) (period : Int) (index : Nat)
    (entry : Entry) : Keeps (LinksFor company) (settle d company period index entry) := by
  have chained := LinksFor.chained company
  refine chained.bind (chained.quiet (approve_quiet _ _ _ _)) fun _ =>
    chained.bind (fun _ hc => enter_links hc) fun record =>
      chained.bind (.keeps (ht _ _ _) _) fun _ => ?_
  split
  · exact chained.bind (.keeps (.besides (.base (.publish _ _))) _) fun _ => chained.quiet (.pure _)
  · exact chained.quiet (.pure _)

theorem settleFrom_links (ht : d.Keeps Links) (company : Company) (period : Int) (index : Nat)
    (entries : List Entry) :
    Keeps (LinksFor company) (settleFrom d company period index entries) := by
  have chained := LinksFor.chained company
  induction entries generalizing index with
  | nil => exact chained.quiet (.pure _)
  | cons entry rest ih =>
    exact chained.bind (settle_links ht _ _ _ _) fun _ =>
      chained.bind (ih _) fun _ => chained.quiet (.pure _)

/-- A company that passed the screening is registered under its own number. -/
theorem registered_of_screen {batch : Batch} {later : Host σ}
    (h : (screen d batch).run host = (.ok company, later)) (hl : host.ledger.Linked) :
    later.ledger = host.ledger ∧ host.ledger.companies.contains company.id = true := by
  obtain ⟨-, -, hc, -, rfl⟩ := screen_eq_ok.mp h
  refine ⟨rfl, Table.contains_eq_true_iff.mpr ⟨company, ?_⟩⟩
  rw [hl.numbered _ _ hc]
  exact hc

/-- What is kept for every company is kept for the one that passes the screening. -/
theorem screened_links {α : Type} (batch : Batch) {next : Company → Action σ α}
    (hn : ∀ company, Keeps (LinksFor company) (next company)) :
    Keeps Links (screen d batch >>= next) := by
  intro host hl
  rcases hr : (screen d batch).run host with ⟨failure | company, screened⟩
  · rw [Action.after_bind_error hr]
    exact Keeps.run (Links.chained.quiet (screen_quiet _ _)) hr hl
  · obtain ⟨same, hc⟩ := registered_of_screen hr hl
    rw [Action.after_bind_ok hr, ← same]
    exact hn company screened (same ▸ hc) (same ▸ hl)

theorem pay_links (ht : d.Keeps Links) (company : Int) (entry : Entry) (period : Int) :
    Keeps Links (pay d company entry period) :=
  Links.chained.transaction (screened_links _ fun _ => settle_links ht _ _ _ _)

theorem payBatch_links (ht : d.Keeps Links) (batch : Batch) : Keeps Links (payBatch d batch) :=
  Links.chained.transaction (screened_links _ fun _ => settleFrom_links ht _ _ _ _)

theorem transferBegins_links (ht : d.Keeps Links) {batch : Batch} {index : Nat}
    (h : TransferBegins d batch host company index entry before start) :
    Links host.ledger start.ledger := by
  intro hl
  obtain ⟨screened, records, hscreen, hsettled⟩ := h.reached
  obtain ⟨approved, record, happrove, henter⟩ := h.entered
  obtain ⟨same, hc⟩ := registered_of_screen hscreen hl
  have chained := LinksFor.chained company
  have settled := Keeps.run (settleFrom_links ht company _ _ _) hsettled
  have approved' := Keeps.run (chained.quiet (approve_quiet _ _ _ _)) happrove
  have entered := Keeps.run (S := LinksFor company) (fun _ hc => enter_links hc) henter
  have reached := chained.trans (chained.trans settled approved') entered
  rw [same] at reached
  exact reached hc hl

end Payroll

-- ---------------------------------------------------------------------------
-- Runs
-- ---------------------------------------------------------------------------

theorem Links.upheld : Upheld σ Links where
  toChained := chained
  transfer _ _ _ := besides ((Tokens.transfer_footprint _ _ _).widen (by simp [besidesBooks]))
  begins ht h := Payroll.transferBegins_links ht h
  undertaking := by
    intro d ht α action h
    cases h with
    | besides h => exact besides h
    | use value => exact Nullifiers.use_links value
    | transfer sender recipient amount => exact ht _ _ _
    | pay company entry period => exact Payroll.pay_links ht _ _ _
    | payBatch batch => exact Payroll.payBatch_links ht _

section
variable {base d : Deployment σ} {host : Host σ}

theorem Reachable.linked (h : Reachable base d host) : host.ledger.Linked := by
  obtain ⟨outer, start, hr, hi, hp⟩ := h
  refine (Links.upheld.passes hp hr ?_).1
  rw [hi.ledger]
  exact .empty

/-- Wherever a run is, a payment stands under its employee and period, was made by a registered
company for a positive amount, and its nullifier was used at the time of the payment and for no
other payment. -/
theorem Reachable.payments_linked (h : Reachable base d host) {employee : Principal} {period : Int}
    {record : PaymentRecord}
    (hr : host.ledger.payments.get? (employee, period) = some record) :
    (record.employee = employee ∧ record.period = period) ∧ 0 < record.amount ∧
      (∃ company, host.ledger.companies.get? record.company = some company) ∧
      (∃ usage, host.ledger.nullifiers.get? record.proofHash = some usage ∧
        usage.value = record.proofHash ∧ usage.usedAt = record.timestamp) ∧
      ∀ key other, host.ledger.payments.get? key = some other → key ≠ (employee, period) →
        other.proofHash ≠ record.proofHash := by
  obtain ⟨registered, positive, dated⟩ := h.linked.linked _ _ hr
  have keyed := h.books.keyed _ _ hr
  rw [Prod.mk.injEq] at keyed
  refine ⟨⟨keyed.1.symm, keyed.2.symm⟩, positive, Table.contains_eq_true_iff.mp registered,
    ⟨_, dated, rfl, rfl⟩, fun key other ho hne he => hne ?_⟩
  exact h.books.own _ _ _ _ ho hr he

end

/-- Pays more than the treasury has, and catches the failure inside a transaction. -/
def Sample.unfunded : Action Unit Unit :=
  Host.transaction do
    let _ ← (Call.run deployment (.payments (.pay 0 ⟨"worker", 1000, proof, low⟩ 1))).outcome

/-- A settlement that got as far as the books stays on them, and is linked. -/
theorem Sample.unfunded_linked :
    ∃ record, (unfunded.after staffed).ledger.payments.get? ("worker", 1) = some record ∧
      (unfunded.after staffed).ledger.balance "worker" = 0 ∧
      ∃ usage, (unfunded.after staffed).ledger.nullifiers.get? record.proofHash = some usage ∧
        usage.usedAt = record.timestamp := by
  have program : Program deployment unfunded :=
    .transaction (.bind (.outcome (.base (.call _))) fun _ => .pure _)
  have reached : Reachable deployment deployment (unfunded.after staffed) :=
    staffed_reachable.passes (.ran program (.here _ _))
  have booked : (unfunded.after staffed).ledger.payments.get? ("worker", 1) =
      some ⟨0, "worker", 1000, low, 0, 1⟩ := by decide +kernel
  obtain ⟨-, -, -, ⟨usage, used, -, time⟩, -⟩ := reached.payments_linked booked
  exact ⟨_, booked, by decide +kernel, usage, used, time⟩

end SealedPayroll
