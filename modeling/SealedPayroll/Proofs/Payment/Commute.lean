import SealedPayroll.Proofs.Payment.Handed

/-!
# Batches of different companies

Batches of two companies share the nullifiers, the payments, the bindings and
the balances. Still neither matters to the other one if the companies pay from
different treasuries, neither of which is paid by the other one, and if no
nullifier is in both: nobody is employed by two companies, so no payment of one
is due to an employee of the other. What one entry leaves to the entries of
another company is said first, then what a batch leaves to a batch. So in
either order the same batches are paid (`batches_commute`).
-/

namespace SealedPayroll

variable {σ : Type} {base d : Deployment σ} {host : Host σ}

/-- Lists of which not both pass a test can be put together in either order, as far as the test
goes. -/
theorem filter_append_swap {α : Type} {test : α → Bool} {front back : List α}
    (h : ∀ a ∈ front, ∀ b ∈ back, test a = true → test b = false) :
    (front ++ back).filter test = (back ++ front).filter test := by
  rw [List.filter_append, List.filter_append]
  cases hf : front.filter test with
  | nil => simp
  | cons a rest =>
    have found : a ∈ front.filter test := hf ▸ .head _
    obtain ⟨member, passes⟩ := List.mem_filter.mp found
    have none : back.filter test = [] := by
      simpa using fun b hb => h a member b hb passes
    rw [none, List.nil_append, List.append_nil]

namespace Payroll

variable {company payer : Company} {period otherPeriod : Int} {entry other : Entry}
  {entries others : List Entry} {first second : Batch}

-- ---------------------------------------------------------------------------
-- Entries of different companies
-- ---------------------------------------------------------------------------

/-- Nobody is employed by two companies. -/
theorem Entry.Approved.exclusive {id otherId : Int} (h : entry.Approved d id host)
    (ho : other.Approved d otherId host) (distinct : id ≠ otherId) :
    entry.employee ≠ other.employee := by
  intro same
  obtain ⟨binding, -, -, hb, -⟩ := h
  obtain ⟨found, -, -, hf, -⟩ := ho
  obtain ⟨hb, employer⟩ := Option.filter_eq_some_iff.mp hb
  obtain ⟨hf, otherEmployer⟩ := Option.filter_eq_some_iff.mp hf
  rw [same, hf] at hb
  cases hb
  exact distinct ((of_decide_eq_true employer).symm.trans (of_decide_eq_true otherEmployer))

/-- An entry that is settled changes nothing for entries of another company. -/
theorem settleable_settled (due : entry.Due d company.id period host)
    (distinct : company.id ≠ payer.id) (treasuries : company.treasury ≠ payer.treasury)
    (payee : entry.employee ≠ payer.treasury)
    (fresh : ∀ other ∈ others, entry.nullifier ≠ other.nullifier) :
    Settleable d payer otherPeriod (entry.settled d company period host) others ↔
      Settleable d payer otherPeriod host others := by
  have funds : (entry.settled d company period host).ledger.balance payer.treasury =
      host.ledger.balance payer.treasury := by
    show (host.ledger.settle company.treasury (entry.record company period host)).balance _ = _
    rw [Ledger.settle_balance, if_neg treasuries, if_neg (by exact payee)]
    omega
  constructor
  · rintro ⟨hdue, hp, hn, hs, hc⟩
    exact ⟨fun other member => (Entry.due_settled.mp (hdue other member)).1, hp, hn, hs,
      funds ▸ hc⟩
  · rintro ⟨hdue, hp, hn, hs, hc⟩
    refine ⟨fun other member => Entry.due_settled.mpr ⟨hdue other member, fun same => ?_,
      fresh other member⟩, hp, hn, hs, funds.symm ▸ hc⟩
    exact absurd same (due.approved.exclusive (hdue other member).approved distinct)

/-- Nor do all the entries of a batch. -/
theorem settleable_settledAll (h : Settleable d company period host entries)
    (distinct : company.id ≠ payer.id) (treasuries : company.treasury ≠ payer.treasury)
    (payees : ∀ entry ∈ entries, entry.employee ≠ payer.treasury)
    (fresh : ∀ entry ∈ entries, ∀ other ∈ others, entry.nullifier ≠ other.nullifier) :
    Settleable d payer otherPeriod (settledAll d company period host entries) others ↔
      Settleable d payer otherPeriod host others := by
  induction entries generalizing host with
  | nil => exact .rfl
  | cons entry rest ih =>
    obtain ⟨⟨due, -⟩, hrest⟩ := settleable_cons.mp h
    refine (ih hrest (fun next member => payees next (.tail _ member))
      fun next member => fresh next (.tail _ member)).trans ?_
    exact settleable_settled due distinct treasuries (payees entry (.head _)) (fresh entry (.head _))

theorem Batch.mem_rows {employees : List Principal} {amounts : List Int} {proofs : List Proof}
    {nullifiers : List Bytes} (member : entry ∈ Batch.rows employees amounts proofs nullifiers) :
    entry.employee ∈ employees ∧ entry.nullifier ∈ nullifiers := by
  induction employees, amounts, proofs, nullifiers using Batch.rows.induct with
  | case1 employee employees amount amounts proof proofs nullifier nullifiers ih =>
    rcases List.mem_cons.mp member with rfl | rest
    · exact ⟨.head _, .head _⟩
    · exact ⟨.tail _ (ih rest).1, .tail _ (ih rest).2⟩
  | case2 _ _ _ _ short =>
    rw [Batch.rows] at member
    · cases member
    · exact short

-- ---------------------------------------------------------------------------
-- Two batches
-- ---------------------------------------------------------------------------

namespace Batch

/-- Batches of two companies that pay from different treasuries, neither of which is a payee of the
other one, and that have no nullifier in common. -/
structure Apart (l : Ledger) (first second : Batch) : Prop where
  companies : first.company ≠ second.company
  treasuries : ∀ company other, l.companies.get? first.company = some company →
    l.companies.get? second.company = some other →
      company.treasury ≠ other.treasury ∧ company.treasury ∉ second.employees ∧
        other.treasury ∉ first.employees
  nullifiers : ∀ value ∈ first.nullifiers, value ∉ second.nullifiers

namespace Apart

theorem symm (h : Apart host.ledger first second) : Apart host.ledger second first where
  companies := h.companies.symm
  treasuries other company ho hc := by
    obtain ⟨distinct, unpaid, otherUnpaid⟩ := h.treasuries company other hc ho
    exact ⟨distinct.symm, otherUnpaid, unpaid⟩
  nullifiers value member shared := h.nullifiers value shared member

/-- What a batch leaves is as good for the entries of the other one. -/
theorem settleable (apart : Apart host.ledger first second) (h0 : host.depth = 0)
    (ht : d.tokens = .plain) (hn : host.ledger.Numbered)
    (registered : host.ledger.companies.get? second.company = some payer) :
    Settleable d payer second.period ((payBatch d first).after host) second.entries ↔
      Settleable d payer second.period host second.entries := by
  have setting := payBatch_steady ht first host
  rcases hr : (payBatch d first).run host with ⟨failure | records, later⟩ <;>
    rw [Action.after, hr] at setting <;> rw [Action.after, hr]
  · obtain ⟨ledger, -, -⟩ := payBatch_error ht h0 hr
    exact settleable_congr (.of_eq ledger) (by rw [setting.allows])
  · obtain ⟨company, hp, -, rfl⟩ := (run_payBatch h0 ht hn).mp hr
    obtain ⟨distinct, -, unpaid⟩ := apart.treasuries company payer hp.registered registered
    have numbers : company.id ≠ payer.id := by
      rw [hn _ _ hp.registered, hn _ _ registered]
      exact apart.companies
    let start := Host.sign { host with depth := 1 } company.admin
    have opened : Settleable d company first.period start first.entries ↔
        Settleable d company first.period host first.entries := settleable_congr (.refl _) rfl
    have begun := opened.mpr ((payable_iff hn).mp hp).2
    calc Settleable d payer second.period (Host.committed (settledAll d company first.period start
          first.entries)) second.entries
      _ ↔ Settleable d payer second.period (settledAll d company first.period start
            first.entries) second.entries :=
          settleable_congr (Host.committed_alike _)
            (by rw [(Host.committed_sameSetting _).allows])
      _ ↔ Settleable d payer second.period start second.entries :=
          settleable_settledAll begun numbers distinct
            (fun entry member paid => unpaid (paid ▸ (mem_rows member).1))
            fun entry member other otherMember shared => apart.nullifiers entry.nullifier
              (mem_rows member).2 (shared ▸ (mem_rows otherMember).2)
      _ ↔ Settleable d payer second.period host second.entries :=
          settleable_congr (.refl _) rfl

/-- A batch is answered alike before and after the other one. -/
theorem answer (apart : Apart host.ledger first second) (h0 : host.depth = 0)
    (ht : d.tokens = .plain) (hn : host.ledger.Numbered) :
    ((payBatch d second).run ((payBatch d first).after host)).1.toOption =
      ((payBatch d second).run host).1.toOption := by
  have leaves := payBatch_leaves h0 ht hn first
  have key : ((payBatch d first).after host).ledger.verificationKey =
      host.ledger.verificationKey :=
    leaves.ledger.verificationKey.trans (Ledger.settleAll_verificationKey _ _ _)
  refine Option.ext fun records => ?_
  rw [answer_payBatch leaves.depth ht (leaves.numbered hn), answer_payBatch h0 ht hn]
  refine exists_congr fun company => and_congr ?_ ?_
  · rw [payable_iff (leaves.numbered hn), payable_iff hn, key, leaves.companies,
      leaves.setting.allows]
    exact and_congr_right fun screened => apart.settleable h0 ht hn screened.2.2.1
  · simp only [Entry.record, leaves.setting.clock]

/-- What is left after both batches: first the payments of the one, then those of the other. -/
theorem leaves (apart : Apart host.ledger first second) (h0 : host.depth = 0)
    (ht : d.tokens = .plain) (hn : host.ledger.Numbered) :
    let last := (payBatch d second).after ((payBatch d first).after host)
    last.ledger.Alike
        ((host.ledger.settleAll (host.ledger.treasury first.company)
          (first.made d host)).settleAll (host.ledger.treasury second.company)
            (second.made d host)) ∧
      last.events = host.events ++ (d.announcements host.clock (first.made d host) ++
        d.announcements host.clock (second.made d host)) := by
  have before := payBatch_leaves h0 ht hn first
  have after := payBatch_leaves before.depth ht (before.numbered hn) second
  have made : second.made d ((payBatch d first).after host) = second.made d host := by
    rw [Batch.made, apart.answer h0 ht hn, Batch.made]
  have treasury : ((payBatch d first).after host).ledger.treasury second.company =
      host.ledger.treasury second.company := by
    rw [Ledger.treasury, before.companies, Ledger.treasury]
  constructor
  · have reached := after.ledger
    rw [made, treasury] at reached
    exact reached.trans (before.ledger.settleAll _ _)
  · rw [after.events, before.events, made, before.setting.clock, List.append_assoc]

/-- No payment of one batch pays for what a payment of the other one pays. -/
theorem made (apart : Apart host.ledger first second) (h0 : host.depth = 0)
    (ht : d.tokens = .plain) (hn : host.ledger.Numbered) :
    ∀ record ∈ first.made d host, ∀ other ∈ second.made d host, record.Apart other := by
  intro record member other otherMember
  obtain ⟨company, entry, -, due, rfl⟩ := of_mem_made h0 ht hn member
  obtain ⟨otherCompany, otherEntry, -, otherDue, rfl⟩ := of_mem_made h0 ht hn otherMember
  have distinct := due.approved.exclusive otherDue.approved apart.companies
  exact ⟨rfl, fun same => distinct (Prod.mk.inj same).1⟩

/-- No event announces payments of both batches. -/
theorem announced (apart : Apart host.ledger first second) (h0 : host.depth = 0)
    (ht : d.tokens = .plain) (hn : host.ledger.Numbered) {clock : Clock} :
    ∀ event ∈ d.announcements clock (first.made d host),
      ∀ other ∈ d.announcements clock (second.made d host), event.topics ≠ other.topics := by
  intro event member other otherMember same
  obtain ⟨record, made, named⟩ := mem_announcements member
  obtain ⟨otherRecord, otherMade, otherNamed⟩ := mem_announcements otherMember
  obtain ⟨company, _, number, -, rfl⟩ := of_mem_made h0 ht hn made
  obtain ⟨otherCompany, _, otherNumber, -, rfl⟩ := of_mem_made h0 ht hn otherMade
  have numbers : company.id = otherCompany.id :=
    PaymentEvent.topics_inj (named.symm.trans (same.trans otherNamed))
  exact apart.companies (number.symm.trans (numbers.trans otherNumber))

end Apart

end Batch

/-- With the plain token ledger and outside of any transaction, batches of different companies that
are apart can be handed in in either order. The same of them are paid, with the same records, and
in the end the ledger holds the same under every durable key, and the same events were published,
those with the same topics in the same order. All this holds also where one or both are refused. -/
theorem batches_commute (h : Reachable base d host) (h0 : host.depth = 0) (ht : d.tokens = .plain)
    (apart : first.Apart host.ledger second) :
    let afterFirst := (payBatch d first).after host
    let afterSecond := (payBatch d second).after host
    let one := (payBatch d second).after afterFirst
    let other := (payBatch d first).after afterSecond
    ((payBatch d first).run afterSecond).1.toOption = ((payBatch d first).run host).1.toOption ∧
      ((payBatch d second).run afterFirst).1.toOption =
        ((payBatch d second).run host).1.toOption ∧
      one.ledger.Alike other.ledger ∧
      one.events.Perm other.events ∧
      ∀ topics, one.events.filter (·.topics = topics) = other.events.filter (·.topics = topics) := by
  have hn := h.numbered
  obtain ⟨ledger, events⟩ := apart.leaves h0 ht hn
  obtain ⟨otherLedger, otherEvents⟩ := apart.symm.leaves h0 ht hn
  refine ⟨apart.symm.answer h0 ht hn, apart.answer h0 ht hn, ?_, ?_, fun topics => ?_⟩
  · exact ledger.trans ((Ledger.settleAll_comm _ _ _ (apart.made h0 ht hn)).trans otherLedger.symm)
  · rw [events, otherEvents]
    exact (List.Perm.refl _).append List.perm_append_comm
  · have swapped : (d.announcements host.clock (first.made d host) ++
        d.announcements host.clock (second.made d host)).filter (·.topics = topics) =
          (d.announcements host.clock (second.made d host) ++
            d.announcements host.clock (first.made d host)).filter (·.topics = topics) := by
      refine filter_append_swap fun event member other otherMember named => ?_
      have distinct := apart.announced h0 ht hn event member other otherMember
      exact decide_eq_false fun otherNamed =>
        distinct ((of_decide_eq_true named).trans otherNamed.symm)
    rw [events, otherEvents, List.filter_append, swapped, ← List.filter_append]

end Payroll

namespace Sample

open Payroll

/-- A second company moves in, with an employee and tokens of its own. -/
def movingIn : Action Unit Unit := do
  let _ ← Call.run deployment (.registry (.register "boss" "vault"))
  let _ ← Call.run deployment (.registry (.enrol 1 "clerk" commitment))
  let _ ← Call.run deployment (.tokens (.mint "vault" 100))

def neighbours : Host Unit := movingIn.after staffed

theorem neighbours_reachable : Reachable deployment deployment neighbours :=
  staffed_reachable.passes <| .ran (.bind (.base (.call _)) fun _ => .bind (.base (.call _)) fun _ =>
    .bind (.base (.call _)) fun _ => .pure _) (.here _ _)

/-- The payday of the first company. -/
def ours : Batch := payday (.replicate 32 1) 202601

/-- The payday of the second company, for the same period. -/
def theirs : Batch := .ofEntries 1 [⟨"clerk", 20, proof, .replicate 32 2⟩] 202601

/-- Both companies pay, in either order; only the announcements come in another order. -/
theorem paydays_commute :
    Batch.Apart neighbours.ledger ours theirs ∧
      let oursFirst := (payBatch deployment theirs).after ((payBatch deployment ours).after neighbours)
      let theirsFirst :=
        (payBatch deployment ours).after ((payBatch deployment theirs).after neighbours)
      oursFirst.ledger.Alike theirsFirst.ledger ∧ oursFirst.events.Perm theirsFirst.events ∧
        oursFirst.events ≠ theirsFirst.events ∧
          oursFirst.ledger.balance "worker" = 10 ∧ oursFirst.ledger.balance "clerk" = 20 := by
  have registered : neighbours.ledger.companies.get? 0 = some ⟨0, "admin", "treasury", 1, 0⟩ ∧
      neighbours.ledger.companies.get? 1 = some ⟨1, "boss", "vault", 1, 0⟩ := by decide +kernel
  have apart : Batch.Apart neighbours.ledger ours theirs := by
    refine ⟨by decide, fun company other hc ho => ?_, by decide⟩
    cases hc.symm.trans registered.1
    cases ho.symm.trans registered.2
    decide
  obtain ⟨-, -, ledger, events, -⟩ := batches_commute neighbours_reachable (by rfl) rfl apart
  refine ⟨apart, ledger, events, ?_⟩
  decide +kernel

end Sample

end SealedPayroll
