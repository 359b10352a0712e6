import SealedPayroll.Proofs.Payment.Alone

/-!
# A batch and its payments one by one

A batch is one transaction, its payments made by themselves are as many, with a
sweep after each of them where sweeps are on. The first sweep of the sequence
is the only one that finds anything, and the sweep of the batch makes up for
it. So both ways lead to the same host; only where an entry fails do they part,
since the batch takes back what the sequence keeps.
-/

namespace SealedPayroll

open SealedPayroll.Action (Built)

variable {σ : Type} {base d : Deployment σ} {host later twin reached : Host σ}

open PayrollError (isProofRefusal)

namespace Payroll

variable {id : Int} {batch : Batch} {company : Company} {period : Int} {entry : Entry}

-- ---------------------------------------------------------------------------
-- All entries
-- ---------------------------------------------------------------------------

/-- The payments of a batch, made one after another and each by itself. -/
def payEach (d : Deployment σ) (company period : Int) (entries : List Entry) :
    Action σ (List PaymentRecord) :=
  entries.mapM fun entry => pay d company entry period

theorem payEach_cons (d : Deployment σ) (company period : Int) (entry : Entry)
    (rest : List Entry) :
    payEach d company period (entry :: rest) = (do
      let record ← pay d company entry period
      let records ← payEach d company period rest
      return record :: records) :=
  List.mapM_cons

/-- Entries are settled in a batch iff they are paid by themselves. -/
theorem payEach_follows (h : Screened d id company period host) (ht : d.tokens = .plain)
    {rest : List Entry} (hs : ∀ other ∈ entry :: rest,
      (Batch.ofEntries id [other] period).defect? d.config.executor = none)
    (hf : host.Follows twin) (index : Nat) :
    (∃ records signed,
      (settleFrom d company period index (entry :: rest)).run host =
          (.ok records, settledAll d company period host (entry :: rest)) ∧
        (payEach d id period (entry :: rest)).run twin =
          (.ok records, (settledAll d company period host (entry :: rest)).closed signed)) ∨
    ∃ failure later raised reached,
      (settleFrom d company period index (entry :: rest)).run host = (.error failure, later) ∧
        (payEach d id period (entry :: rest)).run twin = (.error raised, reached) := by
  induction rest generalizing entry host twin index with
  | nil =>
    rw [payEach_cons, settleFrom]
    rcases pay_follows h ht (hs _ (.head _)) hf index with
      ⟨record, signed, settled, paid⟩ | ⟨failure, later, raised, reached, hr, hp, -⟩
    · exact .inl ⟨[record], signed, Action.run_bind_ok settled, Action.run_bind_ok paid⟩
    · exact .inr ⟨_, _, _, _, Action.run_bind_error hr, Action.run_bind_error hp⟩
  | cons next rest ih =>
    rw [payEach_cons, settleFrom]
    rcases pay_follows h ht (hs _ (.head _)) hf index with
      ⟨record, signed, settled, paid⟩ | ⟨failure, later, raised, reached, hr, hp, -⟩
    · rw [Action.run_bind_ok settled, Action.run_bind_ok paid]
      rcases ih (h.settled entry) (fun other member => hs other (.tail _ member))
          (.closed _ signed) (index + 1) with
        ⟨records, signed, settled, paid⟩ | ⟨failure, later, raised, reached, hr, hp⟩
      · exact .inl ⟨record :: records, signed, Action.run_bind_ok settled, Action.run_bind_ok paid⟩
      · exact .inr ⟨_, _, _, _, Action.run_bind_error hr, Action.run_bind_error hp⟩
    · exact .inr ⟨_, _, _, _, Action.run_bind_error hr, Action.run_bind_error hp⟩

/-- The first entry whose payment fails is the one that the batch fails at. -/
theorem settleFrom_fails {entries : List Entry} {k : Nat} {records : List PaymentRecord}
    {before : Host σ} {raised : Failure} (h : Screened d id company period host)
    (ht : d.tokens = .plain) (hs : ∀ other ∈ entries,
      (Batch.ofEntries id [other] period).defect? d.config.executor = none)
    (hf : host.Follows twin) (index : Nat) (listed : entries[k]? = some entry)
    (earlier : (payEach d id period (entries.take k)).run twin = (.ok records, before))
    (fails : (pay d id entry period).run before = (.error raised, reached)) :
    ∃ failure later,
      (settleFrom d company period index entries).run host = (.error failure, later) ∧
        Fault.Placed d.backend (index + k) failure.fault raised.fault := by
  induction k generalizing entries host twin index records with
  | zero =>
    obtain ⟨rest, rfl⟩ : ∃ rest, entries = entry :: rest := by
      cases entries <;> cases listed
      exact ⟨_, rfl⟩
    cases earlier
    rcases pay_follows h ht (hs _ (.head _)) hf index with
      ⟨record, signed, -, paid⟩ | ⟨failure, later, raised, reached, hr, hp, placed⟩
    · cases fails.symm.trans paid
    · cases fails.symm.trans hp
      exact ⟨failure, later, Action.run_bind_error hr, placed⟩
  | succ k ih =>
    obtain ⟨first, rest, rfl⟩ := List.exists_cons_of_ne_nil
      (List.ne_nil_of_length_pos (Nat.zero_lt_of_lt (List.getElem?_eq_some_iff.mp listed).1))
    rw [List.take_succ_cons, payEach_cons] at earlier
    obtain ⟨record, between, hp, he⟩ := Action.bind_eq_ok.mp earlier
    obtain ⟨others, _, earlier, hl⟩ := Action.bind_eq_ok.mp he
    obtain ⟨-, rfl⟩ := Action.pure_eq_ok.mp hl
    rcases pay_follows h ht (hs _ (.head _)) hf index with
      ⟨record, signed, settled, paid⟩ | ⟨failure, later, raised, reached, -, hp', -⟩
    · cases hp.symm.trans paid
      obtain ⟨failure, later, hr, placed⟩ := ih (h.settled first)
        (fun other member => hs other (.tail _ member)) (.closed _ signed) (index + 1) listed earlier
      refine ⟨failure, later, ?_, by rwa [Nat.add_right_comm, Nat.add_assoc] at placed⟩
      rw [settleFrom, Action.run_bind_ok settled]
      exact Action.run_bind_error hr
    · cases hp.symm.trans hp'

/-- Payments by themselves add their records to the books, in order. -/
theorem payEach_books {entries : List Entry} {records : List PaymentRecord} {before : Host σ}
    (h : Screened d id company period host) (ht : d.tokens = .plain) (hs : ∀ other ∈ entries,
      (Batch.ofEntries id [other] period).defect? d.config.executor = none)
    (hf : host.Follows twin)
    (hr : (payEach d id period entries).run twin = (.ok records, before)) :
    before.depth = 0 ∧ records.length = entries.length ∧
      before.ledger.payments.entries =
        host.ledger.payments.entries ++ records.map fun r => ((r.employee, r.period), r) := by
  cases entries with
  | nil =>
    cases hr
    obtain ⟨reading, extra, checked, -, rfl⟩ := hf
    exact ⟨rfl, rfl, (List.append_nil _).symm⟩
  | cons entry rest =>
    rcases payEach_follows h ht hs hf 0 with ⟨records, signed, settled, paid⟩ | ⟨_, _, _, _, -, hp⟩
    · cases hr.symm.trans paid
      have hd : host.depth ≠ 0 := by simp [h.depth]
      have positive : ∀ other ∈ entry :: rest, 0 < other.amount := fun other member =>
        (Batch.positive_of_sound (hs other member)).2 other (.head _)
      obtain ⟨settleable, rfl, -⟩ := (settleFrom_eq_ok ht hd (h.numbered ▸ h.registered) h.signed
        h.period positive).mp settled
      exact ⟨rfl, List.length_map _, (settledAll_paid settleable).payments⟩
    · cases hr.symm.trans hp

-- ---------------------------------------------------------------------------
-- The whole batch
-- ---------------------------------------------------------------------------

theorem Screened.of_screen {screened : Host σ} (hn : host.ledger.Numbered) (h0 : host.depth = 0)
    (hr : (screen d batch).run { host with depth := 1 } = (.ok company, screened)) :
    Screened d batch.company company batch.period screened ∧ screened.Follows host := by
  obtain ⟨sound, keyed, registered, signed, rfl⟩ := screen_eq_ok.mp hr
  obtain ⟨period, -⟩ := Batch.positive_of_sound sound
  refine ⟨⟨rfl, keyed, registered, hn _ _ registered, signed, period⟩, ?_⟩
  refine ⟨none, 0, host.authority.checked, .inl ⟨rfl, rfl⟩, ?_⟩
  cases host
  cases h0
  rfl

/-- A payment by itself is screened as its batch is. -/
theorem screen_alone (hs : batch.defect? d.config.executor = none) (member : entry ∈ batch.entries) :
    screen d (.ofEntries batch.company [entry] batch.period) = screen d batch := by
  unfold screen
  rw [hs, Batch.defect?_alone hs member]
  rfl

/-- What is refused before the first entry is refused to its payment as well. -/
theorem unscreened {failure : Failure} (hs : batch.defect? d.config.executor = none)
    (member : entry ∈ batch.entries) (h0 : host.depth = 0)
    (hr : (screen d batch).run { host with depth := 1 } = (.error failure, later)) :
    ∃ raised reached, (payBatch d batch).run host = (.error raised, reached) ∧
      (pay d batch.company entry batch.period).run host = (.error raised, reached) ∧
        raised.fault.refuses isProofRefusal = false := by
  refine ⟨_, _, Host.transaction_error h0 (Action.run_bind_error hr),
    Host.transaction_error h0 (Action.run_bind_error (screen_alone hs member ▸ hr)), ?_⟩
  have spared : Action.Spared isProofRefusal (screen d batch) := by
    unfold screen
    rw [hs]
    refine .bind (.read _) fun key => ?_
    split
    · exact .refuse rfl
    · exact Registry.administered_spared _ rfl fun _ _ => rfl
  rw [Failure.fault_discarding]
  exact spared _ _ _ hr

/-- A batch that was screened does what settling its entries does. -/
theorem run_screened {screened : Host σ} {result : Except Failure (List PaymentRecord) × Host σ}
    (hr : (screen d batch).run { host with depth := 1 } = (.ok company, screened))
    (settled : (settleFrom d company batch.period 0 batch.entries).run screened = result) :
    (screen d batch >>= fun company => settleFrom d company batch.period 0 batch.entries).run
      { host with depth := 1 } = result :=
  (Action.run_bind_ok hr).trans settled

/-- A batch is paid iff its payments are, made one after another. -/
theorem payBatch_follows (hn : host.ledger.Numbered) (h0 : host.depth = 0) (ht : d.tokens = .plain)
    (hs : batch.defect? d.config.executor = none) (hne : batch.entries ≠ []) :
    (∃ records later signed,
      (payBatch d batch).run host = (.ok records, later) ∧
        (payEach d batch.company batch.period batch.entries).run host =
          (.ok records, { later with authority := { later.authority with checked := signed } })) ∨
    ∃ failure later raised reached,
      (payBatch d batch).run host = (.error failure, later) ∧
        (payEach d batch.company batch.period batch.entries).run host = (.error raised, reached) := by
  obtain ⟨first, rest, he⟩ := List.exists_cons_of_ne_nil hne
  have alone : ∀ other ∈ first :: rest,
      (Batch.ofEntries batch.company [other] batch.period).defect? d.config.executor = none :=
    fun other member => Batch.defect?_alone hs (he ▸ member)
  rw [he]
  rcases hr : (screen d batch).run { host with depth := 1 } with ⟨failure | company, screened⟩
  · have member : first ∈ batch.entries := he ▸ .head rest
    obtain ⟨raised, reached, hb, hp, -⟩ := unscreened hs member h0 hr
    rw [payEach_cons]
    exact .inr ⟨_, _, _, _, hb, Action.run_bind_error hp⟩
  · obtain ⟨inside, follows⟩ := Screened.of_screen hn h0 hr
    rcases payEach_follows inside ht alone follows 0 with
      ⟨records, signed, settled, paid⟩ | ⟨failure, later, raised, reached, fails, hp⟩
    · rw [← he] at settled paid ⊢
      have hb := Host.transaction_ok h0 (run_screened hr settled)
      rw [Host.committed_eq_closed] at hb
      exact .inl ⟨records, _, signed, hb, paid⟩
    · rw [← he] at fails
      exact .inr ⟨_, _, _, _, Host.transaction_error h0 (run_screened hr fails), hp⟩

/-- A batch fails at the first entry whose payment by itself fails, and the payments before that
entry stay only where they were made by themselves. -/
theorem payBatch_fails {k : Nat} {records : List PaymentRecord} {before : Host σ}
    {raised : Failure} (hn : host.ledger.Numbered) (h0 : host.depth = 0) (ht : d.tokens = .plain)
    (hs : batch.defect? d.config.executor = none) (listed : batch.entries[k]? = some entry)
    (earlier : (payEach d batch.company batch.period (batch.entries.take k)).run host =
      (.ok records, before))
    (fails : (pay d batch.company entry batch.period).run before = (.error raised, reached)) :
    (∃ failure later, (payBatch d batch).run host = (.error failure, later) ∧
      Fault.Placed d.backend k failure.fault raised.fault) ∧
    before.depth = 0 ∧ records.length = k ∧
      before.ledger.payments.entries =
        host.ledger.payments.entries ++ records.map fun r => ((r.employee, r.period), r) := by
  have alone : ∀ other ∈ batch.entries,
      (Batch.ofEntries batch.company [other] batch.period).defect? d.config.executor = none :=
    fun other member => Batch.defect?_alone hs member
  have within : k < batch.entries.length := (List.getElem?_eq_some_iff.mp listed).1
  rcases hr : (screen d batch).run { host with depth := 1 } with ⟨failure | company, screened⟩
  · cases k with
    | zero =>
      cases earlier
      obtain ⟨met, _, hb, hp, proofless⟩ :=
        unscreened hs (List.mem_of_getElem? listed) h0 hr
      cases fails.symm.trans hp
      exact ⟨⟨_, _, hb, .same _ fun _ => proofless⟩, h0, rfl, (List.append_nil _).symm⟩
    | succ k =>
      -- the first payment was refused already
      obtain ⟨first, rest, he⟩ := List.exists_cons_of_ne_nil
        (List.ne_nil_of_length_pos (Nat.zero_lt_of_lt within))
      have member : first ∈ batch.entries := he ▸ .head rest
      obtain ⟨_, _, -, hp, -⟩ := unscreened hs member h0 hr
      rw [he, List.take_succ_cons, payEach_cons, Action.run_bind_error hp] at earlier
      cases earlier
  · obtain ⟨inside, follows⟩ := Screened.of_screen hn h0 hr
    obtain ⟨outside, counted, books⟩ := payEach_books inside ht
      (fun other member => alone other (List.mem_of_mem_take member)) follows earlier
    obtain ⟨failure, later, hf, placed⟩ :=
      settleFrom_fails inside ht alone follows 0 listed earlier fails
    have unchanged : screened.ledger.payments = host.ledger.payments := by
      obtain ⟨-, -, -, -, rfl⟩ := screen_eq_ok.mp hr
      rfl
    refine ⟨⟨_, _, Host.transaction_error h0 (run_screened hr hf), ?_⟩, outside, ?_,
      unchanged ▸ books⟩
    · rw [Failure.fault_discarding]
      exact Nat.zero_add k ▸ placed
    · rw [counted, List.length_take, Nat.min_eq_left (Nat.le_of_lt within)]

/-- The keys of a batch that is paid come in payment by payment. -/
theorem payBatch_arrivals {records : List PaymentRecord} (hn : host.ledger.Numbered)
    (h0 : host.depth = 0) (ht : d.tokens = .plain)
    (hr : (payBatch d batch).run host = (.ok records, later)) :
    ∃ company, host.ledger.companies.get? batch.company = some company ∧
      later.ledger.arrivals =
        host.ledger.arrivedAll (records.flatMap (·.keys company.treasury)) := by
  obtain ⟨company, payable, rfl, rfl⟩ := (run_payBatch h0 ht hn).mp hr
  have settled := payable.settled hn
  obtain ⟨ledger, paid, swept⟩ := settled.ledger
  refine ⟨company, payable.registered, ?_⟩
  rw [swept, ← paid.arrivals]
  split <;> rfl

/-- With the plain token ledger and outside of any transaction, a batch in which nothing is wrong by
itself is paid iff its payments are, made one after another; both ways then answer the same
records and leave the same host, up to the signatures that were asked for. The order in which
durable keys came in is part of it: payment by payment, each under its keys in turn. Where the
sequence fails, so does the batch, with the same fault, which has the position of the entry if its
proof is refused; the batch leaves no trace in the ledger and the events, while the sequence leaves
the payments before that entry. -/
theorem payBatch_iff_payEach (h : Reachable base d host) (h0 : host.depth = 0)
    (ht : d.tokens = .plain) (hs : batch.defect? d.config.executor = none)
    (hne : batch.entries ≠ []) :
    ((∃ records later, (payBatch d batch).run host = (.ok records, later)) ↔
        ∃ records reached, (payEach d batch.company batch.period batch.entries).run host =
          (.ok records, reached)) ∧
      (∀ records others later reached,
        (payBatch d batch).run host = (.ok records, later) →
        (payEach d batch.company batch.period batch.entries).run host = (.ok others, reached) →
          records = others ∧
          (∃ checked, reached = { later with authority := { later.authority with checked } }) ∧
          ∃ company, host.ledger.companies.get? batch.company = some company ∧
            later.ledger.arrivals =
              host.ledger.arrivedAll (records.flatMap (·.keys company.treasury))) ∧
      ∀ k entry records before raised reached,
        batch.entries[k]? = some entry →
        (payEach d batch.company batch.period (batch.entries.take k)).run host =
          (.ok records, before) →
        (pay d batch.company entry batch.period).run before = (.error raised, reached) →
          (∃ failure later, (payBatch d batch).run host = (.error failure, later) ∧
            Fault.Placed d.backend k failure.fault raised.fault ∧
            later.ledger = host.ledger ∧ later.events = host.events) ∧
          records.length = k ∧
          reached.ledger.payments.entries =
            host.ledger.payments.entries ++ records.map fun r => ((r.employee, r.period), r) := by
  have hn := h.numbered
  have both := payBatch_follows hn h0 ht hs hne
  refine ⟨⟨?_, ?_⟩, ?_, ?_⟩
  · rintro ⟨records, later, hb⟩
    rcases both with ⟨_, _, signed, -, hp⟩ | ⟨_, _, _, _, hb', -⟩
    · exact ⟨_, _, hp⟩
    · cases hb.symm.trans hb'
  · rintro ⟨records, reached, hp⟩
    rcases both with ⟨_, _, signed, hb, -⟩ | ⟨_, _, _, _, -, hp'⟩
    · exact ⟨_, _, hb⟩
    · cases hp.symm.trans hp'
  · intro records others later reached hb hp
    rcases both with ⟨_, _, signed, hb', hp'⟩ | ⟨_, _, _, _, hb', -⟩
    · cases hb.symm.trans hb'
      cases hp.symm.trans hp'
      exact ⟨rfl, ⟨signed, rfl⟩, payBatch_arrivals h.numbered h0 ht hb⟩
    · cases hb.symm.trans hb'
  · intro k entry records before raised reached listed earlier fails
    obtain ⟨⟨failure, later, hb, placed⟩, outside, counted, books⟩ :=
      payBatch_fails hn h0 ht hs listed earlier fails
    obtain ⟨untouched, unannounced, -⟩ := payBatch_error ht h0 hb
    refine ⟨⟨failure, later, hb, placed, untouched, unannounced⟩, counted, ?_⟩
    have body : Built Operation (screen d (.ofEntries batch.company [entry] batch.period) >>=
        fun company => settle d company batch.period 0 entry) :=
      .bind (.base (.quiet (screen_quiet _ _))) fun _ =>
        settle_built h.reentrant.operational _ _ _ _
    obtain ⟨⟨kept, -⟩, -⟩ :=
      Host.transaction_failed (body.trans fun _ _ ho => ho.footprint) outside fails
    rw [kept, books]

end Payroll

namespace Sample

open Payroll

/-- A payment to somebody who is not employed. -/
def misdirected : Entry := { entry (.replicate 32 2) with employee := "stranger" }

/-- A batch with a payment that is due and one that is not. -/
def mixed : Batch := .ofEntries 0 [entry (.replicate 32 1), misdirected] 202601

/-- The host after the payment that is due. -/
def halfway : Host Unit :=
  Host.committed (settledAll deployment company 202601
    (Host.sign { staffed with depth := 1 } "admin") [entry (.replicate 32 1)])

theorem halfway_reached :
    ∃ record, (pay deployment 0 (entry (.replicate 32 1)) 202601).run staffed =
      (.ok record, halfway) := by
  have employed : Registry.employed? staffed.ledger 0 "worker" =
      some ⟨0, "worker", commitment, 0, none⟩ := by
    rw [staffed_ledger]
    rfl
  have funded : (10 : Int) ≤ staffed.ledger.balance "treasury" := by
    rw [staffed_ledger]
    decide
  have payable : (payday (.replicate 32 1) 202601).Payable deployment staffed company :=
    payday_payable (by decide) (by simp) employed rfl rfl (by rw [staffed_ledger]) rfl rfl funded
      (by rw [staffed_ledger]; rfl) (by rw [staffed_ledger]; rfl)
  have paid := (run_payBatch rfl rfl staffed_reachable.numbered).mpr ⟨company, payable, rfl, rfl⟩
  rw [payday, payBatch_ofEntries] at paid
  obtain ⟨record, answered, -⟩ := Action.map_eq_ok.mp paid
  exact ⟨record, answered⟩

theorem misdirected_refused :
    ∃ raised reached, (pay deployment 0 misdirected 202601).run halfway = (.error raised, reached) ∧
      raised.fault = .payroll (.employeeNotFound "stranger" (some 0)) := by
  have screened : (screen deployment (.ofEntries 0 [misdirected] 202601)).run
      { halfway with depth := 1 } = (.ok company, Host.sign { halfway with depth := 1 } "admin") :=
    screen_eq_ok.mpr ⟨rfl, nofun, rfl, rfl, rfl⟩
  have unknown : (settle deployment company 202601 0 misdirected).run
      (Host.sign { halfway with depth := 1 } "admin") =
        (.error (Fault.payroll (.employeeNotFound "stranger" (some 0))).raised,
          Host.sign { halfway with depth := 1 } "admin") :=
    Action.run_bind_error (Action.run_bind_error rfl)
  refine ⟨_, _, Host.transaction_error rfl ((Action.run_bind_ok screened).trans unknown), ?_⟩
  rw [Failure.fault_discarding]
  rfl

/-- The batch with both payments fails as the second one does, and the first one is not made. -/
theorem mixed_refused :
    ∃ failure later, (payBatch deployment mixed).run staffed = (.error failure, later) ∧
      failure.fault = .payroll (.employeeNotFound "stranger" (some 0)) ∧
      later.ledger = staffed.ledger := by
  obtain ⟨record, first⟩ := halfway_reached
  obtain ⟨raised, reached, second, unknown⟩ := misdirected_refused
  have sound : mixed.defect? deployment.config.executor = none := rfl
  obtain ⟨-, -, fails⟩ :=
    payBatch_iff_payEach staffed_reachable rfl rfl sound (List.cons_ne_nil _ _)
  have alone : (payEach deployment 0 202601 [entry (.replicate 32 1)]).run staffed =
      (.ok [record], halfway) := by
    rw [payEach_cons]
    exact Action.run_bind_ok first
  obtain ⟨⟨failure, later, hb, placed, untouched, -⟩, -, -⟩ :=
    fails 1 misdirected [record] halfway raised reached rfl alone second
  refine ⟨failure, later, hb, ?_, untouched⟩
  have other : raised.fault.refuses isProofRefusal = false := by rw [unknown]; rfl
  exact (placed.eq_of_other other).trans unknown

end Sample

end SealedPayroll
