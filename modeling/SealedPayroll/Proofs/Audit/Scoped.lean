import Mathlib.Algebra.BigOperators.Group.List.Basic
import Mathlib.Algebra.Ring.Int.Defs
import Mathlib.Data.List.Perm.Basic
import SealedPayroll.Proofs.Audit.Presented
import SealedPayroll.Proofs.Session.Public

/-!
# What a scope lets through

Two hosts that differ only in what the scope of a key hides answer every
question asked under the key alike, refusals included
(`Disclosure.answers_alike`). What a scope hides is said by what the hosts
have to agree on instead: each scope has its own agreement. Times, sizes of
memory and the order of storage are not answers and not covered.
-/

namespace SealedPayroll

variable {σ α β : Type} {h k : Host σ}

-- ---------------------------------------------------------------------------
-- Answers of one action in two hosts
-- ---------------------------------------------------------------------------

namespace Action

/-- An action has the same outcome in two hosts, whatever it makes of them. -/
def Alike (action : Action σ α) (h k : Host σ) : Prop := (action.run h).1 = (action.run k).1

namespace Alike

theorem refuse (error : PayrollError) : Alike (Action.refuse error : Action σ α) h k := rfl

theorem ofExcept (result : Except Fault α) : Alike (Action.ofExcept result) h k := by
  cases result <;> rfl

theorem build (kind : RecordKind) (check : Check α) : Alike (Action.build kind check) h k := by
  cases check <;> rfl

theorem bind {first : Action σ α} {next : α → Action σ β} (hf : Alike first h k)
    (hn : ∀ a h' k', first.run h = (.ok a, h') → first.run k = (.ok a, k') →
      Alike (next a) h' k') : Alike (first >>= next) h k := by
  simp only [Alike, run_bind] at hf ⊢
  rcases hh : first.run h with ⟨failure | a, h'⟩ <;> rcases hk : first.run k with ⟨raised | b, k'⟩ <;>
    simp only [hh, hk, reduceCtorEq, Except.error.injEq, Except.ok.injEq] at hf
  · subst hf
    rfl
  · subst hf
    exact hn a h' k' hh hk

end Alike

end Action

open SealedPayroll.Action (Alike)

-- ---------------------------------------------------------------------------
-- Figures about payments
-- ---------------------------------------------------------------------------

namespace Payroll

/-- The payments of a company, as they are stored. -/
def paymentsOf (ledger : Ledger) (company : Int) : List PaymentRecord :=
  ledger.payments.values.filter (·.company = company)

/-- The payments of a company within a window, as they are stored. -/
def settledIn (ledger : Ledger) (company start stop : Int) : List PaymentRecord :=
  (paymentsOf ledger company).filter fun record =>
    EventFilter.inWindow (some start) (some stop) record.timestamp

/-- How many payments there are, and what they sum up to. -/
def figures (records : List PaymentRecord) : Nat × Int :=
  (records.length, (records.map (·.amount)).sum)

theorem figures_perm {first second : List PaymentRecord} (hp : first.Perm second) :
    figures first = figures second := by
  simp only [figures, hp.length_eq, (hp.map (·.amount)).sum_eq]

theorem payments_perm (ledger : Ledger) (company start stop : Int) :
    (payments ledger company (some start) (some stop)).Perm
      (settledIn ledger company start stop) := by
  refine (List.mergeSort_perm _ _).trans (List.Perm.of_eq ?_)
  simp only [settledIn, paymentsOf, List.filter_filter]
  refine List.filter_congr fun record _ => ?_
  rw [Bool.and_comm]

/-- A window inside another one shows only what the other one shows. -/
theorem settledIn_inside {ledger : Ledger} {company first start stop last : Int}
    (hs : first ≤ start) (he : stop ≤ last) :
    settledIn ledger company start stop = (settledIn ledger company first last).filter
      fun record => EventFilter.inWindow (some start) (some stop) record.timestamp := by
  simp only [settledIn, List.filter_filter]
  refine List.filter_congr fun record _ => ?_
  simp only [EventFilter.inWindow, Option.all_some]
  rw [Bool.eq_iff_iff]
  simp only [Bool.and_eq_true, decide_eq_true_eq]
  omega

end Payroll

/-- Lists that agree on the members with each of some labels agree on the members with any. -/
theorem filter_perm_of_labels {ι : Type} [DecidableEq ι] [DecidableEq α] {label : α → ι}
    {first second : List α} {labels : List ι}
    (hp : ∀ i ∈ labels, (first.filter (label · = i)).Perm (second.filter (label · = i))) :
    (first.filter (label · ∈ labels)).Perm (second.filter (label · ∈ labels)) := by
  refine List.perm_iff_count.mpr fun a => ?_
  by_cases ha : label a ∈ labels
  · have hc := (hp (label a) ha).count_eq a
    rw [List.count_filter (by simp), List.count_filter (by simp)] at hc
    rw [List.count_filter (by simpa using ha), List.count_filter (by simpa using ha), hc]
  · have absent (l : List α) : (l.filter (label · ∈ labels)).count a = 0 :=
      List.count_eq_zero.mpr fun hm => ha (by simpa using (List.mem_filter.mp hm).2)
    rw [absent, absent]

-- ---------------------------------------------------------------------------
-- What two hosts have to agree on
-- ---------------------------------------------------------------------------

namespace Disclosure

open Payroll (paymentsOf settledIn figures figures_perm)

variable {id : String} {key : ViewKey} {d : Deployment σ}

/-- Two hosts that show the same key under an id, at the same time and with the same signatures,
and in which the same people have commitments, stored for the same companies. -/
structure SameGrant (id : String) (key : ViewKey) (h k : Host σ) : Prop where
  clock : h.clock = k.clock
  signatures : ∀ name, h.authority.allows name = k.authority.allows name
  here : ViewKeys.stored? h.ledger id = some key
  there : ViewKeys.stored? k.ledger id = some key
  tags : ∀ name, (h.ledger.commitments.get? name).map (·.company) =
    (k.ledger.commitments.get? name).map (·.company)

/-- How many employees a company counts, if it exists. -/
def headcount (ledger : Ledger) (company : Int) : Option Int :=
  (ledger.companies.get? company).map (·.employeeCount)

/-- Two ledgers have the same commitment for a name, where it is stored for the company or for
none. -/
def SameCommitment (company : Int) (name : Principal) (l m : Ledger) : Prop :=
  ∀ record, l.commitments.get? name = some record → record.company.all (· = company) →
    m.commitments.get? name = some record

/-- Two ledgers agree on one employee: on the commitment, on the binding to the company, and on
the payments by the company, in whatever order they are stored. -/
structure SameEmployee (company : Int) (name : Principal) (l m : Ledger) : Prop where
  commitment : SameCommitment company name l m
  bound : Registry.isEmployee l company name = Registry.isEmployee m company name
  payments : ((paymentsOf l company).filter (·.employee = name)).Perm
    ((paymentsOf m company).filter (·.employee = name))

/-- All questions under a key have the same answers in two hosts, reports those over one window. -/
structure SameAnswers (d : Deployment σ) (id : String) (start stop : Int) (h k : Host σ) :
    Prop where
  commitment : ∀ auditor commitment amount blinding restriction,
    Alike (verifyCommitment d id auditor commitment amount blinding restriction) h k
  employee : ∀ auditor name amount blinding,
    Alike (verifyEmployee d id auditor name amount blinding) h k
  report : ∀ auditor, Alike (report d id auditor start stop) h k

-- ---------------------------------------------------------------------------
-- Presenting the key
-- ---------------------------------------------------------------------------

theorem requireAuth_alike {name : Principal}
    (ha : h.authority.allows name = k.authority.allows name) :
    Alike (Host.requireAuth name) h k := by
  simp only [Alike, Action.run, Host.requireAuth, Authority.require, ha]
  by_cases he : name = ""
  · simp [he]
  · cases k.authority.allows name <;> simp [he]

theorem present_alike (same : SameGrant id key h k) (auditor : Principal) :
    Alike (present id auditor) h k := by
  refine .bind (requireAuth_alike (same.signatures auditor)) fun _ h' k' hh hk => ?_
  obtain ⟨-, rfl⟩ := Host.requireAuth_eq_ok.mp hh
  obtain ⟨-, rfl⟩ := Host.requireAuth_eq_ok.mp hk
  simp only [Alike, Action.run_bind, ViewKeys.get, Action.run_expect, same.here, same.there]
  by_cases hn : key.auditor = auditor
  · simp only [hn, ne_eq, not_true_eq_false, if_false, Action.run_bind, Action.run_read,
      same.clock]
    cases ViewKeys.isActiveAt k.clock key <;> rfl
  · simp only [ne_eq, hn, not_false_eq_true, if_true, Action.run_refuse]

/-- A question has the same answer in both hosts if it has once the key is accepted. -/
theorem question_alike (same : SameGrant id key h k) {auditor : Principal}
    {next : ViewKey → Action σ α}
    (hn : Alike (next key) (h.sign auditor) (k.sign auditor)) :
    Alike (present id auditor >>= next) h k := by
  refine .bind (present_alike same auditor) fun found h' k' hh hk => ?_
  obtain ⟨-, hs, -, -, rfl⟩ := present_eq_ok.mp hh
  obtain ⟨-, -, -, -, rfl⟩ := present_eq_ok.mp hk
  rw [same.here] at hs
  cases hs
  exact hn

-- ---------------------------------------------------------------------------
-- The questions
-- ---------------------------------------------------------------------------

/-- Whether a commitment that the auditor brings along opens has nothing to do with the ledger. -/
theorem verifyCommitment_alike (same : SameGrant id key h k) (auditor : Principal)
    (commitment : Bytes) (amount : Int) (blinding : Bytes) (restriction : Option Scope) :
    Alike (verifyCommitment d id auditor commitment amount blinding restriction) h k := by
  refine question_alike same ?_
  dsimp only
  split
  · exact .ofExcept _
  · exact .refuse _

theorem verifyEmployee_alike (same : SameGrant id key h k)
    (hc : ∀ name, key.coversEmployee name = true →
      SameCommitment key.company name h.ledger k.ledger)
    (auditor name : Principal) (amount : Int) (blinding : Bytes) :
    Alike (verifyEmployee d id auditor name amount blinding) h k := by
  refine question_alike same ?_
  split
  · rename_i covered
    have tag := same.tags name
    simp only [Alike, CommitmentStore.get, Action.run_bind, Action.run_expect, Host.sign_ledger]
    cases hh : h.ledger.commitments.get? name with
    | none =>
      rw [hh] at tag
      rw [Option.map_none, eq_comm, Option.map_eq_none_iff] at tag
      simp only [tag]
    | some record =>
      obtain ⟨other, hk, ho⟩ := Option.map_eq_some_iff.mp (tag.symm.trans (by rw [hh]; rfl))
      by_cases own : record.company.all (· = key.company) = true
      · rw [hc name covered record hh own]
        simp only [own, if_true]
        exact Alike.ofExcept _
      · rw [hk]
        simp only [ho, own, Bool.false_eq_true, if_false, Action.run_refuse]
  · exact .refuse _

theorem report_alike (same : SameGrant id key h k) {start stop : Int}
    (hr : key.coversPeriod start stop = true → ∀ auditor,
      Alike (liveReport key start stop) (h.sign auditor) (k.sign auditor)) (auditor : Principal) :
    Alike (report d id auditor start stop) h k := by
  refine question_alike same ?_
  split
  · exact .refuse _
  · split
    · rename_i covered
      split
      · exact hr covered auditor
      · exact .build _ _
    · exact .refuse _

-- ---------------------------------------------------------------------------
-- Reports
-- ---------------------------------------------------------------------------

/-- The report that tells some figures. -/
def told (key : ViewKey) (start stop people : Int) (paid : Nat × Int) : Check AuditReport :=
  AuditReport.make (some key.company) (some people) (some paid.2) (some paid.1) (some start)
    (some stop) (some true)

theorem told_figures (key : ViewKey) (start stop people : Int) (paid : List PaymentRecord) :
    AuditReport.make key.company people (some ((paid.map (·.amount)).foldl (· + ·) 0))
        (some paid.length) start stop true =
      told key start stop people (figures paid) := by
  rw [told, figures, List.sum_eq_foldl]

/-- A report about a whole company tells its headcount and the figures of the window. -/
theorem liveReport_company (hl : listed? key = none) {start stop : Int}
    (hc : headcount h.ledger key.company = headcount k.ledger key.company)
    (hf : figures (settledIn h.ledger key.company start stop) =
      figures (settledIn k.ledger key.company start stop)) :
    Alike (liveReport key start stop) h k := by
  have ht := (figures_perm (Payroll.payments_perm h.ledger key.company start stop)).trans
    (hf.trans (figures_perm (Payroll.payments_perm k.ledger key.company start stop)).symm)
  simp only [Alike, liveReport, Action.run_bind, Action.run_read, hl, Registry.company,
    Action.run_expect, told_figures, ht]
  cases hh : h.ledger.companies.get? key.company <;>
    cases hk : k.ledger.companies.get? key.company <;>
    simp only [headcount, hh, hk, Option.map_none, Option.map_some, reduceCtorEq,
      Option.some.injEq] at hc ⊢
  simp only [hc]
  exact Alike.build _ _

theorem mem_distinct {name : Principal} {names : List Principal} :
    name ∈ distinct names ↔ name ∈ names := by
  induction names with
  | nil => rfl
  | cons first rest ih =>
    unfold distinct
    split
    · rename_i again
      rw [ih, List.mem_cons]
      exact ⟨.inr, fun h => h.elim (fun same => same ▸ again) id⟩
    · rw [List.mem_cons, List.mem_cons, ih]

/-- A report about listed people tells how many of them are employed and the figures of the window
over them. -/
theorem liveReport_listed {names : List Principal} (hl : listed? key = some names)
    {start stop : Int}
    (hs : ∀ name ∈ names, SameEmployee key.company name h.ledger k.ledger) :
    Alike (liveReport key start stop) h k := by
  have employed : (distinct names).filter (Registry.isEmployee h.ledger key.company) =
      (distinct names).filter (Registry.isEmployee k.ledger key.company) :=
    List.filter_congr fun name hm => (hs name (mem_distinct.mp hm)).bound
  have part (l : Ledger) : (Payroll.payments l key.company (some start) (some stop)).filter
      (fun record => names.contains record.employee) |>.Perm
      (((paymentsOf l key.company).filter (·.employee ∈ names)).filter fun record =>
        EventFilter.inWindow (some start) (some stop) record.timestamp) := by
    refine ((Payroll.payments_perm l key.company start stop).filter _).trans (.of_eq ?_)
    simp only [settledIn, List.filter_filter, List.contains_eq_mem]
    refine List.filter_congr fun record _ => ?_
    rw [Bool.and_comm]
  have paid := figures_perm <| (part h.ledger).trans <|
    ((filter_perm_of_labels fun name hm => (hs name hm).payments).filter _).trans (part k.ledger).symm
  simp only [Alike, liveReport, Action.run_bind, Action.run_read, hl, told_figures, employed, paid]
  exact Alike.build _ _

-- ---------------------------------------------------------------------------
-- The scopes
-- ---------------------------------------------------------------------------

theorem sameAnswers_intro (same : SameGrant id key h k) {start stop : Int}
    (hc : ∀ name, key.coversEmployee name = true →
      SameCommitment key.company name h.ledger k.ledger)
    (hr : key.coversPeriod start stop = true → ∀ auditor,
      Alike (liveReport key start stop) (h.sign auditor) (k.sign auditor)) :
    SameAnswers d id start stop h k where
  commitment := verifyCommitment_alike same
  employee := verifyEmployee_alike same hc
  report := report_alike same hr

/-- What a key does not let through has no influence on any answer given under it. -/
theorem answers_alike (same : SameGrant id key h k) (start stop : Int) :
    (key.scope = .aggregateOnly →
      headcount h.ledger key.company = headcount k.ledger key.company →
      figures (settledIn h.ledger key.company start stop) =
        figures (settledIn k.ledger key.company start stop) →
      SameAnswers d id start stop h k) ∧
    (∀ names, key.scope = .employeeList → key.employees = some names →
      (∀ name ∈ names, SameEmployee key.company name h.ledger k.ledger) →
      SameAnswers d id start stop h k) ∧
    (key.scope = .timeRange →
      headcount h.ledger key.company = headcount k.ledger key.company →
      (∀ name, SameCommitment key.company name h.ledger k.ledger) →
      (∀ first last, key.periodStart = some first → key.periodEnd = some last →
        (settledIn h.ledger key.company first last).Perm
          (settledIn k.ledger key.company first last)) →
      SameAnswers d id start stop h k) ∧
    (key.scope = .fullCompany →
      headcount h.ledger key.company = headcount k.ledger key.company →
      (∀ name, SameCommitment key.company name h.ledger k.ledger) →
      (paymentsOf h.ledger key.company).Perm (paymentsOf k.ledger key.company) →
      SameAnswers d id start stop h k) := by
  refine ⟨fun scope people paid => ?aggregate, fun names scope listed each => ?listed,
    fun scope people stored paid => ?window, fun scope people stored paid => ?full⟩
  case aggregate =>
    refine sameAnswers_intro same (fun name covered => ?_) fun _ auditor =>
      liveReport_company (by simp [listed?, scope]) people paid
    simp [ViewKey.coversEmployee, scope, Scope.revealsIndividuals] at covered
  case listed =>
    refine sameAnswers_intro same (fun name covered => ?_) fun _ auditor =>
      liveReport_listed (by simp [listed?, scope, listed]) each
    refine (each name ?_).commitment
    simpa [ViewKey.coversEmployee, scope, listed] using covered
  case window =>
    refine sameAnswers_intro same (fun name _ => stored name) fun covered auditor =>
      liveReport_company (by simp [listed?, scope]) people ?_
    simp only [ViewKey.coversPeriod, scope] at covered
    split at covered
    · rename_i first last hf hl
      simp only [Bool.and_eq_true, decide_eq_true_eq] at covered
      simp only [Host.sign_ledger, Payroll.settledIn_inside covered.1 covered.2]
      exact figures_perm ((paid first last hf hl).filter _)
    · cases covered
  case full =>
    exact sameAnswers_intro same (fun name _ => stored name) fun _ auditor =>
      liveReport_company (by simp [listed?, scope]) people (figures_perm (paid.filter _))

end Disclosure

namespace Sample

/-- The company's books under a key: some payments, and the worker's commitment. -/
def audited (key : ViewKey) (paid : List PaymentRecord) (salary : Bytes) : Host Unit :=
  { staffed with
    ledger := { staffed.ledger with
      viewKeys := Table.empty.insert key.id ⟨key, key.expiresAt, key.basis⟩
      commitments := Table.empty.insert "worker" ⟨"worker", some 0, salary, 1, 0, 0⟩
      payments := paid.foldl
        (fun table record => table.insert (record.employee, record.period) record) .empty } }

theorem audited_same (key : ViewKey) (paid others : List PaymentRecord) (salary other : Bytes) :
    Disclosure.SameGrant key.id key (audited key paid salary) (audited key others other) where
  clock := rfl
  signatures _ := rfl
  here := by simp [audited, ViewKeys.stored?, Table.get?_insert]
  there := by simp [audited, ViewKeys.stored?, Table.get?_insert]
  tags name := by
    simp only [audited, Table.get?_insert]
    split <;> rfl

/-- Keys of one auditor for the company. -/
def granted (scope : Scope) (listed : Option (List Principal)) (window : Option Int) : ViewKey :=
  ⟨"id", 0, "auditor", "admin", 0, 100, scope, 0, .timestamp, listed, window, window.map (· + 5)⟩

def totalsKey : ViewKey := granted .aggregateOnly none none

def clerkKey : ViewKey := granted .employeeList (some ["clerk"]) none

def windowKey : ViewKey := granted .timeRange none (some 4)

def fullKey : ViewKey := granted .fullCompany none none

def paid (employee : Principal) (amount timestamp : Int) : PaymentRecord :=
  ⟨0, employee, amount, commitment, timestamp, timestamp⟩

/-- Single amounts do not show under a key for totals, other people not under a key for listed
people, earlier payments not under a key for a window, and the order of storage not at all. -/
theorem undisclosed :
    Disclosure.SameAnswers deployment "id" 0 9
        (audited totalsKey [paid "worker" 40 1, paid "clerk" 60 1] (.replicate 32 0))
        (audited totalsKey [paid "worker" 30 2, paid "clerk" 70 3] (.replicate 32 1)) ∧
      Disclosure.SameAnswers deployment "id" 0 9
        (audited clerkKey [paid "worker" 40 1, paid "clerk" 60 1] (.replicate 32 0))
        (audited clerkKey [paid "clerk" 60 1] (.replicate 32 1)) ∧
      Disclosure.SameAnswers deployment "id" 0 9
        (audited windowKey [paid "worker" 40 1, paid "clerk" 60 5] (.replicate 32 0))
        (audited windowKey [paid "clerk" 60 5] (.replicate 32 0)) ∧
      Disclosure.SameAnswers deployment "id" 0 9
        (audited fullKey [paid "worker" 40 1, paid "clerk" 60 1] (.replicate 32 0))
        (audited fullKey [paid "clerk" 60 1, paid "worker" 40 1] (.replicate 32 0)) := by
  refine ⟨?totals, ?clerk, ?window, ?full⟩
  case totals =>
    refine (Disclosure.answers_alike (audited_same totalsKey ..) 0 9).1 rfl ?_ ?_
    · rfl
    · decide +kernel
  case clerk =>
    refine (Disclosure.answers_alike (audited_same clerkKey ..) 0 9).2.1 ["clerk"] rfl rfl
      fun name hn => ?_
    obtain rfl : name = "clerk" := by simpa using hn
    exact ⟨fun _ h => (nomatch h), rfl, by decide +kernel⟩
  case window =>
    refine (Disclosure.answers_alike (audited_same windowKey ..) 0 9).2.2.1 rfl ?_ ?_ ?_
    · rfl
    · exact fun _ _ h _ => h
    · rintro first last ⟨⟩ ⟨⟩
      decide +kernel
  case full =>
    refine (Disclosure.answers_alike (audited_same fullKey ..) 0 9).2.2.2 rfl ?_ ?_ ?_
    · rfl
    · exact fun _ _ h _ => h
    · decide +kernel

end Sample

end SealedPayroll
