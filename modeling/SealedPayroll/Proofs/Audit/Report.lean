import Mathlib.Algebra.Order.BigOperators.Group.List
import Mathlib.Algebra.Order.Group.Int
import SealedPayroll.Proofs.Audit.Keyring
import SealedPayroll.Proofs.Audit.Scoped
import SealedPayroll.Proofs.Payment.Linked
import SealedPayroll.Proofs.Payment.Totals
import SealedPayroll.Proofs.Registry.Staffing

/-!
# Reports

An auditor whose key is usable and covers a window gets a report on it, and the
report is accurate: it counts the bindings and adds up the payments that the
key shows (`Disclosure.accurate`). Accurate reports of two adjoining windows
add up to that of both, one over all payments agrees with the running total,
and one about listed people stays below those of the company. The wiring is
taken to be complete; what a report without registry or payments says is not
covered.
-/

namespace SealedPayroll

variable {σ : Type} {host later : Host σ} {l : Ledger} {key : ViewKey} {start stop : Int}

-- ---------------------------------------------------------------------------
-- What a report should say
-- ---------------------------------------------------------------------------

/-- Whether reports under a key count an employee: those who are listed, if the key lists any. -/
def ViewKey.counts (key : ViewKey) (name : Principal) : Bool :=
  key.scope != .employeeList || (key.employees.getD []).contains name

theorem ViewKey.counts_unlisted (scope : key.scope ≠ .employeeList) :
    key.counts = fun _ => true := by
  funext name
  simp only [counts, Bool.or_eq_true, bne_iff_ne, ne_eq, scope, not_false_eq_true, true_or]

theorem ViewKey.counts_listed (scope : key.scope = .employeeList) {names : List Principal}
    (listed : key.employees = some names) : key.counts = fun name => names.contains name := by
  funext name
  simp only [counts, scope, listed, bne_self_eq_false, Bool.false_or, Option.getD_some]

namespace Disclosure

/-- The payments in a window that a key shows. -/
def shown (l : Ledger) (key : ViewKey) (start stop : Int) : List PaymentRecord :=
  (Payroll.settledIn l key.company start stop).filter fun record => key.counts record.employee

/-- How many bindings to its company a key shows. -/
def staff (l : Ledger) (key : ViewKey) : Nat :=
  l.bindings.values.countP fun binding =>
    binding.company = key.company && key.counts binding.employee

/-- What there is to report on a window. -/
def accurate (l : Ledger) (key : ViewKey) (start stop : Int) : AuditReport where
  company := key.company
  totalEmployees := staff l key
  totalPaid := ((shown l key start stop).map (·.amount)).sum
  paymentCount := (shown l key start stop).length
  periodStart := start
  periodEnd := stop
  verified := true

-- ---------------------------------------------------------------------------
-- Payments
-- ---------------------------------------------------------------------------

/-- A key that covers a window covers every part of it. -/
theorem covers_inside {first last : Int} (h : key.coversPeriod start stop = true)
    (hs : start ≤ first) (he : last ≤ stop) : key.coversPeriod first last = true := by
  cases scope : key.scope with
  | timeRange =>
    simp only [ViewKey.coversPeriod, scope] at h ⊢
    split at h
    · simp only [Bool.and_eq_true, decide_eq_true_eq] at h ⊢
      omega
    · cases h
  | _ => rw [ViewKey.coversPeriod, scope]

/-- What is shown of a window is shown in the part up to a time or in the part after it. -/
theorem shown_split (l : Ledger) (key : ViewKey) {middle : Int} (first : start ≤ middle)
    (last : middle < stop) :
    (shown l key start stop).Perm
      (shown l key start middle ++ shown l key (middle + 1) stop) := by
  rw [shown, shown, shown, ← List.filter_append]
  apply List.Perm.filter
  have before : start ≤ middle + 1 := by omega
  rw [Payroll.settledIn_inside (Int.le_refl start) (Int.le_of_lt last),
    Payroll.settledIn_inside before (Int.le_refl stop)]
  have parts := List.filter_append_perm
    (fun record => EventFilter.inWindow (some start) (some middle) record.timestamp)
    (Payroll.settledIn l key.company start stop)
  refine parts.symm.trans (.append_left _ (.of_eq (List.filter_congr fun record member => ?_)))
  have inside := (List.mem_filter.mp member).2
  simp only [EventFilter.inWindow, Option.all_some, Bool.and_eq_true, decide_eq_true_eq] at inside
  rw [Bool.eq_iff_iff]
  simp only [EventFilter.inWindow, Option.all_some, Bool.not_eq_true', Bool.and_eq_false_iff,
    decide_eq_false_iff_not, Bool.and_eq_true, decide_eq_true_eq]
  omega

/-- Accurate reports on both parts of a window add up to that on the window. -/
theorem accurate_split (l : Ledger) (key : ViewKey) {middle : Int} (first : start ≤ middle)
    (last : middle < stop) :
    (accurate l key start middle).totalPaid + (accurate l key (middle + 1) stop).totalPaid =
        (accurate l key start stop).totalPaid ∧
      (accurate l key start middle).paymentCount + (accurate l key (middle + 1) stop).paymentCount =
        (accurate l key start stop).paymentCount := by
  have parts := shown_split l key first last
  have sum := (parts.map (·.amount)).sum_eq
  have count := parts.length_eq
  rw [List.map_append, List.sum_append] at sum
  rw [List.length_append] at count
  refine ⟨sum.symm, ?_⟩
  simp only [accurate, count, Nat.cast_add]

/-- A window that holds all payments shows what the running total counts. -/
theorem shown_all (tallied : l.Tallied) (scope : key.scope ≠ .employeeList)
    (all : ∀ record ∈ l.payments.values, record.company = key.company →
      start ≤ record.timestamp ∧ record.timestamp ≤ stop) :
    ((shown l key start stop).map (·.amount)).sum = l.totalPaid key.company := by
  have everything : shown l key start stop = Payroll.paymentsOf l key.company := by
    rw [shown, ViewKey.counts_unlisted scope, List.filter_true, Payroll.settledIn]
    refine List.filter_eq_self.mpr fun record member => ?_
    obtain ⟨stored, own⟩ := List.mem_filter.mp member
    obtain ⟨after, before⟩ := all record stored (of_decide_eq_true own)
    simp [EventFilter.inWindow, after, before]
  rw [everything, tallied key.company]
  rfl

theorem amounts_shown (linked : l.Linked) :
    ∀ amount ∈ (Payroll.settledIn l key.company start stop).map (·.amount), 0 ≤ amount := by
  intro amount member
  obtain ⟨record, settled, rfl⟩ := List.mem_map.mp member
  have stored := (List.mem_filter.mp (List.mem_filter.mp settled).1).1
  obtain ⟨name, found⟩ := Table.mem_values_iff.mp stored
  exact Int.le_of_lt (linked.linked name record found).positive

/-- A key shows no more than what was settled, in number and in sum. -/
theorem shown_le (linked : l.Linked) (key : ViewKey) (start stop : Int) :
    (shown l key start stop).length ≤ (Payroll.settledIn l key.company start stop).length ∧
      ((shown l key start stop).map (·.amount)).sum ≤
        ((Payroll.settledIn l key.company start stop).map (·.amount)).sum := by
  refine ⟨List.length_filter_le _ _, ?_⟩
  have sublist : (shown l key start stop).Sublist _ := List.filter_sublist
  exact (sublist.map _).sum_le_sum (amounts_shown linked)

-- ---------------------------------------------------------------------------
-- Employees
-- ---------------------------------------------------------------------------

theorem nodup_distinct (names : List Principal) : (distinct names).Nodup := by
  induction names with
  | nil => exact .nil
  | cons first rest ih =>
    unfold distinct
    split
    · exact ih
    · rename_i new
      exact List.nodup_cons.mpr ⟨fun again => new (mem_distinct.mp again), ih⟩

/-- Whoever is listed and employed has one binding, however often the name is listed. -/
theorem length_employed (staffed : l.Staffed) (company : Int) (names : List Principal) :
    ((distinct names).filter fun name => Registry.isEmployee l company name).length =
      l.bindings.values.countP fun binding =>
        binding.company = company && names.contains binding.employee := by
  let rows := l.bindings.entries.filter fun row =>
    row.2.company = company && names.contains row.2.employee
  have counted : (l.bindings.values.countP fun binding =>
      binding.company = company && names.contains binding.employee) =
        (rows.map Prod.fst).length := by
    rw [Table.values, List.countP_map, List.countP_eq_length_filter, List.length_map]
    rfl
  rw [counted]
  refine ((List.perm_ext_iff_of_nodup ((nodup_distinct names).filter _)
    (l.bindings.nodup.sublist (List.filter_sublist.map _))).mpr fun name => ?_).length_eq
  simp only [List.mem_filter, mem_distinct, List.mem_map, Bool.and_eq_true,
    decide_eq_true_eq, List.contains_iff_mem, Registry.isEmployee, Option.isSome_iff_exists,
    Registry.employed?, Option.filter_eq_some_iff]
  constructor
  · rintro ⟨listed, binding, held, own⟩
    have named := (staffed.bound name binding held).named
    exact ⟨(name, binding), ⟨Table.get?_eq_some_iff.mp held, own, named ▸ listed⟩, rfl⟩
  · rintro ⟨⟨name, binding⟩, ⟨member, own, listed⟩, rfl⟩
    have held := Table.get?_eq_some_iff.mpr member
    have named := (staffed.bound name binding held).named
    exact ⟨named ▸ listed, binding, held, own⟩

theorem staff_company (scope : key.scope ≠ .employeeList) :
    staff l key = l.workforce key.company := by
  simp only [staff, Ledger.workforce, ViewKey.counts_unlisted scope, Bool.and_true]

theorem staff_le : staff l key ≤ l.workforce key.company :=
  List.countP_mono_left fun _ _ counted => (Bool.and_eq_true_iff.mp counted).1

-- ---------------------------------------------------------------------------
-- Reporting
-- ---------------------------------------------------------------------------

theorem figures_shown (l : Ledger) (key : ViewKey) (start stop : Int) :
    Payroll.figures ((Payroll.payments l key.company (some start) (some stop)).filter
      fun record => key.counts record.employee) = Payroll.figures (shown l key start stop) :=
  Payroll.figures_perm ((Payroll.payments_perm l key.company start stop).filter _)

/-- A report tells how many bindings and which payments the key shows. -/
theorem run_liveReport (host : Host σ) (staffed : host.ledger.Staffed) (parameters : key.Scoped)
    {company : Company} (found : host.ledger.companies.get? key.company = some company) :
    (liveReport key start stop).run host =
      (Action.build .auditReport (told key start stop (staff host.ledger key)
        (Payroll.figures (shown host.ledger key start stop)))).run host := by
  by_cases scope : key.scope = .employeeList
  · obtain ⟨names, listed, -⟩ := parameters.listed scope
    have people := length_employed staffed key.company names
    have counts := ViewKey.counts_listed scope listed
    simp only [liveReport, listed?, scope, listed, Action.run_bind, Action.run_read, told_figures,
      people, ← figures_shown, staff, counts]
  · have none : listed? key = none := by
      rw [listed?]
      split
      · contradiction
      · rfl
    have counts := ViewKey.counts_unlisted scope
    have people := staffed.counted key.company company found
    simp only [liveReport, none, Registry.company, Action.run_bind, Action.run_read,
      Action.run_expect, found, told_figures, people, ← figures_shown, staff_company scope, counts,
      List.filter_true]

/-- What there is to report passes all checks. -/
theorem told_accurate (linked : l.Linked) :
    told key start stop (staff l key) (Payroll.figures (shown l key start stop)) =
      .valid (accurate l key start stop) := by
  have sublist : (shown l key start stop).Sublist _ := List.filter_sublist
  refine AuditReport.make_eq_valid.mpr ⟨⟨Int.natCast_nonneg _, ?_, Int.natCast_nonneg _⟩, rfl⟩
  exact List.sum_nonneg fun amount member =>
    amounts_shown linked amount ((sublist.map _).subset member)

variable {d : Deployment σ} {id : String} {auditor : Principal} {report : AuditReport}

/-- A report on a window that the key covers is accurate. -/
theorem run_report (seesRegistry : d.auditSeesRegistry = true)
    (seesPayments : d.auditSeesPayments = true)
    (presented : (present id auditor).run host = (.ok key, host.sign auditor))
    (staffed : host.ledger.Staffed) (linked : host.ledger.Linked) (parameters : key.Scoped)
    {company : Company} (found : host.ledger.companies.get? key.company = some company)
    (ordered : start ≤ stop) (covered : key.coversPeriod start stop = true) :
    (Disclosure.report d id auditor start stop).run host =
      (.ok (accurate host.ledger key start stop), host.sign auditor) := by
  rw [Disclosure.report, Action.run_bind_ok presented, if_neg (Int.not_lt.mpr ordered), if_pos covered,
    seesRegistry, seesPayments, Bool.and_self, if_pos rfl,
    run_liveReport (host.sign auditor) staffed parameters found, Host.sign_ledger,
    told_accurate linked, Action.run_build_valid]

/-- A report is given only on a window that is in order and that the key covers. -/
theorem covered_of_report
    (presented : (present id auditor).run host = (.ok key, host.sign auditor))
    (h : (Disclosure.report d id auditor start stop).run host = (.ok report, later)) :
    start ≤ stop ∧ key.coversPeriod start stop = true := by
  rw [Disclosure.report, Action.run_bind_ok presented] at h
  split at h
  · exact (Action.refuse_eq_ok.mp h).elim
  · rename_i ordered
    split at h
    · rename_i covered
      exact ⟨Int.not_lt.mp ordered, covered⟩
    · exact (Action.refuse_eq_ok.mp h).elim

end Disclosure

-- ---------------------------------------------------------------------------
-- Runs
-- ---------------------------------------------------------------------------

open Disclosure (accurate accurate_split covers_inside shown_all shown_le staff_le)

variable {base d : Deployment σ} {id : String} {auditor : Principal}

/-- Callbacks do not change what the audit part sees. -/
theorem Reentrant.sees (h : Reentrant base d) :
    d.auditSeesRegistry = base.auditSeesRegistry ∧ d.auditSeesPayments = base.auditSeesPayments := by
  cases h with
  | plain => exact ⟨rfl, rfl⟩
  | calling hc _ =>
    obtain ⟨hook, -, rfl⟩ := hc
    exact ⟨rfl, rfl⟩

/-- Wherever a run is, a usable key that is presented by whoever it was issued to gets a report iff
it covers the window, and the report is accurate. -/
theorem Reachable.report_eq_ok (h : Reachable base d host)
    (seesRegistry : base.auditSeesRegistry = true) (seesPayments : base.auditSeesPayments = true)
    (stored : ViewKeys.stored? host.ledger id = some key)
    (usable : ViewKeys.grantsAccess host id auditor = true)
    (signed : host.authority.allows auditor = true) {report : AuditReport} :
    (Disclosure.report d id auditor start stop).run host = (.ok report, later) ↔
      (start ≤ stop ∧ key.coversPeriod start stop = true) ∧
        accurate host.ledger key start stop = report ∧ host.sign auditor = later := by
  have presented : (Disclosure.present id auditor).run host = (.ok key, host.sign auditor) := by
    obtain ⟨found, hf, own, active⟩ := ViewKeys.grantsAccess_iff.mp usable
    cases hf.symm.trans stored
    exact Disclosure.present_eq_ok.mpr ⟨signed, stored, own, active, rfl⟩
  obtain ⟨entry, held, rfl⟩ := Option.map_eq_some_iff.mp stored
  have inOrder := h.keyInOrder seesRegistry held
  obtain ⟨company, found, -⟩ := inOrder.granter
  obtain ⟨registry, payments⟩ := h.reentrant.sees
  have gives (ordered : start ≤ stop) (covered : entry.value.coversPeriod start stop = true) :=
    Disclosure.run_report (registry.trans seesRegistry) (payments.trans seesPayments) presented
      h.staffed h.linked inOrder.parameters found ordered covered
  constructor
  · intro hr
    obtain ⟨ordered, covered⟩ := Disclosure.covered_of_report presented hr
    rw [gives ordered covered] at hr
    cases hr
    exact ⟨⟨ordered, covered⟩, rfl, rfl⟩
  · rintro ⟨⟨ordered, covered⟩, rfl, rfl⟩
    exact gives ordered covered

/-- Wherever a run is, whoever presents a usable key and has signed gets an accurate report on each
window that the key covers. Whatever window is reported can be reported in two parts, which add up
to the whole. Without a list of employees, a report on all payments gives the running total, and
with one it stays below the figures of the company. -/
theorem Reachable.accurate_reports (h : Reachable base d host)
    (seesRegistry : base.auditSeesRegistry = true) (seesPayments : base.auditSeesPayments = true)
    (stored : ViewKeys.stored? host.ledger id = some key)
    (usable : ViewKeys.grantsAccess host id auditor = true)
    (signed : host.authority.allows auditor = true) :
    (∀ start stop, start ≤ stop → key.coversPeriod start stop = true →
        (Disclosure.report d id auditor start stop).run host =
          (.ok (accurate host.ledger key start stop), host.sign auditor)) ∧
      (∀ start stop whole later,
        (Disclosure.report d id auditor start stop).run host = (.ok whole, later) →
        ∀ middle, start ≤ middle → middle < stop → ∃ first second,
          (Disclosure.report d id auditor start middle).run host =
              (.ok first, host.sign auditor) ∧
            (Disclosure.report d id auditor (middle + 1) stop).run host =
              (.ok second, host.sign auditor) ∧
            first.totalPaid + second.totalPaid = whole.totalPaid ∧
            first.paymentCount + second.paymentCount = whole.paymentCount) ∧
      (∀ start stop whole later,
        (Disclosure.report d id auditor start stop).run host = (.ok whole, later) →
        key.scope ≠ .employeeList →
        (∀ record ∈ host.ledger.payments.values, record.company = key.company →
          start ≤ record.timestamp ∧ record.timestamp ≤ stop) →
        whole.totalPaid = host.ledger.totalPaid key.company) ∧
      ∀ start stop listed later,
        (Disclosure.report d id auditor start stop).run host = (.ok listed, later) →
        key.scope = .employeeList →
          listed.totalPaid ≤ (Payroll.figures
            (Payroll.settledIn host.ledger key.company start stop)).2 ∧
          listed.paymentCount ≤ (Payroll.figures
            (Payroll.settledIn host.ledger key.company start stop)).1 ∧
          ∀ company, host.ledger.companies.get? key.company = some company →
            listed.totalEmployees ≤ company.employeeCount := by
  have reported {start stop : Int} {report : AuditReport} {later : Host σ} :
      (Disclosure.report d id auditor start stop).run host = (.ok report, later) ↔
        (start ≤ stop ∧ key.coversPeriod start stop = true) ∧
          accurate host.ledger key start stop = report ∧ host.sign auditor = later :=
    h.report_eq_ok seesRegistry seesPayments stored usable signed
  refine ⟨fun start stop ordered covered => ?given, ?split, ?all, ?listed⟩
  case given => exact reported.mpr ⟨⟨ordered, covered⟩, rfl, rfl⟩
  case split =>
    intro start stop whole later hr middle first last
    obtain ⟨⟨-, covered⟩, rfl, -⟩ := reported.mp hr
    have before := covers_inside covered (Int.le_refl start) (Int.le_of_lt last)
    have after := covers_inside covered (by omega : start ≤ middle + 1) (Int.le_refl stop)
    exact ⟨_, _, reported.mpr ⟨⟨first, before⟩, rfl, rfl⟩, reported.mpr ⟨⟨last, after⟩, rfl, rfl⟩,
      accurate_split _ _ first last⟩
  case all =>
    intro start stop whole later hr scope all
    obtain ⟨-, rfl, -⟩ := reported.mp hr
    exact shown_all h.tallied scope all
  case listed =>
    intro start stop listed later hr scope
    obtain ⟨-, rfl, -⟩ := reported.mp hr
    obtain ⟨count, sum⟩ := shown_le h.linked key start stop
    refine ⟨sum, Int.ofNat_le.mpr count, fun company found => ?_⟩
    rw [h.staffed.counted _ _ found]
    exact Int.ofNat_le.mpr staff_le

namespace Sample

/-- A request for a key that lists the worker twice, and somebody whom nobody employs. -/
def askedFor : ViewKeys.Request :=
  { asked with scope := .employeeList, employees := some ["worker", "clerk", "worker"] }

/-- The host after the worker was paid and the key was issued. -/
def listing : Host Unit :=
  (ViewKeys.issue deployment askedFor).after ((paying low 1).after staffed)

/-- The worker counts once in the report, and the payment in one of the two parts of it. -/
theorem listed_reports :
    (Disclosure.report deployment lent.id "auditor" 0 9).run listing =
        (.ok ⟨0, 1, 10, 1, 0, 9, true⟩, listing.sign "auditor") ∧
      ∃ first second,
        (Disclosure.report deployment lent.id "auditor" 0 4).run listing =
            (.ok first, listing.sign "auditor") ∧
          (Disclosure.report deployment lent.id "auditor" 5 9).run listing =
            (.ok second, listing.sign "auditor") ∧
          first.totalPaid + second.totalPaid = 10 ∧ first.paymentCount + second.paymentCount = 1 := by
  have issued : Passes deployment deployment ((paying low 1).after staffed) deployment listing := by
    rw [listing, ← Action.after_map _ Answer.viewKey]
    exact .ran (.base (.call (.audit (.issue askedFor)))) (.here _ _)
  have reached : Reachable deployment deployment listing :=
    (staffed_reachable.passes (.ran (.base (.call _)) (.here _ _))).passes issued
  let key := askedFor.key deployment.config.audit ⟨0, 0⟩ 0 lent.id
  obtain ⟨stored, usable, signed, figures⟩ :
      ViewKeys.stored? listing.ledger lent.id = some key ∧
        ViewKeys.grantsAccess listing lent.id "auditor" = true ∧
        listing.authority.allows "auditor" = true ∧
        Disclosure.accurate listing.ledger key 0 9 = ⟨0, 1, 10, 1, 0, 9, true⟩ := by
    decide +kernel
  obtain ⟨given, split, -, -⟩ := reached.accurate_reports rfl rfl stored usable signed
  have whole := given 0 9 (by decide) rfl
  rw [figures] at whole
  exact ⟨whole, split 0 9 _ _ whole 4 (by decide) (by decide)⟩

end Sample

end SealedPayroll
