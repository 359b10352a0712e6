import SealedPayroll.Host.Transaction

/-!
# When actions answer

For each way of making an action, when it answers and in which host. Read one
after another they take a run that answered apart, and put one together that
is to answer. Failures are not covered: they leave a host behind as well, but
which one is of no use before a transaction takes it back.
-/

namespace SealedPayroll

variable {σ α β : Type}

namespace Action

variable {host later : Host σ} {a : α} {b : β}

theorem pure_eq_ok {given : α} :
    (pure given : Action σ α).run host = (.ok a, later) ↔ given = a ∧ host = later := by
  rw [run_pure, Prod.mk.injEq, Except.ok.injEq]

theorem bind_eq_ok {first : Action σ α} {next : α → Action σ β} :
    (first >>= next).run host = (.ok b, later) ↔
      ∃ a between, first.run host = (.ok a, between) ∧ (next a).run between = (.ok b, later) := by
  rcases hr : first.run host with ⟨failure | a, between⟩
  · rw [run_bind_error hr]
    constructor
    · intro h
      cases h
    · rintro ⟨_, _, h, -⟩
      cases h
  · rw [run_bind_ok hr]
    constructor
    · exact fun h => ⟨a, between, rfl, h⟩
    · rintro ⟨_, _, h, hn⟩
      cases h
      exact hn

theorem map_eq_ok {action : Action σ α} {f : α → β} :
    (f <$> action).run host = (.ok b, later) ↔ ∃ a, action.run host = (.ok a, later) ∧ f a = b := by
  rw [map_eq_pure_bind, bind_eq_ok]
  constructor
  · rintro ⟨a, between, hr, hp⟩
    obtain ⟨rfl, rfl⟩ := pure_eq_ok.mp hp
    exact ⟨a, hr, rfl⟩
  · rintro ⟨a, hr, rfl⟩
    exact ⟨a, later, hr, pure_eq_ok.mpr ⟨rfl, rfl⟩⟩

theorem of_isOk (action : Action σ α) (host : Host σ) (h : (action.run host).1.isOk = true) :
    ∃ a, action.run host = (.ok a, action.after host) := by
  rcases hr : action.run host with ⟨failure | a, later⟩
  · rw [hr] at h
    cases h
  · exact ⟨a, by rw [after, hr]⟩

theorem read_eq_ok {view : Host σ → α} :
    (read view).run host = (.ok a, later) ↔ view host = a ∧ host = later := by
  rw [run_read, Prod.mk.injEq, Except.ok.injEq]

theorem refuse_eq_ok {error : PayrollError} :
    (refuse error : Action σ α).run host = (.ok a, later) ↔ False := by
  rw [run_refuse, Prod.mk.injEq]
  exact ⟨fun h => (nomatch h.1), False.elim⟩

theorem expect_eq_ok {view : Host σ → Option α} {error : PayrollError} :
    (expect view error).run host = (.ok a, later) ↔ view host = some a ∧ host = later := by
  rw [run_expect]
  cases view host with
  | none => exact ⟨fun h => (nomatch h), fun h => (nomatch h.1)⟩
  | some found => rw [Prod.mk.injEq, Except.ok.injEq, Option.some.injEq]

theorem ofExcept_eq_ok {result : Except Fault α} :
    (ofExcept result : Action σ α).run host = (.ok a, later) ↔ result = .ok a ∧ host = later := by
  cases result with
  | ok given => rw [run_ofExcept_ok, Prod.mk.injEq, Except.ok.injEq, Except.ok.injEq]
  | error fault => exact ⟨fun h => (nomatch h), fun h => (nomatch h.1)⟩

theorem build_eq_ok {kind : RecordKind} {check : Check α} :
    (build kind check : Action σ α).run host = (.ok a, later) ↔
      check = .valid a ∧ host = later := by
  cases check with
  | valid given => rw [run_build_valid, Prod.mk.injEq, Except.ok.injEq, Check.valid.injEq]
  | invalid faults => exact ⟨fun h => (nomatch h), fun h => (nomatch h.1)⟩

end Action

namespace Host

variable {host later : Host σ}

theorem require_eq_ok {authority signed : Authority} {principal : Principal} :
    authority.require principal = .ok signed ↔
      authority.allows principal = true ∧
        { authority with checked := authority.checked ++ [principal] } = signed := by
  unfold Authority.require
  split
  · rename_i he
    simp [Authority.allows, he]
  · split
    · rename_i ha
      simp [ha]
    · rename_i ha
      simp [ha]

theorem requireAuth_eq_ok {principal : Principal} {u : Unit} :
    (requireAuth principal).run host = (.ok u, later) ↔
      host.authority.allows principal = true ∧
        { host with
          authority := { host.authority with
            checked := host.authority.checked ++ [principal] } } = later := by
  rw [Action.run, requireAuth]
  rcases hr : host.authority.require principal with fault | signed
  · have hn : ¬ host.authority.allows principal = true := by
      intro ha
      rw [require_eq_ok.mpr ⟨ha, rfl⟩] at hr
      cases hr
    exact ⟨fun h => (nomatch h), fun h => absurd h.1 hn⟩
  · obtain ⟨ha, rfl⟩ := require_eq_ok.mp hr
    rw [Prod.mk.injEq]
    exact ⟨fun h => ⟨ha, h.2⟩, fun h => ⟨rfl, h.2⟩⟩

/-- A transaction inside another one answers as its body does. -/
theorem transaction_eq_ok {body : Action σ α} {a : α} (hd : host.depth ≠ 0) :
    (transaction body).run host = (.ok a, later) ↔
      ∃ inner, body.run { host with depth := host.depth + 1 } = (.ok a, inner) ∧
        { inner with depth := inner.depth - 1 } = later := by
  rcases hr : body.run { host with depth := host.depth + 1 } with ⟨result, reached⟩
  simp only [Action.run, transaction, if_neg hd]
  simp only [Action.run] at hr
  simp only [hr, Prod.mk.injEq]
  constructor
  · rintro ⟨rfl, rfl⟩
    exact ⟨reached, ⟨rfl, rfl⟩, rfl⟩
  · rintro ⟨_, ⟨rfl, rfl⟩, rfl⟩
    exact ⟨rfl, rfl⟩

/-- The outermost transaction answers as its body does, and is committed. -/
theorem outermost_eq_ok {body : Action σ α} {a : α} (h0 : host.depth = 0) :
    (transaction body).run host = (.ok a, later) ↔
      ∃ inner, body.run { host with depth := 1 } = (.ok a, inner) ∧ committed inner = later := by
  rcases hr : body.run { host with depth := 1 } with ⟨failure | b, reached⟩ <;>
    simp only [Action.run] at hr <;>
    simp only [Action.run, transaction, if_pos h0, hr, Prod.mk.injEq]
  · constructor
    · rintro ⟨h, -⟩
      cases h
    · rintro ⟨_, ⟨h, -⟩, -⟩
      cases h
  · constructor
    · rintro ⟨h, rfl⟩
      exact ⟨reached, ⟨h, rfl⟩, rfl⟩
    · rintro ⟨_, ⟨h, rfl⟩, rfl⟩
      exact ⟨h, rfl⟩

end Host

end SealedPayroll
