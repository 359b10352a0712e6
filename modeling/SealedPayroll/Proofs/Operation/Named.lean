import SealedPayroll.Proofs.Session.Upheld

/-!
# Nobody without a name is employed

A binding is stored under the empty name in no host that a run can be in
(`Reachable.named`). The record of a new binding cannot be built without a
name; later changes look the binding up first. Commitments can be stored for
the empty name all the same, since the commitment store is open to anyone.
-/

namespace SealedPayroll

open SealedPayroll.Action (Footprint Keeps)

variable {σ : Type}

/-- No binding is stored under the empty name. -/
def Ledger.Named (l : Ledger) : Prop := l.bindings.get? "" = none

def Names (l k : Ledger) : Prop := l.Named → k.Named

theorem Names.chained : Chained Names where
  refl _ h := h
  trans h₁ h₂ h := h₂ (h₁ h)
  evict _ _ _ h := h

theorem Names.of_footprint {α : Type} {parts : List Ledger.Part} {action : Action σ α}
    (h : Footprint parts action) (hp : .bindings ∉ parts) : Keeps Names action := by
  intro host hl
  unfold Ledger.Named
  rw [h.agree .bindings hp rfl host]
  exact hl

theorem Names.of_binding {name : Principal} (hn : name ≠ "") (binding : Binding) :
    Keeps Names (Registry.putBinding name binding : Action σ Unit) := by
  intro host hl
  exact (Table.get?_insert ..).trans (by rw [if_neg hn, hl])

/-- What comes after an employee was found need not be looked at for the empty name. -/
theorem Names.of_employee {α : Type} (company : Int) (name : Principal)
    {next : Binding → Action σ α} (hn : name ≠ "" → ∀ binding, Keeps Names (next binding)) :
    Keeps Names (Registry.employee company name >>= next) := by
  by_cases he : name = ""
  · subst he
    intro host hl
    have missing : (Registry.employee company "").run host =
        (.error ⟨.payroll (.employeeNotFound "" (some company)), false⟩, host) := by
      simp [Registry.employee, Action.run_expect, Registry.employed?, show _ = _ from hl]
    rw [Action.after_bind_error missing]
    exact hl
  · exact chained.bind (chained.quiet (.expect _ _)) (hn he)

namespace Registry

theorem enrol_names (company : Int) (name : Principal) (commitment : Bytes) :
    Keeps Names (enrol company name commitment : Action σ Binding) := by
  have chained := Names.chained
  refine chained.transaction <| chained.bind (chained.quiet (administered_quiet _)) fun _ =>
    chained.bind (chained.quiet (.read _)) fun existing => ?_
  split
  · exact chained.quiet (.refuse _)
  · refine chained.bind (chained.quiet (.read _)) fun now => ?_
    rw [Action.bind_build]
    split
    · rename_i binding hb
      have named : name ≠ "" := (Binding.make_eq_valid.mp hb).1.1
      exact chained.bind (.of_binding named _) fun _ =>
        chained.bind (.of_footprint (CommitmentStore.store_footprint _ _ _) (by decide)) fun _ =>
          chained.bind (.of_footprint (.write (.company _) (List.mem_singleton.mpr rfl))
            (by decide)) fun _ => chained.quiet (.pure _)
    · exact chained.quiet (.raise _)

theorem release_names (company : Int) (name : Principal) :
    Keeps Names (release company name : Action σ Unit) := by
  have chained := Names.chained
  refine chained.transaction <| chained.bind (chained.quiet (administered_quiet _)) fun _ =>
    chained.bind (chained.quiet (.expect _ _)) fun _ =>
      chained.bind (fun host hl => ?erased) fun _ =>
      chained.bind (.of_footprint (CommitmentStore.remove_footprint _) (by decide)) fun _ =>
        .of_footprint (.write (.company _) (List.mem_singleton.mpr rfl)) (by decide)
  refine (Table.get?_erase ..).trans ?_
  split
  · rfl
  · exact hl

theorem updateCommitment_names (company : Int) (name : Principal) (commitment : Bytes) :
    Keeps Names (updateCommitment company name commitment : Action σ CommitmentRecord) := by
  have chained := Names.chained
  exact chained.transaction <| chained.bind (chained.quiet (administered_quiet _)) fun _ =>
    .of_employee _ _ fun hn _ => chained.bind (chained.quiet (.build _ _)) fun _ =>
      chained.bind (.of_binding hn _) fun _ =>
        .of_footprint (CommitmentStore.update_footprint _ _) (by decide)

theorem recordPayment_names (company : Int) (name : Principal) (timestamp : Int) :
    Keeps Names (recordPayment company name timestamp : Action σ Binding) := by
  have chained := Names.chained
  exact chained.transaction <| chained.bind (chained.quiet (administered_quiet _)) fun _ =>
    .of_employee _ _ fun hn _ => chained.bind (.of_binding hn _) fun _ => chained.quiet (.pure _)

end Registry

theorem Payroll.enter_names (company : Company) (period : Int) (entry : Entry) :
    Keeps Names (enter company period entry : Action σ PaymentRecord) := by
  have chained := Names.chained
  refine chained.bind (.of_footprint (Nullifiers.use_footprint _) (by decide)) fun _ =>
    chained.bind (chained.quiet (.read _)) fun paid => ?_
  split
  · exact chained.quiet (.refuse _)
  · exact chained.bind (chained.quiet (.read _)) fun _ => chained.bind (chained.quiet (.build _ _))
      fun _ => chained.bind (.of_footprint (.write (.payment _ _ _) (List.mem_singleton.mpr rfl))
        (by decide)) fun _ => chained.bind
          (.of_footprint (.write (.total _ _) (List.mem_singleton.mpr rfl)) (by decide)) fun _ =>
            chained.bind (Registry.recordPayment_names _ _ _) fun _ => chained.quiet (.pure _)

theorem Operation.names {α : Type} {action : Action σ α} (h : Operation action) :
    Keeps Names action := by
  cases h with
  | quiet hq => exact Names.chained.quiet hq
  | publish topics data => exact fun host hl => hl
  | evict => exact fun host hl => hl
  | foreign => exact fun host hl => hl
  | unforeign => exact fun host hl => hl
  | foreignExpiring f => exact fun host hl => hl
  | register => exact .of_footprint (Registry.register_footprint _ _) (by decide)
  | enrol => exact Registry.enrol_names _ _ _
  | release => exact Registry.release_names _ _
  | updateCommitment => exact Registry.updateCommitment_names _ _ _
  | recordPayment => exact Registry.recordPayment_names _ _ _
  | store => exact .of_footprint (CommitmentStore.store_footprint _ _ _) (by decide)
  | update => exact .of_footprint (CommitmentStore.update_footprint _ _) (by decide)
  | updateAll => exact .of_footprint (CommitmentStore.updateAll_footprint _) (by decide)
  | remove => exact .of_footprint (CommitmentStore.remove_footprint _) (by decide)
  | setKey => exact .of_footprint (Verifier.setKey_footprint _) (by decide)
  | mint => exact .of_footprint (Tokens.mint_footprint _ _ _) (by decide)
  | transfer => exact .of_footprint (Tokens.transfer_footprint _ _ _) (by decide)
  | issue => exact .of_footprint (ViewKeys.issue_footprint _ _) (by decide)
  | revoke => exact .of_footprint (ViewKeys.revoke_footprint _ _) (by decide)
  | use => exact .of_footprint (Nullifiers.use_footprint _) (by decide)
  | enter => exact Payroll.enter_names _ _ _

theorem Names.respected : Respected σ Names where
  refl := chained.refl
  trans := chained.trans
  evict := chained.evict
  operation _ h := h.names

theorem Reachable.named {base d : Deployment σ} {host : Host σ} (h : Reachable base d host) :
    host.ledger.Named :=
  h.respected Names.respected rfl

end SealedPayroll
