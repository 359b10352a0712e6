import SealedPayroll.Proofs.Audit.Lifetime
import SealedPayroll.Proofs.Registry.Holdings

/-!
# Who grants a key

Where the audit part is wired to the registry, every stored key was granted by
the administrator of its company, and stands under an id of its own
(`Ledger.Granted`). A request names an administrator, who has to be the one on
record, and so does a revocation, who has to be the one who granted the key;
hence neither reaches a company whose administrator has not signed.
-/

namespace SealedPayroll

open SealedPayroll.Action (Footprint Keeps)
open SealedPayroll.Ledger (Confined Swept)

variable {σ α : Type} {host later : Host σ} {l k : Ledger} {d : Deployment σ}
  {request : ViewKeys.Request} {admin : Principal} {id : String}

-- ---------------------------------------------------------------------------
-- Who has signed
-- ---------------------------------------------------------------------------

namespace ViewKeys

/-- A granter who passes is the administrator on record. -/
theorem admin_of_checkGranter {company : Int} {u : Unit} (hd : d.auditSeesRegistry = true)
    (h : (checkGranter d company admin).run host = (.ok u, later)) :
    host.ledger.admin? company = some admin := by
  rw [checkGranter, if_pos hd] at h
  obtain ⟨found, _, h₁, h⟩ := Action.bind_eq_ok.mp h
  obtain ⟨hf, rfl⟩ := Action.expect_eq_ok.mp h₁
  split at h
  · rename_i same
    exact same ▸ Ledger.admin?_of_company hf
  · exact (Action.refuse_eq_ok.mp h).elim

/-- Whoever grants a key has signed, and is the administrator on record. -/
theorem signed_of_issue {key : ViewKey} (hd : d.auditSeesRegistry = true)
    (h : (issue d request).run host = (.ok key, later)) :
    host.authority.allows request.admin = true ∧
      host.ledger.admin? request.company = some request.admin := by
  simp only [issue] at h
  split at h
  · cases h
  · obtain ⟨inner, h, -⟩ := Host.of_transaction_ok h
    obtain ⟨_, _, h₁, h⟩ := Action.bind_eq_ok.mp h
    obtain ⟨signed, rfl⟩ := Host.requireAuth_eq_ok.mp h₁
    obtain ⟨_, _, h₂, -⟩ := Action.bind_eq_ok.mp h
    have onRecord := admin_of_checkGranter hd h₂
    exact ⟨signed, onRecord⟩

/-- Whoever revokes a key has signed, and has granted it. -/
theorem signed_of_revoke {u : Unit} (h : (revoke admin id).run host = (.ok u, later)) :
    host.authority.allows admin = true ∧
      ∃ key, stored? host.ledger id = some key ∧ key.grantedBy = admin := by
  obtain ⟨inner, h, -⟩ := Host.of_transaction_ok h
  obtain ⟨_, _, h₁, h⟩ := Action.bind_eq_ok.mp h
  obtain ⟨signed, rfl⟩ := Host.requireAuth_eq_ok.mp h₁
  obtain ⟨key, _, h₂, h⟩ := Action.bind_eq_ok.mp h
  obtain ⟨found, rfl⟩ := Action.expect_eq_ok.mp h₂
  split at h
  · rename_i granter
    exact ⟨signed, key, found, granter⟩
  · exact (Action.refuse_eq_ok.mp h).elim

end ViewKeys

-- ---------------------------------------------------------------------------
-- The invariant
-- ---------------------------------------------------------------------------

/-- A key that stands under its own id, and that the administrator of its company has granted. -/
structure ViewKey.Granted (l : Ledger) (id : String) (key : ViewKey) : Prop where
  own : key.id = id
  derived : key.Derived
  granter : l.admin? key.company = some key.grantedBy

namespace Ledger

def Granted (l : Ledger) : Prop :=
  ∀ id entry, l.viewKeys.get? id = some entry → entry.value.Granted l id

/-- Keys may go, but none comes. -/
def Shrinks (l k : Ledger) : Prop :=
  ∀ id entry, k.viewKeys.get? id = some entry → l.viewKeys.get? id = some entry

theorem Shrinks.of_same (h : k.viewKeys = l.viewKeys) : l.Shrinks k := by
  intro id entry held
  rwa [h] at held

theorem Shrinks.evict (l : Ledger) (timestamp sequence : Int) :
    l.Shrinks (l.evict timestamp sequence) := by
  intro id entry held
  simp only [Ledger.evict, Table.get?_filter] at held
  exact (Option.filter_eq_some_iff.mp held).1

theorem Shrinks.revoke (l : Ledger) (id : String) : l.Shrinks (l.revoke id) := by
  intro other entry held
  simp only [Ledger.revoke, Table.get?_erase] at held
  split at held
  · cases held
  · exact held

theorem Shrinks.chained : Chained Shrinks where
  refl _ _ _ held := held
  trans h₁ h₂ id entry held := h₁ id entry (h₂ id entry held)
  evict := Shrinks.evict

/-- What leaves the view keys alone sweeps them at most. -/
theorem Shrinks.besides {parts : List Ledger.Part} {action : Action σ α}
    (h : Footprint parts action) (hp : .viewKeys ∉ parts) : Keeps Shrinks action := by
  refine Shrinks.chained.footprint (fun part member f hw l => ?_) h
  exact .of_same (hw.agree (ne_of_mem_of_not_mem member hp).symm l)

namespace Granted

theorem empty : Ledger.empty.Granted := fun _ _ held => nomatch held

theorem of_shrinks (h : l.Granted) (shrinks : l.Shrinks k)
    (admins : ∀ id admin, l.admin? id = some admin → k.admin? id = some admin) : k.Granted := by
  intro id entry held
  obtain ⟨own, derived, granter⟩ := h id entry (shrinks id entry held)
  exact ⟨own, derived, admins _ _ granter⟩

theorem evict (h : l.Granted) (timestamp sequence : Int) : (l.evict timestamp sequence).Granted :=
  h.of_shrinks (Shrinks.evict l timestamp sequence) fun _ _ ha => ha

theorem grant (h : l.Granted) {key : ViewKey} (hk : key.Granted l key.id) :
    (l.grant key).Granted := by
  intro id entry held
  simp only [Ledger.grant, Table.get?_insert] at held
  split at held
  · rename_i same
    cases held
    subst same
    exact ⟨rfl, hk.derived, hk.granter⟩
  · obtain ⟨own, derived, granter⟩ := h id entry held
    exact ⟨own, derived, granter⟩

end Granted

end Ledger

/-- From a ledger with numbered companies and granted keys one of that kind is reached. -/
abbrev StaysGranted (l k : Ledger) : Prop :=
  l.Enumerated ∧ l.Granted → k.Enumerated ∧ k.Granted

theorem Affair.staysGranted {base : Deployment σ} (wired : base.auditSeesRegistry = true)
    {direct : Prop} {parts : List Ledger.Part} {action : Action σ α}
    (h : Affair base direct parts action) : Keeps StaysGranted action := by
  rintro host ⟨enumerated, granted⟩
  have succeeds := h.staysEnumerated host enumerated
  refine ⟨succeeds.enumerated, ?_⟩
  have footprint := h.footprint
  cases h with
  | @issue d request _ seen =>
    apply (ViewKeys.issue_failsEarly d request).holds_after granted
    intro key later hr
    obtain ⟨⟨id, made⟩, derived, -, swept⟩ := ViewKeys.of_issue_ok hr
    obtain ⟨-, onRecord⟩ := ViewKeys.signed_of_issue (seen.trans wired) hr
    have granter : host.ledger.admin? key.company = some key.grantedBy := by
      rw [made]
      exact onRecord
    exact Swept.imp swept (fun h => h.evict _ _) (granted.grant ⟨rfl, derived, granter⟩)
  | revoke admin id =>
    apply (ViewKeys.revoke_failsEarly admin id).holds_after granted
    intro _ later hr
    obtain ⟨-, swept⟩ := ViewKeys.of_revoke_ok hr
    apply Swept.imp swept fun h => h.evict _ _
    exact granted.of_shrinks (.revoke _ _) fun _ _ ha => ha
  | _ =>
    have shrinks := Ledger.Shrinks.besides footprint (by decide) host
    exact granted.of_shrinks shrinks succeeds.admins

theorem Reachable.granted {base : Deployment σ} (h : Reachable base d host)
    (wired : base.auditSeesRegistry = true) : host.ledger.Granted := by
  refine ((Regime.Reachable.of_public h).holds Regime.orderly_public
    (I := fun l => l.Enumerated ∧ l.Granted) ⟨.empty, .empty⟩ ?_ ?_).2
  · rintro l timestamp sequence ⟨enumerated, granted⟩
    exact ⟨enumerated.of_same rfl rfl, granted.evict timestamp sequence⟩
  · exact fun _ _ _ ha => ha.staysGranted wired

-- ---------------------------------------------------------------------------
-- Holdings
-- ---------------------------------------------------------------------------

/-- A key that is issued takes the place of no other company's key, unless their ids collide. -/
theorem ViewKeys.issue_heeds (hd : d.auditSeesRegistry = true) (granted : host.ledger.Granted)
    (apart : ∀ key later, (issue d request).run host = (.ok key, later) →
      ∀ id held, stored? host.ledger id = some held → held.Apart key) :
    host.Heeds ((issue d request).after host) := by
  refine .of_answers (issue_failsEarly d request) fun key later hr => ?_
  obtain ⟨⟨id, made⟩, derived, -, swept⟩ := of_issue_ok hr
  obtain ⟨signed, onRecord⟩ := signed_of_issue hd hr
  have own : key.company = request.company := by
    rw [made]
    rfl
  have confined : Confined host.clock request.company host.ledger (host.ledger.grant key) := by
    refine .grant own fun old held => ?_
    obtain ⟨same, before, -⟩ := granted key.id old held
    have collides : ViewKey.deriveId key.company key.auditor key.nonce =
        ViewKey.deriveId old.value.company old.value.auditor old.value.nonce := by
      rw [derived, before, same]
    have stored : stored? host.ledger key.id = some old.value := by rw [stored?, held]; rfl
    exact (apart key later hr key.id old.value stored collides).1.symm.trans own
  exact .of_confined (confined.swept swept) (Ledger.signed_of_record onRecord signed)

theorem ViewKeys.revoke_heeds (granted : host.ledger.Granted) (admin : Principal) (id : String) :
    host.Heeds ((revoke admin id).after host) := by
  refine .of_answers (revoke_failsEarly admin id) fun _ later hr => ?_
  obtain ⟨-, swept⟩ := of_revoke_ok hr
  obtain ⟨signed, key, stored, granter⟩ := signed_of_revoke hr
  obtain ⟨entry, held, rfl⟩ := Option.map_eq_some_iff.mp stored
  have confined : Confined host.clock entry.value.company host.ledger
      (host.ledger.revoke id) := by
    refine .revoke fun old ho => ?_
    cases held.symm.trans ho
    rfl
  have onRecord := (granted id entry held).granter
  exact .of_confined (confined.swept swept)
    (Ledger.signed_of_record onRecord (granter ▸ signed))

end SealedPayroll
