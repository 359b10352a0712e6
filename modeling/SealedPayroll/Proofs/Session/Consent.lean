import SealedPayroll.Proofs.Audit.Granted
import SealedPayroll.Proofs.Operation.Early
import SealedPayroll.Proofs.Payment.Spending

/-!
# No effect on a company without its administrator

A public call, whatever it is given and whoever else has signed, leaves alone
what a company holds as long as its administrator has not signed. Each part
asks for that signature in its own way: the registry and settlements ask the
administrator on record, the audit part asks whoever is named and compares.
Registry and commitment store have to be in step for this, since otherwise an
operation of one company could reach a record of another.
-/

namespace SealedPayroll

open SealedPayroll.Action (Quiet)

variable {σ : Type} {base d : Deployment σ} {host later : Host σ} {past : List StaffEvent}

-- ---------------------------------------------------------------------------
-- Parts that no company holds anything of
-- ---------------------------------------------------------------------------

theorem Verifier.setKey_heeds (key : VerificationKey) (host : Host σ) :
    host.Heeds ((setKey key).after host) := by
  refine .of_answers (setKey_failsEarly key) fun _ later hr => ?_
  exact .of_aside (of_setKey_ok hr).2 fun _ => rfl

theorem Nullifiers.use_heeds (value : Bytes) (host : Host σ) :
    host.Heeds ((use value).after host) := by
  rcases hr : (use value).run host with ⟨failure | usage, later⟩ <;> rw [Action.after, hr]
  · exact .of_same (of_use_error hr)
  · obtain ⟨-, -, -, -, swept⟩ := use_swept hr
    exact .of_aside swept fun _ => rfl

theorem Tokens.mint_heeds (minter : Option Principal) (recipient : Principal) (amount : Int)
    (host : Host σ) : host.Heeds ((mint minter recipient amount).after host) := by
  refine .of_answers (mint_failsEarly minter recipient amount) fun _ later hr => ?_
  obtain ⟨-, -, swept⟩ := of_mint_ok hr
  exact .of_aside swept fun _ => rfl

theorem Tokens.transfer_heeds (sender recipient : Principal) (amount : Int) (host : Host σ) :
    host.Heeds ((transfer sender recipient amount).after host) := by
  refine .of_answers (transfer_failsEarly sender recipient amount) fun _ later hr => ?_
  obtain ⟨-, -, -, swept⟩ := of_transfer_ok hr
  exact .of_aside swept fun _ => rfl

-- ---------------------------------------------------------------------------
-- Call by call
-- ---------------------------------------------------------------------------

theorem RegistryCall.heeds (enumerated : host.ledger.Enumerated)
    (inStep : InStep past host.ledger) (call : RegistryCall) :
    host.Heeds (call.run.after host) := by
  have numbered := enumerated.numbered
  cases call with
  | register => exact .map (Registry.register_heeds enumerated _ _) _
  | enrol => exact .map (Registry.enrol_heeds numbered inStep _ _ _) _
  | release => exact .map (Registry.release_heeds numbered inStep _ _) _
  | updateCommitment => exact .map (Registry.updateCommitment_heeds inStep _ _ _) _
  | recordPayment => exact .map (Registry.recordPayment_heeds _ _ _ host) _
  | getCompany => exact .of_quiet (.map (.expect _ _) _)
  | getEmployee => exact .of_quiet (.map (.expect _ _) _)
  | _ => exact .of_quiet (.read _)

theorem VerifierCall.heeds (d : Deployment σ) (call : VerifierCall) (host : Host σ) :
    host.Heeds ((call.run d).after host) := by
  cases call with
  | setKey => exact .map (Verifier.setKey_heeds _ host) _
  | hasKey => exact .of_quiet (.read _)
  | verify => exact .of_quiet (.map (Verifier.verify_quiet _ _ _) _)
  | verifyPayment => exact .of_quiet (.map (Verifier.verify_quiet _ _ _) _)
  | verifyRange => exact .of_quiet (.map (Verifier.verifyRange_quiet _ _ _ _ _) _)
  | verifyBatch => exact .of_quiet (.map (Verifier.verifyBatch_quiet _ _ _ _ _) _)

theorem PaymentCall.heeds (ht : d.tokens = .plain) (numbered : host.ledger.Numbered)
    (call : PaymentCall) : host.Heeds ((call.run d).after host) := by
  rcases call.after_cases d host with ⟨batch, same⟩ | quiet
  · rw [same]
    exact Payroll.payBatch_heeds ht numbered batch
  · exact .of_quiet quiet

/-- No stored key has the id of a key that the call issues, unless the two are for the same company
and auditor and have the same number. -/
def Call.Apart (d : Deployment σ) (host : Host σ) (call : Call) : Prop :=
  ∀ request key later, call = .audit (.issue request) →
    (ViewKeys.issue d request).run host = (.ok key, later) →
      ∀ id held, ViewKeys.stored? host.ledger id = some held → held.Apart key

theorem AuditCall.heeds (wired : d.auditSeesRegistry = true) (granted : host.ledger.Granted)
    (call : AuditCall) (apart : Call.Apart d host (.audit call)) :
    host.Heeds ((call.run d).after host) := by
  cases call with
  | issue request =>
    apply Host.Heeds.map
    exact ViewKeys.issue_heeds wired granted fun key later => apart request key later rfl
  | revoke => exact .map (ViewKeys.revoke_heeds granted _ _) _
  | get => exact .of_quiet (.map (.expect _ _) _)
  | verifyCommitment =>
    exact .of_quiet (.map (Disclosure.verifyCommitment_quiet _ _ _ _ _ _ _) _)
  | verifyEmployee => exact .of_quiet (.map (Disclosure.verifyEmployee_quiet _ _ _ _ _ _) _)
  | report => exact .of_quiet (.map (Disclosure.report_quiet _ _ _ _ _) _)
  | _ => exact .of_quiet (.read _)

/-- Wherever a run is that does not write to the commitment store past the registry, a call over
the plain token ledger leaves alone what a company holds whose administrator has not signed. Where
the call issues a view key, `apart` assumes that SHA-256 does not collide on the preimages of the
new key's id and of the id of a stored key. -/
theorem Regime.Reachable.unsigned_untouched (h : Regime.Reachable Mediated base d host)
    (wired : base.auditSeesRegistry = true) (ht : d.tokens = .plain) (call : Call)
    (mediated : call.bypasses = false) (apart : call.Apart d host) {id : Int} {company : Company}
    (stored : host.ledger.companies.get? id = some company)
    (unsigned : host.authority.allows company.admin = false) :
    ((call.run d).after host).ledger.holdings host.clock id =
      host.ledger.holdings host.clock id := by
  suffices heeds : host.Heeds ((call.run d).after host) from heeds id company stored unsigned
  have reached := h.public fun _ _ _ => Mediated.public
  have enumerated := reached.enumerated
  cases call with
  | registry call =>
    obtain ⟨past, inStep⟩ := h.exists_inStep
    exact call.heeds enumerated inStep
  | commitments call => exact .of_quiet (CommitmentCall.quiet mediated)
  | nullifiers call =>
    cases call with
    | use => exact .map (Nullifiers.use_heeds _ host) _
    | _ => exact .of_quiet (.read _)
  | verifier call => exact call.heeds d host
  | tokens call =>
    cases call with
    | mint => exact .map (Tokens.mint_heeds _ _ _ host) _
    | balance => exact .of_quiet (.map (.read _) _)
    | transfer =>
      simp only [Call.run, TokenCall.run, ht]
      exact .map (Tokens.transfer_heeds _ _ _ host) _
  | payments call => exact call.heeds ht enumerated.numbered
  | audit call =>
    have conforms := (Regime.Reentrant.of_public reached.reentrant).conforms orderly_public
    exact call.heeds (conforms.audit.trans wired) (reached.granted wired) apart

namespace Sample

/-- Registers a second company and lends a key for the first one. From then on only the
administrator of the second signs. -/
def handingOver : Action Unit Unit := do
  let _ ← Call.run deployment (.registry (.register "boss" "vault"))
  let _ ← Call.run deployment (.audit (.issue asked))
  let _ ← SignatureCall.run (.setEveryone false)
  let _ ← SignatureCall.run (.authorize ["boss"])

def handedOver : Host Unit := handingOver.after staffed

theorem handedOver_mediated : Regime.Reachable Mediated deployment deployment handedOver := by
  have program : Action.Built (Mediated deployment) handingOver :=
    .bind (.base (.call _ rfl)) fun _ => .bind (.base (.call _ rfl)) fun _ =>
      .bind (.base (.aside (.signature _) (.quiet (SignatureCall.quiet _)))) fun _ =>
        .bind (.base (.aside (.signature _) (.quiet (SignatureCall.quiet _)))) fun _ => .pure _
  exact staffed_mediated.passes (.ran program (.here _ _))

/-- The same auditor is to have a key for the second company. -/
def lendingMore : Call := .audit (.issue { asked with company := 1, admin := "boss" })

theorem lendingMore_apart : lendingMore.Apart deployment handedOver := by
  intro request key later hc hr id held hs same
  cases hc
  obtain ⟨⟨_, rfl⟩, -, -, -⟩ := ViewKeys.of_issue_ok hr
  have keyring : handedOver.ledger.viewKeys.values.map (·.value) = [lent] := by decide +kernel
  have stored : held ∈ handedOver.ledger.viewKeys.values.map (·.value) := by
    obtain ⟨entry, found, rfl⟩ := Option.map_eq_some_iff.mp hs
    exact List.mem_map_of_mem (Table.mem_values_iff.mpr ⟨id, found⟩)
  rw [keyring, List.mem_singleton] at stored
  subst stored
  have distinct : (ViewKey.deriveId 1 "auditor" (0 : Nat)).toOption ≠
      (ViewKey.deriveId 0 "auditor" (0 : Nat)).toOption := by decide +kernel
  have first : handedOver.ledger.keyCounter 1 "auditor" = 0 := by decide +kernel
  simp only [lent, asked, ViewKeys.Request.key, first] at same
  exact (distinct (congrArg Except.toOption same)).elim

/-- A key is issued for the second company, and the first one keeps what it has. -/
theorem handedOver_untouched :
    let later := (lendingMore.run deployment).after handedOver
    later.ledger.keyCounter 1 "auditor" = 1 ∧
      later.ledger.holdings handedOver.clock 0 = handedOver.ledger.holdings handedOver.clock 0 := by
  have stored : handedOver.ledger.companies.get? 0 = some company := by decide +kernel
  refine ⟨by decide +kernel, ?_⟩
  exact handedOver_mediated.unsigned_untouched rfl rfl lendingMore rfl lendingMore_apart stored
    (by decide +kernel)

end Sample

end SealedPayroll
