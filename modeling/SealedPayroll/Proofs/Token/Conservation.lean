import SealedPayroll.Proofs.Payment.Spending
import SealedPayroll.Proofs.Token.Supply

/-!
# Conservation of tokens

What a run does to the balances as a whole: nobody ever owes anything, and the
supply grows by what is minted and by nothing else, wherever callbacks or
failures leave the run. Over the plain token ledger this can be said of each
call by itself, and then nobody loses tokens either who has not signed.
-/

namespace SealedPayroll

open SealedPayroll.Action (Footprint)

variable {σ : Type} {base d : Deployment σ} {host later : Host σ}

-- ---------------------------------------------------------------------------
-- Call by call
-- ---------------------------------------------------------------------------

/-- What a call mints, given how it came out. -/
def Call.mints (call : Call) (host : Host σ) (result : Except Failure Answer) : List Mint :=
  match call with
  | .tokens (.mint recipient amount) =>
    if result.isOk then [⟨recipient, amount, host.authority⟩] else []
  | _ => []

/-- Tokens are minted, if at all, and nobody loses any who has not signed. -/
structure Conserved (minter : Option Principal) (host : Host σ) (mints : List Mint)
    (later : Host σ) : Prop where
  backed : Backed minter host.ledger.supply mints later.ledger
  spared : ∀ holder, host.authority.allows holder = false →
    host.ledger.balance holder ≤ later.ledger.balance holder

namespace Conserved

variable {minter : Option Principal}

theorem of_same (h : later.ledger.balances = host.ledger.balances) :
    Conserved minter host [] later where
  backed := (Backed.start _ _).of_supply (congrArg (·.values.sum) h)
  spared holder _ := Int.le_of_eq (by rw [Ledger.balance, Ledger.balance, h])

theorem of_footprint {parts : List Ledger.Part} {α : Type} {action : Action σ α}
    (h : Footprint parts action) (hb : .balances ∉ parts) :
    Conserved minter host [] (action.after host) :=
  .of_same (h.agree .balances hb rfl host)

theorem of_quiet {α : Type} {action : Action σ α} (h : Action.Quiet action) :
    Conserved minter host [] (action.after host) :=
  .of_footprint (.quiet h) List.not_mem_nil

theorem mint {recipient : Principal} {amount : Int} {result : Except Failure Unit}
    (hr : (Tokens.mint minter recipient amount).run host = (result, later)) :
    Conserved minter host (if result.isOk then [⟨recipient, amount, host.authority⟩] else [])
      later := by
  cases result with
  | error failure =>
    apply Conserved.of_same
    rw [(Tokens.mint_failsEarly _ _ _).ledger hr]
  | ok =>
    refine ⟨(Backed.start _ _).of_mint_ok hr, fun holder _ => ?_⟩
    obtain ⟨positive, -, swept⟩ := Tokens.of_mint_ok hr
    refine swept.imp (I := fun l => host.ledger.balance holder ≤ l.balance holder) (fun h => h) ?_
    rw [Ledger.balance_fund]
    split <;> omega

theorem transfer (sender recipient : Principal) (amount : Int) :
    Conserved minter host [] ((Tokens.transfer sender recipient amount).after host) := by
  refine ⟨(Backed.start _ _).of_supply (SameSupply.transfer _ _ _ host), fun holder unsigned => ?_⟩
  rcases hr : (Tokens.transfer sender recipient amount).run host with ⟨failure | _, later⟩ <;>
    rw [Action.after, hr]
  · exact Int.le_of_eq (by rw [(Tokens.transfer_failsEarly _ _ _).ledger hr])
  · obtain ⟨positive, signed, -, swept⟩ := Tokens.of_transfer_ok hr
    refine swept.imp (I := fun l => host.ledger.balance holder ≤ l.balance holder) (fun h => h) ?_
    have other : sender ≠ holder := by
      rintro rfl
      cases unsigned.symm.trans signed
    rw [Ledger.balance_move, if_neg other]
    split <;> omega

theorem payBatch (ht : d.tokens = .plain) (numbered : host.ledger.Numbered)
    (batch : Payroll.Batch) :
    Conserved minter host [] ((Payroll.payBatch d batch).after host) := by
  have same : SameSupply host.ledger ((Payroll.payBatch d batch).after host).ledger :=
    SameSupply.chained.built (fun _ _ h => h) ((SameSupply.settles ht).payBatch batch) host
  exact ⟨(Backed.start _ _).of_supply same, fun _ => Payroll.payBatch_funds ht numbered batch⟩

end Conserved

theorem PaymentCall.conserved {minter : Option Principal} (ht : d.tokens = .plain)
    (numbered : host.ledger.Numbered) (call : PaymentCall) :
    Conserved minter host [] ((call.run d).after host) := by
  rcases call.after_cases d host with ⟨batch, same⟩ | quiet
  · rw [same]
    exact .payBatch ht numbered batch
  · exact .of_quiet quiet

theorem Call.conserved (ht : d.tokens = .plain) (numbered : host.ledger.Numbered) (call : Call)
    {result : Except Failure Answer} (hr : (call.run d).run host = (result, later)) :
    Conserved d.minter host (call.mints host result) later := by
  obtain rfl : (call.run d).after host = later := by rw [Action.after, hr]
  cases call with
  | registry call => exact .of_footprint call.footprint (by decide)
  | commitments call => exact .of_footprint (call.footprint d) (by decide)
  | nullifiers call =>
    cases call with
    | use => exact .of_footprint (.map (Nullifiers.use_footprint _) _) (by decide)
    | _ => exact .of_quiet (.read _)
  | verifier call => exact .of_footprint (call.footprint d) (by decide)
  | tokens call =>
    cases call with
    | mint =>
      cases result with
      | error failure => exact .mint (Action.map_eq_error.mp hr)
      | ok answer =>
        obtain ⟨_, minted, -⟩ := Action.map_eq_ok.mp hr
        exact .mint minted
    | balance => exact .of_quiet (.map (.read _) _)
    | transfer =>
      simp only [Call.run, TokenCall.run, ht, Action.after_map]
      exact .transfer _ _ _
  | payments call => exact call.conserved ht numbered
  | audit call => exact .of_footprint (call.footprint d) (by decide)

-- ---------------------------------------------------------------------------
-- Runs
-- ---------------------------------------------------------------------------

/-- Wherever a run is, nobody has less than nothing. From there on the supply grows by what the
run mints, for which whoever has to sign has signed, and by nothing else. Over the plain token
ledger that goes for every call by itself, which takes tokens only from those who have signed. -/
theorem Reachable.conserves (h : Reachable base d host) :
    (∀ holder, 0 ≤ host.ledger.balance holder) ∧
      (∀ e reached, Passes base d host e reached →
        (∃ mints, Recounts (TokenTold base) host mints reached) ∧
          ∀ mints, Recounts (TokenTold base) host mints reached →
            Backed base.minter host.ledger.supply mints reached.ledger) ∧
      (d.tokens = .plain → ∀ (call : Call) result later,
        (call.run d).run host = (result, later) →
          Conserved d.minter host (call.mints host result) later) := by
  have solvent : host.ledger.Solvent :=
    (Regime.Reachable.of_public h).holds Regime.orderly_public Ledger.Solvent.empty
      (fun _ _ _ h => h) fun _ _ _ affair => affair.staysSolvent
  refine ⟨solvent, ?_, fun ht call result later => call.conserved ht h.numbered⟩
  refine fun e reached hp => ⟨?_, fun mints history => ?_⟩
  · have passes := Regime.Passes.of_public hp
    obtain ⟨-, led⟩ := passes.leads Regime.orderly_public (Regime.Reentrant.of_public h.reentrant)
    exact led.recounts fun _ _ ⟨_, affair⟩ => affair.tokenTold
  · exact history.bears (TokenTold.bears base host.ledger.supply) (.start _ _)

namespace Sample

/-- Pays the treasury from itself, mints in a transaction that fails, and then once more. -/
def minting : Action Unit Unit := do
  let mint (amount : Int) : Action Unit Answer :=
    Call.run deployment (.tokens (.mint "treasury" amount))
  let _ ← Call.run deployment (.tokens (.transfer "treasury" "treasury" 40))
  let _ ← (Host.transaction do
    let _ ← mint 7
    Action.raise (.interrupted "boom") : Action Unit Unit).outcome
  let _ ← mint 5

/-- The history of the run has minted 5. -/
theorem minting_conserves :
    ∃ mints, Recounts (TokenTold deployment) staffed mints (minting.after staffed) ∧
      Mint.total mints = 5 := by
  have program : Program deployment minting :=
    .bind (.base (.call _)) fun _ =>
      .bind (.outcome (.transaction (.bind (.base (.call _)) fun _ => .base (.raise _)))) fun _ =>
        .bind (.base (.call _)) fun _ => .pure _
  obtain ⟨-, runs, -⟩ := staffed_reachable.conserves
  obtain ⟨⟨mints, history⟩, backed⟩ := runs _ _ (.ran program (.here _ _))
  have grown : (minting.after staffed).ledger.supply = staffed.ledger.supply + 5 := by
    decide +kernel
  have supply := (backed mints history).supply
  exact ⟨mints, history, by omega⟩

end Sample

end SealedPayroll
