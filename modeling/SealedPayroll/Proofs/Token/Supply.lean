import SealedPayroll.Proofs.Session.Regime
import SealedPayroll.Proofs.Token.Effects

/-!
# The supply of tokens

Minting adds its amount to what the balances add up to, and a transfer moves
an amount without changing the sum, whoever sends it to whom. Neither makes a
balance negative. What a run mints is its history as far as tokens go
(`TokenTold`), and the supply is what was there before and that.
-/

namespace SealedPayroll

open SealedPayroll.Action (Footprint Keeps Telling)

variable {σ : Type} {l k : Ledger}

-- ---------------------------------------------------------------------------
-- Sums over a table
-- ---------------------------------------------------------------------------

namespace Table

variable {κ : Type} [DecidableEq κ]

theorem sum_put (key : κ) (value : Int) (entries : List (κ × Int)) :
    ((put key value entries).map Prod.snd).sum =
      (entries.map Prod.snd).sum - (find key entries).getD 0 + value := by
  induction entries with
  | nil => simp [put, find]
  | cons entry rest ih =>
    by_cases h : entry.1 = key
    · simp only [put, find, if_pos h, List.map_cons, List.sum_cons, Option.getD_some]
      omega
    · simp only [put, find, if_neg h, List.map_cons, List.sum_cons, ih]
      omega

theorem sum_insert (table : Table κ Int) (key : κ) (value : Int) :
    (table.insert key value).values.sum =
      table.values.sum - (table.get? key).getD 0 + value :=
  sum_put key value table.entries

end Table

namespace Ledger

/-- What all balances add up to. -/
def supply (l : Ledger) : Int := l.balances.values.sum

theorem supply_fund (l : Ledger) (holder : Principal) (amount : Int) :
    (l.fund holder amount).supply = l.supply + amount := by
  simp only [supply, fund, putBalance, Table.sum_insert, balance]
  omega

theorem supply_move (l : Ledger) (sender recipient : Principal) (amount : Int) :
    (l.move sender recipient amount).supply = l.supply := by
  rw [move_eq, supply_fund, supply_fund]
  omega

/-- Nobody has less than nothing. -/
def Solvent (l : Ledger) : Prop := ∀ holder, 0 ≤ l.balance holder

theorem Solvent.empty : Ledger.empty.Solvent := fun _ => Int.le_refl 0

theorem Solvent.of_same (h : l.Solvent) (hb : k.balances = l.balances) : k.Solvent := by
  intro holder
  rw [balance, hb]
  exact h holder

theorem Solvent.fund (h : l.Solvent) (holder : Principal) {amount : Int} (ha : 0 < amount) :
    (l.fund holder amount).Solvent := by
  intro other
  have held := h other
  rw [balance_fund]
  split <;> omega

theorem Solvent.move (h : l.Solvent) {sender : Principal} (recipient : Principal) {amount : Int}
    (ha : 0 < amount) (covered : amount ≤ l.balance sender) :
    (l.move sender recipient amount).Solvent := by
  intro other
  have held := h other
  rw [balance_move]
  split <;> split
  · omega
  · omega
  · rename_i hs
    subst hs
    omega
  · omega

end Ledger

-- ---------------------------------------------------------------------------
-- What transfers and everything besides keep
-- ---------------------------------------------------------------------------

/-- What the balances add up to stays as it is. -/
def SameSupply (l k : Ledger) : Prop := k.supply = l.supply

namespace SameSupply

theorem chained : Chained SameSupply where
  refl _ := rfl
  trans h₁ h₂ := h₂.trans h₁
  evict _ _ _ := rfl

theorem besides {parts : List Ledger.Part} {α : Type} {action : Action σ α}
    (h : Footprint parts action) (hb : .balances ∉ parts) : Keeps SameSupply action := by
  intro host
  exact congrArg (·.values.sum) (h.agree .balances hb rfl host)

/-- It does so whoever the parties are, and whether they are two or one. -/
theorem transfer (sender recipient : Principal) (amount : Int) :
    Keeps SameSupply (Tokens.transfer sender recipient amount : Action σ Unit) := by
  intro host
  apply (Tokens.transfer_failsEarly sender recipient amount).holds_after (chained.refl _)
  intro _ later hr
  obtain ⟨-, -, -, swept⟩ := Tokens.of_transfer_ok hr
  exact swept.imp (fun h => h) (host.ledger.supply_move _ _ _)

theorem settles {d : Deployment σ} (ht : d.tokens = .plain) :
    Payroll.Settles (fun _ action => Keeps SameSupply action) d where
  quiet hq := chained.quiet hq
  publish _ _ := besides (.base (.publish _ _)) List.not_mem_nil
  enter _ _ _ := besides (Payroll.enter_footprint _ _ _) (by decide)
  transfer sender recipient amount := by
    rw [ht]
    exact .base (transfer sender recipient amount)

end SameSupply

-- ---------------------------------------------------------------------------
-- Balances
-- ---------------------------------------------------------------------------

/-- From a ledger without debts one without debts is reached. -/
abbrev StaysSolvent (l k : Ledger) : Prop := l.Solvent → k.Solvent

theorem Affair.staysSolvent {base : Deployment σ} {direct : Prop} {parts : List Ledger.Part}
    {α : Type} {action : Action σ α} (h : Affair base direct parts action) :
    Keeps StaysSolvent action := by
  intro host solvent
  have footprint := h.footprint
  cases h with
  | mint recipient amount =>
    apply (Tokens.mint_failsEarly base.minter recipient amount).holds_after solvent
    intro _ later hr
    obtain ⟨positive, -, swept⟩ := Tokens.of_mint_ok hr
    exact swept.imp (fun h => h) (solvent.fund recipient positive)
  | transfer sender recipient amount =>
    apply (Tokens.transfer_failsEarly sender recipient amount).holds_after solvent
    intro _ later hr
    obtain ⟨positive, -, covered, swept⟩ := Tokens.of_transfer_ok hr
    exact swept.imp (fun h => h) (solvent.move recipient positive covered)
  | _ => exact solvent.of_same (footprint.agree .balances (by decide) rfl host)

-- ---------------------------------------------------------------------------
-- Histories
-- ---------------------------------------------------------------------------

/-- Tokens that were minted, and who had signed. -/
structure Mint where
  recipient : Principal
  amount : Int
  authority : Authority

namespace Mint

/-- What was minted altogether. -/
def total (mints : List Mint) : Int := (mints.map (·.amount)).sum

@[simp] theorem total_append (before : List Mint) (mint : Mint) :
    total (before ++ [mint]) = total before + mint.amount := by
  simp [total]

/-- A mint of something, signed by whoever has to sign. -/
structure Lawful (minter : Option Principal) (mint : Mint) : Prop where
  positive : 0 < mint.amount
  signed : ∀ admin, minter = some admin → mint.authority.allows admin = true

end Mint

/-- What affairs tell of tokens: a mint that is answered. -/
inductive TokenTold (base : Deployment σ) : ⦃α : Type⦄ → Action σ α → Host σ → List Mint → Prop
  | besides {α : Type} {action : Action σ α} {host : Host σ} {parts : List Ledger.Part} :
      Footprint parts action → .balances ∉ parts → TokenTold base action host []
  | minted {recipient : Principal} {amount : Int} {host later : Host σ} :
      (Tokens.mint base.minter recipient amount).run host = (.ok (), later) →
      TokenTold base (Tokens.mint base.minter recipient amount) host
        [⟨recipient, amount, host.authority⟩]
  | unminted {recipient : Principal} {amount : Int} {host later : Host σ} {failure : Failure} :
      (Tokens.mint base.minter recipient amount).run host = (.error failure, later) →
      TokenTold base (Tokens.mint base.minter recipient amount) host []
  | transferred (sender recipient : Principal) (amount : Int) (host : Host σ) :
      TokenTold base (Tokens.transfer sender recipient amount) host []

theorem Affair.tokenTold {base : Deployment σ} {direct : Prop} {parts : List Ledger.Part}
    {α : Type} {action : Action σ α} (h : Affair base direct parts action) (host : Host σ) :
    ∃ events, TokenTold base action host events := by
  have footprint := h.footprint
  cases h with
  | mint recipient amount =>
    rcases hr : (Tokens.mint base.minter recipient amount).run host with ⟨failure | ⟨⟩, later⟩
    · exact ⟨[], .unminted hr⟩
    · exact ⟨_, .minted hr⟩
  | transfer => exact ⟨[], .transferred _ _ _ _⟩
  | _ => exact ⟨[], .besides footprint (by decide)⟩

/-- The supply is what there was at first and what was minted since, lawfully. -/
structure Backed (minter : Option Principal) (first : Int) (past : List Mint) (l : Ledger) :
    Prop where
  lawful : ∀ mint ∈ past, mint.Lawful minter
  supply : l.supply = first + Mint.total past

namespace Backed

variable {minter : Option Principal} {first : Int} {past : List Mint}

theorem start (minter : Option Principal) (l : Ledger) : Backed minter l.supply [] l :=
  ⟨nofun, (Int.add_zero _).symm⟩

theorem of_supply (h : Backed minter first past l) (hs : k.supply = l.supply) :
    Backed minter first past k :=
  ⟨h.lawful, hs.trans h.supply⟩

theorem mint (h : Backed minter first past l) {mint : Mint} (lawful : mint.Lawful minter)
    (hs : k.supply = l.supply + mint.amount) : Backed minter first (past ++ [mint]) k := by
  constructor
  · intro other ho
    rcases List.mem_append.mp ho with ho | ho
    · exact h.lawful other ho
    · cases List.mem_singleton.mp ho
      exact lawful
  · rw [hs, h.supply, Mint.total_append, Int.add_assoc]

theorem of_mint_ok {host later : Host σ} {recipient : Principal} {amount : Int} {u : Unit}
    (h : Backed minter first past host.ledger)
    (hr : (Tokens.mint minter recipient amount).run host = (.ok u, later)) :
    Backed minter first (past ++ [⟨recipient, amount, host.authority⟩]) later.ledger := by
  obtain ⟨positive, signed, swept⟩ := Tokens.of_mint_ok hr
  refine swept.imp (fun h => h.of_supply rfl) (h.mint ⟨positive, signed⟩ ?_)
  exact host.ledger.supply_fund _ _

end Backed

/-- Whatever is told, the supply is backed. -/
theorem TokenTold.bears (base : Deployment σ) (first : Int) :
    Telling.Bears (TokenTold base) (Backed base.minter first) where
  evict _ _ h := h.of_supply rfl
  step := by
    intro α action host past events h backed
    cases h with
    | besides footprint hb =>
      rw [List.append_nil]
      exact backed.of_supply (SameSupply.besides footprint hb host)
    | minted hr =>
      rw [Action.after, hr]
      exact backed.of_mint_ok hr
    | unminted hr =>
      rw [Action.after, hr, (Tokens.mint_failsEarly _ _ _).ledger hr, List.append_nil]
      exact backed
    | transferred sender recipient amount =>
      rw [List.append_nil]
      exact backed.of_supply (SameSupply.transfer sender recipient amount host)

end SealedPayroll
