import SealedPayroll.Proofs.Host.Built

/-!
# Parts of the ledger and the writes to them

The ledger has thirteen parts, and every write of the payroll changes one of
them in one of the ways listed in `Ledger.Write`, and with it the order in
which durable keys came in. The footprint of an action is a list of parts
outside of which it changes nothing but that order; what expires may go from
the two expiring parts all the same, since sweeps look at no footprint.
-/

namespace SealedPayroll

namespace Ledger

inductive Part where
  | companyCount
  | companies
  | bindings
  | commitments
  | nullifiers
  | verificationKey
  | balances
  | payments
  | totals
  | keyCounters
  | foreign
  | viewKeys
  | foreignExpiring
  deriving DecidableEq

/-- Whether entries of a part expire. -/
def Part.expires : Part → Bool
  | .viewKeys | .foreignExpiring => true
  | _ => false

/-- Two ledgers have a part in common. -/
def Part.Agree : Part → Ledger → Ledger → Prop
  | .companyCount, l, k => k.companyCount = l.companyCount
  | .companies, l, k => k.companies = l.companies
  | .bindings, l, k => k.bindings = l.bindings
  | .commitments, l, k => k.commitments = l.commitments
  | .nullifiers, l, k => k.nullifiers = l.nullifiers
  | .verificationKey, l, k => k.verificationKey = l.verificationKey
  | .balances, l, k => k.balances = l.balances
  | .payments, l, k => k.payments = l.payments
  | .totals, l, k => k.totals = l.totals
  | .keyCounters, l, k => k.keyCounters = l.keyCounters
  | .foreign, l, k => k.foreign = l.foreign
  | .viewKeys, l, k => k.viewKeys = l.viewKeys
  | .foreignExpiring, l, k => k.foreignExpiring = l.foreignExpiring

/-- The writes of the payroll, by the part that they change. A company is written under its own
number, a foreign value under no namespace of the payroll, everything else under whatever key, and
the count of companies is never zero again. -/
inductive Write : Part → (Ledger → Ledger) → Prop
  | companyCount (count : Nat) : Write .companyCount fun l => l.setCompanyCount (count + 1)
  | company (company : Company) : Write .companies fun l => l.putCompany company.id company
  | binding (name : Principal) (binding : Binding) :
      Write .bindings fun l => l.putBinding name binding
  | unbind (name : Principal) : Write .bindings fun l => l.dropBinding name
  | commitment (name : Principal) (record : CommitmentRecord) :
      Write .commitments fun l => l.putCommitment name record
  | uncommit (name : Principal) : Write .commitments fun l => l.dropCommitment name
  | nullifier (value : Bytes) (record : NullifierRecord) :
      Write .nullifiers fun l => l.putNullifier value record
  | verificationKey (key : VerificationKey) :
      Write .verificationKey fun l => l.setVerificationKey key
  | balance (holder : Principal) (balance : Int) :
      Write .balances fun l => l.putBalance holder balance
  | payment (employee : Principal) (period : Int) (record : PaymentRecord) :
      Write .payments fun l => l.putPayment employee period record
  | total (company amount : Int) :
      Write .totals fun l => l.putTotal company (l.totalPaid company + amount)
  | keyCounter (company : Int) (auditor : Principal) (count : Nat) :
      Write .keyCounters fun l => l.putKeyCounter company auditor count
  | foreign {space : String} (apart : space ∉ payrollSpaces) (key value : Datum) :
      Write .foreign fun l => l.putForeign space key value
  | unforeign {space : String} (apart : space ∉ payrollSpaces) (key : Datum) :
      Write .foreign fun l => l.dropForeign space key
  | viewKey (id : String) (entry : Expiring ViewKey) :
      Write .viewKeys fun l => { l with viewKeys := l.viewKeys.insert id entry }
  | revoke (id : String) : Write .viewKeys fun l => { l with viewKeys := l.viewKeys.erase id }
  | foreignExpiring (change : ForeignTable (Expiring Datum) → ForeignTable (Expiring Datum)) :
      Write .foreignExpiring fun l => { l with foreignExpiring := change l.foreignExpiring }

/-- The writes to some parts. -/
def WriteTo (parts : List Part) (f : Ledger → Ledger) : Prop := ∃ part ∈ parts, Write part f

theorem Part.Agree.refl (part : Part) (l : Ledger) : part.Agree l l := by
  cases part <;> rfl

theorem Part.Agree.trans {part : Part} {l₁ l₂ l₃ : Ledger} (h₁ : part.Agree l₁ l₂)
    (h₂ : part.Agree l₂ l₃) : part.Agree l₁ l₃ := by
  cases part <;> exact Eq.trans h₂ h₁

theorem Part.agree_evict {part : Part} (h : part.expires = false) (l : Ledger)
    (timestamp sequence : Int) : part.Agree l (l.evict timestamp sequence) := by
  cases part <;> first | rfl | cases h

/-- A write changes one part only. -/
theorem Write.agree {part other : Part} {f : Ledger → Ledger} (h : Write part f)
    (hne : other ≠ part) (l : Ledger) : other.Agree l (f l) := by
  cases h <;> cases other <;> first | rfl | exact absurd rfl hne

end Ledger

namespace Action

variable {σ α : Type}

/-- An action that writes only to the parts named. -/
abbrev Footprint (parts : List Ledger.Part) (action : Action σ α) : Prop :=
  Built (Basic (Ledger.WriteTo parts)) action

theorem Built.write {part : Ledger.Part} {parts : List Ledger.Part} {f : Ledger → Ledger}
    (h : Ledger.Write part f) (hp : part ∈ parts) :
    Footprint parts (Action.write f : Action σ Unit) :=
  .base (.write ⟨part, hp, h⟩)

namespace Footprint

variable {parts : List Ledger.Part} {action : Action σ α}

theorem widen {more : List Ledger.Part} (h : Footprint parts action) (hs : parts ⊆ more) :
    Footprint more action :=
  Built.mono h fun _ _ ha => ha.mono fun _ ⟨part, hp, hw⟩ => ⟨part, hs hp, hw⟩

/-- What lies outside the footprint of an action and does not expire stays as it was. -/
theorem agree (part : Ledger.Part) (h : Footprint parts action) (hp : part ∉ parts)
    (he : part.expires = false) (host : Host σ) :
    part.Agree host.ledger (action.after host).ledger := by
  refine Built.basic_rel (S := part.Agree) (Ledger.Part.Agree.refl part)
    Ledger.Part.Agree.trans (Ledger.Part.agree_evict he) ?_ h host
  rintro f ⟨written, hw, hf⟩ l
  exact hf.agree (by rintro rfl; exact hp hw) l

end Footprint

end Action

end SealedPayroll
