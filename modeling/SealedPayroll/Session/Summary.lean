import SealedPayroll.Audit.Disclosure

/-!
# Summaries

What a host holds at one moment, as far as it can be asked: every company
with its people, payments and keys, and some principals with their tokens,
bindings and commitments.
-/

namespace SealedPayroll

structure CompanySummary where
  company : Company
  employees : List Binding
  payments : List PaymentRecord
  totalPaid : Int
  viewKeys : List ViewKey
  activeKeys : Nat

structure PersonSummary where
  balance : Int
  binding : Option Binding
  commitment : Option CommitmentRecord

variable {σ : Type}

namespace Host

def summarizeCompany (host : Host σ) (company : Company) (id : Int) : CompanySummary where
  company := company
  employees := Registry.employees host.ledger id
  payments := Payroll.payments host.ledger id none none
  totalPaid := host.ledger.totalPaid id
  viewKeys := ViewKeys.list host.ledger host.clock id false
  activeKeys := (ViewKeys.list host.ledger host.clock id true).length

/-- The companies numbered below the count, as far as they exist. -/
def companySummaries (host : Host σ) : List CompanySummary :=
  (List.range host.ledger.companyCount).filterMap fun (n : Nat) =>
    (host.ledger.companies.get? n).map fun company => host.summarizeCompany company n

def summarizePerson (host : Host σ) (name : Principal) : PersonSummary where
  balance := host.ledger.balance name
  binding := host.ledger.bindings.get? name
  commitment := host.ledger.commitments.get? name

end Host

end SealedPayroll
