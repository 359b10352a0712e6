import SealedPayroll.Fault.Basic

/-!
# Companies and the people they employ

A company has an administrator, who signs for it, and a treasury, which pays.
An employee is bound to at most one company at a time; the binding carries
the commitment to the salary.
-/

namespace SealedPayroll

structure Company where
  id : Int
  admin : Principal
  treasury : Principal
  employeeCount : Int
  registeredAt : Int
  deriving DecidableEq, Repr

def Company.make (id : Option Int) (admin treasury : Option Principal) (employeeCount : Option Int)
    (registeredAt : Option Int) : Check Company :=
  Company.mk
    <$> .required "id" (.atLeast 0) id
    <*> .required "admin" .nonempty admin
    <*> .required "treasury" .nonempty treasury
    <*> .defaulted "employee_count" (.atLeast 0) 0 employeeCount
    <*> .required "registered_at" .any registeredAt

/-- The tie between an employee and the company that pays them. -/
structure Binding where
  company : Int
  employee : Principal
  commitment : Bytes
  enrolledAt : Int
  lastPaymentAt : Option Int
  deriving DecidableEq, Repr

def Binding.make (company : Option Int) (employee : Option Principal) (commitment : Option Bytes)
    (enrolledAt lastPaymentAt : Option Int) : Check Binding :=
  Binding.mk
    <$> .required "company_id" .any company
    <*> .required "employee" .nonempty employee
    <*> .required "commitment" (.bytesSize 32) commitment
    <*> .required "enrolled_at" .any enrolledAt
    <*> .optional "last_payment_at" .any lastPaymentAt

end SealedPayroll
