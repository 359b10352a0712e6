import SealedPayroll.Fault.Basic

/-!
# Stored commitments and used nullifiers

The commitment record of an employee counts its versions. A nullifier record
says when a one-time value was used.
-/

namespace SealedPayroll

structure CommitmentRecord where
  employee : Principal
  company : Option Int
  commitment : Bytes
  version : Int
  createdAt : Int
  updatedAt : Int
  deriving DecidableEq, Repr

def CommitmentRecord.make (employee : Option Principal) (company : Option Int)
    (commitment : Option Bytes) (version createdAt updatedAt : Option Int) :
    Check CommitmentRecord :=
  CommitmentRecord.mk
    <$> .required "employee" .nonempty employee
    <*> .optional "company_id" .any company
    <*> .required "commitment" (.bytesSize 32) commitment
    <*> .defaulted "version" (.atLeast 1) 1 version
    <*> .required "created_at" .any createdAt
    <*> .required "updated_at" .any updatedAt

structure NullifierRecord where
  value : Bytes
  usedAt : Int
  deriving DecidableEq, Repr

def NullifierRecord.make (value : Option Bytes) (usedAt : Option Int) : Check NullifierRecord :=
  NullifierRecord.mk
    <$> .required "value" (.bytesSize 32) value
    <*> .required "used_at" .any usedAt

end SealedPayroll
