import KeyLifecycle.Event
import KeyLifecycle.Store.Table

/-!
# Transactions on a table in memory

A `Handle` works on a copy of the table, taken when the transaction began. `Handle.commit` gives the
copy back, once; `Handle.rollback` gives it up. A handle that has been finished in either way
refuses everything, and its copy is empty.

A `FailurePlan` makes single operations fail on purpose.
-/

namespace KeyLifecycle

/-- The operations that are to fail. -/
structure FailurePlan where
  insert : Bool := false
  delete : Bool := false
  list : Bool := false
  deriving DecidableEq, Inhabited

/-- The failure of an operation that is to fail. -/
def FailurePlan.failure (operation : String) : Failure :=
  .storage operation "In-memory repository configured to fail"

/-- A transaction: whether it is unfinished, and its copy of the table. -/
structure Handle where
  isOpen : Bool
  staged : Table
  deriving DecidableEq

namespace Handle

/-- A transaction that begins with a table. -/
def opened (table : Table) : Handle := ⟨true, table⟩

/-- A transaction that is finished. -/
def finished : Handle := ⟨false, .empty⟩

/-- The failure of an operation on a finished transaction. -/
def alreadyFinished (operation : String) : Failure :=
  .storage operation "Transaction already finished"

/-- Issues key material to an owner in the copy. -/
def insert (h : Handle) (plan : FailurePlan) (owner : UserId) (material : KeyMaterial) :
    Except Failure (Credential × Handle) :=
  if !h.isOpen then .error (alreadyFinished "transaction")
  else if plan.insert then .error (FailurePlan.failure "insert api key")
  else match h.staged.insert owner material with
    | .ok (credential, table) => .ok (credential, { h with staged := table })
    | .error cause => .error cause

/-- Takes a row out of the copy, and gives it back if there was one. -/
def delete (h : Handle) (plan : FailurePlan) (owner : UserId) (key : AccessKey) :
    Except Failure (Option Row × Handle) :=
  if !h.isOpen then .error (alreadyFinished "transaction")
  else if plan.delete then .error (FailurePlan.failure "delete api key")
  else match h.staged.remove? owner key with
    | some (row, table) => .ok (some row, { h with staged := table })
    | none => .ok (none, h)

/-- Finishes the transaction and gives the copy back. -/
def commit (h : Handle) : Except Failure (Table × Handle) :=
  if h.isOpen then .ok (h.staged, finished) else .error (alreadyFinished "commit")

/-- Finishes the transaction and gives the copy up. -/
def rollback (h : Handle) : Except Failure Handle :=
  if h.isOpen then .ok finished else .error (alreadyFinished "transaction")

end Handle

end KeyLifecycle
