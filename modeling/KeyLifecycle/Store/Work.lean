import KeyLifecycle.Store.Reply
import KeyLifecycle.Failure
import KeyLifecycle.Time.Span

/-!
# Units of work

A `Work` is what is to be done inside one transaction: inserts and deletes, whose answers decide
what comes next, pauses, and an outcome. Work may also finish its transaction itself; what it does
to the transaction after that fails. The first step that fails is the failure of the work.

The same work is run on a table in memory and on a database.
-/

namespace KeyLifecycle

/-- What is to be done inside a transaction. -/
inductive Work (α : Type) where
  | done (value : α)
  | fail (cause : Failure)
  | insert (owner : UserId) (material : KeyMaterial) (next : Credential → Work α)
  | delete (owner : UserId) (key : AccessKey) (next : Bool → Work α)
  | commit (next : Work α)
  | rollback (next : Work α)
  | pause (duration : Span) (next : Work α)

namespace Work

variable {α β : Type}

/-- One work after the other. -/
def bind (work : Work α) (next : α → Work β) : Work β :=
  match work with
  | done value => next value
  | fail cause => fail cause
  | insert owner material rest => insert owner material fun c => (rest c).bind next
  | delete owner key rest => delete owner key fun yes => (rest yes).bind next
  | commit rest => commit (rest.bind next)
  | rollback rest => rollback (rest.bind next)
  | pause duration rest => pause duration (rest.bind next)

/-- Works one after the other, and the list of their answers. -/
def sequence : List (Work α) → Work (List α)
  | [] => done []
  | work :: rest => work.bind fun a => (sequence rest).bind fun as => done (a :: as)

/-- Issues key material to an owner. -/
def issue (owner : UserId) (material : KeyMaterial) : Work Reply :=
  insert owner material fun credential => done (.issued credential)

/-- Revokes a credential that has to be there. -/
def revoke (owner : UserId) (key : AccessKey) (next : Work α) : Work α :=
  delete owner key fun yes => if yes then next else fail .credentialNotFound

end Work

end KeyLifecycle
