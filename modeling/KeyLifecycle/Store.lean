import KeyLifecycle.Procedure

/-!
# The operations of the store

The store issues, lists, revokes, replaces and stamps credentials of a user who is known. Key
material is generated before the table is asked for, so what it took is gone whatever becomes of the
request. No operation takes longer than the limit of the store.
-/

namespace KeyLifecycle

/-- A store, whose operations may take a limited time. -/
structure Store where
  limit : Span
  deriving DecidableEq, Repr

namespace Store

/-- The answer to a request within the limit. -/
def ask (s : Store) (request : Request) : Operation Reply := Operation.ask request (some s.limit)

/-- Issues a credential. -/
def create (s : Store) (owner : UserId) : Operation Reply := do
  let material ← Operation.generate
  s.ask (.create owner material)

/-- What an owner sees. -/
def list (s : Store) (owner : UserId) : Operation Reply := s.ask (.list owner)

/-- Revokes a credential. -/
def delete (s : Store) (owner : UserId) (key : AccessKey) : Operation Reply :=
  s.ask (.delete owner key)

/-- Replaces a credential by a new one, in one step. -/
def rotate (s : Store) (owner : UserId) (key : AccessKey) : Operation Reply := do
  let material ← Operation.generate
  s.ask (.rotate owner key material)

/-- Notes that an access key was used at a moment. -/
def recordAuth (s : Store) (key : AccessKey) (moment : Instant) : Operation Reply :=
  s.ask (.stamp key moment)

/-- Does a unit of work inside one transaction. -/
def transact (s : Store) (name : String) (work : Work Reply) : Operation Reply :=
  s.ask (.unit name work)

end Store

end KeyLifecycle
