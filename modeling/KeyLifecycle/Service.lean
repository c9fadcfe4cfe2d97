import KeyLifecycle.Store

/-!
# The service

The service does for a caller what the store does for an owner. Each operation goes through the same
stages: who is meant, whether the caller may, whether the given access key has a valid form, and
only then the store. A slug that is absent or empty means the caller.
-/

namespace KeyLifecycle

/-- Who is meant by an optional slug. -/
def Caller.resolve (caller : Caller) (target : Option String) : Operation UserId :=
  match target with
  | none => return caller.id
  | some slug =>
    if slug.isEmpty then return caller.id
    else do
      Operation.report (.resolvingTarget caller.id slug)
      match ← Operation.userBySlug slug with
      | some user => return user.id
      | none => throw (.targetNotFound slug)

/-- The caller as whom an operation is run, by slug. -/
def Caller.named (slug : String) : Operation Caller := do
  match ← Operation.userBySlug slug with
  | some user =>
    Operation.report (.actingUserResolved user.id)
    return user.caller
  | none => throw (.targetNotFound slug)

/-- A store that is open to whom a policy allows. -/
structure Service where
  policy : Policy
  store : Store

namespace Service

/-- Who is meant, provided that the caller may take an action on them. -/
def authorize (s : Service) (caller : Caller) (target : Option String) (action : Action) :
    Operation UserId := do
  let target ← tryCatch (caller.resolve target) fun cause => do
    if cause.isAuthorization then Operation.report (.resolutionFailed caller.id action)
    throw cause
  match s.policy.require caller target action with
  | .ok () =>
    Operation.report (.policyAllowed caller.id target action)
    return target
  | .error cause =>
    Operation.report (.policyDenied caller.id target action)
    throw cause

/-- Issues a credential to the target. -/
def create (s : Service) (caller : Caller) (target : Option String) : Operation Reply := do
  let owner ← s.authorize caller target .modifyCredentials
  s.store.create owner

/-- What the target sees of their credentials. -/
def list (s : Service) (caller : Caller) (target : Option String) : Operation Reply := do
  let owner ← s.authorize caller target .listCredentials
  s.store.list owner

/-- Revokes a credential of the target. -/
def delete (s : Service) (caller : Caller) (target : Option String) (key : String) :
    Operation Reply := do
  let owner ← s.authorize caller target .modifyCredentials
  let key ← Operation.ofExcept (AccessKey.ofText key)
  s.store.delete owner key

/-- Replaces a credential of the target by a new one. -/
def rotate (s : Service) (caller : Caller) (target : Option String) (key : String) :
    Operation Reply := do
  let owner ← s.authorize caller target .modifyCredentials
  let key ← Operation.ofExcept (AccessKey.ofText key)
  s.store.rotate owner key

end Service

end KeyLifecycle
