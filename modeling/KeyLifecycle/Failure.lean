import KeyLifecycle.Ids

/-!
# Failures and what a client is told

`Failure` lists the ways in which an operation can fail, by cause. `Failure.message` is the wording
for operators. `Failure.clientView` is what the client learns: an unknown target and a refusal by
policy give the same view, so that nobody can find out by asking whether a user exists, and faults
of the store or of the source of randomness show nothing of their own.
-/

namespace KeyLifecycle

/-- Why an operation failed. -/
inductive Failure where
  /-- Nobody has the slug that names the target. -/
  | targetNotFound (slug : String)
  /-- The policy refuses the action on the target. -/
  | policyDenied (action : String) (target : UserId) (reason : String)
  /-- The owner has no credential of that access key. -/
  | credentialNotFound
  /-- No random bytes are to be had. -/
  | entropyUnavailable (detail : String)
  /-- The store failed at a step of an operation. -/
  | storage (operation detail : String)
  /-- Something of that name is there already. -/
  | conflict (detail : String)
  /-- A given text has no valid form. -/
  | validation (detail : String)
  /-- The operation took longer than it may. -/
  | cancelled (operation : String)
  deriving DecidableEq, Repr, Inhabited

/-- The kinds of failure that a client tells apart. -/
inductive ClientKind where
  | unauthorized
  | notFound
  | invalidRequest
  | conflict
  | unavailable
  | internal
  deriving DecidableEq, Repr

/-- The name of a kind. -/
def ClientKind.name : ClientKind → String
  | unauthorized => "unauthorized"
  | notFound => "not_found"
  | invalidRequest => "invalid_request"
  | conflict => "conflict"
  | unavailable => "unavailable"
  | internal => "internal"

/-- What a client is told of a failure. -/
structure ClientView where
  kind : ClientKind
  message : String
  deriving DecidableEq, Repr

/-- Kind and message in one line. -/
def ClientView.text (view : ClientView) : String := view.kind.name ++ ": " ++ view.message

namespace Failure

/-- The wording for operators. -/
def message : Failure → String
  | targetNotFound slug => "Target user not found: " ++ slug
  | policyDenied action target reason =>
    "Policy denied " ++ action ++ " on user " ++ target.text ++ ": " ++ reason
  | credentialNotFound => "API key does not exist"
  | entropyUnavailable detail => "Entropy unavailable: " ++ detail
  | storage operation detail => "Storage error during " ++ operation ++ ": " ++ detail
  | conflict detail => "Conflict: " ++ detail
  | validation detail => "Validation error: " ++ detail
  | cancelled operation => "Operation cancelled: " ++ operation

/-- Whether the failure must look the same to whoever lacks the right to act. -/
def isAuthorization : Failure → Bool
  | targetNotFound _ => true
  | policyDenied _ _ _ => true
  | _ => false

/-- What a client is told. -/
def clientView : Failure → ClientView
  | targetNotFound _ => ⟨.unauthorized, "Unauthorized"⟩
  | policyDenied _ _ _ => ⟨.unauthorized, "Unauthorized"⟩
  | credentialNotFound => ⟨.notFound, "API key does not exist"⟩
  | entropyUnavailable _ => ⟨.internal, "An internal error occurred"⟩
  | storage _ _ => ⟨.internal, "An internal error occurred"⟩
  | conflict detail => ⟨.conflict, detail⟩
  | validation detail => ⟨.invalidRequest, detail⟩
  | cancelled _ => ⟨.unavailable, "Operation was cancelled"⟩

end Failure

end KeyLifecycle
