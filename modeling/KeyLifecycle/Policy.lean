import KeyLifecycle.User

/-!
# Policies

A policy says whether a caller may take an action on the credentials of a target. Policies are
trees: the leaves are `selfOrAdmin`, `denyAll` and `fullAccess`, and a `union` allows what either
side allows and, where both refuse, gives the reason of its first side.
-/

namespace KeyLifecycle

/-- What is done to the credentials of a target. -/
inductive Action where
  | modifyCredentials
  | listCredentials
  deriving DecidableEq, Repr

/-- The name of an action. -/
def Action.name : Action → String
  | modifyCredentials => "ModifyCredentials"
  | listCredentials => "ListCredentials"

/-- Why a policy refuses. -/
inductive Refusal where
  /-- The caller is neither the target nor an administrator. -/
  | notOwnerOrAdmin (caller : UserId)
  /-- The named policy refuses everything. -/
  | unconditional (policy : String)
  deriving DecidableEq, Repr

/-- The wording of a refusal. -/
def Refusal.message : Refusal → String
  | notOwnerOrAdmin caller =>
    "user " ++ caller.text ++ " is neither the target nor an administrator"
  | unconditional policy => policy ++ " refuses all actions"

/-- Who may act on whose credentials. -/
inductive Policy where
  | selfOrAdmin
  | denyAll
  | fullAccess
  | union (first second : Policy)
  deriving DecidableEq, Repr, Inhabited

namespace Policy

/-- The reason for which an action is refused, or `none` if it is allowed. -/
def refusal? (policy : Policy) (caller : Caller) (target : UserId) (action : Action) :
    Option Refusal :=
  match policy with
  | selfOrAdmin =>
    if caller.id = target ∨ caller.isAdmin then none else some (.notOwnerOrAdmin caller.id)
  | denyAll => some (.unconditional "DenyAll")
  | fullAccess => none
  | union first second =>
    match first.refusal? caller target action with
    | none => none
    | some reason =>
      match second.refusal? caller target action with
      | none => none
      | some _ => some reason

/-- Whether an action is allowed. -/
def allows (policy : Policy) (caller : Caller) (target : UserId) (action : Action) : Bool :=
  (policy.refusal? caller target action).isNone

/-- Fails where an action is refused. -/
def require (policy : Policy) (caller : Caller) (target : UserId) (action : Action) :
    Except Failure Unit :=
  match policy.refusal? caller target action with
  | none => .ok ()
  | some reason => .error (.policyDenied action.name target reason.message)

end Policy

end KeyLifecycle
