import KeyLifecycle.Slug

/-!
# Users and callers

A user has a number, a slug and a role. A caller is whoever an operation is run for: the number of a
user and whether that user is an administrator.
-/

namespace KeyLifecycle

/-- What a user may be. -/
inductive Role where
  | administrator
  | standard
  deriving DecidableEq, Repr, Inhabited

namespace Role

/-- The name of a role. -/
def name : Role → String
  | administrator => "administrator"
  | standard => "standard"

/-- Whether the role is that of an administrator. -/
def isAdmin : Role → Bool
  | administrator => true
  | standard => false

/-- The role that a yes or no stands for. -/
def ofAdmin (admin : Bool) : Role := if admin then administrator else standard

end Role

/-- Somebody who may own credentials. -/
structure User where
  id : UserId
  slug : Slug
  role : Role
  deriving DecidableEq

/-- Whoever an operation is run for. -/
structure Caller where
  id : UserId
  isAdmin : Bool
  deriving DecidableEq, Repr

/-- The user as the one who acts. -/
def User.caller (u : User) : Caller := ⟨u.id, u.role.isAdmin⟩

end KeyLifecycle
