/-!
# Identifiers of users and credentials

Both are whole numbers of sixty-four bits with a sign, given out by whoever keeps the records. They
are different types, so that one cannot stand for the other.
-/

namespace KeyLifecycle

/-- The number of a user. -/
structure UserId where
  value : Int64
  deriving DecidableEq, Repr, Inhabited

/-- The number of a user as text. -/
def UserId.text (id : UserId) : String := toString id.value.toInt

/-- The user of a number; numbers beyond sixty-four bits wrap around. -/
def UserId.ofInt (n : Int) : UserId := ⟨Int64.ofInt n⟩

/-- The number of a stored credential; it is shown to nobody who holds the credential. -/
structure CredentialId where
  value : Int64
  deriving DecidableEq, Repr, Inhabited

/-- The credential of a number; numbers beyond sixty-four bits wrap around. -/
def CredentialId.ofInt (n : Int) : CredentialId := ⟨Int64.ofInt n⟩

end KeyLifecycle
