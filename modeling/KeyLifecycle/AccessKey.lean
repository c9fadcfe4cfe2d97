import KeyLifecycle.Failure

/-!
# Access keys

The public half of a credential: one to a hundred and twenty-eight bytes of ASCII letters, digits,
hyphens, underscores and equals signs. `AccessKey.fault?` finds what is wrong with a text: that it
is empty, that it is too long, or its first character that is not allowed.
-/

namespace KeyLifecycle

namespace AccessKey

/-- Why a text is no access key. -/
inductive Fault where
  | empty
  | tooLong
  | badCharacter (c : Char)
  deriving DecidableEq, Repr

/-- The number of bytes that an access key may have. -/
def maxBytes : Nat := 128

/-- The wording of a fault. -/
def Fault.message : Fault → String
  | empty => "Access key cannot be empty"
  | tooLong => "Access key exceeds maximum length of 128 characters"
  | badCharacter c => "Access key contains invalid character: '" ++ c.toString ++ "'"

/-- Whether a character may stand in an access key. -/
def isAllowed (c : Char) : Bool :=
  c.isAlphanum || c == '-' || c == '_' || c == '='

/-- What is wrong with a text, if anything is. -/
def fault? (text : String) : Option Fault :=
  if text.isEmpty then some .empty
  else if maxBytes < text.utf8ByteSize then some .tooLong
  else (text.toList.find? (!isAllowed ·)).map .badCharacter

end AccessKey

/-- A text that is an access key. -/
structure AccessKey where
  text : String
  sound : AccessKey.fault? text = none
  deriving DecidableEq

namespace AccessKey

/-- The access key of a text, or its fault. -/
def parse (text : String) : Except Fault AccessKey :=
  match h : fault? text with
  | none => .ok ⟨text, h⟩
  | some fault => .error fault

/-- The access key of a text, where a fault fails the operation. -/
def ofText (text : String) : Except Failure AccessKey :=
  match parse text with
  | .ok key => .ok key
  | .error fault => .error (.validation fault.message)

end AccessKey

end KeyLifecycle
