import KeyLifecycle.Failure

/-!
# User slugs

A slug is a short name for a user: runs of lower-case letters and digits of ASCII, joined by single
hyphens, of at most sixty-four bytes. `Slug.fault?` finds what is wrong with a text. Its order is
fixed: emptiness, length, the first character, the last one, and then the leftmost character that
is not allowed where it stands.
-/

namespace KeyLifecycle

namespace Slug

/-- Why a text is no slug. -/
inductive Fault where
  | empty
  | tooLong
  | badStart
  | badEnd
  | badCharacter (c : Char)
  | consecutiveHyphens
  deriving DecidableEq, Repr

/-- The number of bytes that a slug may have. -/
def maxBytes : Nat := 64

/-- The wording of a fault. -/
def Fault.message : Fault → String
  | empty => "User slug cannot be empty"
  | tooLong => "User slug exceeds maximum length of 64 characters"
  | badStart => "User slug must start with a letter or number"
  | badEnd => "User slug must end with a letter or number"
  | badCharacter c =>
    "User slug contains invalid character: '" ++ c.toString ++
      "'. Only lowercase letters, digits and hyphens are allowed"
  | consecutiveHyphens => "User slug cannot contain consecutive hyphens"

/-- Whether a character is a lower-case letter or a digit of ASCII. -/
def isWordChar (c : Char) : Bool :=
  ('a' ≤ c && c ≤ 'z') || ('0' ≤ c && c ≤ '9')

/-- The leftmost fault inside a text; `hyphen` says that the character before was a hyphen. -/
def innerFault? (hyphen : Bool) : List Char → Option Fault
  | [] => none
  | c :: rest =>
    if c = '-' then
      if hyphen then some .consecutiveHyphens else innerFault? true rest
    else if isWordChar c then innerFault? false rest
    else some (.badCharacter c)

/-- What is wrong with the characters of a text that has some. -/
def bodyFault? (cs : List Char) : Option Fault :=
  if cs.head?.any (!isWordChar ·) then some .badStart
  else if cs.getLast?.any (!isWordChar ·) then some .badEnd
  else innerFault? false cs

/-- What is wrong with a text, if anything is. -/
def fault? (text : String) : Option Fault :=
  if text.isEmpty then some .empty
  else if maxBytes < text.utf8ByteSize then some .tooLong
  else bodyFault? text.toList

end Slug

/-- A text that is a slug. -/
structure Slug where
  text : String
  sound : Slug.fault? text = none
  deriving DecidableEq

namespace Slug

/-- The slug of a text, or its fault. -/
def parse (text : String) : Except Fault Slug :=
  match h : fault? text with
  | none => .ok ⟨text, h⟩
  | some fault => .error fault

/-- The slug of a text, where a fault fails the operation. -/
def ofText (text : String) : Except Failure Slug :=
  match parse text with
  | .ok slug => .ok slug
  | .error fault => .error (.validation fault.message)

end Slug

end KeyLifecycle
