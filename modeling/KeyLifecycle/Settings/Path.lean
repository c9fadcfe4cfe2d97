import KeyLifecycle.Settings.Value

/-!
# Paths to settings

A name such as `database.url` is a path: names of letters, digits, blanks, hyphens and underscores
of ASCII, joined by points, each of which may be followed by indices in brackets. A text that is no
path is the name of an entry as it is.

`Value.putAt` lays a value over the place to which a path leads. On the way, whatever is not a map
becomes one where a name follows, and whatever is not a list becomes an empty one where an index
follows. A list grows as far as an index asks for, and a negative index counts from its end. There
is no place before the start of a list, nor one so far out that no list has it.
-/

namespace KeyLifecycle.Settings

/-- One step of a path. -/
inductive Step where
  | name (name : String)
  | index (index : Int)
  deriving DecidableEq, Repr

/-- A path, which starts with a name. -/
structure Path where
  first : String
  rest : List Step
  deriving DecidableEq, Repr

namespace Path

/-- Whether a character may be in a name. -/
def isNameChar (c : Char) : Bool := c.isAlphanum || c == '_' || c == '-' || c == ' '

/-- What follows a name at the start, and the name, which has to have a character at least. -/
def spanName? (cs : List Char) : Option (String × List Char) :=
  let name := cs.takeWhile isNameChar
  if name.isEmpty then none else some (String.ofList name, cs.dropWhile isNameChar)

/-- Whether a character may stand beside the digits of an index. -/
def isSpace (c : Char) : Bool := c == ' ' || c == '\t'

/-- The index that stands at the start, with its closing bracket, and what follows it. -/
def spanIndex? (cs : List Char) : Option (Int × List Char) := do
  let (negative, cs) := match cs.dropWhile isSpace with
    | '-' :: rest => (true, rest)
    | rest => (false, rest)
  let n ← Literal.digits? (cs.takeWhile Char.isDigit)
  let index : Int := if negative then -n else n
  guard (Value.isSmall index)
  match (cs.dropWhile Char.isDigit).dropWhile isSpace with
  | ']' :: rest => return (index, rest)
  | _ => none

/-- The steps that follow the first name. Every step takes a character at least, so `fuel` need not
be more than there are characters. -/
def steps? : Nat → List Char → Option (List Step)
  | _, [] => some []
  | 0, _ => none
  | fuel + 1, '.' :: cs => do
    let (name, cs) ← spanName? cs
    return .name name :: (← steps? fuel cs)
  | fuel + 1, '[' :: cs => do
    let (index, cs) ← spanIndex? cs
    return .index index :: (← steps? fuel cs)
  | _, _ => none

/-- The path that a text is. -/
def parse? (text : String) : Option Path := do
  let (first, cs) ← spanName? text.toList
  return ⟨first, ← steps? cs.length cs⟩

/-- The path that a text is, or the single name that it is otherwise. -/
def ofText (text : String) : Path := (parse? text).getD ⟨text, []⟩

end Path

namespace Value

/-- The places that a list may have at most. -/
def roomiest : Nat := 1 <<< 24

/-- The place in a list of the given length to which an index leads. -/
def position? (index : Int) (length : Nat) : Option Nat :=
  if 0 ≤ index then if index < roomiest then some index.toNat else none
  else if index.natAbs ≤ length then some (length - index.natAbs)
  else none

/-- Items that reach beyond a place, where nothing fills the gap. -/
def reaching (position : Nat) (items : List Value) : List Value :=
  items ++ List.replicate (position + 1 - items.length) null

/-- Lays a value over the place to which steps lead from another value, if there is such a place.
An item of a list is replaced as a whole. -/
def putSteps (value : Value) : Step → List Step → Value → Option Value
  | .name name, [], v => some (put name value v)
  | .name name, step :: rest, v => do
    let inner ← putSteps value step rest ((v.entry? name).getD null)
    return v.set name inner
  | .index index, rest, v => do
    let position ← position? index v.items.length
    let items := reaching position v.items
    match rest with
    | [] => return list (items.set position value)
    | step :: rest =>
      let inner ← putSteps value step rest (items.getD position null)
      return list (items.set position inner)

/-- Lays a value over the place to which a path leads, if there is such a place. -/
def putAt (path : Path) (value v : Value) : Option Value :=
  putSteps value (.name path.first) path.rest v

end Value

end KeyLifecycle.Settings
