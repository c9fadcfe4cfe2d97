import KeyLifecycle.Json.Basic

/-!
# JSON values as text

`compact` writes a value without blanks, `pretty` one item or field a line with two spaces a level.
Both write the fields in their order and escape only what the format demands: the quote, the
backslash and the control characters, five of which have short escapes.
-/

namespace KeyLifecycle.Json

/-- What stands for a character inside a text. -/
def escape (c : Char) : List Char :=
  if c = '"' then ['\\', '"']
  else if c = '\\' then ['\\', '\\']
  else if c = '\n' then ['\\', 'n']
  else if c = '\r' then ['\\', 'r']
  else if c = '\t' then ['\\', 't']
  else if c.toNat = 8 then ['\\', 'b']
  else if c.toNat = 12 then ['\\', 'f']
  else if c.toNat < 32 then
    ['\\', 'u', '0', '0', Nat.digitChar (c.toNat / 16), Nat.digitChar (c.toNat % 16)]
  else [c]

/-- A text between quotes. -/
def quote (text : String) : String :=
  String.ofList ('"' :: text.toList.flatMap escape ++ ['"'])

/-- A value that has no parts. -/
def scalarText : Json → String
  | null => "null"
  | bool true => "true"
  | bool false => "false"
  | int n => toString n
  | float x => if x.isFinite then x.render .mixed else "null"
  | text s => quote s
  | _ => ""

mutual

/-- The value without blanks. -/
def compact : Json → String
  | list items => "[" ++ ",".intercalate (compactItems items) ++ "]"
  | object fields => "\x7b" ++ ",".intercalate (compactMembers fields) ++ "\x7d"
  | other => other.scalarText

/-- The texts of the items. -/
def compactItems : List Json → List String
  | [] => []
  | item :: rest => item.compact :: compactItems rest

/-- The texts of the fields. -/
def compactMembers : List (String × Json) → List String
  | [] => []
  | (name, value) :: rest => (quote name ++ ":" ++ value.compact) :: compactMembers rest

end

/-- The start of a line at a level. -/
def margin (level : Nat) : String := "\n" ++ String.ofList (List.replicate (2 * level) ' ')

/-- Texts one a line between brackets; nothing but the brackets if there are none. -/
def block (level : Nat) (left right : String) (lines : List String) : String :=
  if lines.isEmpty then left ++ right
  else left ++ margin (level + 1) ++ ("," ++ margin (level + 1)).intercalate lines ++
    margin level ++ right

mutual

/-- The value at a level of indentation. -/
def prettyAt (level : Nat) : Json → String
  | list items => block level "[" "]" (prettyItems (level + 1) items)
  | object fields => block level "\x7b" "\x7d" (prettyMembers (level + 1) fields)
  | other => other.scalarText

/-- The texts of the items. -/
def prettyItems (level : Nat) : List Json → List String
  | [] => []
  | item :: rest => item.prettyAt level :: prettyItems level rest

/-- The texts of the fields. -/
def prettyMembers (level : Nat) : List (String × Json) → List String
  | [] => []
  | (name, value) :: rest =>
    (quote name ++ ": " ++ value.prettyAt level) :: prettyMembers level rest

end

/-- The value over several lines. -/
def pretty (value : Json) : String := value.prettyAt 0

end KeyLifecycle.Json
