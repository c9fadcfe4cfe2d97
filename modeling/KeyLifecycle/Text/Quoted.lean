import KeyLifecycle.Text.Hidden

/-!
# Quoted text

How a message shows a text that it was given: between double quotes, with the quote, the backslash
and the characters that are not shown written as escapes. `\0`, `\t`, `\n` and `\r` have short
escapes; every other character that is not shown is written as `\u` and its number in lower-case
hexadecimal between braces.
-/

namespace KeyLifecycle.Text.Quoted

/-- The escape that names a character by its number. -/
def numbered (c : Char) : List Char :=
  ['\\', 'u', '\x7b'] ++ Nat.toDigits 16 c.toNat ++ ['\x7d']

/-- What stands for a character between the quotes. -/
def escape (c : Char) : List Char :=
  if c = '\x00' then ['\\', '0']
  else if c = '\t' then ['\\', 't']
  else if c = '\n' then ['\\', 'n']
  else if c = '\r' then ['\\', 'r']
  else if c = '"' then ['\\', '"']
  else if c = '\\' then ['\\', '\\']
  else if c.toNat < 0x20 ∨ c.toNat = 0x7F ∨ isHidden c then numbered c
  else [c]

/-- The text between quotes. -/
def encode (text : String) : String :=
  String.ofList ('"' :: text.toList.flatMap escape ++ ['"'])

end KeyLifecycle.Text.Quoted
