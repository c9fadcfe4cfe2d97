import KeyLifecycle.Json.Basic
import KeyLifecycle.Number.Scaled

/-!
# Reading JSON text

`Json.ofText?` reads a text that holds one value and nothing else but blanks. Beyond the grammar of
the format it fixes these points:

* a number without fraction and exponent is a whole number if it fits into sixty-four bits, signed
  or unsigned; `-0`, a larger one and every other number are floating point numbers, which are found
  in steps, and one that is too large for those is refused;
* of two fields of one name the last counts, and fields are kept in the order of their names;
* an escape for half of a surrogate pair is refused without the other half;
* nesting is refused from the hundred and twenty-eighth level on.
-/

namespace KeyLifecycle.Json

/-- The blanks of the format. -/
def isSpace (c : Char) : Bool := c == ' ' || c == '\n' || c == '\t' || c == '\r'

/-- What follows the blanks. -/
def skipSpace (cs : List Char) : List Char := cs.dropWhile isSpace

/-! ### Text -/

/-- The number of four hexadecimal digits. -/
def hex4? (a b c d : Char) : Option Nat := do
  let value? (x : Char) : Option Nat :=
    if '0' ≤ x ∧ x ≤ '9' then some (x.toNat - 48)
    else if 'a' ≤ x ∧ x ≤ 'f' then some (x.toNat - 87)
    else if 'A' ≤ x ∧ x ≤ 'F' then some (x.toNat - 55)
    else none
  return (← value? a) * 4096 + (← value? b) * 256 + (← value? c) * 16 + (← value? d)

/-- The character of a one-letter escape. -/
def shortEscape? (c : Char) : Option Char :=
  if c = '"' ∨ c = '\\' ∨ c = '/' then some c
  else if c = 'b' then some (Char.ofNat 8)
  else if c = 'f' then some (Char.ofNat 12)
  else if c = 'n' then some '\n'
  else if c = 'r' then some '\r'
  else if c = 't' then some '\t'
  else none

/-- Puts a character before a text that has been read. -/
def consChar (c : Char) (read : Option (List Char × List Char)) : Option (List Char × List Char) :=
  read.map fun (cs, rest) => (c :: cs, rest)

/-- Reads the inside of a text up to its closing quote. -/
def readText : List Char → Option (List Char × List Char)
  | [] => none
  | '"' :: rest => some ([], rest)
  | '\\' :: 'u' :: a :: b :: c :: d :: '\\' :: 'u' :: a' :: b' :: c' :: d' :: rest =>
    match hex4? a b c d with
    | none => none
    | some high =>
      if 0xD800 ≤ high ∧ high < 0xDC00 then
        match hex4? a' b' c' d' with
        | none => none
        | some low =>
          if 0xDC00 ≤ low ∧ low < 0xE000 then
            consChar (Char.ofNat (0x10000 + (high - 0xD800) * 0x400 + (low - 0xDC00)))
              (readText rest)
          else none
      else if 0xDC00 ≤ high ∧ high < 0xE000 then none
      else consChar (Char.ofNat high) (readText ('\\' :: 'u' :: a' :: b' :: c' :: d' :: rest))
  | '\\' :: 'u' :: a :: b :: c :: d :: rest =>
    match hex4? a b c d with
    | none => none
    | some code =>
      if 0xD800 ≤ code ∧ code < 0xE000 then none
      else consChar (Char.ofNat code) (readText rest)
  | '\\' :: c :: rest =>
    match shortEscape? c with
    | none => none
    | some e => consChar e (readText rest)
  | c :: rest => if c.toNat < 32 ∨ c = '\\' then none else consChar c (readText rest)

/-! ### Numbers -/

/-- The number that digits stand for. -/
def digitsValue (cs : List Char) : Nat :=
  cs.foldl (fun n c => 10 * n + (c.toNat - 48)) 0

/-- The digits at the start, and what follows them. -/
def spanDigits (cs : List Char) : List Char × List Char :=
  (cs.takeWhile Char.isDigit, cs.dropWhile Char.isDigit)

/-- The exponent of a number, if one stands there; `none` if it lacks its digits. -/
def readExponent (cs : List Char) : Option (Option Int × List Char) :=
  match cs with
  | e :: rest =>
    if e = 'e' ∨ e = 'E' then
      let (negative, rest) := match rest with
        | '-' :: r => (true, r)
        | '+' :: r => (false, r)
        | r => (false, r)
      let (digits, rest) := spanDigits rest
      if digits.isEmpty then none
      else
        let n : Nat := digitsValue digits
        some (some (if negative then -(n : Int) else n), rest)
    else some (none, cs)
  | [] => some (none, [])

/-- The fraction of a number, if one stands there; `none` if it lacks its digits. -/
def readFraction (cs : List Char) : Option (List Char × List Char) :=
  match cs with
  | '.' :: rest =>
    let (digits, rest) := spanDigits rest
    if digits.isEmpty then none else some (digits, rest)
  | _ => some ([], cs)

/-- A whole number, if sixty-four bits hold it. -/
def wholeNumber? (negative : Bool) (n : Nat) : Option Json :=
  if negative then if n = 0 ∨ UInt64.size / 2 < n then none else some (int (-n))
  else if UInt64.size ≤ n then none
  else some (int n)

/-- Reads a number. -/
def readNumber (cs : List Char) : Option (Json × List Char) := do
  let (negative, cs) := match cs with
    | '-' :: rest => (true, rest)
    | other => (false, other)
  let (whole, cs) := spanDigits cs
  guard (!whole.isEmpty && (whole.length == 1 || whole.head? != some '0'))
  let (fraction, cs) ← readFraction cs
  let (exponent, cs) ← readExponent cs
  let int? := if fraction.isEmpty && exponent.isNone then wholeNumber? negative (digitsValue whole)
    else none
  match int? with
  | some n => return (n, cs)
  | none =>
    let x ← Significand.number? whole fraction (exponent.getD 0)
    return (float (if negative then x.negated else x), cs)

/-- What follows a word that the text starts with. -/
def afterWord? (word : String) (cs : List Char) : Option (List Char) :=
  if word.toList.isPrefixOf cs then some (cs.drop word.toList.length) else none

/-! ### Values

`fuel` bounds the calls and comes from the length of the text; `depth` is the nesting that is still
admitted. -/

mutual

/-- Reads a value. -/
def readValue (fuel depth : Nat) (cs : List Char) : Option (Json × List Char) :=
  match fuel with
  | 0 => none
  | fuel + 1 =>
    match skipSpace cs with
    | '"' :: rest => (readText rest).map fun (s, r) => (text (String.ofList s), r)
    | '[' :: rest =>
      match depth with
      | 0 => none
      | depth + 1 =>
        match skipSpace rest with
        | ']' :: r => some (list [], r)
        | r => (readItems fuel depth r).map fun (items, r) => (list items, r)
    | '\x7b' :: rest =>
      match depth with
      | 0 => none
      | depth + 1 =>
        match skipSpace rest with
        | '\x7d' :: r => some (object [], r)
        | r => (readMembers fuel depth r).map fun (fields, r) => (ofFields fields, r)
    | 'n' :: rest => (afterWord? "ull" rest).map (null, ·)
    | 't' :: rest => (afterWord? "rue" rest).map (bool true, ·)
    | 'f' :: rest => (afterWord? "alse" rest).map (bool false, ·)
    | r => readNumber r

/-- Reads the items of a list up to its closing bracket. -/
def readItems (fuel depth : Nat) (cs : List Char) : Option (List Json × List Char) :=
  match fuel with
  | 0 => none
  | fuel + 1 =>
    match readValue fuel depth cs with
    | none => none
    | some (item, rest) =>
      match skipSpace rest with
      | ',' :: r => (readItems fuel depth r).map fun (items, r) => (item :: items, r)
      | ']' :: r => some ([item], r)
      | _ => none

/-- Reads the fields of an object up to its closing brace. -/
def readMembers (fuel depth : Nat) (cs : List Char) : Option (List (String × Json) × List Char) :=
  match fuel with
  | 0 => none
  | fuel + 1 =>
    match skipSpace cs with
    | '"' :: rest =>
      match readText rest with
      | none => none
      | some (name, rest) =>
        match skipSpace rest with
        | ':' :: rest =>
          match readValue fuel depth rest with
          | none => none
          | some (value, rest) =>
            let member := (String.ofList name, value)
            match skipSpace rest with
            | ',' :: r => (readMembers fuel depth r).map fun (fields, r) => (member :: fields, r)
            | '\x7d' :: r => some ([member], r)
            | _ => none
        | _ => none
    | _ => none

end

/-- The value that a text holds. -/
def ofText? (source : String) : Option Json :=
  let cs := source.toList
  match readValue (2 * cs.length + 2) 127 cs with
  | some (value, rest) => if (skipSpace rest).isEmpty then some value else none
  | none => none

end KeyLifecycle.Json
