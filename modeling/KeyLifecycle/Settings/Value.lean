import KeyLifecycle.Json.Basic
import KeyLifecycle.Number.Literal

/-!
# Values of settings

Settings come from several sources, each of which gives a tree of values; `Value.put` lays one tree
over another. A map is laid over a map entry by entry, so what a later source leaves open stays as
it was. Anything else replaces what was there, and entries that are laid over something that is no
map replace it by a map.

Names are those of ASCII letters without regard to case. Whole numbers have sixty-four bits with a
sign; larger ones are floating point numbers.

`Value.natural?` and `Value.text?` read a value as a number and as a text, and are generous: whole
numbers may be written as text, and text as numbers.
-/

namespace KeyLifecycle.Settings

/-- A value of settings. -/
inductive Value where
  | null
  | bool (value : Bool)
  | int (value : Int)
  | float (value : Binary64)
  | text (value : String)
  | list (items : List Value)
  | map (entries : List (String × Value))
  deriving Inhabited

namespace Value

/-- Whether a whole number has no more than sixty-four bits with its sign. -/
def isSmall (n : Int) : Bool := Int64.minValue.toInt ≤ n && n ≤ Int64.maxValue.toInt

/-- A whole number, which is a floating point number if it is too large. -/
def ofInt (n : Int) : Value :=
  if isSmall n then int n else float (Binary64.ofDecimal (n < 0) n.natAbs 0)

mutual

/-- The value of settings that a JSON value stands for. -/
def ofJson : Json → Value
  | .null => null
  | .bool b => bool b
  | .int n => ofInt n
  | .float x => float x
  | .text s => text s
  | .list items => list (itemsOfJson items)
  | .object fields => map (entriesOfJson fields)

/-- The items that the items of a list stand for. -/
def itemsOfJson : List Json → List Value
  | [] => []
  | item :: rest => ofJson item :: itemsOfJson rest

/-- The entries that the fields of an object stand for. -/
def entriesOfJson : List (String × Json) → List (String × Value)
  | [] => []
  | (name, value) :: rest => (Literal.lower name, ofJson value) :: entriesOfJson rest

end

/-! ### Layers -/

/-- The entries of a map; anything else has none. -/
def entries : Value → List (String × Value)
  | map es => es
  | _ => []

/-- The items of a list; anything else has none. -/
def items : Value → List Value
  | list is => is
  | _ => []

/-- The value of an entry. -/
def entry? (v : Value) (name : String) : Option Value := v.entries.lookup name

/-- Entries of which the one of a name has a new value. -/
def setIn (name : String) (value : Value) : List (String × Value) → List (String × Value)
  | [] => [(name, value)]
  | (other, old) :: rest =>
    if other = name then (name, value) :: rest else (other, old) :: setIn name value rest

/-- A map in which the entry of a name has a new value. -/
def set (v : Value) (name : String) (value : Value) : Value := map (setIn name value v.entries)

mutual

/-- Lays a value over the entry of a name. -/
def put (name : String) : Value → Value → Value
  | map new, v => v.set name (putAll new ((v.entry? name).getD (map [])))
  | value, v => v.set name value

/-- Lays entries over a value. -/
def putAll : List (String × Value) → Value → Value
  | [], v => v
  | (name, value) :: rest, v => putAll rest (put name value v)

end

/-! ### Reading -/

/-- The number that a word stands for. -/
def wordNumber? (word : String) : Option Nat :=
  if word = "true" ∨ word = "yes" ∨ word = "on" then some 1
  else if word = "false" ∨ word = "no" ∨ word = "off" then some 0
  else none

/-- The largest number that a setting may have. -/
def largest : Nat := UInt64.size - 1

/-- The nearest number from zero to the largest; what is no number counts as zero. -/
def clamped (x : Binary64) : Nat :=
  if x.isNaN || x.isNegative then 0
  else if x.isFinite then min x.round.toNat largest
  else largest

/-- The number that a value stands for, which is neither negative nor above the largest. -/
def natural? : Value → Option Nat
  | bool b => some (if b then 1 else 0)
  | int n => if 0 ≤ n then some n.toNat else none
  | float x => some (clamped x)
  | text s =>
    match wordNumber? (Literal.lower s) with
    | some n => some n
    | none => (Literal.natural? s).filter (· ≤ largest)
  | _ => none

/-- The text that a value stands for. -/
def text? : Value → Option String
  | bool b => some (if b then "true" else "false")
  | int n => some (toString n)
  | float x => some (x.render .plain)
  | text s => some s
  | _ => none

/-- The name that a value stands for: a text, or the name of the only entry of a map. -/
def name? : Value → Option String
  | text s => some (Literal.lower s)
  | map [(name, _)] => some (Literal.lower name)
  | _ => none

end Value

end KeyLifecycle.Settings
