import KeyLifecycle.Text.Alphanumeric
import KeyLifecycle.Text.Hex

/-!
# Patterns

Whether a text is a pattern, that is, a regular expression that a finite automaton can match. A
pattern is cut into tokens (`token?`): groups open and close, bars part alternatives, a repeater
needs something to repeat, and all else is an atom. An atom is a character, an escape or a set of
characters in brackets, which may be nested and may hold ranges.

An automaton knows neither references to groups nor glances ahead or behind, and the edge of a word
is beyond it, too, as words may be of any script. A pattern stands between braces itself, so that no
count in braces can be closed: an opening brace outside of brackets is refused.
-/

namespace KeyLifecycle.Text.Pattern

/-- The parts of a pattern. -/
inductive Token where
  /-- A group opens; its name is empty if it has none. -/
  | opening (name : List Char)
  | closing
  /-- Flags for what follows. -/
  | setting
  | bar
  | repeater
  | atom
  deriving DecidableEq, Repr

/-! ### Escapes -/

/-- What an escape stands for. -/
inductive Escape where
  | character (code : Nat)
  | set
  | anchor
  deriving DecidableEq, Repr

/-- The character whose number stands at the start, in exactly so many hexadecimal digits. -/
def numbered? (count : Nat) (cs : List Char) : Option (Escape × List Char) := do
  let digits ← (cs.take count).mapM Hex.value?
  guard (digits.length = count)
  let code := digits.foldl (fun n d => 16 * n + d) 0
  guard code.isValidChar
  return (.character code, cs.drop count)

/-- The letters of the classes of characters that have a name of one letter. -/
def classLetters : List Char := "clmnpszCLMNPSZ".toList

/-- The escape that follows a backslash. Any character of ASCII but letters, digits and the angles
may be protected by one. -/
def escape? (cs : List Char) : Option (Escape × List Char) :=
  match cs with
  | [] => none
  | c :: rest =>
    if c = 'x' then numbered? 2 rest
    else if c = 'u' then numbered? 4 rest
    else if c = 'U' then numbered? 8 rest
    else if c = 'p' ∨ c = 'P' then
      match rest with
      | letter :: rest => if letter ∈ classLetters then some (.set, rest) else none
      | [] => none
    else if c ∈ "dDsSwW".toList then some (.set, rest)
    else if c = 'a' then some (.character 7, rest)
    else if c = 'f' then some (.character 12, rest)
    else if c = 't' then some (.character 9, rest)
    else if c = 'n' then some (.character 10, rest)
    else if c = 'r' then some (.character 13, rest)
    else if c = 'v' then some (.character 11, rest)
    else if c = 'A' ∨ c = 'z' then some (.anchor, rest)
    else if 128 ≤ c.toNat ∨ c.isAlphanum ∨ c = '<' ∨ c = '>' then none
    else some (.character c.toNat, rest)

/-! ### Sets in brackets -/

/-- One item of a set. -/
def item? (cs : List Char) : Option (Escape × List Char) :=
  match cs with
  | [] => none
  | '\\' :: rest => (escape? rest).filter (·.1 ≠ .anchor)
  | c :: rest => some (.character c.toNat, rest)

/-- What follows an item or a range of items. A hyphen before a bracket or another hyphen makes no
range, and a range neither ends before it begins nor has a set as its end. -/
def range? (cs : List Char) : Option (List Char) := do
  let (first, rest) ← item? cs
  match rest with
  | '-' :: ']' :: _ => return rest
  | '-' :: '-' :: _ => return rest
  | '-' :: rest =>
    let (last, rest) ← item? rest
    match first, last with
    | .character low, .character high => if low ≤ high then return rest else none
    | _, _ => none
  | _ => return rest

/-- The classes that have names of their own within brackets. -/
def classNames : List String := ["alnum", "alpha", "ascii", "blank", "cntrl", "digit", "graph",
  "lower", "print", "punct", "space", "upper", "word", "xdigit"]

/-- What follows a named class, if one stands behind an opening bracket. -/
def afterClass? (cs : List Char) : Option (List Char) :=
  match cs with
  | ':' :: rest =>
    let rest := if rest.head? = some '^' then rest.drop 1 else rest
    match rest.dropWhile (· ≠ ':') with
    | ':' :: ']' :: after =>
      if String.ofList (rest.takeWhile (· ≠ ':')) ∈ classNames then some after else none
    | _ => none
  | _ => none

/-- What follows the beginning of a set: a negation, hyphens, and a closing bracket that stands for
itself because nothing is in the set yet. -/
def afterOpening (cs : List Char) : List Char :=
  let cs := if cs.head? = some '^' then cs.drop 1 else cs
  match cs with
  | ']' :: rest => rest
  | _ => cs.dropWhile (· = '-')

/-- What follows a set of which so many brackets are open. Every step takes a character at least, so
`fuel` need not be more than there are characters. -/
def set? : Nat → Nat → List Char → Option (List Char)
  | 0, _, _ => none
  | _, _, [] => none
  | fuel + 1, depth, ']' :: rest => if depth ≤ 1 then some rest else set? fuel (depth - 1) rest
  | fuel + 1, depth, '[' :: rest =>
    match afterClass? rest with
    | some after => set? fuel depth after
    | none => set? fuel (depth + 1) (afterOpening rest)
  | fuel + 1, depth, cs@(c :: rest) =>
    if (c = '&' ∨ c = '-' ∨ c = '~') ∧ rest.head? = some c then set? fuel depth (rest.drop 1)
    else (range? cs).bind (set? fuel depth)

/-! ### Groups -/

/-- Whether a character may begin the name of a group. -/
def isNameStart (c : Char) : Bool := c == '_' || (isAlphanumeric c && !c.isDigit)

/-- Whether a character may be in the name of a group. -/
def isNameChar (c : Char) : Bool :=
  isAlphanumeric c || c == '_' || c == '.' || c == '[' || c == ']'

/-- The opening of a group whose name stands at the start, up to a closing angle. -/
def named? (cs : List Char) : Option (Token × List Char) :=
  let name := cs.takeWhile isNameChar
  match cs.dropWhile isNameChar with
  | '>' :: rest => if name.head?.any isNameStart then some (.opening name, rest) else none
  | _ => none

/-- Flags up to a colon, which opens a group, or to a closing bracket. Each of them is written once,
and one hyphen may stand before some of them. -/
def flags? : List Char → List Char → Option (Token × List Char)
  | seen, ')' :: rest =>
    if seen.isEmpty ∨ seen.head? = some '-' then none else some (.setting, rest)
  | seen, ':' :: rest => if seen.head? = some '-' then none else some (.opening [], rest)
  | seen, c :: rest =>
    if c ∈ "imsUuRx-".toList ∧ c ∉ seen then flags? (c :: seen) rest else none
  | _, [] => none

/-- What an opening bracket and a question mark begin. -/
def special? (cs : List Char) : Option (Token × List Char) :=
  match cs with
  | 'P' :: '<' :: rest => named? rest
  | '<' :: rest => named? rest
  | _ => flags? [] cs

/-! ### Patterns -/

/-- The first token of a pattern, and what follows it. -/
def token? (cs : List Char) : Option (Token × List Char) :=
  match cs with
  | [] => none
  | '(' :: '?' :: rest => special? rest
  | '(' :: rest => some (.opening [], rest)
  | ')' :: rest => some (.closing, rest)
  | '|' :: rest => some (.bar, rest)
  | '[' :: rest => (set? (rest.length + 1) 1 (afterOpening rest)).map (.atom, ·)
  | '\\' :: rest => (escape? rest).map fun (_, rest) => (.atom, rest)
  | c :: rest =>
    if c = '*' ∨ c = '+' ∨ c = '?' then some (.repeater, rest)
    else if c = '\x7b' then none
    else some (.atom, rest)

/-- The tokens of a pattern. Every token takes a character at least. -/
def tokens? : Nat → List Char → Option (List Token)
  | _, [] => some []
  | 0, _ => none
  | fuel + 1, cs => do
    let (token, rest) ← token? cs
    return token :: (← tokens? fuel rest)

/-- Whether tokens go together, where so many groups are open, `repeatable` says that there is
something to repeat, and `names` are those of the groups so far. -/
def fits (names : List (List Char)) : Nat → Bool → List Token → Bool
  | openings, _, [] => openings = 0
  | openings, repeatable, token :: rest =>
    match token with
    | .opening [] => fits names (openings + 1) false rest
    | .opening name => name ∉ names && fits (name :: names) (openings + 1) false rest
    | .closing => 0 < openings && fits names (openings - 1) true rest
    | .setting => fits names openings false rest
    | .bar => fits names openings false rest
    | .repeater => repeatable && fits names openings true rest
    | .atom => fits names openings true rest

/-- Whether a text is a pattern. -/
def isPattern (cs : List Char) : Bool := (tokens? cs.length cs).any (fits [] 0 false)

end KeyLifecycle.Text.Pattern
