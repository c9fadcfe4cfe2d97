import KeyLifecycle.Event
import KeyLifecycle.Number.Literal
import KeyLifecycle.Text.Blank
import KeyLifecycle.Text.Pattern

/-!
# Directives of a log filter

A directive is a level; or an origin, where events come from; or an origin, a span in brackets and a
level behind an equals sign, of which the first two may be absent. A span has a name and, in braces,
a field that may have a value. An origin without a level stands for all levels, as does an equals
sign with nothing behind it.

A level is a word in any case or a number from zero, `off`, to five, `trace`. The value of a field
is a number or a pattern.

A directive is recognized without the blanks at its ends, and its parts are cut out of the text with
them, at the same distances from the start. So a blank in front shifts every part, and where a part
would begin or end within a character the run breaks down.
-/

namespace KeyLifecycle

/-- A field that a directive asks for. -/
structure LogField where
  name : String
  hasValue : Bool
  deriving DecidableEq, Repr

/-- One directive of a filter. -/
structure LogDirective where
  /-- What the origins begin with; any origin will do if there is none. -/
  origin : Option String
  /-- Whether it asks for a span. -/
  hasSpan : Bool
  /-- The field that it asks for. -/
  field : Option LogField
  /-- The rank of the quietest level that is logged. -/
  rank : Nat
  deriving DecidableEq, Repr

namespace LogDirective

/-- Why a text is no directive. -/
inductive Fault where
  | malformed
  | breakdown
  deriving DecidableEq, Repr

/-! ### Levels -/

/-- The rank of the quietest level that a word lets through. -/
def wordRank? (word : String) : Option Nat :=
  let word := Literal.lower word
  if word = "off" then some 0
  else if word = "error" then some Level.error.rank
  else if word = "warn" then some Level.warn.rank
  else if word = "info" then some Level.info.rank
  else if word = "debug" then some Level.debug.rank
  else if word = "trace" then some Level.trace.rank
  else none

/-- The rank of the quietest level that a word or a number lets through. -/
def rank? (written : String) : Option Nat :=
  match Literal.natural? written with
  | some n => if n ≤ Level.trace.rank then some n else none
  | none => wordRank? written

/-! ### Parts -/

/-- What is left of a text behind so many bytes, unless they end within a character. -/
def dropBytes? : Nat → List Char → Option (List Char)
  | 0, cs => some cs
  | _, [] => none
  | n, c :: cs => if c.utf8Size ≤ n then dropBytes? (n - c.utf8Size) cs else none

/-- So many bytes of a text, unless they end within a character. -/
def takeBytes? : Nat → List Char → Option (List Char)
  | 0, _ => some []
  | _, [] => none
  | n, c :: cs =>
    if c.utf8Size ≤ n then (takeBytes? (n - c.utf8Size) cs).map (c :: ·) else none

/-- The part of a text between two distances from its start, in bytes. -/
def cut (text : List Char) (start stop : Nat) : Except Fault String :=
  match (dropBytes? start text).bind (takeBytes? (stop - start)) with
  | some cs => .ok (String.ofList cs)
  | none => .error .breakdown

/-- The part of a text from a distance from its start on, in bytes. -/
def cutFrom (text : List Char) (start : Nat) : Except Fault String :=
  match dropBytes? start text with
  | some cs => .ok (String.ofList cs)
  | none => .error .breakdown

/-- The field that a text asks for. A second equals sign ends its value. -/
def fieldOf (written : String) : Except Fault LogField :=
  let cs := written.toList
  let name := String.ofList (cs.takeWhile (· ≠ '='))
  match cs.dropWhile (· ≠ '=') with
  | [] => if cs.isEmpty then .error .malformed else .ok ⟨name, false⟩
  | _ :: rest =>
    let value := rest.takeWhile (· ≠ '=')
    if (Literal.float? (String.ofList value)).isSome || Text.Pattern.isPattern value then
      .ok ⟨name, true⟩
    else .error .malformed

/-! ### Reading -/

/-- Where in a directive one is, and how far from the start the part in question begins. -/
inductive Place where
  | start
  | word
  | span (start : Nat)
  | field (start : Nat)
  | afterField
  | afterSpan
  | level (start : Nat)
  deriving DecidableEq, Repr

/-- What has been read of a directive. -/
structure Draft where
  place : Place := .start
  origin : Option String := none
  hasSpan : Bool := false
  field : Option LogField := none

/-- Whether a character may begin an origin or a level. -/
def isWordStart (c : Char) : Bool := Text.isAlphanumeric c || c == '-' || c == ':' || c == '_'

/-- Takes up the character that stands at a distance from the start of a text. -/
def Draft.next (text : List Char) (d : Draft) (here : Nat) (c : Char) : Except Fault Draft :=
  match d.place with
  | .start =>
    if c = '[' then .ok { d with place := .span (here + 1) }
    else if isWordStart c then .ok { d with place := .word }
    else .error .malformed
  | .word =>
    if c = '=' then do
      return { d with place := .level (here + 1), origin := ← cut text 0 here }
    else if c = '[' then do
      return { d with place := .span (here + 1), origin := ← cut text 0 here }
    else .ok d
  | .span start =>
    if c = ']' then do
      let _ ← cut text start here
      return { d with place := .afterSpan, hasSpan := true }
    else if c = '\x7b' then do
      let name ← cut text start here
      return { d with place := .field (here + 1), hasSpan := !name.isEmpty }
    else .ok d
  | .field start =>
    if c = '\x7d' then do
      let field ← fieldOf (← cut text start here)
      return { d with place := .afterField, field := some field }
    else .ok d
  | .afterField => if c = ']' then .ok { d with place := .afterSpan } else .error .malformed
  | .afterSpan => if c = '=' then .ok { d with place := .level (here + 1) } else .error .malformed
  | .level _ => .ok d

/-- Takes up characters, the first of which stands at a distance from the start of a text. -/
def Draft.read (text : List Char) (d : Draft) (here : Nat) : List Char → Except Fault Draft
  | [] => .ok d
  | c :: rest =>
    match d.next text here c with
    | .ok d => d.read text (here + c.utf8Size) rest
    | .error fault => .error fault

/-- The directive of a draft that has come to the end of its text. -/
def Draft.finish (text : List Char) (d : Draft) : Except Fault LogDirective :=
  match d.place with
  | .word =>
    let whole := String.ofList text
    match rank? whole with
    | some rank => .ok ⟨none, false, none, rank⟩
    | none => .ok ⟨some whole, false, none, Level.trace.rank⟩
  | .afterSpan => .ok ⟨d.origin, d.hasSpan, d.field, Level.trace.rank⟩
  | .level start => do
    let written ← cutFrom text start
    if written.isEmpty then return ⟨d.origin, d.hasSpan, d.field, Level.trace.rank⟩
    match rank? written with
    | some rank => return ⟨d.origin, d.hasSpan, d.field, rank⟩
    | none => .error .malformed
  | _ => .error .malformed

/-- The directive that a text is. -/
def ofText (text : List Char) : Except Fault LogDirective := do
  let draft : Draft := {}
  let draft ← draft.read text 0 (Text.trimBlanks text)
  draft.finish text

/-! ### Events -/

/-- Whether a directive is for no event at all: there are no spans, and a field is looked up in one
if it has a value. -/
def isIdle (d : LogDirective) : Bool := d.hasSpan || d.field.any (·.hasValue)

/-- Whether an event has a field; every event has a message. -/
def hasField (event : Event) (name : String) : Bool :=
  name == "message" || event.fields.any (·.1 = name)

/-- Whether a directive is for an event. -/
def isFor (d : LogDirective) (event : Event) : Bool :=
  !d.isIdle &&
    d.origin.all (fun origin => origin.toList.isPrefixOf event.origin.toList) &&
    d.field.all (fun field => hasField event field.name)

/-- The length of a directive's origin; no origin at all is shorter than any. -/
def reach (d : LogDirective) : Nat := d.origin.elim 0 (·.utf8ByteSize + 1)

/-- Whether a directive, of two that are for the same event, is at least as special as another: its
origin is longer, or the origins are the same and it alone asks for a field, or for the field whose
name comes later. -/
def isAsSpecialAs (d other : LogDirective) : Bool :=
  if d.reach ≠ other.reach then other.reach < d.reach
  else
    match d.field, other.field with
    | _, none => true
    | none, some _ => false
    | some f, some g => !(f.name < g.name)

end LogDirective

end KeyLifecycle
