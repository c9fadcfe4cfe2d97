import KeyLifecycle.Text.Alphanumeric
import KeyLifecycle.Text.Blank

/-!
# Files of variables

A file may define variables of the environment, one a line: a name, an equals sign and a value;
`export` may stand in front. A variable that is defined already keeps its value. The first line that
cannot be read ends the file, and what was before it counts. No variable can have a value with the
character NUL, so a line that would give it one breaks the run down.

A value ends at the first blank that is outside of quotes, and only a comment may follow. Within
double quotes and outside of quotes a backslash protects the next character, and `$` stands for the
value of a variable. A value in quotes may go on in the next line.

An environment is a list of entries, each of which is a name, an equals sign and a value. The value
of a name is what follows the name and an equals sign in the first entry that begins with both; so a
name that has an equals sign of its own may reach into the value of a shorter one.
-/

namespace KeyLifecycle.Settings.VariableFile

/-- The variables of an environment. -/
abbrev Variables := List (String × String)

/-! ### Lines -/

/-- Where in a line one is. -/
inductive Place where
  | plain
  | afterBlank
  | escaped
  | weak
  | weakEscaped
  | strong
  | strongEscaped
  deriving DecidableEq, Repr

/-- The place after a character. -/
def Place.after (place : Place) (c : Char) : Place :=
  let opening : Place :=
    if c = '\\' then escaped else if c = '"' then weak else if c = '\'' then strong else plain
  match place with
  | plain =>
    if Text.isBlank c && c ≠ '\n' && c ≠ '\r' then afterBlank else opening
  | afterBlank => opening
  | escaped => plain
  | weak => if c = '\\' then weakEscaped else if c = '"' then plain else weak
  | weakEscaped => weak
  | strong => if c = '\\' then strongEscaped else if c = '\'' then plain else strong
  | strongEscaped => strong

/-- How a line ends that begins at a place: its characters without a comment, and the place after
them; or nothing is left of it but a comment. -/
def scan : Place → List Char → List Char × Option Place
  | place, [] => ([], some place)
  | place, c :: rest =>
    if place = .afterBlank ∧ c = '#' then ([], none)
    else
      let (kept, after) := scan (place.after c) rest
      (c :: kept, after)

/-- A text in lines, each with its newline. -/
def splitLines : List Char → List (List Char)
  | [] => []
  | '\n' :: rest => ['\n'] :: splitLines rest
  | c :: rest =>
    match splitLines rest with
    | [] => [[c]]
    | line :: lines => (c :: line) :: lines

/-- A line without its newline. -/
def dropNewline (line : List Char) : List Char :=
  match line.reverse with
  | '\n' :: '\r' :: rest => rest.reverse
  | '\n' :: rest => rest.reverse
  | _ => line

/-- Whether nothing stands before a number sign but blanks. -/
def isComment (line : List Char) : Bool := (line.dropWhile Text.isBlank).head? == some '#'

/-- Lines in which those that quotes hold together are one; `none` at the end stands for a line that
does not come to its end. -/
def joinLines : List Char → Place → List (List Char) → List (Option (List Char))
  | _, .plain, [] => []
  | _, _, [] => [none]
  | sofar, place, line :: rest =>
    if isComment (sofar ++ line) then some [] :: joinLines [] .plain rest
    else
      match scan place line with
      | (kept, none) => some (sofar ++ kept) :: joinLines [] .plain rest
      | (_, some .plain) => some (dropNewline (sofar ++ line)) :: joinLines [] .plain rest
      | (_, some place) => joinLines (sofar ++ line) place rest

/-! ### Values -/

/-- What a reader of a value has to keep in mind. -/
inductive Mode where
  | plain
  /-- Only blanks and a comment may follow. -/
  | ended
  | weak
  | strong
  deriving DecidableEq, Repr

/-- What follows a beginning in a text that begins so. -/
def after? (beginning text : List Char) : Option (List Char) :=
  if beginning.isPrefixOf text then some (text.drop beginning.length) else none

/-- The value of a name; nothing if there is none. No entry has an empty name. -/
def valueOf (vars : Variables) (name : List Char) : List Char :=
  if name.isEmpty then []
  else
    (vars.findSome? fun (entry, value) =>
      after? (name ++ ['=']) (entry.toList ++ '=' :: value.toList)).getD []

/-- Whether a character may be in the name of a variable that is referred to. -/
def isReferenceChar (c : Char) : Bool := Text.isAlphanumeric c

/-- What stands behind a `$`: a name in braces, or as many letters and digits as there are. The
character after such letters and digits loses its meaning, unless it is another `$`. Gives the name,
that character and what follows. A brace that is not closed is refused. -/
def reference? (cs : List Char) : Option (List Char × List Char × List Char) :=
  match cs with
  | '\x7b' :: rest =>
    match rest.dropWhile (· ≠ '\x7d') with
    | _ :: after => some (rest.takeWhile (· ≠ '\x7d'), [], after)
    | [] => none
  | _ =>
    match cs.dropWhile isReferenceChar with
    | c :: after =>
      if c = '$' then some (cs.takeWhile isReferenceChar, [], c :: after)
      else some (cs.takeWhile isReferenceChar, [c], after)
    | [] => some (cs, [], [])

/-- The value that characters stand for. Every step takes a character, so `fuel` need not be more
than there are. -/
def value? (vars : Variables) : Nat → Mode → List Char → Option (List Char)
  | _, mode, [] => if mode = .weak ∨ mode = .strong then none else some []
  | 0, _, _ => none
  | fuel + 1, mode, c :: rest =>
    match mode with
    | .ended =>
      if c = ' ' ∨ c = '\t' then value? vars fuel .ended rest
      else if c = '#' then some []
      else none
    | .strong =>
      if c = '\'' then value? vars fuel .plain rest
      else (value? vars fuel .strong rest).map (c :: ·)
    | _ =>
      if c = '$' then
        match reference? rest with
        | none => none
        | some (name, plain, after) =>
          (value? vars fuel mode after).map (valueOf vars name ++ plain ++ ·)
      else if c = '\\' then
        match rest with
        | [] => if mode = .weak then none else some []
        | e :: after =>
          if e = '\\' ∨ e = '\'' ∨ e = '"' ∨ e = '$' ∨ e = ' ' then
            (value? vars fuel mode after).map (e :: ·)
          else if e = 'n' then (value? vars fuel mode after).map ('\n' :: ·)
          else none
      else if mode = .weak then
        if c = '"' then value? vars fuel .plain rest
        else (value? vars fuel .weak rest).map (c :: ·)
      else if c = '\'' then value? vars fuel .strong rest
      else if c = '"' then value? vars fuel .weak rest
      else if c = ' ' ∨ c = '\t' then value? vars fuel .ended rest
      else (value? vars fuel .plain rest).map (c :: ·)

/-! ### Definitions -/

/-- Whether a character may begin the name of a variable. -/
def isNameStart (c : Char) : Bool := c.isAlpha || c == '_'

/-- Whether a character may be in the name of a variable. -/
def isNameChar (c : Char) : Bool := c.isAlphanum || c == '_' || c == '.'

/-- A name at the start, without the blanks that follow it. -/
def name? (cs : List Char) : Option (List Char × List Char) :=
  if cs.head?.any isNameStart then
    some (cs.takeWhile isNameChar, (cs.dropWhile isNameChar).dropWhile Text.isBlank)
  else none

/-- What a line defines: a name and the characters of its value. -/
def definition? (line : List Char) : Option (List Char × List Char) := do
  let (name, rest) ← name? line
  match rest with
  | '=' :: value => return (name, value.dropWhile Text.isBlank)
  | _ =>
    if name = "export".toList then do
      let (name, rest) ← name? rest
      match rest with
      | '=' :: value => return (name, value.dropWhile Text.isBlank)
      | _ => none
    else none

/-- Why a line defines nothing. -/
inductive Fault where
  | unreadable
  | breakdown
  deriving DecidableEq, Repr

/-- The name and the value that a line defines, if it is not empty; blanks at its end do not count.
-/
def read (vars : Variables) (line : List Char) : Except Fault (Option (String × List Char)) :=
  let line := Text.trimBlanks line
  if line.isEmpty || line.head? == some '#' then .ok none
  else
    match definition? line with
    | none => .error .unreadable
    | some (name, written) =>
      let value? := if written.head? == some '#' then some []
        else value? vars written.length .plain written
      match value? with
      | none => .error .unreadable
      | some value => .ok (some (String.ofList name, value))

/-- Adds the variable that a line defines. -/
def define (vars : Variables) (line : List Char) : Except Fault Variables :=
  match read vars line with
  | .error fault => .error fault
  | .ok none => .ok vars
  | .ok (some (name, value)) =>
    if (vars.lookup name).isSome then .ok vars
    else if value.contains '\x00' then .error .breakdown
    else .ok (vars ++ [(name, String.ofList value)])

/-- Adds what lines define up to the first one that cannot be read, unless one breaks down. -/
def defineAll (vars : Variables) : List (Option (List Char)) → Option Variables
  | [] => some vars
  | none :: _ => some vars
  | some line :: rest =>
    match define vars line with
    | .ok vars => defineAll vars rest
    | .error .unreadable => some vars
    | .error .breakdown => none

/-- The characters of a text without the mark of its byte order. -/
def unmarked (cs : List Char) : List Char :=
  match cs with
  | '\uFEFF' :: rest => rest
  | _ => cs

/-- Adds what a file defines to an environment, unless a line breaks down. -/
def extend (vars : Variables) (text : Option String) : Option Variables :=
  match text with
  | none => some vars
  | some text => defineAll vars (joinLines [] .plain (splitLines (unmarked text.toList)))

end KeyLifecycle.Settings.VariableFile
