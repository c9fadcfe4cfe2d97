import KeyLifecycle.Command

/-!
# The arguments of the command line

`Invocation.ofArguments` reads a list of arguments as a command. There are three levels: the
program, a group of commands, a command. Each has its own options, and `--as` belongs to all of
them; of several values the one at the deepest level counts.

Arguments are judged from left to right:

* the name of a subcommand opens its level, unless an option waits for its value;
* an option is attached to its value by `=`, or its value is the next argument, which must not look
  like an option;
* after `--` every argument is an operand;
* an option is entered only when the next one, an operand or the end of its level comes, and the
  faults of being without value or being there twice count at that point. An argument that is
  unknown is a fault before that. The end of a level comes after that of the level below it.
-/

namespace KeyLifecycle

namespace Arguments

/-- Why arguments are no command; to ask for help or the version counts as a reason, too. -/
inductive Fault where
  | help
  | version
  /-- Nothing follows where a command is needed. -/
  | nothingGiven
  /-- An option is there where a command is needed, but no command. -/
  | missingSubcommand
  | invalidSubcommand
  | unknownArgument
  | missingOperand
  /-- An option is without its value. -/
  | missingValue
  /-- An option is there twice at one level. -/
  | repeated
  /-- An option that takes no value has one attached. -/
  | unneededValue
  deriving DecidableEq, Repr

/-! ### The levels -/

/-- The commands at the end of the line. -/
inductive Leaf where
  | migrate
  | add
  | create
  | list
  | delete
  | rotate
  deriving DecidableEq, Repr

/-- Where in the line an argument stands. -/
inductive Level where
  | program
  | users
  | keys
  | leaf (leaf : Leaf)
  deriving DecidableEq, Repr

/-- An option with a value. -/
inductive Valued where
  | actingAs
  | user
  deriving DecidableEq, Repr

namespace Level

/-- The level that a name opens. -/
def subcommand? : Level → String → Option Level
  | program, "migrate" => some (leaf .migrate)
  | program, "user" => some users
  | program, "keys" => some keys
  | users, "add" => some (leaf .add)
  | keys, "create" => some (leaf .create)
  | keys, "list" => some (leaf .list)
  | keys, "delete" => some (leaf .delete)
  | keys, "rotate" => some (leaf .rotate)
  | _, _ => none

/-- Whether a level has subcommands. -/
def isGroup : Level → Bool
  | leaf _ => false
  | _ => true

/-- Whether a name is that of a subcommand; each group has one for help. -/
def isSubcommand (level : Level) (name : String) : Bool :=
  level.isGroup && (name == "help" || (level.subcommand? name).isSome)

/-- The option with a value that has a name. -/
def valued? (level : Level) (name : String) : Option Valued :=
  if name = "as" then some .actingAs
  else if name = "user" then
    match level with
    | leaf .create | leaf .list | leaf .delete | leaf .rotate => some .user
    | _ => none
  else none

/-- Whether a command has an operand. -/
def hasOperand : Level → Bool
  | leaf .add | leaf .delete | leaf .rotate => true
  | _ => false

end Level

/-! ### What has been read at a level -/

/-- An option without a value. -/
inductive Switch where
  | admin
  | help
  | version
  deriving DecidableEq, Repr

/-- The option without a value that has a name. -/
def Level.switch? (level : Level) (name : String) : Option Switch :=
  if name = "help" then some .help
  else if name = "version" ∧ level = .program then some .version
  else if name = "admin" ∧ level = .leaf .add then some .admin
  else none

/-- The option without a value that has a letter. -/
def Level.letter? (level : Level) (letter : Char) : Option Switch :=
  if letter = 'h' then some .help
  else if letter = 'V' ∧ level = .program then some .version
  else none

/-- What has been entered at a level, and the option that has not been entered yet. -/
structure Entries where
  actingAs : Option String := none
  user : Option String := none
  admin : Bool := false
  operand : Option String := none
  unentered : Option (Valued × Option String) := none

namespace Entries

/-- Enters an option with its value. -/
def enter (e : Entries) (option : Valued) (value : String) : Except Fault Entries :=
  match option with
  | .actingAs =>
    if e.actingAs.isSome then .error .repeated else .ok { e with actingAs := some value }
  | .user => if e.user.isSome then .error .repeated else .ok { e with user := some value }

/-- Enters the option that has not been entered yet. -/
def close (e : Entries) : Except Fault Entries :=
  match e.unentered with
  | none => .ok e
  | some (_, none) => .error .missingValue
  | some (option, some value) => { e with unentered := none }.enter option value

/-- Whether an option waits for its value. -/
def awaitsValue (e : Entries) : Bool :=
  match e.unentered with
  | some (_, none) => true
  | _ => false

/-- Takes an argument as the value of the option that waits for it. -/
def giveValue (e : Entries) (value : String) : Entries :=
  { e with unentered := e.unentered.map fun (option, _) => (option, some value) }

/-- Throws a switch. -/
def throwSwitch (e : Entries) : Switch → Except Fault Entries
  | .help => .error .help
  | .version => .error .version
  | .admin => if e.admin then .error .repeated else .ok { e with admin := true }

/-- Takes an option by its name, with a value if one is attached. -/
def takeLong (e : Entries) (level : Level) (name : String) (attached : Option String) :
    Except Fault Entries :=
  match level.valued? name with
  | some option => do
    let e ← e.close
    match attached with
    | some value => e.enter option value
    | none => return { e with unentered := some (option, none) }
  | none =>
    match level.switch? name with
    | none => .error .unknownArgument
    | some switch =>
      if attached.isSome then .error .unneededValue
      else do
        let e ← e.close
        e.throwSwitch switch

/-- Takes a group of letters, of which the first one decides. -/
def takeLetters (e : Entries) (level : Level) (first : Char) : Except Fault Entries :=
  match level.letter? first with
  | none => .error .unknownArgument
  | some switch => do
    let e ← e.close
    e.throwSwitch switch

/-- Takes an operand. -/
def takeOperand (e : Entries) (level : Level) (afterDashes : Bool) (operand : String) :
    Except Fault Entries :=
  if level.hasOperand ∧ e.operand.isNone then do
    let e ← e.close
    return { e with operand := some operand }
  else if level.isGroup ∧ !(afterDashes && level.isSubcommand operand) then
    .error .invalidSubcommand
  else .error .unknownArgument

end Entries

/-! ### The shape of an argument -/

/-- What an argument looks like. -/
inductive Shape where
  | dashes
  /-- Two dashes, a name, and what follows the first equals sign. -/
  | long (name : String) (attached : Option String)
  /-- A dash and letters. -/
  | letters (first : Char)
  | word

/-- What an argument looks like. -/
def Shape.of (arg : String) : Shape :=
  match arg.toList with
  | ['-', '-'] => dashes
  | '-' :: '-' :: rest =>
    long (String.ofList (rest.takeWhile (· ≠ '=')))
      (match rest.dropWhile (· ≠ '=') with
        | [] => none
        | _ :: value => some (String.ofList value))
  | '-' :: first :: _ => letters first
  | _ => word

/-! ### The whole line -/

/-- Whether names lead from subcommand to subcommand. -/
def leads (level : Level) : List String → Bool
  | [] => true
  | name :: rest =>
    match level.subcommand? name with
    | some next => leads next rest
    | none => level.isSubcommand name && rest.isEmpty

/-- What a whole line says. -/
structure Line where
  leaf : Leaf
  /-- What has been entered for the command. -/
  entries : Entries
  /-- The value of `--as` at the deepest level that has one. -/
  actingAs : Option String

/-- The end of the line at a level. -/
def finish (level : Level) (e : Entries) : Except Fault Line := do
  let e ← e.close
  match level with
  | .leaf leaf =>
    if level.hasOperand ∧ e.operand.isNone then .error .missingOperand
    else return ⟨leaf, e, e.actingAs⟩
  | _ => .error (if e.actingAs.isSome then .missingSubcommand else .nothingGiven)

/-- Reads the arguments from a level on. -/
def read (level : Level) (afterDashes : Bool) (e : Entries) : List String → Except Fault Line
  | [] => finish level e
  | arg :: rest =>
    if afterDashes then do
      let e ← e.takeOperand level true arg
      read level true e rest
    else if level.isSubcommand arg && !e.awaitsValue then
      match level.subcommand? arg with
      | none => .error (if leads level rest then .help else .invalidSubcommand)
      | some next => do
        let line ← read next false {} rest
        let e ← e.close
        return { line with actingAs := line.actingAs <|> e.actingAs }
    else
      match Shape.of arg with
      | .dashes => read level true e rest
      | .long name attached => do
        let e ← e.takeLong level name attached
        read level false e rest
      | .letters first => do
        let e ← e.takeLetters level first
        read level false e rest
      | .word =>
        if e.awaitsValue then read level false (e.giveValue arg) rest
        else do
          let e ← e.takeOperand level false arg
          read level false e rest

/-- The command of a line. -/
def Line.command (line : Line) : Command :=
  let operand := line.entries.operand.getD ""
  match line.leaf with
  | .migrate => .migrate
  | .add => .addUser operand line.entries.admin
  | .create => .keys (.create line.entries.user)
  | .list => .keys (.list line.entries.user)
  | .delete => .keys (.delete operand line.entries.user)
  | .rotate => .keys (.rotate operand line.entries.user)

end Arguments

/-- Reads a list of arguments, the name of the program not among them. -/
def Invocation.ofArguments (args : List String) : Except Arguments.Fault Invocation := do
  let line ← Arguments.read .program false {} args
  return ⟨line.command, line.actingAs⟩

end KeyLifecycle
