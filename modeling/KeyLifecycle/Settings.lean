import KeyLifecycle.Json.Reader
import KeyLifecycle.Settings.Environment

/-!
# Settings

The settings of the program and how they are loaded: a file of defaults, a file for the place, and
the environment, each laid over the one before. A leaf that no source names keeps its built-in
value; unknown names are passed over. A section may be a list, too, of its leaves in their order.
Loading fails if a file is not a JSON object, if a section is neither map nor list, if a value does
not fit its leaf, or if one of two numbers is zero that must not be. It breaks down if an index
leads to a place that no list has.
-/

namespace KeyLifecycle

namespace Settings

/-- How log lines are written. -/
inductive LogFormat where
  | pretty
  | json
  deriving DecidableEq, Repr

/-- The name of a format. -/
def LogFormat.name : LogFormat → String
  | pretty => "pretty"
  | json => "json"

/-- How the database is reached. -/
structure Database where
  url : String := "postgres://localhost/keyward"
  maxConnections : UInt32 := 10
  minConnections : UInt32 := 1
  /-- In seconds. -/
  connectTimeout : UInt64 := 30
  /-- In seconds. -/
  idleTimeout : UInt64 := 600
  deriving DecidableEq, Repr

/-- What is logged and how. -/
structure Logging where
  level : String := "info"
  format : LogFormat := .pretty
  deriving DecidableEq, Repr

/-- How credentials are worked on. -/
structure Credentials where
  /-- The time that an operation may take, in seconds. -/
  operationTimeout : UInt64 := 30
  deriving DecidableEq, Repr

end Settings

/-- The settings of the program. -/
structure Settings where
  database : Settings.Database := {}
  logging : Settings.Logging := {}
  credentials : Settings.Credentials := {}
  deriving DecidableEq, Repr

namespace Settings

/-- Why settings cannot be loaded. -/
inductive Fault where
  /-- A source cannot be read, or a value does not fit. -/
  | malformed
  /-- Operations would have no time at all. -/
  | noTime
  /-- There would be no connection to the database. -/
  | noConnections
  /-- An index leads out of its list. -/
  | breakdown
  deriving DecidableEq, Repr

/-- The wording of a fault. -/
def Fault.message : Fault → String
  | malformed => "settings are malformed"
  | noTime => "credentials.operation_timeout_secs must be at least 1"
  | noConnections => "database.max_connections must be at least 1"
  | breakdown => "a setting has no place in its list"

/-! ### Leaves -/

/-- The value of a leaf of a section, which stands at a place of a list or under a name of a map, or
its built-in value. -/
def leaf {α : Type} (part : Value) (place : Nat) (name : String) (read? : Value → Option α)
    (builtIn : α) : Except Fault α :=
  let written := match part with
    | .list items => items[place]?
    | other => other.entry? name
  match written with
  | none => .ok builtIn
  | some value =>
    match read? value with
    | some a => .ok a
    | none => .error .malformed

/-- A section, which is empty if no source names it. -/
def sectionOf (tree : Value) (name : String) : Except Fault Value :=
  match tree.entry? name with
  | none => .ok (.map [])
  | some (.map entries) => .ok (.map entries)
  | some (.list items) => .ok (.list items)
  | some _ => .error .malformed

/-- A number of connections. -/
def connections? (v : Value) : Option UInt32 :=
  (v.natural?.filter (· < UInt32.size)).map UInt32.ofNat

/-- A number of seconds. -/
def seconds? (v : Value) : Option UInt64 := v.natural?.map UInt64.ofNat

/-- The format of log lines. -/
def format? (v : Value) : Option LogFormat :=
  v.name?.bind fun name =>
    if name = LogFormat.json.name then some .json
    else if name = LogFormat.pretty.name then some .pretty
    else none

/-- The settings of a tree of values. -/
def ofValue (tree : Value) : Except Fault Settings := do
  let database ← sectionOf tree "database"
  let logging ← sectionOf tree "logging"
  let credentials ← sectionOf tree "credentials"
  let b : Settings := {}
  return {
    database := {
      url := ← leaf database 0 "url" Value.text? b.database.url
      maxConnections := ← leaf database 1 "max_connections" connections? b.database.maxConnections
      minConnections := ← leaf database 2 "min_connections" connections? b.database.minConnections
      connectTimeout := ← leaf database 3 "connect_timeout_secs" seconds? b.database.connectTimeout
      idleTimeout := ← leaf database 4 "idle_timeout_secs" seconds? b.database.idleTimeout }
    logging := {
      level := ← leaf logging 0 "level" Value.text? b.logging.level
      format := ← leaf logging 1 "format" format? b.logging.format }
    credentials := {
      operationTimeout :=
        ← leaf credentials 0 "operation_timeout_secs" seconds? b.credentials.operationTimeout } }

/-- Refuses numbers that would make every operation fail. -/
def validate (s : Settings) : Except Fault Settings :=
  if s.credentials.operationTimeout = 0 then .error .noTime
  else if s.database.maxConnections = 0 then .error .noConnections
  else .ok s

/-! ### Sources -/

/-- What stands for a value, or a breakdown where there is no place for it. -/
def placed (v : Option Value) : Except Fault Value :=
  match v with
  | some v => .ok v
  | none => .error .breakdown

/-- Lays what a file says over a value; the names of its outermost entries are paths. -/
def putFile (text : Option String) (v : Value) : Except Fault Value :=
  match text with
  | none => .ok v
  | some text =>
    match (Json.ofText? text).map Value.ofJson with
    | some (.map entries) =>
      placed (entries.foldlM (fun v (name, value) => Value.putAt (Path.ofText name) value v) v)
    | _ => .error .malformed

/-- What the sources say together: two files, which need not be there, and the environment. -/
def layered (defaults place : Option String) (vars : List (String × String)) :
    Except Fault Value := do
  let v ← putFile defaults (.map [])
  let v ← putFile place v
  placed (Value.putVariables vars v)

/-- Loads the settings from two files, which need not be there, and the environment. -/
def load (defaults place : Option String) (vars : List (String × String)) :
    Except Fault Settings := do
  let tree ← layered defaults place vars
  let settings ← ofValue tree
  settings.validate

end Settings

end KeyLifecycle
