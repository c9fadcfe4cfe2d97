import KeyLifecycle.Arguments
import KeyLifecycle.Database.Migration
import KeyLifecycle.Database.Procedure
import KeyLifecycle.Json.Printer
import KeyLifecycle.LogFilter
import KeyLifecycle.Settings
import KeyLifecycle.Settings.VariableFile

/-!
# A run of the program

`Launch.prepare` takes the arguments, the files and the environment to a `Launch`, or ends the run:
the arguments are judged first, then whether somebody is named as whom to work on credentials, and
then the settings. A launch needs a connection to the database, and `Launch.exchange` is the
conversation that it has there.

`Ending` is how a run ends: what is printed, what is complained of, and the exit code. Users and
keys show their failures as a client may see them; migrations show them in full. A run that breaks
down prints nothing and has an exit code of its own.
-/

namespace KeyLifecycle

/-- How a run of the program ends. -/
inductive Ending where
  /-- A document is printed. -/
  | printed (document : Json)
  | help
  | version
  /-- The arguments are no command. -/
  | misused (fault : Arguments.Fault)
  /-- The run fails, for the given reason. -/
  | failed (complaint : String)
  /-- The run breaks down. -/
  | broken

namespace Ending

/-- The exit code. -/
def exitCode : Ending → UInt8
  | printed _ => 0
  | help => 0
  | version => 0
  | misused _ => 2
  | failed _ => 1
  | broken => 101

/-- How to use the program. -/
def usage : String :=
  "Usage: keyward [--as <SLUG>] <migrate | user add | keys create | keys list | keys delete | " ++
    "keys rotate>"

/-- The program and its version. -/
def versionText : String := "keyward 0.1.0"

/-- What is printed. -/
def output : Ending → String
  | printed document => document.sorted.pretty ++ "\n"
  | help => usage ++ "\n"
  | version => versionText ++ "\n"
  | misused _ => ""
  | failed _ => ""
  | broken => ""

/-- What is complained of. -/
def complaint : Ending → String
  | misused _ => usage ++ "\n"
  | failed reason => "Error: " ++ reason ++ "\n"
  | _ => ""

/-- The ending of arguments that are no command. -/
def ofFault : Arguments.Fault → Ending
  | .help => help
  | .version => version
  | fault => misused fault

/-- The ending of settings that cannot be loaded. -/
def ofSettingsFault : Settings.Fault → Ending
  | .breakdown => broken
  | fault => failed fault.message

end Ending

/-- What a run finds: its arguments, the texts of three files, which need not be there, and the
variables of the environment. -/
structure Surroundings where
  arguments : List String
  variableFile : Option String
  defaultsFile : Option String
  placeFile : Option String
  environment : Settings.VariableFile.Variables

/-- How connections to the database are kept. -/
structure PoolOptions where
  maxConnections : UInt32
  minConnections : UInt32
  /-- In seconds. -/
  acquireTimeout : UInt64
  /-- In seconds. -/
  idleTimeout : UInt64
  deriving DecidableEq, Repr

/-- How connections are kept; no more are kept open than there may be. -/
def Settings.Database.pool (s : Settings.Database) : PoolOptions :=
  ⟨s.maxConnections, min s.minConnections s.maxConnections, s.connectTimeout, s.idleTimeout⟩

/-- What there is to be said about connecting before anybody tries. -/
inductive Prospect where
  | open
  /-- The first connection is given up before it is there. -/
  | hopeless
  /-- The moment at which it is given up lies beyond all time. -/
  | breakdown
  deriving DecidableEq, Repr

/-- The seconds from now on that lie beyond all time. -/
def endOfTime : Nat := Int64.maxValue.toInt.toNat

/-- What there is to be said about connections that are kept so. -/
def PoolOptions.prospect (o : PoolOptions) : Prospect :=
  if endOfTime ≤ o.acquireTimeout.toNat then .breakdown
  else if o.acquireTimeout = 0 ∨ o.maxConnections = 0 then .hopeless
  else .open

/-- The failure of connecting to the database. -/
def Settings.Database.connectFailure (detail : String) : Failure :=
  .storage "connect to PostgreSQL" detail

/-- What a launch is for. -/
inductive Task where
  | migrate
  | addUser (slug : String) (admin : Bool)
  | keys (actingAs : String) (command : KeysCommand)
  deriving DecidableEq, Repr

/-- A run that has its settings. -/
structure Launch where
  settings : Settings
  task : Task
  filter : LogFilter

namespace Launch

/-- What an invocation is for, if it says all that is needed. -/
def taskOf (invocation : Invocation) : Except Ending Task :=
  match invocation.command, invocation.actingAs with
  | .migrate, _ => .ok .migrate
  | .addUser slug admin, _ => .ok (.addUser slug admin)
  | .keys command, some slug => .ok (.keys slug command)
  | .keys _, none => .error (.failed Command.needsActingUser)

/-- What stands for a value, or the ending of a run that breaks down for lack of it. -/
def orBroken {α : Type} (value : Option α) : Except Ending α :=
  match value with
  | some a => .ok a
  | none => .error .broken

/-- Takes a run as far as its settings. -/
def prepare (s : Surroundings) : Except Ending Launch := do
  let invocation ← (Invocation.ofArguments s.arguments).mapError Ending.ofFault
  let task ← taskOf invocation
  let vars ← orBroken (Settings.VariableFile.extend s.environment s.variableFile)
  let settings ← (Settings.load s.defaultsFile s.placeFile vars).mapError Ending.ofSettingsFault
  let filter ← orBroken (LogFilter.choose (vars.lookup "RUST_LOG") settings.logging.level)
  return ⟨settings, task, filter⟩

/-- What is reported before the database is connected to. -/
def ready (l : Launch) : Event := .loggingReady l.settings.logging.level

/-- How the run ends without a connection to the database. -/
def unconnected (detail : String) : Ending :=
  .failed (Settings.Database.connectFailure detail).message

/-- How the run ends if nobody need try to connect. -/
def foregone? (l : Launch) : Option Ending :=
  match l.settings.database.pool.prospect with
  | .open => none
  | .hopeless => some (unconnected Database.Fault.noConnection.message)
  | .breakdown => some .broken

/-- How the run of a user or keys command ends. -/
def ending : Except Failure Json → Ending
  | .ok document => .printed document
  | .error cause => .failed cause.clientView.text

/-- The service of the program. -/
def service (l : Launch) : Service :=
  ⟨.selfOrAdmin, ⟨l.settings.credentials.operationTimeout.toNat * 1000⟩⟩

/-- What a keys command does: the acting user is looked up, and what fails after that is reported.
-/
def keysOperation (l : Launch) (actingAs : String) (command : KeysCommand) : Operation Json := do
  let caller ← Caller.named actingAs
  tryCatch (command.execute l.service caller) fun cause => do
    Operation.report (.commandFailed cause)
    throw cause

/-- The conversation of a user or keys command. -/
def converse (l : Launch) (operation : Operation Json) (g : Generator) :
    Database.Exchange Ending :=
  .report (.storeReady l.settings.credentials.operationTimeout.toNat) <|
    (Procedure.exchange operation.run g).bind fun (outcome, _) =>
      .done (ending (outcome.getD (.error (.entropyUnavailable "Randomness source poisoned"))))

/-- The conversation of the migrations. -/
def migrations : Database.Exchange Ending :=
  (Migration.migrateAll Migration.all).bind fun
    | .error cause => .done (.failed cause.message)
    | .ok () => Migration.newestVersion.bind fun
      | .error cause => .done (.failed cause.message)
      | .ok version =>
        let document := Json.object [("schemaVersion", match version with
          | some v => .int v.toInt
          | none => .null)]
        .report (.schemaUpToDate (version.map Int64.toInt)) (.done (.printed document))

/-- The conversation with the database, once it has been connected to. -/
def exchange (l : Launch) (g : Generator) : Database.Exchange Ending :=
  .report (.connected l.settings.database.maxConnections.toNat
    l.settings.database.minConnections.toNat) <|
    match l.task with
    | .migrate => migrations
    | .addUser slug admin => l.converse (User.register slug admin) g
    | .keys actingAs command => l.converse (l.keysOperation actingAs command) g

end Launch

end KeyLifecycle
