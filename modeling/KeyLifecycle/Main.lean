import KeyLifecycle.Application
import KeyLifecycle.Database.Relay
import KeyLifecycle.Json.Reader
import KeyLifecycle.LogLine

/-!
# The program

The command line around `KeyLifecycle.Application`. The database is reached through a relay: its
address is that of a directory with two pipes, `statements` and `replies`, over which statements and
answers go as JSON, one a line.
-/

namespace KeyLifecycle.Main

open Database (Arrival Exchange Reception Statement)

/-- The names of the variables that settings are read from. -/
def variableNames : List String := [
  "APP__DATABASE__URL", "APP__DATABASE__MAX_CONNECTIONS", "APP__DATABASE__MIN_CONNECTIONS",
  "APP__DATABASE__CONNECT_TIMEOUT_SECS", "APP__DATABASE__IDLE_TIMEOUT_SECS",
  "APP__LOGGING__LEVEL", "APP__LOGGING__FORMAT", "APP__CREDENTIALS__OPERATION_TIMEOUT_SECS",
  "RUST_LOG"]

/-- The text of a file that can be read. -/
def fileText (name : String) : IO (Option String) := do
  try return some (← IO.FS.readFile name) catch _ => return none

/-- What the program finds when it starts. -/
def surroundings (arguments : List String) : IO Surroundings := do
  let vars ← variableNames.filterMapM fun name => do
    return (← IO.getEnv name).map (name, ·)
  return ⟨arguments, ← fileText ".env", ← fileText "config/default.json",
    ← fileText "config/local.json", vars⟩

/-- The two ends of a relay. -/
structure Relay where
  statements : IO.FS.Handle
  replies : IO.FS.Handle

/-- Opens the relay of an address. -/
def Relay.connect (address : String) : IO Relay := do
  return ⟨← IO.FS.Handle.mk (address ++ "/statements") .append,
    ← IO.FS.Handle.mk (address ++ "/replies") .read⟩

/-- Sends a statement and waits for the answer. -/
def Relay.send (relay : Relay) (statement : Statement) : IO Arrival := do
  let start ← IO.monoMsNow
  relay.statements.putStrLn statement.json.compact
  relay.statements.flush
  let line ← relay.replies.getLine
  let reception := (Json.ofText? line).elim (.fault .noConnection) Reception.ofJson
  return ⟨reception, (← IO.monoMsNow) - start⟩

/-- Reports an event that passes the filter. -/
def report (launch : Launch) (event : Event) : IO Unit := do
  if launch.filter.allows event then
    (← IO.getStderr).putStrLn (event.line launch.settings.logging.format)

/-- Holds a conversation over a relay. -/
def hold {α : Type} (launch : Launch) (relay : Relay) : Exchange α → IO α
  | .done value => return value
  | .report event next => do
    report launch event
    hold launch relay next
  | .send statement patience next => do
    let arrival ← relay.send statement
    hold launch relay (next (arrival.within patience))
  | .pause duration next => do
    IO.sleep (UInt32.ofNat duration)
    hold launch relay next
  | .forsake next => do
    let _ ← relay.send .rollback
    hold launch relay next

/-- Runs a launch to its end. -/
def run (launch : Launch) : IO Ending := do
  report launch launch.ready
  if let some ending := launch.foregone? then return ending
  try
    let relay ← Relay.connect launch.settings.database.url
    let bytes ← IO.getRandomBytes (USize.ofNat (Generator.accessKeyBytes + Generator.secretBytes))
    hold launch relay (launch.exchange (.random (.ofBytes bytes.toList false)))
  catch e => return Launch.unconnected e.toString

end KeyLifecycle.Main

open KeyLifecycle in
/-- Reads the arguments, does what they say, and ends with the exit code. -/
def main (arguments : List String) : IO UInt32 := do
  let ending ← match Launch.prepare (← Main.surroundings arguments) with
    | .ok launch => Main.run launch
    | .error ending => pure ending
  (← IO.getStdout).putStr ending.output
  (← IO.getStderr).putStr ending.complaint
  return ending.exitCode.toUInt32
