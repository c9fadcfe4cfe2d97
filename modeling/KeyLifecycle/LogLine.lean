import KeyLifecycle.Event
import KeyLifecycle.Json.Printer
import KeyLifecycle.Settings

/-!
# Log lines

The line of an event in either format: a JSON object of the level and the fields, among which is the
message, or the level, the message and the fields one after the other.
-/

namespace KeyLifecycle

/-- The value of a field as JSON. -/
def FieldValue.json : FieldValue → Json
  | text s => .text s
  | int n => .int n
  | flag b => .bool b

namespace Event

/-- The fields of an event as JSON, with its message among them. -/
def json (e : Event) : Json :=
  .object [("level", .text e.level.name),
    ("fields", Json.ofFields (("message", .text e.message) ::
      e.fields.map fun (name, value) => (name, value.json)))]

/-- The line of an event. -/
def line (format : Settings.LogFormat) (e : Event) : String :=
  match format with
  | .json => e.json.compact
  | .pretty =>
    e.level.name ++ " " ++ e.message ++
      String.join (e.fields.map fun (name, value) => ", " ++ name ++ ": " ++ value.json.compact)

end Event

end KeyLifecycle
