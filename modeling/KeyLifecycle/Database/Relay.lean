import KeyLifecycle.Database.Exchange
import KeyLifecycle.Json.Basic
import KeyLifecycle.Text.Hex

/-!
# Statements and answers as JSON

The form in which statements are handed to a relay, which sends them to the database, and in which
it hands the answers back. A statement is an object of its text and, if there are any, the values
beside it. An answer has the rows, or the number of rows that were affected, or the message of a
fault. Bytes and moments are objects with a single field, since JSON has no values of its own for
them.
-/

namespace KeyLifecycle.Database

/-- A value beside a statement. -/
def Bind.json : Bind → Json
  | int n => .int n.toInt
  | text s => .text s
  | flag b => .bool b
  | bytes b => .object [("hex", .text (Text.Hex.encode b))]
  | moment micros => .object [("micros", .int micros)]

/-- A statement; every run of blanks in its text counts as one space. -/
def Statement.json (statement : Statement) : Json :=
  let written := ("sql", Json.text (Text.squeeze statement.text))
  match statement.binds with
  | [] => .object [written]
  | binds => .object [written, ("binds", .list (binds.map Bind.json))]

/-- A value in a row. -/
def Cell.ofJson : Json → Cell
  | .int n => int n
  | .text s => text s
  | .bool b => flag b
  | .object [("micros", .int n)] => moment n
  | _ => null

/-- A row. -/
def Cells.ofJson : Json → Cells
  | .list cells => cells.map Cell.ofJson
  | _ => []

/-- An answer. Without a number of its own, as many rows are affected as there are rows. -/
def Reception.ofJson (j : Json) : Reception :=
  match j.field? "error" with
  | some (.text message) => fault (.refused message)
  | _ =>
    let rows := match j.field? "rows" with
      | some (.list rows) => rows.map Cells.ofJson
      | _ => []
    match j.field? "affected" with
    | some (.int n) => answer rows n.toNat
    | _ => answer rows rows.length

end KeyLifecycle.Database
