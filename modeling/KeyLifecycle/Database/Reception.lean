import KeyLifecycle.Failure
import KeyLifecycle.Time.Instant
import KeyLifecycle.Credential
import KeyLifecycle.User

/-!
# What comes back from the database

A `Reception` is what came of a statement: rows and the number of rows that were affected, or a
fault. The functions here read single values and users and summaries out of rows. A slug or an
access key in a row is checked like any other, and a row that does not pass is a fault of the store,
not left out.
-/

namespace KeyLifecycle.Database

/-- A value in a row. -/
inductive Cell where
  | null
  | int (value : Int)
  | text (value : String)
  | flag (value : Bool)
  /-- A moment in microseconds since the beginning of 1970. -/
  | moment (micros : Int)
  deriving DecidableEq, Repr

/-- The values of a row in the order of the columns. -/
abbrev Cells := List Cell

/-- Which value of a row is read: that of a column with a name, or the only one. -/
inductive Column where
  | named (place : Nat) (name : String)
  | only
  deriving DecidableEq, Repr

/-- The place of a value in its row. -/
def Column.place : Column → Nat
  | named place _ => place
  | only => 0

/-- How a column is shown: its name in quotes, or its number. -/
def Column.text : Column → String
  | named _ name => "\"" ++ name ++ "\""
  | only => "0"

/-- Why a statement has no answer, or none that can be read. -/
inductive Fault where
  /-- The server refuses the statement, with a message of its own. -/
  | refused (message : String)
  /-- A row was needed, and there is none. -/
  | noRow
  /-- A row does not have the column. -/
  | noColumn (column : Column)
  /-- There is no value in a column that has to have one. -/
  | noValue (column : Column)
  /-- A value is not of the type of its column. -/
  | otherType (column : Column)
  /-- No connection became free in time. -/
  | noConnection
  deriving DecidableEq, Repr

/-- What a complaint about a column begins with. -/
def Column.decoding (column : Column) : String :=
  "error occurred while decoding column " ++ column.text ++ ": "

/-- The wording of a fault. -/
def Fault.message : Fault → String
  | refused message => "error returned from database: " ++ message
  | noRow => "no rows returned by a query that expected to return at least one row"
  | noColumn (.named _ name) => "no column found for name: " ++ name
  | noColumn .only => "column index out of bounds: the len is 0, but the index is 0"
  | noValue column => column.decoding ++ "unexpected null; try decoding as an `Option`"
  | otherType column => column.decoding ++ "mismatched types"
  | noConnection => "pool timed out while waiting for an open connection"

/-- What came of a statement. -/
inductive Reception where
  | answer (rows : List Cells) (affected : Nat)
  | fault (fault : Fault)
  deriving DecidableEq, Repr

/-! ### Single values -/

/-- A fault as the failure of a step of an operation. -/
def Fault.failure (operation : String) (fault : Fault) : Failure :=
  .storage operation fault.message

/-- Reads a value of a row, if it has one. -/
def Cells.read? {α : Type} (cells : Cells) (column : Column) (value? : Cell → Option α) :
    Except Fault (Option α) :=
  match cells[column.place]? with
  | none => .error (.noColumn column)
  | some .null => .ok none
  | some cell =>
    match value? cell with
    | some value => .ok (some value)
    | none => .error (.otherType column)

/-- Reads a value of a row, which has to have one. -/
def Cells.read {α : Type} (cells : Cells) (column : Column) (value? : Cell → Option α) :
    Except Fault α := do
  match ← cells.read? column value? with
  | some value => return value
  | none => .error (.noValue column)

/-- The whole number in a cell. -/
def Cell.int? : Cell → Option Int64
  | .int n => some (Int64.ofInt n)
  | _ => none

/-- The text in a cell. -/
def Cell.text? : Cell → Option String
  | .text s => some s
  | _ => none

/-- The yes or no in a cell. -/
def Cell.flag? : Cell → Option Bool
  | .flag b => some b
  | _ => none

/-- The moment in a cell. -/
def Cell.moment? : Cell → Option Instant
  | .moment micros => some (Instant.ofMicros micros)
  | _ => none

namespace Reception

/-- Whether the statement was carried out. -/
def confirm : Reception → Except Fault Unit
  | answer _ _ => .ok ()
  | fault f => .error f

/-- Whether any row was affected. -/
def hasEffect : Reception → Except Fault Bool
  | answer _ affected => .ok (0 < affected)
  | fault f => .error f

/-- The first row, if there is one. -/
def firstRow : Reception → Except Fault (Option Cells)
  | answer rows _ => .ok rows.head?
  | fault f => .error f

/-- The first row, which has to be there. -/
def row : Reception → Except Fault Cells
  | answer [] _ => .error .noRow
  | answer (row :: _) _ => .ok row
  | fault f => .error f

/-- The only value of the first row, where it has to be a whole number. -/
def number (r : Reception) : Except Fault Int64 := do
  (← r.row).read .only Cell.int?

/-- The only value of the first row, where it has to be a yes or no. -/
def flag (r : Reception) : Except Fault Bool := do
  (← r.row).read .only Cell.flag?

/-- The only value of the first row, where it is a whole number or missing. -/
def number? (r : Reception) : Except Fault (Option Int64) := do
  (← r.row).read? .only Cell.int?

end Reception

/-! ### Users -/

/-- The operation under which a user who cannot be read is reported. -/
def readUser : String := "read user"

/-- The user in a row. -/
def Cells.user (cells : Cells) : Except Failure User := do
  let fail := Fault.failure readUser
  let id ← (cells.read (.named 0 "id") Cell.int?).mapError fail
  let slug ← (cells.read (.named 1 "slug") Cell.text?).mapError fail
  let admin ← (cells.read (.named 2 "admin") Cell.flag?).mapError fail
  let slug ← (Slug.parse slug).mapError fun fault => .storage readUser fault.message
  return ⟨⟨id⟩, slug, Role.ofAdmin admin⟩

/-- The user in the first row, if there is one. -/
def Reception.user? (operation : String) (r : Reception) : Except Failure (Option User) := do
  match ← r.firstRow.mapError (Fault.failure operation) with
  | none => return none
  | some cells => return some (← Cells.user cells)

/-! ### Summaries -/

/-- The operation under which summaries that cannot be read are reported. -/
def listing : String := "list api keys"

/-- The summary in a row. -/
def Cells.summary (cells : Cells) : Except Failure Summary := do
  let fail := Fault.failure listing
  let key ← (cells.read (.named 0 "access_key") Cell.text?).mapError fail
  let lastAuth ← (cells.read? (.named 1 "last_auth") Cell.moment?).mapError fail
  let key ← (AccessKey.parse key).mapError fun fault => .storage listing fault.message
  return ⟨key, lastAuth⟩

/-- The summaries in all rows; the first row that cannot be read counts. -/
def Reception.summaries : Reception → Except Failure (List Summary)
  | answer rows _ => rows.mapM Cells.summary
  | fault f => .error (f.failure listing)

/-! ### Conflicts -/

/-- Whether a list has another one in it, as one piece. -/
def hasPiece (piece : List Char) : List Char → Bool
  | [] => piece.isEmpty
  | c :: rest => piece.isPrefixOf (c :: rest) || hasPiece piece rest

/-- Whether a fault says that something has to be unique and is not. -/
def Fault.isConflict (fault : Fault) : Bool :=
  hasPiece "duplicate key".toList fault.message.toList ||
    hasPiece "unique constraint".toList fault.message.toList

end KeyLifecycle.Database
