import KeyLifecycle.Database.Exchange
import Mathlib.Logic.Function.Basic

/-!
# What statements about credentials mean

A small part of SQL, as much as the statements about credentials are written in: rows are selected,
inserted, deleted and updated in one table, by conditions that compare columns with parameters. A
`Query` has a text, by which it is known (`Query.ofText?`), and a meaning, which is a function on
lists of rows (`Query.perform`).

The table is that of the schema, `api_keys`. Its rows are numbered by a sequence, whose numbers are
used up whatever becomes of the row; the number and the access key of a row are unique; owner,
access key and secret are not null, and the owner is one of the users. A row that breaks one of
these rules is refused, and the first that is broken is the one that is reported.
-/

namespace KeyLifecycle.Database

/-! ### Queries -/

/-- A column of the table. The moment of creation, which has a default and is never asked for, is
left out. -/
inductive Attribute where
  | id
  | owner
  | key
  | secret
  | lastAuth
  deriving DecidableEq

/-- The name of a column. -/
def Attribute.name : Attribute → String
  | id => "id"
  | owner => "user_id"
  | key => "access_key"
  | secret => "secret_key"
  | lastAuth => "last_auth"

/-- A query with parameters, in the order in which `given` lists the columns that they are for. -/
inductive Query where
  /-- Some columns of all rows of which others are given, in the order of a column. -/
  | select (shown given : List Attribute) (order : Attribute)
  /-- A new row, and one column of it. -/
  | insert (given : List Attribute) (shown : Attribute)
  | delete (given : List Attribute)
  /-- Changes a column in all rows of which another is given; the new value is the second
  parameter. -/
  | update (given changed : Attribute)
  deriving DecidableEq

namespace Query

/-- Columns, as they are listed. -/
def listing (columns : List Attribute) : String :=
  ", ".intercalate (columns.map Attribute.name)

/-- That columns have the values of the parameters. -/
def condition (given : List Attribute) : String :=
  " AND ".intercalate <|
    given.zipIdx.map fun (column, i) => column.name ++ " = $" ++ toString (i + 1)

/-- The text of a query. -/
def text : Query → String
  | select shown given order =>
    "SELECT " ++ listing shown ++ " FROM api_keys WHERE " ++ condition given ++ " ORDER BY " ++
      order.name ++ " ASC"
  | insert given shown =>
    "INSERT INTO api_keys (" ++ listing given ++ ") VALUES (" ++
      ", ".intercalate (given.zipIdx.map fun (_, i) => "$" ++ toString (i + 1)) ++ ") RETURNING " ++
      shown.name
  | delete given => "DELETE FROM api_keys WHERE " ++ condition given
  | update given changed =>
    "UPDATE api_keys SET " ++ changed.name ++ " = $2 WHERE " ++ condition [given]

/-- What an owner has: access keys and moments of use, oldest first. -/
def ofOwner : Query := .select [.key, .lastAuth] [.owner] .id

/-- A new row of an owner, an access key and a secret, and its number. -/
def issue : Query := .insert [.owner, .key, .secret] .id

/-- Takes out what an owner has with an access key. -/
def revoke : Query := .delete [.owner, .key]

/-- Notes the use of an access key. -/
def stamp : Query := .update .key .lastAuth

/-- **The query of a text**, if it is one of those about credentials. -/
def ofText? (text : String) : Option Query :=
  [ofOwner, issue, revoke, stamp].find? (·.text = text)

theorem ofText?_listCredentials (owner : UserId) :
    ofText? (Statement.listCredentials owner).text = some ofOwner := by
  show ofText? "SELECT access_key, last_auth FROM api_keys WHERE user_id = $1 ORDER BY id ASC" = _
  decide +kernel

theorem ofText?_insertCredential (owner : UserId) (material : KeyMaterial) :
    ofText? (Statement.insertCredential owner material).text = some issue := by
  show ofText?
    "INSERT INTO api_keys (user_id, access_key, secret_key) VALUES ($1, $2, $3) RETURNING id" = _
  decide +kernel

theorem ofText?_deleteCredential (owner : UserId) (key : AccessKey) :
    ofText? (Statement.deleteCredential owner key).text = some revoke := by
  show ofText? "DELETE FROM api_keys WHERE user_id = $1 AND access_key = $2" = _
  decide +kernel

theorem ofText?_stampCredential (key : AccessKey) (moment : Instant) :
    ofText? (Statement.stampCredential key moment).text = some stamp := by
  show ofText? "UPDATE api_keys SET last_auth = $2 WHERE access_key = $1" = _
  decide +kernel

end Query

/-! ### Rows -/

/-- A row of the table: the value of each column, if it is not null. -/
abbrev Record : Type := Attribute → Option Bind

/-- A value as it is shown. Nobody asks for bytes. -/
def Bind.cell : Option Bind → Cell
  | none => .null
  | some (.int n) => .int n.toInt
  | some (.text s) => .text s
  | some (.flag b) => .flag b
  | some (.moment micros) => .moment micros
  | some (.bytes _) => .null

namespace Record

/-- Whether columns of a row have the values of the parameters. Null is equal to nothing. -/
def fits (given : List Attribute) (binds : List Bind) (record : Record) : Bool :=
  (given.zip binds).all fun (column, bind) => record column = some bind

/-- The number in a column, by which rows are ordered. -/
def number (column : Attribute) (record : Record) : Int :=
  match record column with
  | some (.int n) => n.toInt
  | _ => 0

/-- The row of some parameters, with a number of its own, and null wherever nothing is given. -/
def ofBinds (id : Int64) (given : List Attribute) (binds : List Bind) : Record :=
  fun column => if column = .id then some (.int id) else (given.zip binds).lookup column

end Record

/-! ### Rules -/

/-- A rule that a new row would break. -/
inductive Violation where
  | notNull (column : Attribute)
  | unique (column : Attribute)
  | reference (column : Attribute)
  deriving DecidableEq

/-- What is known of the database beside its tables: who the users are, which numbers the sequence
gives out, and how broken rules are reported. -/
structure Rules where
  isUser : Int64 → Bool
  sequence : Nat → Int64
  complaint : Violation → String

namespace Rules

/-- Whether the owner of a row is a user. -/
def hasUser (r : Rules) (record : Record) : Bool :=
  match record .owner with
  | some (.int n) => r.isUser n
  | _ => false

/-- The first rule that a new row would break. -/
def violation? (r : Rules) (records : List Record) (new : Record) : Option Violation :=
  match [Attribute.owner, .key, .secret].find? (new · = none) with
  | some column => some (.notNull column)
  | none =>
    match [Attribute.id, .key].find? fun column => records.any (· column = new column) with
    | some column => some (.unique column)
    | none => if r.hasUser new then none else some (.reference .owner)

/-- **The first rule that a new credential breaks**: that numbers are unique, that access keys are
unique, and that the owner is a user. -/
theorem violation?_issue (r : Rules) (records : List Record) (id : Int64) (owner : UserId)
    (material : KeyMaterial) :
    r.violation? records (.ofBinds id [.owner, .key, .secret]
        (Statement.insertCredential owner material).binds) =
      if records.any (· .id = some (.int id)) then some (.unique .id)
      else if records.any (· .key = some (.text material.key.text)) then some (.unique .key)
      else if r.isUser owner.value then none
      else some (.reference .owner) := by
  generalize hnew : Record.ofBinds id [.owner, .key, .secret]
    (Statement.insertCredential owner material).binds = new
  have hcolumns : new .id = some (.int id) ∧ new .owner = some (.int owner.value) ∧
      new .key = some (.text material.key.text) ∧
      new .secret = some (.bytes material.secret.bytes) := by
    rw [← hnew]
    exact ⟨rfl, rfl, rfl, rfl⟩
  obtain ⟨hid, howner, hkey, hsecret⟩ := hcolumns
  have hnone : [Attribute.owner, .key, .secret].find? (new · = none) = none := by
    simp [howner, hkey, hsecret]
  have huser : r.hasUser new = r.isUser owner.value := by rw [Rules.hasUser, howner]
  rw [Rules.violation?, hnone, huser, ← hid, ← hkey]
  dsimp only
  rw [List.find?_cons, List.find?_cons, List.find?_nil]
  cases records.any (· .id = new .id) with
  | true => rfl
  | false => cases records.any (· .key = new .key) <;> rfl

end Rules

/-- **What a query does** with its parameters, to the rows of the table, after so many numbers of
the sequence have been drawn: its answer, the rows afterwards, and how many numbers have been drawn
then. -/
def Query.perform (r : Rules) (binds : List Bind) (records : List Record) (drawn : Nat) :
    Query → Reception × List Record × Nat
  | select shown given order =>
    let found := (records.filter (Record.fits given binds)).mergeSort
      fun a b => a.number order ≤ b.number order
    let rows := found.map fun record => shown.map fun column => Bind.cell (record column)
    (.answer rows found.length, records, drawn)
  | insert given shown =>
    let new := Record.ofBinds (r.sequence drawn) given binds
    match r.violation? records new with
    | some violation => (.fault (.refused (r.complaint violation)), records, drawn + 1)
    | none => (.answer [[Bind.cell (new shown)]] 1, records ++ [new], drawn + 1)
  | delete given =>
    (.answer [] (records.countP (Record.fits given binds)),
      records.filter fun record => !record.fits given binds, drawn)
  | update given changed =>
    (.answer [] (records.countP (Record.fits [given] binds)),
      records.map fun record =>
        if record.fits [given] binds then Function.update record changed binds[1]? else record,
      drawn)

end KeyLifecycle.Database
