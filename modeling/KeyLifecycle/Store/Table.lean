import KeyLifecycle.Credential
import KeyLifecycle.Failure

/-!
# The table of credentials

Rows stand in the order in which they were issued, and each has a number that no row had before. The
operations are those of one user of the table at a time:

* `Table.insert` – a new row at the end, refused if somebody has the access key;
* `Table.remove?` – takes out the first row of an owner with an access key;
* `Table.stamp?` – notes the moment of use in the first row with an access key;
* `Table.summaries` – what an owner may see, oldest first.
-/

namespace KeyLifecycle

/-- A credential as it is kept. -/
structure Row where
  id : CredentialId
  owner : UserId
  key : AccessKey
  secret : Secret
  lastAuth : Option Instant
  deriving DecidableEq

/-- What is shown of a row. -/
def Row.summary (row : Row) : Summary := ⟨row.key, row.lastAuth⟩

/-- Whether a row is that of an owner and an access key. -/
def Row.isFor (owner : UserId) (key : AccessKey) (row : Row) : Bool :=
  row.owner = owner ∧ row.key = key

/-- The rows, oldest first, and the last number that was given out. -/
structure Table where
  rows : List Row
  lastId : Int64
  deriving DecidableEq

namespace Table

/-- The table before the first row. -/
def empty : Table := ⟨[], 0⟩

/-- Whether somebody has an access key. -/
def hasKey (t : Table) (key : AccessKey) : Bool := t.rows.any (·.key = key)

/-- The failure of issuing an access key that is there. -/
def taken : Failure := .conflict "Access key already exists"

/-- Issues key material to an owner. -/
def insert (t : Table) (owner : UserId) (material : KeyMaterial) :
    Except Failure (Credential × Table) :=
  if t.hasKey material.key then .error taken
  else
    let id : CredentialId := ⟨t.lastId + 1⟩
    .ok (⟨id, owner, material.key, material.secret, none⟩,
      ⟨t.rows ++ [⟨id, owner, material.key, material.secret, none⟩], id.value⟩)

/-- The row of an owner and an access key, and the table without it. -/
def remove? (t : Table) (owner : UserId) (key : AccessKey) : Option (Row × Table) :=
  (t.rows.find? (Row.isFor owner key)).map fun row =>
    (row, { t with rows := t.rows.eraseP (Row.isFor owner key) })

/-- Rows in which the first one with an access key has the moment of its use. -/
def stampRows (key : AccessKey) (moment : Instant) : List Row → List Row
  | [] => []
  | row :: rest =>
    if row.key = key then { row with lastAuth := some moment } :: rest
    else row :: stampRows key moment rest

/-- The table with a moment of use, if somebody has the access key. -/
def stamp? (t : Table) (key : AccessKey) (moment : Instant) : Option Table :=
  if t.hasKey key then some { t with rows := stampRows key moment t.rows } else none

/-- What an owner sees. -/
def summaries (t : Table) (owner : UserId) : List Summary :=
  (t.rows.filter (·.owner = owner)).map Row.summary

end Table

end KeyLifecycle
