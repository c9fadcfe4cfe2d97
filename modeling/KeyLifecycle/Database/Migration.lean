import KeyLifecycle.Database.Exchange

/-!
# Migrations of the schema

A migration is a script with a number, its version. The database keeps the versions that have been
applied in a table. A migration whose version is not in it is applied and entered in one
transaction, so that after a fault it is either both or neither. Migrations are taken in their
order, and the first one that fails ends the run.
-/

namespace KeyLifecycle

/-- A step of the schema from one version to the next. -/
structure Migration where
  version : Int64
  description : String
  /-- The script that is run. -/
  script : String
  deriving DecidableEq, Repr

namespace Migration

open Database

/-- The migrations of this schema. In their scripts white space is drawn together into single
blanks, as it is in `Statement.text`. -/
def all : List Migration := [
  ⟨1, "Create users table",
    "CREATE TABLE IF NOT EXISTS users ( id BIGSERIAL PRIMARY KEY, slug TEXT NOT NULL UNIQUE, " ++
      "admin BOOLEAN NOT NULL DEFAULT FALSE );"⟩,
  ⟨2, "Create api_keys table",
    "CREATE TABLE IF NOT EXISTS api_keys ( id BIGSERIAL PRIMARY KEY, " ++
      "user_id BIGINT NOT NULL REFERENCES users(id) ON DELETE CASCADE, " ++
      "access_key TEXT NOT NULL UNIQUE, secret_key BYTEA NOT NULL, " ++
      "last_auth TIMESTAMPTZ NULL, created_at TIMESTAMPTZ NOT NULL DEFAULT NOW() ); " ++
      "CREATE INDEX IF NOT EXISTS idx_api_keys_user_id ON api_keys(user_id);"⟩]

/-- The name under which a fault of applying the migration is reported. -/
def operation (m : Migration) : String := "apply migration " ++ toString m.version.toInt

/-- The conversation that makes sure of the table of versions. -/
def ensureTable {α : Type} (next : Exchange (Except Failure α)) : Exchange (Except Failure α) :=
  .ask .createVersionTable fun reception =>
    match reception.confirm with
    | .ok () => next
    | .error fault => .done (.error (fault.failure "create migrations table"))

/-- The conversation that applies a migration and enters its version. -/
def apply (m : Migration) : Exchange (Except Failure Unit) :=
  .ask .begin fun reception =>
    match reception.confirm with
    | .error fault => .done (.error (fault.failure m.operation))
    | .ok () =>
      inside (.script m.script) <| inside (.addVersion m.version m.description) <|
        inside .commit <|
          .report (.migrationApplied m.version.toInt m.description) (.done (.ok ()))
where
  /-- A statement inside the transaction, which a fault ends. -/
  inside (statement : Statement) (next : Exchange (Except Failure Unit)) :
      Exchange (Except Failure Unit) :=
    .ask statement fun reception =>
      match reception.confirm with
      | .ok () => next
      | .error fault => .forsake (.done (.error (fault.failure m.operation)))

/-- The conversation that applies a migration, unless it has been applied. -/
def migrate (m : Migration) : Exchange (Except Failure Unit) :=
  ensureTable <|
    .ask (.hasVersion m.version) fun reception =>
      match reception.flag with
      | .error fault => .done (.error (fault.failure "check migration status"))
      | .ok true => .done (.ok ())
      | .ok false => m.apply

/-- The conversation that applies migrations in their order. -/
def migrateAll : List Migration → Exchange (Except Failure Unit)
  | [] => .done (.ok ())
  | m :: rest => m.migrate.bind fun
    | .ok () => migrateAll rest
    | .error cause => .done (.error cause)

/-- The conversation that asks for the newest version that has been applied, if any has. -/
def newestVersion : Exchange (Except Failure (Option Int64)) :=
  ensureTable <|
    .ask .newestVersion fun reception =>
      .done (reception.number?.mapError (Fault.failure "read migration version"))

end Migration

end KeyLifecycle
