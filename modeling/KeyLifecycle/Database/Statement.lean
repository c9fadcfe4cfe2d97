import KeyLifecycle.Credential
import KeyLifecycle.Text.Blank
import KeyLifecycle.User

/-!
# Statements

What is sent to the database. `Statement.text` is the text of a statement, in which `$1`, `$2` …
stand for the values of `Statement.binds`. Values are never written into the text, whatever
characters they have; a script alone is sent as it is.

Texts are written here on one line, with a single blank for all the white space between two words
and none at either end. To the database it is the same how the words are set apart and where a line
ends, so a text stands for every way in which it may be laid out.
-/

namespace KeyLifecycle.Database

/-- A value that is sent beside the text of a statement. -/
inductive Bind where
  | int (value : Int64)
  | text (value : String)
  | flag (value : Bool)
  | bytes (value : List UInt8)
  /-- A moment in microseconds since the beginning of 1970. -/
  | moment (micros : Int)
  deriving DecidableEq

/-- What is sent to the database. -/
inductive Statement where
  | begin
  | commit
  | rollback
  | userById (id : UserId)
  | userBySlug (slug : String)
  | addUser (slug : Slug) (role : Role)
  | listCredentials (owner : UserId)
  | insertCredential (owner : UserId) (material : KeyMaterial)
  | deleteCredential (owner : UserId) (key : AccessKey)
  | stampCredential (key : AccessKey) (moment : Instant)
  | createVersionTable
  | hasVersion (version : Int64)
  | addVersion (version : Int64) (description : String)
  | newestVersion
  /-- The text of a migration. -/
  | script (text : String)
  deriving DecidableEq

namespace Statement

/-- The text of a statement, with all white space drawn together into single blanks. -/
def text : Statement → String
  | begin => "BEGIN"
  | commit => "COMMIT"
  | rollback => "ROLLBACK"
  | userById _ => "SELECT id, slug, admin FROM users WHERE id = $1"
  | userBySlug _ => "SELECT id, slug, admin FROM users WHERE slug = $1"
  | addUser _ _ => "INSERT INTO users (slug, admin) VALUES ($1, $2) RETURNING id"
  | listCredentials _ =>
    "SELECT access_key, last_auth FROM api_keys WHERE user_id = $1 ORDER BY id ASC"
  | insertCredential _ _ =>
    "INSERT INTO api_keys (user_id, access_key, secret_key) VALUES ($1, $2, $3) RETURNING id"
  | deleteCredential _ _ => "DELETE FROM api_keys WHERE user_id = $1 AND access_key = $2"
  | stampCredential _ _ => "UPDATE api_keys SET last_auth = $2 WHERE access_key = $1"
  | createVersionTable =>
    "CREATE TABLE IF NOT EXISTS _migrations ( version BIGINT PRIMARY KEY, " ++
      "description TEXT NOT NULL, installed_on TIMESTAMPTZ NOT NULL DEFAULT NOW() )"
  | hasVersion _ => "SELECT EXISTS(SELECT 1 FROM _migrations WHERE version = $1)"
  | addVersion _ _ => "INSERT INTO _migrations (version, description) VALUES ($1, $2)"
  | newestVersion => "SELECT MAX(version) FROM _migrations"
  | script text => text

/-- The values that are sent beside the text. -/
def binds : Statement → List Bind
  | userById id => [.int id.value]
  | userBySlug slug => [.text slug]
  | addUser slug role => [.text slug.text, .flag role.isAdmin]
  | listCredentials owner => [.int owner.value]
  | insertCredential owner material =>
    [.int owner.value, .text material.key.text, .bytes material.secret.bytes]
  | deleteCredential owner key => [.int owner.value, .text key.text]
  | stampCredential key moment => [.text key.text, .moment moment.micros]
  | hasVersion version => [.int version]
  | addVersion version description => [.int version, .text description]
  | _ => []

end Statement

end KeyLifecycle.Database
