import KeyLifecycle.AccessKey
import KeyLifecycle.Json.Basic
import KeyLifecycle.Text.Quoted
import KeyLifecycle.User

/-!
# Domain values as documents

Numbers of users, slugs, access keys, roles and users have a form as a JSON value. Writing has one
form for each; reading accepts some more, and puts every slug and access key through its own check:

* a role is its name, or an object whose only field has that name and the value `null`;
* a user is an object, in which further fields are passed over, or a list of exactly its three
  parts.

`Document.Fault` says why a value is refused. Where several things are wrong, the fields of an
object count in the order in which they stand, before those that are missing.
-/

namespace KeyLifecycle

namespace Document

/-- What a value is refused for. -/
inductive Fault where
  /-- The value is of another type. -/
  | unexpected (value : Json) (expected : String)
  /-- A whole number beyond sixty-four bits with a sign. -/
  | tooLarge (value : Int)
  /-- An object for a role has no field, or more than one. -/
  | notOneField
  /-- No role has that name. -/
  | unknownRole (name : String)
  /-- A field of a user is not there. -/
  | missingField (name : String)
  /-- A list for a user has that many parts and is too short. -/
  | tooShort (length : Nat)
  /-- A list for a user has that many parts and is too long. -/
  | tooLong (length : Nat)
  | slug (fault : Slug.Fault)
  | accessKey (fault : AccessKey.Fault)

/-- How a message names a value. -/
def shown : Json → String
  | .null => "null"
  | .bool b => "boolean `" ++ (if b then "true" else "false") ++ "`"
  | .int n => "integer `" ++ toString n ++ "`"
  | .float x => "floating point `" ++ x.render .mixed ++ "`"
  | .text s => "string " ++ Text.Quoted.encode s
  | .list _ => "sequence"
  | .object _ => "map"

/-- The wording of a fault. -/
def Fault.message : Fault → String
  | unexpected value expected => "invalid type: " ++ shown value ++ ", expected " ++ expected
  | tooLarge value => "invalid value: integer `" ++ toString value ++ "`, expected i64"
  | notOneField => "invalid value: map, expected map with a single key"
  | unknownRole name =>
    "unknown variant `" ++ name ++ "`, expected `administrator` or `standard`"
  | missingField name => "missing field `" ++ name ++ "`"
  | tooShort length =>
    "invalid length " ++ toString length ++ ", expected struct User with 3 elements"
  | tooLong length =>
    "invalid length " ++ toString length ++ ", expected fewer elements in array"
  | slug fault => fault.message
  | accessKey fault => fault.message

/-- The text of a value that is one. -/
def text? : Json → Except Fault String
  | .text s => .ok s
  | other => .error (.unexpected other "a string")

end Document

open Document

/-! ### Numbers, slugs and access keys -/

/-- The number of a user as a value. -/
def UserId.json (id : UserId) : Json := .int id.value.toInt

/-- Reads the number of a user. -/
def UserId.ofJson : Json → Except Document.Fault UserId
  | .int n =>
    if Int64.maxValue.toInt < n ∨ n < Int64.minValue.toInt then .error (.tooLarge n)
    else .ok (UserId.ofInt n)
  | other => .error (.unexpected other "i64")

/-- A slug as a value. -/
def Slug.json (slug : Slug) : Json := .text slug.text

/-- Reads a slug. -/
def Slug.ofJson (value : Json) : Except Document.Fault Slug := do
  (Slug.parse (← text? value)).mapError Document.Fault.slug

/-- An access key as a value. -/
def AccessKey.json (key : AccessKey) : Json := .text key.text

/-- Reads an access key. -/
def AccessKey.ofJson (value : Json) : Except Document.Fault AccessKey := do
  (AccessKey.parse (← text? value)).mapError Document.Fault.accessKey

/-! ### Roles -/

/-- A role as a value. -/
def Role.json (role : Role) : Json := .text role.name

/-- The role of a name. -/
def Role.ofName (name : String) : Except Document.Fault Role :=
  if name = Role.administrator.name then .ok .administrator
  else if name = Role.standard.name then .ok .standard
  else .error (.unknownRole name)

/-- Reads a role. -/
def Role.ofJson : Json → Except Document.Fault Role
  | .text name => Role.ofName name
  | .object [(name, content)] => do
    let role ← Role.ofName name
    match content with
    | .null => return role
    | other => .error (.unexpected other "unit")
  | .object _ => .error .notOneField
  | other => .error (.unexpected other "string or map")

/-! ### Users -/

/-- A user as a value. -/
def User.json (user : User) : Json :=
  .object [("id", user.id.json), ("slug", user.slug.json), ("role", user.role.json)]

namespace Document

/-- The parts of a user that have been read. -/
structure UserParts where
  id : Option UserId := none
  slug : Option Slug := none
  role : Option Role := none

/-- Reads the fields of a user one after the other. -/
def UserParts.read (parts : UserParts) : List (String × Json) → Except Fault UserParts
  | [] => .ok parts
  | (name, value) :: rest =>
    if name = "id" then do
      let id ← UserId.ofJson value
      UserParts.read { parts with id := some id } rest
    else if name = "slug" then do
      let slug ← Slug.ofJson value
      UserParts.read { parts with slug := some slug } rest
    else if name = "role" then do
      let role ← Role.ofJson value
      UserParts.read { parts with role := some role } rest
    else UserParts.read parts rest

/-- The user of three parts. -/
def UserParts.user (parts : UserParts) : Except Document.Fault User :=
  match parts with
  | ⟨some id, some slug, some role⟩ => .ok ⟨id, slug, role⟩
  | ⟨none, _, _⟩ => .error (.missingField "id")
  | ⟨_, none, _⟩ => .error (.missingField "slug")
  | ⟨_, _, none⟩ => .error (.missingField "role")

end Document

/-- Reads a user. -/
def User.ofJson : Json → Except Document.Fault User
  | .object fields => do
    let parts ← UserParts.read {} fields
    parts.user
  | .list [] => .error (.tooShort 0)
  | .list [id] => do
    let _ ← UserId.ofJson id
    .error (.tooShort 1)
  | .list [id, slug] => do
    let _ ← UserId.ofJson id
    let _ ← Slug.ofJson slug
    .error (.tooShort 2)
  | .list (id :: slug :: role :: rest) => do
    let user : User := ⟨← UserId.ofJson id, ← Slug.ofJson slug, ← Role.ofJson role⟩
    if rest.isEmpty then return user else .error (.tooLong (rest.length + 3))
  | other => .error (.unexpected other "struct User")

end KeyLifecycle
