import KeyLifecycle.Document
import KeyLifecycle.Service

/-!
# Commands and their documents

What an operator may ask for: to bring the schema of the database up to date, to add a user, or to
work on credentials as some user. A command that succeeds gives a JSON document.
-/

namespace KeyLifecycle

/-- What is done with credentials; the user is the one whose credentials they are. -/
inductive KeysCommand where
  | create (user : Option String)
  | list (user : Option String)
  | delete (key : String) (user : Option String)
  | rotate (key : String) (user : Option String)
  deriving DecidableEq, Repr

/-- What an operator asks for. -/
inductive Command where
  | migrate
  | addUser (slug : String) (admin : Bool)
  | keys (command : KeysCommand)
  deriving DecidableEq, Repr

/-- A command, and the slug of the user as whom it is run. -/
structure Invocation where
  command : Command
  actingAs : Option String
  deriving DecidableEq, Repr

/-- What is said to whoever wants to work on credentials as nobody. -/
def Command.needsActingUser : String := "--as <SLUG> is required for keys commands"

/-- Does something with credentials for a caller. -/
def KeysCommand.execute (service : Service) (caller : Caller) : KeysCommand → Operation Json
  | create user => do
    let reply ← service.create caller user
    return reply.json
  | list user => do
    let reply ← service.list caller user
    return reply.json
  | delete key user => do
    let _ ← service.delete caller user key
    return .object [("deleted", .text key)]
  | rotate key user => do
    let reply ← service.rotate caller user key
    return .object [("replaced", .text key), ("credential", reply.json)]

/-- Adds a user of a slug that is still to be checked. -/
def User.register (slug : String) (admin : Bool) : Operation Json := do
  let slug ← Operation.ofExcept (Slug.ofText slug)
  let user ← Operation.addUser slug (Role.ofAdmin admin)
  Operation.report (.userAdded user.id user.slug admin)
  return .object
    [("id", user.id.json), ("slug", user.slug.json), ("admin", .bool user.role.isAdmin)]

end KeyLifecycle
