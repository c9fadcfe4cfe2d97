import KeyLifecycle.AccessKey
import KeyLifecycle.Policy
import KeyLifecycle.Time.Span

/-!
# Log events

`Event` lists what the library reports while it works, by cause. Each event has a level, an origin,
a message and fields. None of them carries a secret: the fields are numbers, slugs, access keys,
names of operations and the wording of failures. An origin is never shown; filters choose events by
it.
-/

namespace KeyLifecycle

/-- How loud an event is. -/
inductive Level where
  | trace
  | debug
  | info
  | warn
  | error
  deriving DecidableEq, Repr

namespace Level

/-- The name of a level. -/
def name : Level → String
  | trace => "TRACE"
  | debug => "DEBUG"
  | info => "INFO"
  | warn => "WARN"
  | error => "ERROR"

/-- The place of a level, the loudest first. -/
def rank : Level → Nat
  | error => 1
  | warn => 2
  | info => 3
  | debug => 4
  | trace => 5

end Level

/-- The value of a field. -/
inductive FieldValue where
  | text (value : String)
  | int (value : Int)
  | flag (value : Bool)
  deriving DecidableEq, Repr

/-- What happened. -/
inductive Event where
  | transactionOpened (operation : String)
  | transactionCommitted (operation : String)
  | rollingBack (operation : String) (cause : Failure)
  | rollbackFailed (operation : String) (cause : Failure)
  | timedOut (operation : String) (limit : Span)
  | keyCreated (owner : UserId) (key : AccessKey)
  | keyDeleted (owner : UserId) (key : AccessKey)
  | keyRotated (owner : UserId) (old new : AccessKey)
  | deleteStaged (id : CredentialId)
  | resolvingTarget (caller : UserId) (slug : String)
  | resolutionFailed (caller : UserId) (action : Action)
  | policyDenied (caller target : UserId) (action : Action)
  | policyAllowed (caller target : UserId) (action : Action)
  | actingUserResolved (id : UserId)
  | userAdded (id : UserId) (slug : Slug) (admin : Bool)
  | commandFailed (cause : Failure)
  | migrationApplied (version : Int) (description : String)
  | schemaUpToDate (version : Option Int)
  | connected (maxConnections minConnections : Nat)
  | storeReady (timeoutSeconds : Nat)
  | loggingReady (level : String)
  deriving DecidableEq

namespace Event

/-- How loud an event is. -/
def level : Event → Level
  | transactionOpened _ => .debug
  | transactionCommitted _ => .debug
  | rollingBack _ _ => .warn
  | rollbackFailed _ _ => .warn
  | timedOut _ _ => .warn
  | keyCreated _ _ => .info
  | keyDeleted _ _ => .info
  | keyRotated _ _ _ => .info
  | deleteStaged _ => .trace
  | resolvingTarget _ _ => .debug
  | resolutionFailed _ _ => .warn
  | policyDenied _ _ _ => .warn
  | policyAllowed _ _ _ => .debug
  | actingUserResolved _ => .debug
  | userAdded _ _ _ => .info
  | commandFailed _ => .warn
  | migrationApplied _ _ => .info
  | schemaUpToDate _ => .info
  | connected _ _ => .info
  | storeReady _ => .info
  | loggingReady _ => .debug

/-- The part of the program that an event comes from. -/
def origin : Event → String
  | transactionOpened _ => "keyward::infrastructure::api_key::store"
  | transactionCommitted _ => "keyward::infrastructure::api_key::store"
  | rollingBack _ _ => "keyward::infrastructure::api_key::store"
  | rollbackFailed _ _ => "keyward::infrastructure::api_key::store"
  | timedOut _ _ => "keyward::infrastructure::api_key::store"
  | keyCreated _ _ => "keyward::infrastructure::api_key::store"
  | keyDeleted _ _ => "keyward::infrastructure::api_key::store"
  | keyRotated _ _ _ => "keyward::infrastructure::api_key::store"
  | deleteStaged _ => "keyward::infrastructure::api_key::repository"
  | resolvingTarget _ _ => "keyward::infrastructure::api_key::resolver"
  | resolutionFailed _ _ => "keyward::infrastructure::api_key::service"
  | policyDenied _ _ _ => "keyward::infrastructure::api_key::service"
  | policyAllowed _ _ _ => "keyward::infrastructure::api_key::service"
  | actingUserResolved _ => "keyward::cli::keys"
  | userAdded _ _ _ => "keyward::cli::user"
  | commandFailed _ => "keyward::cli::keys"
  | migrationApplied _ _ => "keyward::infrastructure::storage::migrations"
  | schemaUpToDate _ => "keyward::cli::migrate"
  | connected _ _ => "keyward::infrastructure::storage::postgres"
  | storeReady _ => "keyward"
  | loggingReady _ => "keyward::infrastructure::logging"

/-- The message of an event. -/
def message : Event → String
  | transactionOpened _ => "Transaction opened"
  | transactionCommitted _ => "Transaction committed"
  | rollingBack _ _ => "Rolling back transaction"
  | rollbackFailed _ _ => "Rollback failed"
  | timedOut _ _ => "Store operation timed out"
  | keyCreated _ _ => "API key created"
  | keyDeleted _ _ => "API key deleted"
  | keyRotated _ _ _ => "API key rotated"
  | deleteStaged _ => "Staged credential delete"
  | resolvingTarget _ _ => "Resolving target user"
  | resolutionFailed _ _ => "Target resolution failed"
  | policyDenied _ _ _ => "Policy denied"
  | policyAllowed _ _ _ => "Policy allowed"
  | actingUserResolved _ => "Acting user resolved"
  | userAdded _ _ _ => "User added"
  | commandFailed _ => "Keys command failed"
  | migrationApplied _ _ => "Applied migration"
  | schemaUpToDate _ => "Schema up to date"
  | connected _ _ => "Connected to PostgreSQL"
  | storeReady _ => "Credential store ready"
  | loggingReady level => "Logging initialized with level: " ++ level

/-- The fields of an event, each with its name. -/
def fields : Event → List (String × FieldValue)
  | transactionOpened operation => [("operation", .text operation)]
  | transactionCommitted operation => [("operation", .text operation)]
  | rollingBack operation cause =>
    [("operation", .text operation), ("error", .text cause.message)]
  | rollbackFailed operation cause =>
    [("operation", .text operation), ("error", .text cause.message)]
  | timedOut operation limit =>
    [("operation", .text operation), ("timeout", .text limit.text)]
  | keyCreated owner key => [("user_id", .text owner.text), ("access_key", .text key.text)]
  | keyDeleted owner key => [("user_id", .text owner.text), ("access_key", .text key.text)]
  | keyRotated owner old new =>
    [("user_id", .text owner.text), ("old_access_key", .text old.text),
      ("new_access_key", .text new.text)]
  | deleteStaged id => [("credential_id", .int id.value.toInt)]
  | resolvingTarget caller slug => [("caller", .text caller.text), ("slug", .text slug)]
  | resolutionFailed caller action =>
    [("caller", .text caller.text), ("action", .text action.name)]
  | policyDenied caller target action =>
    [("caller", .text caller.text), ("target", .text target.text), ("action", .text action.name)]
  | policyAllowed caller target action =>
    [("caller", .text caller.text), ("target", .text target.text), ("action", .text action.name)]
  | actingUserResolved id => [("user_id", .text id.text)]
  | userAdded id slug admin =>
    [("user_id", .text id.text), ("slug", .text slug.text), ("admin", .flag admin)]
  | commandFailed cause => [("error", .text cause.message)]
  | migrationApplied version description =>
    [("version", .int version), ("description", .text description)]
  | schemaUpToDate version =>
    [("version", .text (match version with
      | none => "None"
      | some v => "Some(" ++ toString v ++ ")"))]
  | connected maxConnections minConnections =>
    [("max_connections", .int maxConnections), ("min_connections", .int minConnections)]
  | storeReady timeoutSeconds => [("operation_timeout_secs", .int timeoutSeconds)]
  | loggingReady _ => []

end Event

end KeyLifecycle
