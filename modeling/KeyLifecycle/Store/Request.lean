import KeyLifecycle.Event
import KeyLifecycle.Store.Work

/-!
# What is asked of the store

A `Request` says what is wanted of the credentials. Those that change the set of credentials are
units of work inside a transaction: `Request.work?` gives the work and `Request.audit` what is
reported when the transaction has been committed. The others read the table, or write to one row, at
once.
-/

namespace KeyLifecycle

/-- What is asked of the store. -/
inductive Request where
  | create (owner : UserId) (material : KeyMaterial)
  | delete (owner : UserId) (key : AccessKey)
  | rotate (owner : UserId) (key : AccessKey) (material : KeyMaterial)
  /-- A unit of work under a name of its own. -/
  | unit (name : String) (work : Work Reply)
  | list (owner : UserId)
  /-- Notes the moment at which an access key was used. -/
  | stamp (key : AccessKey) (moment : Instant)
  | count
  /-- A transaction whose steps will be asked for one by one. -/
  | lease

namespace Request

/-- The name under which a request is reported. -/
def operation : Request → String
  | create _ _ => "create api key"
  | delete _ _ => "delete api key"
  | rotate _ _ _ => "rotate api key"
  | unit name _ => name
  | list _ => "list api keys"
  | stamp _ _ => "record api key auth"
  | count => "count api keys"
  | lease => "begin transaction"

/-- The work of a request that is a transaction from begin to end. -/
def work? : Request → Option (Work Reply)
  | create owner material => some (.issue owner material)
  | delete owner key => some (.revoke owner key (.done .done))
  | rotate owner key material => some (.revoke owner key (.issue owner material))
  | unit _ work => some work
  | _ => none

/-- What is reported of a request that has been answered. -/
def audit : Request → Reply → List Event
  | create owner _, .issued credential => [.keyCreated owner credential.key]
  | delete owner key, _ => [.keyDeleted owner key]
  | rotate owner key _, .issued credential => [.keyRotated owner key credential.key]
  | _, _ => []

end Request

end KeyLifecycle
