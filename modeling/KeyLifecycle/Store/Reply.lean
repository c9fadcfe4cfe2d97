import KeyLifecycle.Credential

/-!
# What the store answers

One type for the answers of all requests. A secret is in the answers that issue a credential and in
no other.
-/

namespace KeyLifecycle

/-- An answer of the store. -/
inductive Reply where
  /-- It is done, and there is nothing to tell. -/
  | done
  /-- A credential has been issued. -/
  | issued (credential : Credential)
  /-- Whether there was such a row. -/
  | found (yes : Bool)
  /-- What an owner sees. -/
  | summaries (entries : List Summary)
  /-- How many rows there are. -/
  | count (rows : Nat)
  /-- The answers of the parts of a unit of work. -/
  | parts (replies : List Reply)

mutual

/-- The document of an answer. -/
def Reply.json : Reply → Json
  | .done => .null
  | .issued credential => credential.json
  | .found yes => .bool yes
  | .summaries entries => .list (entries.map Summary.json)
  | .count rows => .int rows
  | .parts replies => .list (Reply.jsons replies)

/-- The documents of some answers. -/
def Reply.jsons : List Reply → List Json
  | [] => []
  | reply :: rest => reply.json :: Reply.jsons rest

end

end KeyLifecycle
