import KeyLifecycle.Number.Binary64

/-!
# JSON values

A value in the sense of the data format. Whole numbers and floating point numbers are told apart, as
`5` and `5.0` are: the first is exact and has no bound, the second is a `Binary64`. The fields of an
object stand in the order in which they are written.
-/

namespace KeyLifecycle

/-- A value of the data format. -/
inductive Json where
  | null
  | bool (value : Bool)
  | int (value : Int)
  | float (value : Binary64)
  | text (value : String)
  | list (items : List Json)
  | object (fields : List (String × Json))
  deriving Inhabited

namespace Json

/-- The value of a field of an object. -/
def field? (name : String) : Json → Option Json
  | object fields => fields.lookup name
  | _ => none

/-- Puts a field into its place in the order of names; a field of the same name is replaced. -/
def insertField (name : String) (value : Json) : List (String × Json) → List (String × Json)
  | [] => [(name, value)]
  | (other, old) :: rest =>
    if name < other then (name, value) :: (other, old) :: rest
    else if name = other then (name, value) :: rest
    else (other, old) :: insertField name value rest

/-- Fields in the order of their names, where the last of one name counts. -/
def sortFields (fields : List (String × Json)) : List (String × Json) :=
  fields.foldl (fun sorted (name, value) => insertField name value sorted) []

/-- An object whose fields stand in the order of their names. -/
def ofFields (fields : List (String × Json)) : Json := object (sortFields fields)

mutual

/-- The value with the fields of every object in it in the order of their names. -/
def sorted : Json → Json
  | list items => list (sortedItems items)
  | object fields => ofFields (sortedMembers fields)
  | other => other

/-- Sorts in every item. -/
def sortedItems : List Json → List Json
  | [] => []
  | item :: rest => item.sorted :: sortedItems rest

/-- Sorts in every field's value. -/
def sortedMembers : List (String × Json) → List (String × Json)
  | [] => []
  | (name, value) :: rest => (name, value.sorted) :: sortedMembers rest

end

end Json

end KeyLifecycle
