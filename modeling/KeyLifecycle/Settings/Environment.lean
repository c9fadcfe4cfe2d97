import KeyLifecycle.Settings.Path

/-!
# Settings in the environment

A variable counts whose name begins with `APP__`, in any case. Two underscores in the remainder
stand for a point, and the result is a path. The text of a variable is read as a yes or no, a whole
number of up to sixty-four bits or a floating point number, whichever fits first, and is a text
otherwise.
-/

namespace KeyLifecycle.Settings

/-- What the text of a variable stands for. -/
def Value.ofText (text : String) : Value :=
  let word := Literal.lower text
  if word = "true" then .bool true
  else if word = "false" then .bool false
  else
    match (Literal.int? text).filter isSmall with
    | some n => .int n
    | none =>
      match Literal.float? text with
      | some x => .float x
      | none => .text text

/-- The beginning of the names that count, in lower case. -/
def variableMark : List Char := "app__".toList

/-- A text with a point in place of every two underscores. -/
def joinWithPoints : List Char → List Char
  | '_' :: '_' :: rest => '.' :: joinWithPoints rest
  | c :: rest => c :: joinWithPoints rest
  | [] => []

/-- The path of a variable that counts. -/
def Path.ofVariable? (name : String) : Option Path :=
  let cs := (Literal.lower name).toList
  if variableMark.isPrefixOf cs then
    some (Path.ofText (String.ofList (joinWithPoints (cs.drop variableMark.length))))
  else none

/-- Lays the variables that count over a value, if there is a place for each of them. -/
def Value.putVariables (vars : List (String × String)) (v : Value) : Option Value :=
  vars.foldlM (fun v (name, written) =>
    match Path.ofVariable? name with
    | some path => Value.putAt path (.ofText written) v
    | none => some v) v

end KeyLifecycle.Settings
