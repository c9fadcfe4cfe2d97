import KeyLifecycle.Database.Transaction
import KeyLifecycle.Procedure

/-!
# Procedures over a database

`Procedure.exchange` turns a procedure into the conversation that carries it out: users are looked
up and added by statements, and requests are answered over the database. Key material comes from a
generator, which is part of the outcome; if its source breaks down, the conversation ends there.
-/

namespace KeyLifecycle

namespace Database

/-- Looks a user up by number. -/
def userById (id : UserId) : Exchange (Except Failure (Option User)) :=
  .ask (.userById id) fun reception => .done (reception.user? "get user")

/-- Looks a user up by slug. -/
def userBySlug (slug : String) : Exchange (Except Failure (Option User)) :=
  .ask (.userBySlug slug) fun reception => .done (reception.user? "look up user by slug")

/-- What a fault of adding a user means. -/
def addUserFailure (slug : Slug) (fault : Fault) : Failure :=
  if fault.isConflict then Directory.taken slug else fault.failure "create user"

/-- Adds a user, whose number the database gives out. -/
def addUser (slug : Slug) (role : Role) : Exchange (Except Failure User) :=
  .ask (.addUser slug role) fun reception =>
    .done (match reception.number with
      | .ok id => .ok ⟨⟨id⟩, slug, role⟩
      | .error fault => .error (addUserFailure slug fault))

end Database

open Database

/-- The conversation that carries out a procedure; there is no outcome if the source of key material
breaks down. -/
def Procedure.exchange {α : Type} : Procedure α → Generator → Exchange (Option α × Generator)
  | done value, g => .done (some value, g)
  | report event next, g => .report event (next.exchange g)
  | userById id next, g => (Database.userById id).bind fun answer => (next answer).exchange g
  | userBySlug slug next, g =>
    (Database.userBySlug slug).bind fun answer => (next answer).exchange g
  | addUser slug role next, g =>
    (Database.addUser slug role).bind fun answer => (next answer).exchange g
  | generate next, g =>
    match g.generate with
    | (.material material, g) => (next (.ok material)).exchange g
    | (.failed cause, g) => (next (.error cause)).exchange g
    | (.breakdown, g) => .done (none, g)
  | ask request limit next, g =>
    (request.exchange limit).bind fun answer => (next answer).exchange g

end KeyLifecycle
