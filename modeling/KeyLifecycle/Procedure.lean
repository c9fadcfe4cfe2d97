import KeyLifecycle.Directory
import KeyLifecycle.Event
import KeyLifecycle.Generator
import KeyLifecycle.Store.Request

/-!
# Procedures

A `Procedure` is what an operation asks of its surroundings, one thing after the other: to report an
event, to look up or add a user, to generate key material, to have a request answered by the store.
It says nothing about where users and credentials are kept. The same procedure is run in memory and
on a database.

An `Operation` is a procedure that may fail; a failure ends it unless it is caught.
-/

namespace KeyLifecycle

/-- What is asked of the surroundings, and how it goes on after each answer. -/
inductive Procedure (α : Type) where
  | done (value : α)
  | report (event : Event) (next : Procedure α)
  | userById (id : UserId) (next : Except Failure (Option User) → Procedure α)
  | userBySlug (slug : String) (next : Except Failure (Option User) → Procedure α)
  | addUser (slug : Slug) (role : Role) (next : Except Failure User → Procedure α)
  | generate (next : Except Failure KeyMaterial → Procedure α)
  /-- The request may take as long as the limit says, if there is one. -/
  | ask (request : Request) (limit : Option Span) (next : Except Failure Reply → Procedure α)

namespace Procedure

variable {α β : Type}

/-- One procedure after the other. -/
def bind (p : Procedure α) (next : α → Procedure β) : Procedure β :=
  match p with
  | done value => next value
  | report event rest => report event (rest.bind next)
  | userById id rest => userById id fun answer => (rest answer).bind next
  | userBySlug slug rest => userBySlug slug fun answer => (rest answer).bind next
  | addUser slug role rest => addUser slug role fun answer => (rest answer).bind next
  | generate rest => generate fun answer => (rest answer).bind next
  | ask request limit rest => ask request limit fun answer => (rest answer).bind next

instance : Monad Procedure where
  pure := done
  bind := bind

end Procedure

/-- A procedure that may fail. -/
abbrev Operation (α : Type) : Type := ExceptT Failure Procedure α

namespace Operation

/-- Reports an event. -/
def report (event : Event) : Operation Unit := Procedure.report event (.done (.ok ()))

/-- The user of a number. -/
def userById (id : UserId) : Operation (Option User) := Procedure.userById id .done

/-- The user of a slug. -/
def userBySlug (slug : String) : Operation (Option User) := Procedure.userBySlug slug .done

/-- Adds a user. -/
def addUser (slug : Slug) (role : Role) : Operation User := Procedure.addUser slug role .done

/-- Fresh key material. -/
def generate : Operation KeyMaterial := Procedure.generate .done

/-- The answer of the store to a request. -/
def ask (request : Request) (limit : Option Span) : Operation Reply :=
  Procedure.ask request limit .done

/-- A value that may be a failure. -/
def ofExcept {α : Type} (value : Except Failure α) : Operation α := Procedure.done value

end Operation

end KeyLifecycle
