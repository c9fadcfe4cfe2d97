import KeyLifecycle.Database.Exchange
import KeyLifecycle.Store.Handle
import KeyLifecycle.Store.Request

/-!
# Requests to the store over a database

`Request.exchange` is the conversation that answers a request. A unit of work is one transaction:
`BEGIN`, the statements of the work, and `COMMIT` if the work has succeeded or `ROLLBACK` if not.
Where the time of a request is limited, every answer has to come within what is left of it; a
request that runs out of time gives up its transaction and is cancelled.

`Standing` is what a conversation has to keep in mind: whether its transaction is unfinished, and
the time that is left.
-/

namespace KeyLifecycle

namespace Database

/-- Whether the transaction is unfinished, and the time that is left, if it is limited. -/
structure Standing where
  isOpen : Bool
  left : Option Span
  deriving DecidableEq

namespace Standing

variable {α : Type}

/-- Sends a statement within the time that is left. -/
def send (s : Standing) (statement : Statement) (late : Standing → Exchange α)
    (next : Standing → Reception → Exchange α) : Exchange α :=
  .send statement s.left fun
    | none => late s
    | some arrival => next { s with left := s.left.map (· - arrival.delay) } arrival.reception

/-- Waits within the time that is left. -/
def pause (s : Standing) (duration : Span) (late : Standing → Exchange α)
    (next : Standing → Exchange α) : Exchange α :=
  match s.left with
  | none => .pause duration (next s)
  | some left =>
    if duration ≤ left then .pause duration (next { s with left := some (left - duration) })
    else .pause left (late s)

/-- The transaction has been finished, or could not be: then it is given up. -/
def finish (s : Standing) (operation : String) (late : Standing → Exchange α)
    (statement : Statement) (next : Standing → Except Failure Unit → Exchange α) : Exchange α :=
  s.send statement late fun s reception =>
    match reception.confirm with
    | .ok () => next { s with isOpen := false } (.ok ())
    | .error fault =>
      .forsake (next { s with isOpen := false } (.error (fault.failure operation)))

/-- Commits the transaction. -/
def commit (s : Standing) (late : Standing → Exchange α)
    (next : Standing → Except Failure Unit → Exchange α) : Exchange α :=
  if s.isOpen then s.finish "commit" late .commit next
  else next s (.error (Handle.alreadyFinished "commit"))

/-- Rolls the transaction back. -/
def rollback (s : Standing) (late : Standing → Exchange α)
    (next : Standing → Except Failure Unit → Exchange α) : Exchange α :=
  if s.isOpen then s.finish "rollback" late .rollback next
  else next s (.error (Handle.alreadyFinished "rollback"))

end Standing

/-- Begins a transaction. -/
def Standing.begin {α : Type} (s : Standing) (late : Standing → Exchange α)
    (next : Standing → Except Failure Unit → Exchange α) : Exchange α :=
  s.send .begin late fun s reception =>
    match reception.confirm with
    | .ok () => next { s with isOpen := true } (.ok ())
    | .error fault => next s (.error (fault.failure "begin transaction"))

/-- Time has run out: an unfinished transaction is given up, and the request is cancelled. -/
def Standing.cancel (operation : String) (limit : Option Span) (s : Standing) :
    Exchange (Except Failure Reply) :=
  let outcome := .report (.timedOut operation (limit.getD 0))
    (.done (.error (.cancelled operation)))
  if s.isOpen then .forsake outcome else outcome

/-- What a fault of issuing a credential means. -/
def insertFailure (fault : Fault) : Failure :=
  if fault.isConflict then Table.taken else fault.failure "insert api key"

end Database

open Database

/-- The conversation of a work inside a transaction, and how it goes on: `late` if time runs out,
and `next` when the work has come to its end. -/
def Work.exchange {α β : Type} (late : Standing → Exchange β)
    (next : Standing → Except Failure α → Exchange β) : Work α → Standing → Exchange β
  | .done value, s => next s (.ok value)
  | .fail cause, s => next s (.error cause)
  | .insert owner material rest, s =>
    if s.isOpen then
      s.send (.insertCredential owner material) late fun s reception =>
        match reception.number with
        | .ok id =>
          Work.exchange late next (rest ⟨⟨id⟩, owner, material.key, material.secret, none⟩) s
        | .error fault => next s (.error (insertFailure fault))
    else next s (.error (Handle.alreadyFinished "transaction"))
  | .delete owner key rest, s =>
    if s.isOpen then
      s.send (.deleteCredential owner key) late fun s reception =>
        match reception.hasEffect with
        | .ok found => Work.exchange late next (rest found) s
        | .error fault => next s (.error (fault.failure "delete api key"))
    else next s (.error (Handle.alreadyFinished "transaction"))
  | .commit rest, s =>
    s.commit late fun s outcome =>
      match outcome with
      | .ok () => Work.exchange late next rest s
      | .error cause => next s (.error cause)
  | .rollback rest, s =>
    s.rollback late fun s outcome =>
      match outcome with
      | .ok () => Work.exchange late next rest s
      | .error cause => next s (.error cause)
  | .pause duration rest, s =>
    s.pause duration late fun s => Work.exchange late next rest s

/-- The conversation of a unit of work from the beginning of its transaction to its end. -/
def Request.transaction (request : Request) (work : Work Reply) (limit : Option Span) :
    Exchange (Except Failure Reply) :=
  let operation := request.operation
  let late := Standing.cancel operation limit
  Standing.begin ⟨false, limit⟩ late fun s outcome =>
    match outcome with
    | .error cause => .done (.error cause)
    | .ok () =>
      .report (.transactionOpened operation) <|
        work.exchange late (fun s outcome =>
          match outcome with
          | .ok reply =>
            s.commit late fun _ outcome =>
              match outcome with
              | .ok () =>
                .report (.transactionCommitted operation) <|
                  (request.audit reply).foldr .report (.done (.ok reply))
              | .error cause => .done (.error cause)
          | .error cause =>
            .report (.rollingBack operation cause) <|
              s.rollback late fun _ outcome =>
                match outcome with
                | .ok () => .done (.error cause)
                | .error second =>
                  .report (.rollbackFailed operation second) (.done (.error cause)))
          s

/-- The conversation that answers a request, within a time if that is limited. -/
def Request.exchange (request : Request) (limit : Option Span) :
    Exchange (Except Failure Reply) :=
  let late := Standing.cancel request.operation limit
  match request.work? with
  | some work => request.transaction work limit
  | none =>
    match request with
    | .list owner =>
      Standing.send ⟨false, limit⟩ (.listCredentials owner) late fun _ reception =>
        .done (reception.summaries.map .summaries)
    | .stamp key moment =>
      Standing.send ⟨false, limit⟩ (.stampCredential key moment) late fun _ reception =>
        .done ((reception.hasEffect.mapError (Fault.failure request.operation)).map .found)
    | _ => .done (.error (.storage request.operation "not available"))

namespace Database

/-! ### Leases -/

/-- Takes out a lease: begins a transaction whose steps will be asked for one by one. -/
def lease : Exchange (Except Failure Unit) :=
  Standing.begin ⟨false, none⟩ (fun _ => .done (.error (.cancelled "begin transaction")))
    fun _ outcome => .done outcome

/-- A step of a lease, whose transaction may be unfinished; the answer, and whether it still is. -/
def leaseStep (isOpen : Bool) (work : Work Reply) : Exchange (Except Failure Reply × Bool) :=
  work.exchange (fun s => .done (.error (.cancelled "transaction"), s.isOpen))
    (fun s outcome => .done (outcome, s.isOpen)) ⟨isOpen, none⟩

/-- The end of a lease. -/
def leaseEnd (isOpen : Bool) : Exchange Unit :=
  if isOpen then .forsake (.done ()) else .done ()

end Database

end KeyLifecycle
