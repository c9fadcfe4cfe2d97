import KeyLifecycle.Procedure
import KeyLifecycle.Store.Vault.Poll

/-!
# Procedures in memory

A `Session` holds users, a generator and a vault. `Procedure.run` takes a procedure up to the first
request that has to wait, and `Session.together` runs several procedures side by side until each has
come to its end.

The procedures have their turns in rounds, each of them once and in order, and then a holder from
outside whose time has come lets go. Time stands still while anybody can go on; when all wait, it
moves on to the next moment at which something happens. Patience has an end, too: whoever is not
through after the round of that moment is given up.

A round has an allowance, which all of its turns draw on (`Vault.poll`); to look up or to add a user
takes one unit, and so do a holder who lets go and patience that ends. With nothing left a procedure
stays where it is, and the next round follows at the same moment with an allowance of its own. What
the last round of some procedures has left over is there for the first round of the next ones.
-/

namespace KeyLifecycle

/-- Users, a source of key material, a table of credentials, and what is left of the allowance. -/
structure Session where
  directory : Directory
  generator : Generator
  vault : Vault
  left : Nat

/-- How far a procedure has come. -/
inductive Progress (α : Type) where
  | finished (value : α)
  /-- It goes on in its next turn. -/
  | ready (rest : Procedure α)
  /-- It waits for the answer to a call. -/
  | pending (call : Nat) (next : Except Failure Reply → Procedure α)
  /-- The source of key material broke down in the middle of it. -/
  | crashed
  /-- It was not through when patience came to an end. -/
  | givenUp

namespace Session

/-- The allowance of a round. -/
def allowance : Nat := 128

/-- A session with some users and no credentials. -/
def start (directory : Directory) (generator : Generator) : Session :=
  ⟨directory, generator, .empty, allowance⟩

/-- Gives a call its turn. -/
def poll (s : Session) (call : Nat) : Session :=
  let (left, vault) := s.vault.poll call s.left
  { s with vault := vault, left := left }

/-- Starts a call and gives it its first turn, which is too long a way to be unfolded unasked. -/
@[irreducible] def call (s : Session) (request : Request) (limit : Option Span) : Nat × Session :=
  let call := s.vault.calls.length
  (call, { s with vault := s.vault.start request limit }.poll call)

/-- Takes units of the allowance one by one, where a round follows on each that has nothing left. -/
def spend : Nat → Session → Session
  | 0, s => s
  | units + 1, s =>
    spend units { s with left := (if s.left = 0 then allowance else s.left) - 1 }

end Session

/-- Runs a procedure up to the first request that has to wait, or until nothing is left of the
allowance for it. -/
def Procedure.run {α : Type} : Procedure α → Session → Progress α × Session
  | done value, s => (.finished value, s)
  | report event next, s => next.run { s with vault := s.vault.note event }
  | userById id next, s =>
    if s.left = 0 then (.ready (.userById id next), s)
    else (next (.ok (s.directory.byId id))).run { s with left := s.left - 1 }
  | userBySlug slug next, s =>
    if s.left = 0 then (.ready (.userBySlug slug next), s)
    else (next (.ok (s.directory.bySlug slug))).run { s with left := s.left - 1 }
  | addUser slug role next, s =>
    if s.left = 0 then (.ready (.addUser slug role next), s)
    else
      match s.directory.add slug role with
      | .ok (user, directory) =>
        (next (.ok user)).run { s with directory := directory, left := s.left - 1 }
      | .error cause => (next (.error cause)).run { s with left := s.left - 1 }
  | generate next, s =>
    match s.generator.generate with
    | (.material material, generator) => (next (.ok material)).run { s with generator := generator }
    | (.failed cause, generator) => (next (.error cause)).run { s with generator := generator }
    | (.breakdown, generator) => (.crashed, { s with generator := generator })
  | ask request limit next, s =>
    let (call, s) := s.call request limit
    match s.vault.answer? call with
    | some answer => (next answer).run s
    | none => (.pending call next, s)

namespace Progress

variable {α : Type}

/-- Gives a procedure its turn. -/
def poll (p : Progress α) (s : Session) : Progress α × Session :=
  match p with
  | ready rest => rest.run s
  | pending call next =>
    let s := s.poll call
    match s.vault.answer? call with
    | some answer => (next answer).run s
    | none => (p, s)
  | other => (other, s)

/-- Whether the procedure goes on without waiting. -/
def isReady : Progress α → Bool
  | ready _ => true
  | _ => false

/-- Whether the procedure is not through. -/
def isUnfinished : Progress α → Bool
  | ready _ => true
  | pending _ _ => true
  | _ => false

/-- Gives a procedure up. -/
def giveUp (p : Progress α) (s : Session) : Progress α × Session :=
  match p with
  | ready _ => (.givenUp, s)
  | pending call _ => (.givenUp, { s with vault := s.vault.interrupt call })
  | other => (other, s)

end Progress

namespace Session

variable {α : Type}

/-- Does the same with each of some procedures, in order. -/
def each (turn : Progress α → Session → Progress α × Session) :
    List (Progress α) → Session → List (Progress α) × Session
  | [], s => ([], s)
  | p :: rest, s =>
    let (p, s) := turn p s
    let (rest, s) := each turn rest s
    (p :: rest, s)

/-- A call from outside that holds the table, and the moment at which it is dropped. -/
structure Holder where
  call : Nat
  ends : Nat

/-- Lets a holder go whose moment has come. -/
def letGo (holder : Option Holder) (s : Session) : Option Holder × Session :=
  match holder with
  | some h =>
    if h.ends ≤ s.vault.now ∧ 0 < s.left then
      (none, { s with vault := s.vault.drop h.call, left := s.left - 1 })
    else (holder, s)
  | none => (none, s)

/-- What comes between two rounds: a new allowance, and the passing of time if all wait, up to the
end of patience at most. -/
def recover (last : Nat) (holder : Option Holder) (ps : List (Progress α)) (s : Session) :
    Session :=
  let moments := (holder.map Holder.ends).toList ++ s.vault.next?.toList
  let vault := if ps.any Progress.isReady then s.vault
    else s.vault.advance (moments.foldl min last)
  { s with vault := vault, left := allowance }

/-- Gives procedures their turns in rounds up to a moment at which those that are not through are
given up, unless the round of that moment began with nothing left. -/
def rounds (last : Nat) : Nat → Option Holder → List (Progress α) → Session →
    List (Progress α) × Session
  | 0, _, ps, s => each Progress.giveUp ps s
  | fuel + 1, holder, ps, s =>
    let mayEnd := 0 < s.left
    let (ps, s) := each Progress.poll ps s
    let (holder, s) := letGo holder s
    if !ps.any Progress.isUnfinished then (ps, s)
    else if last ≤ s.vault.now ∧ mayEnd then
      each Progress.giveUp ps { s with left := s.left - 1 }
    else rounds last fuel holder ps (recover last holder ps s)

/-- The rounds that there may be while time stands still. -/
def roundsAtRest : Nat := 1 <<< 32

/-- Gives procedures their turns for as long as patience lasts. Every round takes a millisecond at
least, or follows on one that had nothing left or set somebody free. -/
def settle (patience : Span) (holder : Option Holder) (ps : List (Progress α)) (s : Session) :
    List (Progress α) × Session :=
  rounds (s.vault.now + patience) (roundsAtRest + patience) holder ps s

/-- Gives one procedure its turns for as long as patience lasts. -/
def settleOne (patience : Span) (p : Progress α) (s : Session) : Progress α × Session :=
  match s.settle patience none [p] with
  | (p :: _, s) => (p, s)
  | ([], s) => (.givenUp, s)

/-- Runs one procedure for as long as patience lasts. -/
def perform (s : Session) (procedure : Procedure α) (patience : Span) : Progress α × Session :=
  s.settleOne patience (.ready procedure)

/-- Takes out a lease, and gives its call if it has been granted before patience came to an end. -/
def lease (s : Session) (patience : Span) : Option Nat × Session :=
  let call := s.vault.calls.length
  match s.perform (Operation.ask .lease none) patience with
  | (.finished _, s) => (some call, s)
  | (_, s) => (none, s)

/-- Asks a lease for more work, for as long as patience lasts. -/
def resume (s : Session) (call : Nat) (work : Work Reply) (patience : Span) :
    Progress (Except Failure Reply) × Session :=
  { s with vault := s.vault.resume call work }.settleOne patience (.pending call .done)

/-- Drops a lease. -/
def drop (s : Session) (call : Nat) : Session := { s with vault := s.vault.drop call }

/-- Starts procedures in order and runs them side by side, for as long as patience lasts. Somebody
else may be given the table before the start and hold it for some time. -/
def together (s : Session) (procedures : List (Procedure α)) (hold : Option Span)
    (patience : Span) : List (Progress α) × Session :=
  let ps := procedures.map Progress.ready
  match hold with
  | none => s.settle patience none ps
  | some duration =>
    match s.lease patience with
    | (none, s) => each Progress.giveUp ps s
    | (some call, s) =>
      let (ps, s) := s.settle patience (some ⟨call, s.vault.now + duration⟩) ps
      (ps, s.drop call)

end Session

end KeyLifecycle
