import KeyLifecycle.Database.Reception
import KeyLifecycle.Database.Statement
import KeyLifecycle.Event
import KeyLifecycle.Time.Span

/-!
# Conversations with a database

An `Exchange` is one side of a conversation: what is sent, and how it goes on after each answer. An
answer takes time, and whoever has limited patience may find that it comes too late; it has still
been sent. A transaction that is given up in the middle is rolled back on its connection before
anything else is sent, without waiting for the answer.

`Exchange.run` plays the conversation with a server that is a function on a state of its own.
-/

namespace KeyLifecycle.Database

/-- An answer, and how long it took. -/
structure Arrival where
  reception : Reception
  delay : Span
  deriving DecidableEq

/-- One side of a conversation. -/
inductive Exchange (α : Type) where
  | done (value : α)
  | report (event : Event) (next : Exchange α)
  /-- Sends a statement and waits for the answer, with patience for a time or without end. There is
  no arrival if patience has come to an end first. -/
  | send (statement : Statement) (patience : Option Span) (next : Option Arrival → Exchange α)
  | pause (duration : Span) (next : Exchange α)
  /-- Gives up the transaction that is in progress. -/
  | forsake (next : Exchange α)

/-- A server whose answers depend on a state. -/
structure Server (σ : Type) where
  /-- The answer to a statement. -/
  reply : Statement → σ → Arrival × σ
  /-- The passing of time. -/
  elapse : Span → σ → σ

/-- The answer, unless it comes after the end of patience. -/
def Arrival.within (patience : Option Span) (arrival : Arrival) : Option Arrival :=
  if patience.all (arrival.delay ≤ ·) then some arrival else none

namespace Exchange

variable {α β σ : Type}

/-- One conversation after the other. -/
def bind (e : Exchange α) (next : α → Exchange β) : Exchange β :=
  match e with
  | done value => next value
  | report event rest => report event (rest.bind next)
  | send statement patience rest => send statement patience fun arrival => (rest arrival).bind next
  | pause duration rest => pause duration (rest.bind next)
  | forsake rest => forsake (rest.bind next)

instance : Monad Exchange where
  pure := done
  bind := bind

/-- Sends a statement and waits for its answer without end. -/
def ask (statement : Statement) (next : Reception → Exchange α) : Exchange α :=
  send statement none fun
    | some arrival => next arrival.reception
    | none => next (.fault .noConnection)

/-- Plays a conversation with a server, and gives the outcome, the state of the server and what has
been reported. -/
def run (server : Server σ) : Exchange α → σ → α × σ × List Event
  | done value, s => (value, s, [])
  | report event next, s =>
    let (value, s, log) := next.run server s
    (value, s, event :: log)
  | send statement patience next, s =>
    let (arrival, s) := server.reply statement s
    (next (arrival.within patience)).run server s
  | pause duration next, s => next.run server (server.elapse duration s)
  | forsake next, s => next.run server (server.reply .rollback s).2

/-- Whether a transaction is unfinished after a statement has been answered. -/
def staysOpen (isOpen : Bool) (statement : Statement) (reception : Reception) : Bool :=
  match statement, reception with
  | .begin, .answer _ _ => true
  | .commit, .answer _ _ => false
  | .rollback, .answer _ _ => false
  | _, _ => isOpen

/-- Breaks a conversation off: a transaction that is unfinished is rolled back. -/
def breakOff (server : Server σ) (isOpen : Bool) (s : σ) : Option α × σ × List Event :=
  (none, if isOpen then (server.reply .rollback s).2 else s, [])

/-- Plays a conversation that is broken off from outside when a time is over. There is no outcome if
that happens. -/
def runFor (server : Server σ) : Exchange α → Span → Bool → σ → Option α × σ × List Event
  | done value, _, _, s => (some value, s, [])
  | report event next, left, isOpen, s =>
    let (value, s, log) := next.runFor server left isOpen s
    (value, s, event :: log)
  | send statement patience next, left, isOpen, s =>
    let (arrival, s) := server.reply statement s
    if left < arrival.delay then breakOff server isOpen s
    else
      (next (arrival.within patience)).runFor server (left - arrival.delay)
        (staysOpen isOpen statement arrival.reception) s
  | pause duration next, left, isOpen, s =>
    if left < duration then breakOff server isOpen (server.elapse left s)
    else next.runFor server (left - duration) isOpen (server.elapse duration s)
  | forsake next, left, _, s => next.runFor server left false (server.reply .rollback s).2

end Exchange

end KeyLifecycle.Database
