import KeyLifecycle.Store.Handle
import KeyLifecycle.Store.Request

/-!
# Calls in progress

A call is a request on its way: when it was started, how long it may take, and what it is doing. It
asks for the table and waits for it, works on a transaction, pauses inside its work, or has come to
its end. A lease comes to rest between two steps that are asked of it, and keeps its transaction.
-/

namespace KeyLifecycle

/-- What a call is doing. -/
inductive Phase where
  /-- It looks whether it is to fail. -/
  | checking
  /-- It is about to ask for the table. -/
  | asking
  /-- It waits for the table, or has just been given it. -/
  | waiting
  /-- It is inside its transaction. -/
  | working (work : Work Reply) (handle : Handle)
  /-- It pauses inside its transaction until a moment. -/
  | paused (wake : Nat) (work : Work Reply) (handle : Handle)
  /-- A lease rests, after the answer of its last step. -/
  | resting (answer : Except Failure Reply) (handle : Handle)
  /-- It has been answered. -/
  | answered (answer : Except Failure Reply)
  /-- Nobody waits for its answer any more. -/
  | dropped

/-- A request on its way. -/
structure Call where
  request : Request
  /-- The moment at which it was started. -/
  started : Nat
  /-- How long it may take, if there is a limit. -/
  limit : Option Span
  phase : Phase

/-- What a call does first. -/
def Request.firstPhase : Request → Phase
  | .list _ => .checking
  | _ => .asking

namespace Call

/-- The moment at which the call is given up. -/
def deadline? (call : Call) : Option Nat := call.limit.map (call.started + ·)

/-- Whether the call has used up its time. -/
def isDue (call : Call) (now : Nat) : Bool := call.deadline?.any (· ≤ now)

/-- The answer of a call that has one. -/
def answer? (call : Call) : Option (Except Failure Reply) :=
  match call.phase with
  | .resting answer _ => some answer
  | .answered answer => some answer
  | _ => none

/-- Whether a call is on its way, and its time runs. -/
def isRunning (call : Call) : Bool :=
  match call.phase with
  | .resting _ _ => false
  | .answered _ => false
  | .dropped => false
  | _ => true

/-- The next moment at which something happens to a call that waits. -/
def next? (call : Call) : Option Nat :=
  match call.phase with
  | .waiting => call.deadline?
  | .working _ _ => call.deadline?
  | .paused wake _ _ => some (call.deadline?.elim wake (min wake))
  | _ => none

/-- Whether a call still has something to do or to hold. -/
def isLive (call : Call) : Bool :=
  match call.phase with
  | .answered _ => false
  | .dropped => false
  | _ => true

end Call

end KeyLifecycle
