/-!
# A lock for whoever comes first

At most one call holds the lock; the others wait in the order in which they came. A lock that is let
go is handed over at once to the first of those who wait, who holds it from then on, whenever it is
that they go on. Whoever gives up leaves the others in their order.
-/

namespace KeyLifecycle

/-- Who holds the lock, and who waits for it, the first to come first. -/
structure Lock where
  holder : Option Nat
  queue : List Nat
  deriving DecidableEq, Inhabited

namespace Lock

/-- Held by nobody. -/
def free : Lock := ⟨none, []⟩

/-- A call asks for the lock, and holds it at once if nobody does. -/
def request (l : Lock) (call : Nat) : Lock :=
  match l.holder with
  | none => ⟨some call, l.queue⟩
  | some _ => ⟨l.holder, l.queue ++ [call]⟩

/-- The lock is handed over to the first who waits. -/
def handOver (l : Lock) : Lock :=
  match l.queue with
  | [] => ⟨none, []⟩
  | next :: rest => ⟨some next, rest⟩

/-- A call lets go of the lock, or no longer waits for it. -/
def leave (l : Lock) (call : Nat) : Lock :=
  if l.holder = some call then l.handOver else { l with queue := l.queue.filter (· ≠ call) }

end Lock

end KeyLifecycle
