import KeyLifecycle.Store.Call
import KeyLifecycle.Store.Lock

/-!
# The table that calls share

A `Vault` is a table of credentials in memory, with the calls that use it and a clock. Its state
changes by small moves, each of which is total and does nothing where it does not apply:

* `Vault.start` – a request becomes a call;
* `Vault.step` – a call that can go on takes one step: it asks for the lock of the table, enters the
  table once it holds the lock, or does the next thing in its work;
* `Vault.expire` – a call that has used up its time is cancelled;
* `Vault.drop` – a call is given up from outside;
* `Vault.resume` – a lease that rests is asked for more work;
* `Vault.setPlan` and `Vault.advance` – which operations fail from now on, and the passing of time.

A transaction holds the lock of the table from beginning to end and works on a copy, so a call that
ends in any other way than by a commit leaves nothing behind. The moment of a commit is also the
moment at which it is reported and answered.
-/

namespace KeyLifecycle

/-- A table of credentials, its calls in the order of their start, a clock in milliseconds, and what
has been reported. -/
structure Vault where
  table : Table
  plan : FailurePlan
  lock : Lock
  calls : List Call
  now : Nat
  log : List Event

namespace Vault

/-- A vault without credentials and calls. -/
def empty : Vault := ⟨.empty, {}, .free, [], 0, []⟩

/-- Reports an event. -/
def note (v : Vault) (event : Event) : Vault := { v with log := v.log ++ [event] }

/-- Reports some events. -/
def notes (v : Vault) (events : List Event) : Vault := { v with log := v.log ++ events }

/-- A call enters a phase. -/
def setPhase (v : Vault) (i : Nat) (phase : Phase) : Vault :=
  { v with calls := v.calls.modify i fun call => { call with phase := phase } }

/-- A call lets go of the lock, or leaves the queue. -/
def release (v : Vault) (i : Nat) : Vault := { v with lock := v.lock.leave i }

/-- A call that holds the lock publishes a table and lets go. -/
def publish (v : Vault) (i : Nat) (table : Table) : Vault := { v with table := table }.release i

/-- A call comes to its end. -/
def settle (v : Vault) (i : Nat) (answer : Except Failure Reply) : Vault :=
  v.setPhase i (.answered answer)

/-- A request becomes the last of the calls. -/
def start (v : Vault) (request : Request) (limit : Option Span) : Vault :=
  { v with calls := v.calls ++ [⟨request, v.now, limit, request.firstPhase⟩] }

/-! ### Steps -/

/-- A list looks whether it is to fail. -/
def check (v : Vault) (i : Nat) : Vault :=
  if v.plan.list then v.settle i (.error (FailurePlan.failure "list api keys"))
  else v.setPhase i .asking

/-- A call asks for the lock. -/
def ask (v : Vault) (i : Nat) : Vault :=
  { v with lock := v.lock.request i }.setPhase i .waiting

/-- A call that holds the lock enters the table: a transaction begins, and everything else is
answered at once. -/
def enter (v : Vault) (i : Nat) (request : Request) : Vault :=
  match request.work? with
  | some work =>
    (v.note (.transactionOpened request.operation)).setPhase i (.working work (.opened v.table))
  | none =>
    match request with
    | .list owner => (v.release i).settle i (.ok (.summaries (v.table.summaries owner)))
    | .stamp key moment =>
      match v.table.stamp? key moment with
      | some table => (v.publish i table).settle i (.ok (.found true))
      | none => (v.release i).settle i (.ok (.found false))
    | .count => (v.release i).settle i (.ok (.count v.table.rows.length))
    | _ => v.setPhase i (.resting (.ok .done) (.opened v.table))

/-- The work of a transaction has succeeded: it is committed. -/
def succeed (v : Vault) (i : Nat) (request : Request) (reply : Reply) (handle : Handle) : Vault :=
  match handle.commit with
  | .ok (table, _) =>
    (((v.publish i table).note (.transactionCommitted request.operation)).notes
      (request.audit reply)).settle i (.ok reply)
  | .error cause => (v.release i).settle i (.error cause)

/-- The work of a transaction has failed: it is rolled back. -/
def giveUp (v : Vault) (i : Nat) (request : Request) (cause : Failure) (handle : Handle) : Vault :=
  let v := v.note (.rollingBack request.operation cause)
  match handle.rollback with
  | .ok _ => (v.release i).settle i (.error cause)
  | .error second =>
    ((v.note (.rollbackFailed request.operation second)).release i).settle i (.error cause)

/-- The next thing in the work of a call. -/
def workStep (v : Vault) (i : Nat) (request : Request) (work : Work Reply) (handle : Handle) :
    Vault :=
  match work with
  | .done reply =>
    match request with
    | .lease => v.setPhase i (.resting (.ok reply) handle)
    | _ => v.succeed i request reply handle
  | .fail cause =>
    match request with
    | .lease => v.setPhase i (.resting (.error cause) handle)
    | _ => v.giveUp i request cause handle
  | .insert owner material next =>
    match handle.insert v.plan owner material with
    | .ok (credential, handle) => v.setPhase i (.working (next credential) handle)
    | .error cause => v.setPhase i (.working (.fail cause) handle)
  | .delete owner key next =>
    match handle.delete v.plan owner key with
    | .ok (some row, handle) =>
      (v.note (.deleteStaged row.id)).setPhase i (.working (next true) handle)
    | .ok (none, handle) => v.setPhase i (.working (next false) handle)
    | .error cause => v.setPhase i (.working (.fail cause) handle)
  | .commit next =>
    match handle.commit with
    | .ok (table, handle) => (v.publish i table).setPhase i (.working next handle)
    | .error cause => v.setPhase i (.working (.fail cause) handle)
  | .rollback next =>
    match handle.rollback with
    | .ok handle => (v.release i).setPhase i (.working next handle)
    | .error cause => v.setPhase i (.working (.fail cause) handle)
  | .pause duration next => v.setPhase i (.paused (v.now + duration) next handle)

/-- A call takes one step, if it can. -/
def step (v : Vault) (i : Nat) : Vault :=
  match v.calls[i]? with
  | none => v
  | some call =>
    match call.phase with
    | .checking => v.check i
    | .asking => v.ask i
    | .waiting => if v.lock.holder = some i then v.enter i call.request else v
    | .working work handle => v.workStep i call.request work handle
    | .paused wake work handle =>
      if wake ≤ v.now then v.setPhase i (.working work handle) else v
    | _ => v

/-! ### The end of patience -/

/-- Whether a call has used up its time. -/
def isOverdue (v : Vault) (i : Nat) : Bool :=
  v.calls[i]?.any fun call => call.isRunning && call.isDue v.now

/-- A call that has used up its time is cancelled. -/
def expire (v : Vault) (i : Nat) : Vault :=
  match v.calls[i]? with
  | none => v
  | some call =>
    match call.limit with
    | none => v
    | some limit =>
      if v.isOverdue i then
        ((v.release i).note (.timedOut call.request.operation limit)).settle i
          (.error (.cancelled call.request.operation))
      else v

/-- A call is given up from outside. -/
def drop (v : Vault) (i : Nat) : Vault :=
  match v.calls[i]? with
  | none => v
  | some call => if call.isLive then (v.release i).setPhase i .dropped else v

/-! ### Leases -/

/-- A lease that rests is asked for more work. -/
def resume (v : Vault) (i : Nat) (work : Work Reply) : Vault :=
  match v.calls[i]? with
  | none => v
  | some call =>
    match call.phase with
    | .resting _ handle => v.setPhase i (.working work handle)
    | _ => v

/-- A lease in the middle of work comes to rest and leaves the remainder undone. -/
def interrupt (v : Vault) (i : Nat) : Vault :=
  match v.calls[i]? with
  | none => v
  | some call =>
    match call.request, call.phase with
    | .lease, .working _ handle => v.setPhase i (.resting (.ok .done) handle)
    | .lease, .paused _ _ handle => v.setPhase i (.resting (.ok .done) handle)
    | _, _ => v.drop i

/-! ### Surroundings -/

/-- From now on the operations of a plan fail. -/
def setPlan (v : Vault) (plan : FailurePlan) : Vault := { v with plan := plan }

/-- Whether a call can go on, or has to be cancelled now. -/
def isReady (v : Vault) (i : Nat) (call : Call) : Bool :=
  match call.phase with
  | .checking => true
  | .asking => true
  | .waiting => v.lock.holder = some i || call.isDue v.now
  | .working _ _ => true
  | .paused wake _ _ => wake ≤ v.now || call.isDue v.now
  | _ => false

/-- Whether all calls wait. -/
def isQuiet (v : Vault) : Bool := v.calls.zipIdx.all fun (call, i) => !v.isReady i call

/-- The next moment at which a call goes on or is cancelled. -/
def next? (v : Vault) : Option Nat := (v.calls.filterMap Call.next?).min?

/-- Time passes up to a moment; only while all calls wait, and no further than to the next moment at
which something happens to one of them. -/
def advance (v : Vault) (moment : Nat) : Vault :=
  if v.isQuiet && v.now ≤ moment && v.next?.all (moment ≤ ·) then { v with now := moment } else v

/-- The answer of a call, once it has one. -/
def answer? (v : Vault) (i : Nat) : Option (Except Failure Reply) := v.calls[i]?.bind Call.answer?

end Vault

end KeyLifecycle
