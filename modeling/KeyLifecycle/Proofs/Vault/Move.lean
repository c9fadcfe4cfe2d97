import KeyLifecycle.Store.Vault
import Mathlib.Data.List.Basic

/-!
# The moves of a vault, and what each may come to

Whatever happens to a vault is a `Move`: a request becomes a call, a call takes a step, runs out of
time or is given up, a lease is asked for more, the failure plan changes, the clock shows another
moment, something is reported from outside. `Vault.run` makes moves one after the other, in any
order whatever, so a list of moves is a schedule: nothing is assumed about who has a turn when, nor
about how fast time passes.

A move of a call touches the vault in four places only: the phase of that call, the lock, the table,
and what has been reported. `Effect` is that record, and `Vault.Deed` lists every effect that a move
can have, one constructor for each thing a call can do, with the conditions under which it does so.

| what is said | theorem |
|---|---|
| a move of a call is nothing or a deed | `KeyLifecycle.Vault.move_eq_or_deed` |
| any move starts a call, is a deed, or changes no call | `KeyLifecycle.Vault.move_cases` |
| what all deeds keep, all runs keep | `KeyLifecycle.Vault.run_induction` |

The last is the only induction over runs that an invariant of the vault needs.
-/

namespace KeyLifecycle

/-! ### Moves and runs -/

/-- Something that happens to a vault. -/
inductive Move where
  | start (request : Request) (limit : Option Span)
  | step (call : Nat)
  | expire (call : Nat)
  | drop (call : Nat)
  | resume (call : Nat) (work : Work Reply)
  | interrupt (call : Nat)
  | setPlan (plan : FailurePlan)
  /-- The clock shows a moment, whichever it is. -/
  | clock (moment : Nat)
  | report (events : List Event)

/-- The call that a move is one of, if it is a move of a call. -/
def Move.call? : Move → Option Nat
  | step i => some i
  | expire i => some i
  | drop i => some i
  | resume i _ => some i
  | interrupt i => some i
  | _ => none

/-- The work that a call is inside of, and its transaction. -/
def Phase.inside? : Phase → Option (Work Reply × Handle)
  | .working work handle => some (work, handle)
  | .paused _ work handle => some (work, handle)
  | _ => none

/-- The transaction that a call has, at work or at rest. -/
def Phase.handle? : Phase → Option Handle
  | .working _ handle => some handle
  | .paused _ _ handle => some handle
  | .resting _ handle => some handle
  | _ => none

theorem Call.isLive_of_isRunning {call : Call} (h : call.isRunning = true) :
    call.isLive = true := by
  cases hp : call.phase <;> simp_all [Call.isRunning, Call.isLive]

/-- What a request that only looks at a table is answered. -/
def Request.view? (t : Table) : Request → Option Reply
  | .list owner => some (.summaries (t.summaries owner))
  | .stamp key _ => some (.found (t.hasKey key))
  | .count => some (.count t.rows.length)
  | _ => none

/-- The table after a request has looked at it; a stamp leaves its moment. -/
def Request.stamped (t : Table) : Request → Table
  | .stamp key moment => (t.stamp? key moment).getD t
  | _ => t

/-- The failure with which the next thing in a work is refused, if it is. -/
def Work.fault? (plan : FailurePlan) (handle : Handle) : Work Reply → Option Failure
  | .insert owner material _ =>
    match handle.insert plan owner material with
    | .error cause => some cause
    | .ok _ => none
  | .delete owner key _ =>
    match handle.delete plan owner key with
    | .error cause => some cause
    | .ok _ => none
  | .commit _ => if handle.isOpen then none else some (Handle.alreadyFinished "commit")
  | .rollback _ => if handle.isOpen then none else some (Handle.alreadyFinished "transaction")
  | _ => none

/-- The end of a work that has come to it. -/
def Work.outcome? : Work Reply → Option (Except Failure Reply)
  | .done reply => some (.ok reply)
  | .fail cause => some (.error cause)
  | _ => none

namespace Vault

/-- Makes a move. -/
def move (v : Vault) : Move → Vault
  | .start request limit => v.start request limit
  | .step i => v.step i
  | .expire i => v.expire i
  | .drop i => v.drop i
  | .resume i work => v.resume i work
  | .interrupt i => v.interrupt i
  | .setPlan plan => v.setPlan plan
  | .clock moment => { v with now := moment }
  | .report events => v.notes events

/-- Makes moves one after the other. -/
def run (v : Vault) (moves : List Move) : Vault := moves.foldl move v

variable {v : Vault} {i j : Nat} {call : Call}

@[simp] theorem run_nil (v : Vault) : v.run [] = v := rfl

@[simp] theorem run_cons (v : Vault) (m : Move) (moves : List Move) :
    v.run (m :: moves) = (v.move m).run moves := rfl

@[simp] theorem run_append (v : Vault) (before after : List Move) :
    v.run (before ++ after) = (v.run before).run after :=
  List.foldl_append

/-! ### Effects -/

/-- What a move of a call leaves behind: the phase of the call, the lock, the table, and what is
reported on the way. -/
structure Effect where
  phase : Phase
  lock : Lock
  table : Table
  news : List Event

/-- A call has an effect. -/
def amend (v : Vault) (i : Nat) (e : Effect) : Vault :=
  { v with
    table := e.table
    lock := e.lock
    calls := v.calls.modify i fun call => { call with phase := e.phase }
    log := v.log ++ e.news }

@[simp] theorem amend_table (v : Vault) (i : Nat) (e : Effect) :
    (v.amend i e).table = e.table := rfl

@[simp] theorem amend_calls_length (v : Vault) (i : Nat) (e : Effect) :
    (v.amend i e).calls.length = v.calls.length := by
  simp [amend]

/-- The call that has an effect enters its phase. -/
theorem amend_calls_self (hc : v.calls[i]? = some call) (e : Effect) :
    (v.amend i e).calls[i]? = some { call with phase := e.phase } := by
  simp [amend, hc]

/-- All other calls stay as they are. -/
theorem amend_calls_of_ne (h : j ≠ i) (v : Vault) (e : Effect) :
    (v.amend i e).calls[j]? = v.calls[j]? := by
  simp [amend, h.symm]

/-- A call of a vault after an effect is the one that had it, or was there before. -/
theorem amend_calls_cases {e : Effect} {call' : Call} (hc : v.calls[i]? = some call)
    (h : (v.amend i e).calls[j]? = some call') :
    (j = i ∧ call' = { call with phase := e.phase }) ∨ (j ≠ i ∧ v.calls[j]? = some call') := by
  rcases eq_or_ne j i with rfl | hne
  · rw [amend_calls_self hc] at h
    exact Or.inl ⟨rfl, (Option.some.inj h).symm⟩
  · rw [amend_calls_of_ne hne] at h
    exact Or.inr ⟨hne, h⟩

/-! ### Deeds -/

/-- **Everything a move can do to a call**, given the vault and the call before it. -/
inductive Deed (v : Vault) (i : Nat) (call : Call) : Effect → Prop
  /-- A list finds that it is to fail. -/
  | refuse (hp : call.phase = .checking) (h : v.plan.list = true) :
    Deed v i call ⟨.answered (.error (FailurePlan.failure "list api keys")), v.lock, v.table, []⟩
  /-- A list finds that it is not to fail. -/
  | pass (hp : call.phase = .checking) (h : v.plan.list = false) :
    Deed v i call ⟨.asking, v.lock, v.table, []⟩
  /-- The lock is asked for. -/
  | ask (hp : call.phase = .asking) :
    Deed v i call ⟨.waiting, v.lock.request i, v.table, []⟩
  /-- A transaction begins with a copy of the table. -/
  | begin {work : Work Reply} (hp : call.phase = .waiting) (hl : v.lock.holder = some i)
      (h : call.request.work? = some work) :
    Deed v i call ⟨.working work (.opened v.table), v.lock, v.table,
      [.transactionOpened call.request.operation]⟩
  /-- A lease is granted. -/
  | grant (hp : call.phase = .waiting) (hl : v.lock.holder = some i) (h : call.request = .lease) :
    Deed v i call ⟨.resting (.ok .done) (.opened v.table), v.lock, v.table, []⟩
  /-- The table is looked at. -/
  | look {reply : Reply} (hp : call.phase = .waiting) (hl : v.lock.holder = some i)
      (h : call.request.view? v.table = some reply) :
    Deed v i call ⟨.answered (.ok reply), v.lock.leave i, call.request.stamped v.table, []⟩
  /-- Key material is issued in the copy. -/
  | insert {owner : UserId} {material : KeyMaterial} {next : Credential → Work Reply}
      {handle staged : Handle} {credential : Credential}
      (hp : call.phase = .working (.insert owner material next) handle)
      (h : handle.insert v.plan owner material = .ok (credential, staged)) :
    Deed v i call ⟨.working (next credential) staged, v.lock, v.table, []⟩
  /-- A row is looked for in the copy, and taken out if it is there. -/
  | delete {owner : UserId} {key : AccessKey} {next : Bool → Work Reply}
      {handle staged : Handle} {row : Option Row}
      (hp : call.phase = .working (.delete owner key next) handle)
      (h : handle.delete v.plan owner key = .ok (row, staged)) :
    Deed v i call ⟨.working (next row.isSome) staged, v.lock, v.table,
      (row.map fun row => .deleteStaged row.id).toList⟩
  /-- The next thing in the work is refused. -/
  | fault {work : Work Reply} {handle : Handle} {cause : Failure}
      (hp : call.phase = .working work handle) (h : work.fault? v.plan handle = some cause) :
    Deed v i call ⟨.working (.fail cause) handle, v.lock, v.table, []⟩
  /-- The work pauses. -/
  | pause {duration : Span} {next : Work Reply} {handle : Handle}
      (hp : call.phase = .working (.pause duration next) handle) :
    Deed v i call ⟨.paused (v.now + duration) next handle, v.lock, v.table, []⟩
  /-- A pause is over. -/
  | wake {moment : Nat} {work : Work Reply} {handle : Handle}
      (hp : call.phase = .paused moment work handle) (h : moment ≤ v.now) :
    Deed v i call ⟨.working work handle, v.lock, v.table, []⟩
  /-- The work commits its transaction itself. -/
  | commit {next : Work Reply} {handle : Handle}
      (hp : call.phase = .working (.commit next) handle) (h : handle.isOpen = true) :
    Deed v i call ⟨.working next .finished, v.lock.leave i, handle.staged, []⟩
  /-- The work rolls its transaction back itself. -/
  | rollback {next : Work Reply} {handle : Handle}
      (hp : call.phase = .working (.rollback next) handle) (h : handle.isOpen = true) :
    Deed v i call ⟨.working next .finished, v.lock.leave i, v.table, []⟩
  /-- A lease comes to rest. -/
  | rest {work : Work Reply} {handle : Handle} {answer : Except Failure Reply}
      (hp : call.phase = .working work handle) (hr : call.request = .lease)
      (h : work.outcome? = some answer) :
    Deed v i call ⟨.resting answer handle, v.lock, v.table, []⟩
  /-- The work has succeeded and is committed. -/
  | succeed {reply : Reply} {handle : Handle} (hp : call.phase = .working (.done reply) handle)
      (hr : call.request ≠ .lease) (h : handle.isOpen = true) :
    Deed v i call ⟨.answered (.ok reply), v.lock.leave i, handle.staged,
      .transactionCommitted call.request.operation :: call.request.audit reply⟩
  /-- The work has succeeded, but its transaction was finished before. -/
  | late {reply : Reply} {handle : Handle} (hp : call.phase = .working (.done reply) handle)
      (hr : call.request ≠ .lease) (h : handle.isOpen = false) :
    Deed v i call
      ⟨.answered (.error (Handle.alreadyFinished "commit")), v.lock.leave i, v.table, []⟩
  /-- The work has failed and is rolled back. -/
  | giveUp {cause : Failure} {handle : Handle} (hp : call.phase = .working (.fail cause) handle)
      (hr : call.request ≠ .lease) :
    Deed v i call ⟨.answered (.error cause), v.lock.leave i, v.table,
      .rollingBack call.request.operation cause ::
        if handle.isOpen then []
        else [.rollbackFailed call.request.operation (Handle.alreadyFinished "transaction")]⟩
  /-- The time of the call is used up. -/
  | expire {limit : Span} (hl : call.limit = some limit) (hr : call.isRunning = true)
      (h : call.isDue v.now = true) :
    Deed v i call ⟨.answered (.error (.cancelled call.request.operation)), v.lock.leave i, v.table,
      [.timedOut call.request.operation limit]⟩
  /-- The call is given up from outside. -/
  | drop (h : call.isLive = true) :
    Deed v i call ⟨.dropped, v.lock.leave i, v.table, []⟩
  /-- A lease is asked for more. -/
  | resume {answer : Except Failure Reply} {work : Work Reply} {handle : Handle}
      (hp : call.phase = .resting answer handle) :
    Deed v i call ⟨.working work handle, v.lock, v.table, []⟩
  /-- A lease comes to rest in the middle of its work. -/
  | interrupt {work : Work Reply} {handle : Handle} (hr : call.request = .lease)
      (hp : call.phase.inside? = some (work, handle)) :
    Deed v i call ⟨.resting (.ok .done) handle, v.lock, v.table, []⟩

/-! ### Every move of a call is a deed -/

theorem setPhase_eq_amend (v : Vault) (i : Nat) (phase : Phase) :
    v.setPhase i phase = v.amend i ⟨phase, v.lock, v.table, []⟩ := by
  simp [setPhase, amend]

theorem check_deed (hp : call.phase = .checking) :
    ∃ e, v.check i = v.amend i e ∧ v.Deed i call e := by
  rw [check]
  split
  · rename_i h
    exact ⟨_, setPhase_eq_amend v i _, .refuse hp h⟩
  · rename_i h
    exact ⟨_, setPhase_eq_amend v i _, .pass hp (by simpa using h)⟩

theorem enter_deed (hp : call.phase = .waiting) (hl : v.lock.holder = some i) :
    ∃ e, v.enter i call.request = v.amend i e ∧ v.Deed i call e := by
  obtain ⟨request, started, limit, phase⟩ := call
  cases request with
  | list owner =>
    exact ⟨_, by simp [enter, Request.work?, release, settle, setPhase, amend, Request.stamped],
      .look hp hl rfl⟩
  | stamp key moment =>
    refine ⟨_, ?_, .look hp hl rfl⟩
    cases h : v.table.hasKey key <;>
      simp [enter, Request.work?, Table.stamp?, h, publish, release, settle, setPhase, amend,
        Request.stamped]
  | count =>
    exact ⟨_, by simp [enter, Request.work?, release, settle, setPhase, amend, Request.stamped],
      .look hp hl rfl⟩
  | lease => exact ⟨_, setPhase_eq_amend v i _, .grant hp hl rfl⟩
  | _ => exact ⟨_, rfl, .begin hp hl rfl⟩

theorem succeed_deed {reply : Reply} {handle : Handle}
    (hp : call.phase = .working (.done reply) handle) (hr : call.request ≠ .lease) :
    ∃ e, v.succeed i call.request reply handle = v.amend i e ∧ v.Deed i call e := by
  cases h : handle.isOpen with
  | true =>
    exact ⟨⟨_, _, _, _ :: _⟩,
      by simp [succeed, Handle.commit, h, publish, release, note, notes, settle, setPhase, amend],
      .succeed hp hr h⟩
  | false =>
    exact ⟨⟨_, _, _, []⟩,
      by simp [succeed, Handle.commit, h, release, settle, setPhase, amend], .late hp hr h⟩

theorem giveUp_deed {cause : Failure} {handle : Handle}
    (hp : call.phase = .working (.fail cause) handle) (hr : call.request ≠ .lease) :
    ∃ e, v.giveUp i call.request cause handle = v.amend i e ∧ v.Deed i call e := by
  refine ⟨_, ?_, .giveUp hp hr⟩
  cases h : handle.isOpen <;>
    simp [giveUp, Handle.rollback, h, note, release, settle, setPhase, amend]

/-- The next thing in a work is a deed: it is refused, or done to the transaction. -/
theorem workStep_deed {work : Work Reply} {handle : Handle}
    (hp : call.phase = .working work handle) :
    ∃ e, v.workStep i call.request work handle = v.amend i e ∧ v.Deed i call e := by
  cases work with
  | done reply =>
    by_cases hr : call.request = .lease
    · rw [hr]
      exact ⟨_, setPhase_eq_amend v i _, .rest hp hr rfl⟩
    · have h : v.workStep i call.request (.done reply) handle =
          v.succeed i call.request reply handle := by
        cases hq : call.request <;> first | rfl | exact absurd hq hr
      rw [h]
      exact succeed_deed hp hr
  | fail cause =>
    by_cases hr : call.request = .lease
    · rw [hr]
      exact ⟨_, setPhase_eq_amend v i _, .rest hp hr rfl⟩
    · have h : v.workStep i call.request (.fail cause) handle =
          v.giveUp i call.request cause handle := by
        cases hq : call.request <;> first | rfl | exact absurd hq hr
      rw [h]
      exact giveUp_deed hp hr
  | insert owner material next =>
    rw [workStep]
    split
    · rename_i credential staged h
      exact ⟨_, setPhase_eq_amend v i _, .insert hp h⟩
    · rename_i cause h
      exact ⟨_, setPhase_eq_amend v i _, .fault hp (by simp [Work.fault?, h])⟩
  | delete owner key next =>
    rw [workStep]
    split
    · rename_i row staged h
      exact ⟨_, rfl, .delete hp h⟩
    · rename_i staged h
      exact ⟨_, setPhase_eq_amend v i _, .delete hp h⟩
    · rename_i cause h
      exact ⟨_, setPhase_eq_amend v i _, .fault hp (by simp [Work.fault?, h])⟩
  | commit next =>
    cases h : handle.isOpen with
    | true =>
      exact ⟨⟨_, _, _, []⟩,
        by simp [workStep, Handle.commit, h, publish, release, setPhase, amend], .commit hp h⟩
    | false =>
      -- a finished transaction refuses to be committed, a fault like any other
      have hf : (Work.commit next).fault? v.plan handle =
          some (Handle.alreadyFinished "commit") := by
        simp [Work.fault?, h]
      exact ⟨_, by simp [workStep, Handle.commit, h, setPhase, amend], .fault hp hf⟩
  | rollback next =>
    cases h : handle.isOpen with
    | true =>
      exact ⟨⟨_, _, _, []⟩,
        by simp [workStep, Handle.rollback, h, release, setPhase, amend], .rollback hp h⟩
    | false =>
      have hf : (Work.rollback next).fault? v.plan handle =
          some (Handle.alreadyFinished "transaction") := by
        simp [Work.fault?, h]
      exact ⟨_, by simp [workStep, Handle.rollback, h, setPhase, amend], .fault hp hf⟩
  | pause duration next => exact ⟨_, setPhase_eq_amend v i _, .pause hp⟩

theorem step_eq_or_deed (hc : v.calls[i]? = some call) :
    v.step i = v ∨ ∃ e, v.step i = v.amend i e ∧ v.Deed i call e := by
  rw [step]
  simp only [hc]
  split
  · exact Or.inr (check_deed ‹_›)
  · exact Or.inr ⟨⟨_, _, _, []⟩, by simp [ask, setPhase, amend], .ask ‹_›⟩
  · split
    · exact Or.inr (enter_deed ‹_› ‹_›)
    · exact Or.inl rfl
  · exact Or.inr (workStep_deed ‹_›)
  · split
    · exact Or.inr ⟨_, setPhase_eq_amend v i _, .wake ‹_› ‹_›⟩
    · exact Or.inl rfl
  · exact Or.inl rfl

theorem expire_eq_or_deed (hc : v.calls[i]? = some call) :
    v.expire i = v ∨ ∃ e, v.expire i = v.amend i e ∧ v.Deed i call e := by
  rw [expire]
  simp only [hc]
  split
  · exact Or.inl rfl
  · rename_i limit hl
    split
    · rename_i h
      have h' : call.isRunning = true ∧ call.isDue v.now = true := by
        simpa [isOverdue, hc] using h
      exact Or.inr ⟨_, rfl, .expire hl h'.1 h'.2⟩
    · exact Or.inl rfl

theorem drop_eq_or_deed (hc : v.calls[i]? = some call) :
    v.drop i = v ∨ ∃ e, v.drop i = v.amend i e ∧ v.Deed i call e := by
  rw [drop]
  simp only [hc]
  split
  · exact Or.inr ⟨⟨_, _, _, []⟩, by simp [release, setPhase, amend], .drop ‹_›⟩
  · exact Or.inl rfl

theorem resume_eq_or_deed (hc : v.calls[i]? = some call) (work : Work Reply) :
    v.resume i work = v ∨ ∃ e, v.resume i work = v.amend i e ∧ v.Deed i call e := by
  rw [resume]
  simp only [hc]
  split
  · exact Or.inr ⟨_, setPhase_eq_amend v i _, .resume ‹_›⟩
  · exact Or.inl rfl

theorem interrupt_eq_or_deed (hc : v.calls[i]? = some call) :
    v.interrupt i = v ∨ ∃ e, v.interrupt i = v.amend i e ∧ v.Deed i call e := by
  rw [interrupt]
  simp only [hc]
  split
  · rename_i hr hp
    exact Or.inr ⟨_, setPhase_eq_amend v i _, .interrupt hr (by rw [hp, Phase.inside?])⟩
  · rename_i hr hp
    exact Or.inr ⟨_, setPhase_eq_amend v i _, .interrupt hr (by rw [hp, Phase.inside?])⟩
  · exact drop_eq_or_deed hc

/-- A move of a call that there is not does nothing. -/
theorem move_of_absent {m : Move} (hm : m.call? = some i) (hc : v.calls[i]? = none) :
    v.move m = v := by
  cases m <;> simp only [Move.call?, Option.some.injEq, reduceCtorEq] at hm <;> subst hm <;>
    simp [move, step, expire, drop, resume, interrupt, hc]

/-- **A move of a call does nothing, or is a deed of that call.** -/
theorem move_eq_or_deed {m : Move} (hm : m.call? = some i) (hc : v.calls[i]? = some call) :
    v.move m = v ∨ ∃ e, v.move m = v.amend i e ∧ v.Deed i call e := by
  cases m <;> simp only [Move.call?, Option.some.injEq, reduceCtorEq] at hm <;> subst hm
  · exact step_eq_or_deed hc
  · exact expire_eq_or_deed hc
  · exact drop_eq_or_deed hc
  · exact resume_eq_or_deed hc _
  · exact interrupt_eq_or_deed hc

/-- A call of a vault with one more request is the new one, or was there before. -/
theorem start_calls_cases {request : Request} {limit : Option Span}
    (h : (v.start request limit).calls[j]? = some call) :
    (j = v.calls.length ∧ call = ⟨request, v.now, limit, request.firstPhase⟩) ∨
      v.calls[j]? = some call := by
  rw [start, List.getElem?_append] at h
  split at h
  · exact Or.inr h
  · rename_i hj
    rw [List.getElem?_singleton] at h
    split at h
    · exact Or.inl ⟨by omega, (Option.some.inj h).symm⟩
    · simp at h

/-- **A move starts a call, or leaves all calls and the table alone, or is a deed** of some call. -/
theorem move_cases (v : Vault) (m : Move) :
    (∃ request limit, m = .start request limit) ∨
      ((v.move m).calls = v.calls ∧ (v.move m).table = v.table) ∨
      ∃ j call e, m.call? = some j ∧ v.calls[j]? = some call ∧ v.move m = v.amend j e ∧
        v.Deed j call e := by
  cases h : m.call? with
  | some j =>
    refine Or.inr ?_
    cases hj : v.calls[j]? with
    | none => exact Or.inl (by rw [move_of_absent h hj]; exact ⟨rfl, rfl⟩)
    | some call =>
      rcases move_eq_or_deed h hj with he | ⟨e, he, hd⟩
      · exact Or.inl (by rw [he]; exact ⟨rfl, rfl⟩)
      · exact Or.inr ⟨j, call, e, rfl, hj, he, hd⟩
  | none =>
    cases m with
    | start request limit => exact Or.inl ⟨request, limit, rfl⟩
    | setPlan plan => exact Or.inr (Or.inl ⟨rfl, rfl⟩)
    | clock moment => exact Or.inr (Or.inl ⟨rfl, rfl⟩)
    | report events => exact Or.inr (Or.inl ⟨rfl, rfl⟩)
    | _ => simp [Move.call?] at h

/-- **A move of somebody else** leaves a call as it is, unless the move is its start. -/
theorem move_calls_cases {m : Move} (hm : m.call? ≠ some i)
    (hc : (v.move m).calls[i]? = some call) :
    v.calls[i]? = some call ∨ (v.calls[i]? = none ∧ call.phase = call.request.firstPhase) := by
  rcases move_cases v m with ⟨request, limit, rfl⟩ | ⟨he, -⟩ | ⟨j, other, e, hj, -, he, -⟩
  · rcases start_calls_cases hc with ⟨rfl, rfl⟩ | hc
    · exact Or.inr ⟨List.getElem?_eq_none (Nat.le_refl _), rfl⟩
    · exact Or.inl hc
  · rw [he] at hc
    exact Or.inl hc
  · have hne : i ≠ j := fun hij => hm (hij ▸ hj)
    rw [he, amend_calls_of_ne hne] at hc
    exact Or.inl hc

/-- No move takes a call away. -/
theorem calls_length_le_move (v : Vault) (m : Move) :
    v.calls.length ≤ (v.move m).calls.length := by
  rcases move_cases v m with ⟨request, limit, rfl⟩ | ⟨he, -⟩ | ⟨j, other, e, -, -, he, -⟩
  · simp [move, start]
  · exact Nat.le_of_eq (congrArg List.length he).symm
  · exact Nat.le_of_eq (by rw [he, amend_calls_length])

/-- **A call keeps its request**, whatever move is made. -/
theorem exists_call_move (hc : v.calls[i]? = some call) (m : Move) :
    ∃ call', (v.move m).calls[i]? = some call' ∧ call'.request = call.request := by
  rcases move_cases v m with ⟨request, limit, rfl⟩ | ⟨he, -⟩ | ⟨j, other, e, -, hj, he, -⟩
  · have hi : i < v.calls.length := (List.getElem?_eq_some_iff.mp hc).1
    exact ⟨call, by rw [move, start, List.getElem?_append_left hi, hc], rfl⟩
  · exact ⟨call, by rw [he, hc], rfl⟩
  · rw [he]
    rcases eq_or_ne i j with rfl | hne
    · obtain rfl := Option.some.inj (hc.symm.trans hj)
      exact ⟨_, amend_calls_self hc e, rfl⟩
    · exact ⟨call, by rw [amend_calls_of_ne hne, hc], rfl⟩

/-- **A call is there from its start on**: what is new after a move has been started by it. -/
theorem exists_start_of_new {m : Move} (hn : v.calls[i]? = none)
    (hc : (v.move m).calls[i]? = some call) : ∃ limit, m = .start call.request limit := by
  have same : (v.move m).calls.length ≠ v.calls.length := by
    intro h
    rw [List.getElem?_eq_none_iff, ← h, ← List.getElem?_eq_none_iff, hc] at hn
    simp at hn
  rcases move_cases v m with ⟨request, limit, rfl⟩ | ⟨he, -⟩ | ⟨j, other, e, -, -, he, -⟩
  · rcases start_calls_cases hc with ⟨-, rfl⟩ | hc'
    · exact ⟨limit, rfl⟩
    · simp [hn] at hc'
  · exact absurd (congrArg List.length he) same
  · exact absurd (by rw [he, amend_calls_length]) same

/-- A call keeps its request through every run. -/
theorem exists_call_run (hc : v.calls[i]? = some call) (moves : List Move) :
    ∃ call', (v.run moves).calls[i]? = some call' ∧ call'.request = call.request := by
  induction moves generalizing v call with
  | nil => exact ⟨call, hc, rfl⟩
  | cons m moves ih =>
    obtain ⟨next, hn, hr⟩ := exists_call_move hc m
    obtain ⟨last, hl, hr'⟩ := ih hn
    exact ⟨last, hl, hr'.trans hr⟩

/-- Only a call that is still on its way, or holds something, does anything. -/
theorem Deed.isLive {e : Effect} (hd : v.Deed i call e) : call.isLive = true := by
  cases hd with
  | drop h => exact h
  | expire hl hr h => exact Call.isLive_of_isRunning hr
  | interrupt hr hp =>
    cases hq : call.phase <;> simp_all [Phase.inside?, Call.isLive]
  | _ => simp [Call.isLive, *]

/-- **Invariants of runs**: what a property of vaults has to survive are deeds, new calls, other
failure plans, the clock, and reports from outside. -/
theorem run_induction {P : Vault → Prop} {plans : FailurePlan → Prop}
    (start : ∀ v request limit, P v → P (v.start request limit))
    (deed : ∀ v i call e, P v → v.calls[i]? = some call → v.Deed i call e → P (v.amend i e))
    (setPlan : ∀ v plan, plans plan → P v → P (v.setPlan plan))
    (clock : ∀ v moment, P v → P { v with now := moment })
    (report : ∀ v events, P v → P (v.notes events))
    (hv : P v) {moves : List Move} (hm : ∀ plan, .setPlan plan ∈ moves → plans plan) :
    P (v.run moves) := by
  induction moves generalizing v with
  | nil => exact hv
  | cons m moves ih =>
    have hm' : ∀ plan, .setPlan plan ∈ moves → plans plan :=
      fun plan h => hm plan (List.mem_cons_of_mem m h)
    rw [run_cons]
    refine ih ?_ hm'
    cases h : m.call? with
    | some i =>
      cases hc : v.calls[i]? with
      | none => rwa [move_of_absent h hc]
      | some call =>
        rcases move_eq_or_deed h hc with he | ⟨e, he, hd⟩
        · rwa [he]
        · rw [he]
          exact deed v i call e hv hc hd
    | none =>
      cases m with
      | start request limit => exact start v request limit hv
      | setPlan plan => exact setPlan v plan (hm plan List.mem_cons_self) hv
      | clock moment => exact clock v moment hv
      | report events => exact report v events hv
      | _ => simp [Move.call?] at h

end Vault

end KeyLifecycle
