import KeyLifecycle.Proofs.Service.Scene
import KeyLifecycle.Proofs.Session.Limits
import KeyLifecycle.Proofs.Session.Unfolding

/-!
# The stages run in their order, and the first failure is the answer

What becomes of an operation of the service while others go on beside it
(`Progress.Unfolds`). `Demand.Account` says so of its turns, and it compares them with the stages
that `ServiceCall.stages` lists. An operation

* is stopped at the look-up while nothing is left of the allowance;
* then goes past the look-up in one turn, the *front* one. Users and key material are those of this
  moment, and a stage in front of the store that fails is the end of it;
* has to wait in the store in some more turns, perhaps, in which it leaves the table as it was;
* is through in a *last* turn, with the failure of the first stage that fails or the fruit of all of
  them, on the table as it stood when that turn began.

The stage at which the table is waited for fails if the time runs out, and `stopped` in
`Demand.Account.through` says when it does. A turn is not only held up by somebody else who has the
table. The allowance may end in the middle of the transaction, too, and then whoever has no time to
spare is cancelled although no stage of theirs fails. With `Demand.enough` of it at the beginning of
the turn that does not happen.

The proof follows the operation from turn to turn. `KeyLifecycle.Demand.account_of_fronts` is the
front turn, `KeyLifecycle.Demand.LastTurn.account` any turn in the store, by the three outcomes that
it has (`Vault.Outcome`); nothing that others do in between concerns the call of the operation.
-/

namespace KeyLifecycle

namespace Demand

open Vault (InOrder Outcome)

/-! ### The account of an operation -/

/-- **What the stages look at** if an operation goes past the look-up in some session, and comes to
some table, while certain operations are to fail. -/
def sceneOf (plan : FailurePlan) (s : Session) (table : Table) (late : Bool) : Scene :=
  ⟨s.directory, s.generator.generate.1, plan, table, late⟩

/-- With so much of the allowance no turn of an operation is stopped. -/
def enough : Nat := 7

/-- A turn that had too little of the allowance, and has left nothing of it. -/
def IsShort (turn : Session.Turn) : Prop := turn.1.left < enough ∧ turn.2.left = 0

/-- A turn for which nothing was left of the allowance, and in which reports are made at most. -/
def IsIdle (turn : Session.Turn) : Prop := turn.1.left = 0 ∧ turn.1.OnlyReports turn.2

/-- Somebody else than a call has the table all through a turn. -/
def HeldByOthers (own : Nat) (turn : Session.Turn) : Prop :=
  ∃ j, j ≠ own ∧ turn.1.vault.lock.holder = some j ∧ turn.2.vault.lock.holder = some j

/-- **What an operation leaves alone** in its turns from the look-up on: the users; the generator,
unless the stage of drawing takes place, and after the first of these turns in any case; the vault,
unless the store is asked; and the lock of the table, unless the table is waited for. -/
structure LeavesAlone (q : Demand) (x : Scene) (front : Session.Turn) (later : List Session.Turn) :
    Prop where
  users : ∀ turn ∈ front :: later, turn.2.directory = turn.1.directory
  generator : front.2.generator = q.spent x front.1.generator
  stays : ∀ turn ∈ later, turn.2.generator = turn.1.generator
  vault : .listPlan ∉ q.ran x → .table ∉ q.ran x →
    later = [] ∧ ∃ events, front.2.vault = front.1.vault.notes events
  lock : .table ∉ q.ran x → ∀ turn ∈ front :: later, turn.2.vault.lock = turn.1.vault.lock

/-- **The call of an operation** that has come to the store. -/
structure Asks (q : Demand) (plan : FailurePlan) (front : Session.Turn) (call : Call) : Prop where
  passed : q.call.front.findSome?
    (q.setback? (sceneOf plan front.1 front.1.vault.table false)) = none
  request : q.request? (sceneOf plan front.1 front.1.vault.table false) = some call.request
  started : call.started = front.1.vault.now
  limit : call.limit = some q.service.store.limit

/-- **A turn of an operation that has to wait**: it leaves the table as it was, and it is short, or
somebody else has the table and there is still time. -/
structure Waits (q : Demand) (front turn : Session.Turn) : Prop where
  table : turn.2.vault.table = turn.1.vault.table
  stopped : IsShort turn ∨ (HeldByOthers front.1.vault.calls.length turn ∧
    turn.1.vault.now < front.1.vault.now + q.service.store.limit)

/-- **What has become of an operation** in its turns. -/
inductive Account (q : Demand) (plan : FailurePlan) :
    List Session.Turn → Progress (Except Failure Reply) → Session → Prop
  /-- It is at the look-up, for which nothing has been left in any turn. -/
  | atLookUp {idle : List Session.Turn} {rest : Procedure (Except Failure Reply)} {s : Session}
      (hidle : ∀ turn ∈ idle, IsIdle turn) (hr : q.AtLookUp rest) :
    Account q plan idle (.ready rest) s
  /-- It is in the store, and waits there. -/
  | inStore {idle later : List Session.Turn} {front : Session.Turn} {call : Call} {s : Session}
      (hidle : ∀ turn ∈ idle, IsIdle turn) (asks : q.Asks plan front call)
      (alone : q.LeavesAlone (sceneOf plan front.1 front.1.vault.table false) front later)
      (waits : ∀ turn ∈ front :: later, q.Waits front turn)
      (hc : s.vault.calls[front.1.vault.calls.length]? = some call)
      (running : call.isRunning = true) (brisk : call.phase.IsBrisk) :
    Account q plan (idle ++ front :: later) (.pending front.1.vault.calls.length .done) s
  /-- It is through. The table that its stages have looked at is that of its last turn. -/
  | through {idle later before : List Session.Turn} {front last : Session.Turn} {late : Bool}
      {s : Session} (hidle : ∀ turn ∈ idle, IsIdle turn) (hlast : front :: later = before ++ [last])
      (alone : q.LeavesAlone (sceneOf plan front.1 last.1.vault.table late) front later)
      (waits : ∀ turn ∈ before, q.Waits front turn)
      (table : last.2.vault.table = q.after (sceneOf plan front.1 last.1.vault.table late))
      (stopped : late = true → (IsShort last ∨ HeldByOthers front.1.vault.calls.length last) ∧
        front.1.vault.now + q.service.store.limit ≤ last.1.vault.now) :
    Account q plan (idle ++ front :: later)
      (q.progress (sceneOf plan front.1 last.1.vault.table late)) s
  /-- It has been given up. -/
  | givenUp {turns : List Session.Turn} {p : Progress (Except Failure Reply)} {s s' : Session}
      (h : Account q plan turns p s) (hp : p.isUnfinished = true) :
    Account q plan turns .givenUp s'

variable {q : Demand} {plan : FailurePlan} {x : Scene} {front last : Session.Turn}
  {idle later before turns : List Session.Turn} {call : Call} {p : Progress (Except Failure Reply)}
  {rest next : Procedure (Except Failure Reply)} {s t : Session} {v : Vault} {phase : Phase}
  {own left : Nat}

/-! ### What is answered, and what is left alone -/

theorem progress_of_failing {setback : Setback} (h : q.failing? x = some setback) :
    q.progress x = setback.progress ∧ q.after x = x.table := by
  rw [progress, after, h]
  exact ⟨rfl, rfl⟩

theorem progress_of_passed (h : q.failing? x = none) :
    q.progress x = .finished (.ok (q.fruit x).1) ∧ q.after x = (q.fruit x).2 := by
  rw [progress, after, h]
  exact ⟨rfl, rfl⟩

theorem isUnfinished_progress (q : Demand) (x : Scene) : (q.progress x).isUnfinished = false := by
  rw [progress]
  cases q.failing? x with
  | none => rfl
  | some setback => cases setback <;> rfl

/-- An operation that has come to the store does wait there, or looks whether it is to fail. -/
theorem Asks.ran (h : q.Asks plan front call) :
    (.listPlan ∈ q.ran (sceneOf plan front.1 front.1.vault.table false) ∨
      .table ∈ q.ran (sceneOf plan front.1 front.1.vault.table false)) ∧
    (.table ∉ q.ran (sceneOf plan front.1 front.1.vault.table false) →
      (∃ owner, call.request = .list owner) ∧ plan.list = true) := by
  obtain ⟨hlist, htable⟩ := mem_ran_of_passed h.passed
  obtain ⟨-, -, -, hrequest⟩ := request_of_request? h.request
  rw [hlist, htable, hrequest]
  refine ⟨?_, Classical.not_not.mp⟩
  by_cases hq : q.call = .list
  · exact Or.inl hq
  · exact Or.inr fun hno => hq hno.1

/-- What an operation leaves alone does not depend on what there is in the store. -/
theorem LeavesAlone.of_store {table : Table} {late : Bool}
    (h : q.LeavesAlone (sceneOf plan s table late) front later) (table' : Table) (late' : Bool) :
    q.LeavesAlone (sceneOf plan s table' late') front later := by
  obtain ⟨hspent, hlist, htable⟩ :=
    ran_of_store (q := q) (x := sceneOf plan s table late) (g := front.1.generator) table' late'
  refine ⟨h.users, h.generator.trans hspent.symm, h.stays, ?_, ?_⟩
  · exact fun hno hno' => h.vault (fun hl => hno (hlist.mpr hl)) fun ht => hno' (htable.mpr ht)
  · exact fun hno => h.lock fun ht => hno (htable.mpr ht)

/-- One more turn in the store. -/
theorem LeavesAlone.concat (hasks : q.Asks plan front call)
    (h : q.LeavesAlone (sceneOf plan front.1 front.1.vault.table false) front later)
    (hd : last.2.directory = last.1.directory) (hg : last.2.generator = last.1.generator)
    (hl : (∃ owner, call.request = .list owner) → plan.list = true →
      last.2.vault.lock = last.1.vault.lock) :
    q.LeavesAlone (sceneOf plan front.1 front.1.vault.table false) front (later ++ [last]) where
  users turn hturn := by
    rw [← List.cons_append, List.mem_append, List.mem_singleton] at hturn
    rcases hturn with hturn | rfl
    · exact h.users turn hturn
    · exact hd
  generator := h.generator
  stays turn hturn := by
    rw [List.mem_append, List.mem_singleton] at hturn
    rcases hturn with hturn | rfl
    · exact h.stays turn hturn
    · exact hg
  vault hlist htable := absurd hasks.ran.1 (not_or.mpr ⟨hlist, htable⟩)
  lock htable turn hturn := by
    rw [← List.cons_append, List.mem_append, List.mem_singleton] at hturn
    rcases hturn with hturn | rfl
    · exact h.lock htable turn hturn
    · obtain ⟨hlist, hplan⟩ := hasks.ran.2 htable
      exact hl hlist hplan

/-! ### The call is polled -/

/-- **The vault in which a call is polled in some turn**: it differs from the vault before that turn
in reports and in the call at most, and one unit of the allowance is gone at most. -/
structure Polled (own : Nat) (v : Vault) (left : Nat) (turn : Session.Turn) : Prop where
  lock : v.lock = turn.1.vault.lock
  table : v.table = turn.1.vault.table
  now : v.now = turn.1.vault.now
  spent : turn.1.left ≤ left + 1
  after : v.poll own left = (turn.2.left, turn.2.vault)

theorem Polled.isShort (h : Polled own v left last) (hfew : left ≤ 5) (hnone : last.2.left = 0) :
    IsShort last := by
  have hspent := h.spent
  exact ⟨by rw [enough]; omega, hnone⟩

theorem Polled.stopped (h : Polled own v left last)
    (hs : Vault.Stopped 2 own left v (last.2.left, last.2.vault)) :
    IsShort last ∨ HeldByOthers own last := by
  refine hs.imp (fun ⟨hfew, hnone⟩ => h.isShort hfew hnone) ?_
  rintro ⟨j, hj, hbefore, hafter⟩
  exact ⟨j, hj, by rw [← h.lock, hbefore], hafter⟩

/-- With nothing left of the allowance there is nothing to wait for. -/
theorem Polled.isShort_of_zero (h : Polled own v 0 last) : IsShort last := by
  have hzero := v.poll_zero own
  rw [h.after] at hzero
  exact h.isShort (Nat.zero_le 5) hzero

/-- **An operation in the store, in the last one of its turns so far**: it has had to wait in those
before. -/
structure LastTurn (q : Demand) (plan : FailurePlan) (idle : List Session.Turn)
    (front : Session.Turn) (later before : List Session.Turn) (last : Session.Turn) (call : Call) :
    Prop where
  idle : ∀ turn ∈ idle, IsIdle turn
  split : front :: later = before ++ [last]
  asks : q.Asks plan front call
  alone : q.LeavesAlone (sceneOf plan front.1 front.1.vault.table false) front later
  waits : ∀ turn ∈ before, q.Waits front turn

theorem LastTurn.isDue_iff (h : q.LastTurn plan idle front later before last call) (now : Nat) :
    call.isDue now = true ↔ front.1.vault.now + q.service.store.limit ≤ now := by
  rw [Call.isDue, Call.deadline?, h.asks.limit, h.asks.started]
  simp

/-- The stages in front of the store pass on the table of the last turn, too. -/
theorem LastTurn.passed (h : q.LastTurn plan idle front later before last call) (late : Bool) :
    q.call.front.findSome? (q.setback? (sceneOf plan front.1 last.1.vault.table late)) = none :=
  (findSome?_front (x := sceneOf plan front.1 front.1.vault.table false) _ late).trans h.asks.passed

/-- **The call goes on**: the operation is in the store, and has to wait. -/
theorem LastTurn.account_waiting (h : q.LastTurn plan idle front later before last call)
    (hlast : q.Waits front last)
    (hc : last.2.vault.calls[front.1.vault.calls.length]? = some { call with phase := phase })
    (hr : Call.isRunning { call with phase := phase } = true) (hb : phase.IsBrisk) :
    q.Account plan (idle ++ front :: later)
      (.awaiting last.2.vault front.1.vault.calls.length) last.2 := by
  have hpending : Progress.awaiting last.2.vault front.1.vault.calls.length =
      .pending front.1.vault.calls.length .done := by
    rw [Progress.awaiting, Vault.answer?, hc]
    cases phase <;> first | rfl | simp [Call.isRunning] at hr
  rw [hpending]
  have hasks : q.Asks plan front { call with phase := phase } :=
    ⟨h.asks.passed, h.asks.request, h.asks.started, h.asks.limit⟩
  refine .inStore h.idle hasks h.alone ?_ hc hr hb
  rw [h.split]
  intro turn hturn
  rw [List.mem_append, List.mem_singleton] at hturn
  rcases hturn with hturn | rfl
  · exact h.waits turn hturn
  · exact hlast

/-- **The call is answered**: the operation is through. -/
theorem LastTurn.account_answered (h : q.LastTurn plan idle front later before last call)
    {late : Bool} {answer : Except Failure Reply}
    (hc : last.2.vault.calls[front.1.vault.calls.length]? =
      some { call with phase := .answered answer })
    (hp : q.progress (sceneOf plan front.1 last.1.vault.table late) = .finished answer)
    (ht : last.2.vault.table = q.after (sceneOf plan front.1 last.1.vault.table late))
    (hlate : late = true → (IsShort last ∨ HeldByOthers front.1.vault.calls.length last) ∧
      front.1.vault.now + q.service.store.limit ≤ last.1.vault.now) :
    q.Account plan (idle ++ front :: later)
      (.awaiting last.2.vault front.1.vault.calls.length) last.2 := by
  have hfinished : Progress.awaiting last.2.vault front.1.vault.calls.length =
      q.progress (sceneOf plan front.1 last.1.vault.table late) := by
    rw [Progress.awaiting, Vault.answer?, hc, hp]
    rfl
  rw [hfinished]
  exact .through h.idle h.split (h.alone.of_store _ late) h.waits ht hlate

/-- **What a turn in the store comes to.** -/
theorem LastTurn.account (h : q.LastTurn plan idle front later before last call)
    (hv : Polled front.1.vault.calls.length v left last)
    (hc : last.2.vault.calls[front.1.vault.calls.length]? = some { call with phase := phase })
    (houtcome : Outcome plan call 2 front.1.vault.calls.length left v
      (last.2.left, last.2.vault) phase) :
    q.Account plan (idle ++ front :: later)
      (.awaiting last.2.vault front.1.vault.calls.length) last.2 := by
  obtain ⟨-, -, hoperation, hlist⟩ := request_of_request? h.asks.request
  cases houtcome with
  | goesOn hb hr hsame hstop htime =>
    refine h.account_waiting ⟨hsame.trans hv.table, ?_⟩ hc hr hb
    rcases htime with rfl | hearly
    · exact Or.inl hv.isShort_of_zero
    · refine (hv.stopped hstop).imp_right fun hheld => ⟨hheld, ?_⟩
      rw [← Nat.not_le, ← h.isDue_iff, ← hv.now, hearly]
      exact Bool.false_ne_true
  | served hperform =>
    -- the scene is that of the table as it stood before the turn
    rw [hv.table] at hperform
    rcases perform_request (x := sceneOf plan front.1 last.1.vault.table false) (h.passed false)
      h.asks.request rfl with ⟨hf, hp⟩ | ⟨cause, hf, hp⟩
    · obtain ⟨hprogress, hafter⟩ := progress_of_passed hf
      obtain ⟨rfl, hresult⟩ := Prod.mk.inj (hperform.symm.trans hp)
      exact h.account_answered hc hprogress (hresult.trans hafter.symm) (by simp)
    · obtain ⟨hprogress, hafter⟩ := progress_of_failing hf
      obtain ⟨rfl, hresult⟩ := Prod.mk.inj (hperform.symm.trans hp)
      exact h.account_answered hc hprogress (hresult.trans hafter.symm) (by simp)
  | cancelled hsame hstop hover hplan =>
    have hf := failing?_of_late (x := sceneOf plan front.1 last.1.vault.table true) (h.passed true)
      rfl fun hq => by
        obtain ⟨owner, hr⟩ := hlist.mpr hq
        exact hplan owner hr
    obtain ⟨hprogress, hafter⟩ := progress_of_failing hf
    rw [hoperation] at hc
    rw [hv.now, h.isDue_iff] at hover
    exact h.account_answered hc hprogress
      ((hsame.trans hv.table).trans hafter.symm) fun _ => ⟨hv.stopped hstop, hover⟩

/-! ### One turn of an operation -/

/-- **A stage in front of the store fails**, in the first turn past the look-up. -/
theorem account_of_setback {setback : Setback} (ht : s.OnlyReports t)
    (hidle : ∀ turn ∈ idle, IsIdle turn)
    (hf : q.call.front.findSome? (q.setback? (sceneOf plan s s.vault.table false)) =
      some setback) :
    let t' := { t with generator := q.spent (sceneOf plan s s.vault.table false) t.generator }
    q.Account plan (idle ++ [(s, t')]) setback.progress t' := by
  obtain ⟨hdirectory, hgenerator, events, hvault⟩ := ht
  obtain ⟨hprogress, hafter⟩ := progress_of_failing (failing?_of_front hf)
  intro t'
  rw [← hprogress]
  have hlast : [(s, t')] = [] ++ [(s, t')] := rfl
  refine .through hidle hlast ?_ (by simp) ?_ (by simp)
  · refine ⟨?_, ?_, by simp, fun _ _ => ⟨rfl, events, hvault⟩, fun _ => ?_⟩
    · simpa [t'] using hdirectory
    · exact congrArg (q.spent _) hgenerator
    · simp [t', hvault, Vault.notes]
  · rw [hafter]
    change t.vault.table = s.vault.table
    rw [hvault]
    rfl

/-- **The store is asked**, in the first turn past the look-up. -/
theorem account_of_ask {request : Request} (ht : t.vault.InOrder plan) (hst : s.OnlyReports t)
    (hleft : s.left ≤ t.left + 1) (hidle : ∀ turn ∈ idle, IsIdle turn)
    (hf : q.call.front.findSome? (q.setback? (sceneOf plan s s.vault.table false)) = none)
    (hr : q.request? (sceneOf plan s s.vault.table false) = some request) :
    let answered := (Procedure.ask request (some q.service.store.limit) .done).run
      { t with generator := q.spent (sceneOf plan s s.vault.table false) t.generator }
    q.Account plan (idle ++ [(s, answered.2)]) answered.1 answered.2 ∧
      answered.2.vault.InOrder plan := by
  obtain ⟨hdirectory, hgenerator, events, hvault⟩ := hst
  obtain ⟨hb, hn, -, -⟩ := request_of_request? hr
  have hown : t.vault.calls.length = s.vault.calls.length := by
    rw [hvault]
    rfl
  have hstart := ht.start request (some q.service.store.limit)
  have hcall : (t.vault.start request (some q.service.store.limit)).calls[s.vault.calls.length]? =
      some ⟨request, t.vault.now, some q.service.store.limit, request.firstPhase⟩ := by
    rw [← hown, Vault.start, List.getElem?_concat_length]
  obtain ⟨phase, hc, houtcome⟩ := Vault.exists_outcome hstart.orderly hstart.attended hcall hb hn
    request.isBrisk_firstPhase (by cases request <;> rfl) t.left
  have hkept (owner : UserId) (howner : request = .list owner) (hplan : plan.list = true) :=
    Vault.lock_poll_of_list hstart.orderly hstart.attended hcall howner hplan t.left
  have hend := hstart.poll s.vault.calls.length t.left
  rw [Procedure.run_ask_eq]
  dsimp only
  rw [hown]
  generalize hturn : (t.vault.start request (some q.service.store.limit)).poll
    s.vault.calls.length t.left = turn at hc houtcome hkept hend ⊢
  have hasks (after : Session) : q.Asks plan (s, after)
      ⟨request, t.vault.now, some q.service.store.limit, request.firstPhase⟩ := by
    refine ⟨hf, hr, ?_, rfl⟩
    rw [hvault]
    rfl
  have hlast (after : Session) : [(s, after)] = [] ++ [(s, after)] := rfl
  refine ⟨LastTurn.account ⟨hidle, hlast _, hasks _, ?_, by simp⟩ ⟨?_, ?_, ?_, hleft, hturn⟩ hc
    houtcome, hend⟩
  · refine ⟨?_, ?_, by simp, fun hno hno' => ?_, fun hno => ?_⟩
    · simpa using hdirectory
    · exact congrArg (q.spent _) hgenerator
    · exact absurd (hasks s).ran.1 (not_or.mpr ⟨hno, hno'⟩)
    · obtain ⟨⟨owner, howner⟩, hplan⟩ := (hasks s).ran.2 hno
      have hlock := hkept owner howner hplan
      simpa [hvault, Vault.notes, Vault.start] using hlock
  all_goals
    rw [hvault]
    rfl

/-- **The turn that goes past the look-up.** -/
theorem account_of_fronts (hs : s.vault.InOrder plan) (ht : s.OnlyReports t)
    (hleft : s.left ≤ t.left + 1) (hidle : ∀ turn ∈ idle, IsIdle turn)
    (h : q.Fronts (sceneOf plan s s.vault.table false) next t) :
    q.Account plan (idle ++ [(s, (next.run t).2)]) (next.run t).1 (next.run t).2 ∧
      (next.run t).2.vault.InOrder plan := by
  have hv : t.vault.InOrder plan := by
    obtain ⟨events, hvault⟩ := ht.vault
    exact hvault ▸ hs.notes events
  unfold Fronts at h
  split at h
  · rw [h]
    exact ⟨account_of_setback ht hidle ‹_›, hv⟩
  · obtain ⟨request, hr, hrun⟩ := h
    rw [hrun]
    exact account_of_ask hv ht hleft hidle ‹_› hr

/-- **A turn of an operation at the look-up.** -/
theorem account_run (hs : s.vault.InOrder plan) (hidle : ∀ turn ∈ idle, IsIdle turn)
    (hr : q.AtLookUp rest) :
    q.Account plan (idle ++ [(s, (rest.run s).2)]) (rest.run s).1 (rest.run s).2 ∧
      (rest.run s).2.vault.InOrder plan := by
  rcases hr.run (x := sceneOf plan s s.vault.table false) (s := s) rfl rfl with
    ⟨hnone, rest', t, hr', ht, hrun⟩ | ⟨next, t, ⟨ht, hleft⟩, hrun, hfronts⟩
  · rw [hrun]
    refine ⟨.atLookUp (fun turn hturn => ?_) hr', ?_⟩
    · rw [List.mem_append, List.mem_singleton] at hturn
      rcases hturn with hturn | rfl
      · exact hidle turn hturn
      · exact ⟨hnone, ht⟩
    · obtain ⟨events, hvault⟩ := ht.vault
      exact hvault ▸ hs.notes events
  · rw [hrun]
    exact account_of_fronts hs ht hleft hidle hfronts

/-- **A turn of an operation in the store.** -/
theorem account_poll (hs : s.vault.InOrder plan) (hidle : ∀ turn ∈ idle, IsIdle turn)
    (hasks : q.Asks plan front call)
    (halone : q.LeavesAlone (sceneOf plan front.1 front.1.vault.table false) front later)
    (hwaits : ∀ turn ∈ front :: later, q.Waits front turn)
    (hc : s.vault.calls[front.1.vault.calls.length]? = some call) (hr : call.isRunning = true)
    (hp : call.phase.IsBrisk) :
    q.Account plan (idle ++ front :: later ++ [(s, s.poll front.1.vault.calls.length)])
      (.awaiting (s.poll front.1.vault.calls.length).vault front.1.vault.calls.length)
      (s.poll front.1.vault.calls.length) := by
  obtain ⟨hb, hn, -, -⟩ := request_of_request? hasks.request
  obtain ⟨phase, hc', houtcome⟩ := Vault.exists_outcome hs.orderly hs.attended hc hb hn hp
    (Call.isLive_of_isRunning hr) s.left
  have hkept (hlist : ∃ owner, call.request = .list owner) (hplan : plan.list = true) :
      (s.vault.poll front.1.vault.calls.length s.left).2.lock = s.vault.lock := by
    obtain ⟨owner, howner⟩ := hlist
    exact Vault.lock_poll_of_list hs.orderly hs.attended hc howner hplan s.left
  have hpoll : s.poll front.1.vault.calls.length =
      { s with
        vault := (s.vault.poll front.1.vault.calls.length s.left).2
        left := (s.vault.poll front.1.vault.calls.length s.left).1 } := rfl
  rw [hpoll, List.append_assoc, List.cons_append]
  generalize hturn : s.vault.poll front.1.vault.calls.length s.left = turn at hc' houtcome hkept ⊢
  have halone' : q.LeavesAlone (sceneOf plan front.1 front.1.vault.table false) front
      (later ++ [(s, { s with vault := turn.2, left := turn.1 })]) :=
    halone.concat hasks rfl rfl hkept
  exact LastTurn.account ⟨hidle, (List.cons_append ..).symm, hasks, halone', hwaits⟩
    ⟨rfl, rfl, rfl, Nat.le_succ s.left, hturn⟩ hc' houtcome

/-- **One turn.** -/
theorem Account.turn (h : q.Account plan turns p s) (hs : s.vault.InOrder plan)
    (hp : p.isUnfinished = true) :
    q.Account plan (turns ++ [(s, (p.poll s).2)]) (p.poll s).1 (p.poll s).2 ∧
      (p.poll s).2.vault.InOrder plan := by
  cases h with
  | atLookUp hidle hr => exact account_run hs hidle hr
  | inStore hidle asks alone waits hc running brisk =>
    rw [Progress.poll_pending]
    exact ⟨account_poll hs hidle asks alone waits hc running brisk, hs.poll _ s.left⟩
  | through => exact absurd hp (by simp [isUnfinished_progress])
  | givenUp => exact absurd hp (by simp [Progress.isUnfinished])

/-- **Whatever others do.** -/
theorem Account.others (h : q.Account plan turns p s) (hs : s.vault.InOrder plan)
    (hst : s.Meanwhile p.call? t) : q.Account plan turns p t ∧ t.vault.InOrder plan := by
  obtain ⟨moves, hvault, hm⟩ := hst
  refine ⟨?_, hvault ▸ hs.run fun m hmem => (hm m hmem).2⟩
  cases h with
  | atLookUp hidle hr => exact .atLookUp hidle hr
  | inStore hidle asks alone waits hc running brisk =>
    refine .inStore hidle asks alone waits ?_ running brisk
    rw [hvault]
    exact Vault.calls_run_of_spares hc hm
  | through hidle hlast alone waits table stopped =>
    exact .through hidle hlast alone waits table stopped
  | givenUp h hp => exact .givenUp h hp

/-- **The end of patience.** -/
theorem Account.giveUp (h : q.Account plan turns p s) (hs : s.vault.InOrder plan) :
    q.Account plan turns (p.giveUp s).1 (p.giveUp s).2 ∧
      (p.giveUp s).2.vault.InOrder plan := by
  have same {p : Progress (Except Failure Reply)} (h : q.Account plan turns p s)
      (hp : p.isUnfinished = false) : q.Account plan turns (p.giveUp s).1 (p.giveUp s).2 ∧
        (p.giveUp s).2.vault.InOrder plan := by
    have hgiven : p.giveUp s = (p, s) := by
      cases p <;> first | rfl | simp [Progress.isUnfinished] at hp
    rw [hgiven]
    exact ⟨h, hs⟩
  cases h with
  | atLookUp hidle hr => exact ⟨.givenUp (s := s) (.atLookUp hidle hr) rfl, hs⟩
  | @inStore idle later front call s hidle asks alone waits hc running brisk =>
    refine ⟨.givenUp (s := s) (.inStore hidle asks alone waits hc running brisk) rfl, ?_⟩
    exact hs.interrupt front.1.vault.calls.length
  | through hidle hlast alone waits table stopped =>
    exact same (.through hidle hlast alone waits table stopped) (isUnfinished_progress _ _)
  | givenUp h hp => exact same (.givenUp h hp) rfl

/-- **The account of an operation** that unfolds from a session in order. -/
theorem account_unfolds {s₀ : Session} (hs : s₀.vault.InOrder plan)
    (h : (Progress.ready q.procedure).Unfolds s₀ turns p s) :
    q.Account plan turns p s ∧ s.vault.InOrder plan := by
  induction h with
  | start => exact ⟨.atLookUp (by simp) .whole, hs⟩
  | turn _ hp ih => exact ih.1.turn ih.2 hp
  | others _ hst ih => exact ih.1.others ih.2 hst
  | giveUp _ ih => exact ih.1.giveUp ih.2

/-- **An operation by itself**, for as long as patience lasts. -/
theorem exists_account_perform (hs : s.vault.InOrder plan) (patience : Span) :
    ∃ turns, q.Account plan turns (s.perform q.procedure patience).1
      (s.perform q.procedure patience).2 := by
  obtain ⟨turns, h⟩ := Session.exists_unfolds_perform s q.procedure patience
  exact ⟨turns, (account_unfolds hs h).1⟩

/-- **Nobody waits for ever at a table that is free**: after a turn with enough of the allowance, in
which the table was in nobody's hands, the operation is through. -/
theorem Account.isUnfinished_eq_false (h : q.Account plan (turns ++ [last]) p s)
    (hleft : enough ≤ last.1.left) (hfree : last.1.vault.lock.holder = none) :
    p.isUnfinished = false := by
  have hmem : last ∈ turns ++ [last] := by simp
  have idle (hi : IsIdle last) : False := by
    rw [hi.1, enough] at hleft
    omega
  generalize turns ++ [last] = all at h hmem
  cases h with
  | atLookUp hidle hr => exact (idle (hidle last hmem)).elim
  | inStore hidle asks alone waits =>
    rcases List.mem_append.mp hmem with hmem | hmem
    · exact (idle (hidle last hmem)).elim
    · rcases (waits last hmem).stopped with hshort | ⟨⟨j, -, hheld, -⟩, -⟩
      · exact absurd hshort.1 (Nat.not_lt.mpr hleft)
      · rw [hfree] at hheld
        cases hheld
  | through => exact isUnfinished_progress q _
  | givenUp => rfl

/-- **Every operation of the service runs its stages in their order, and its answer is the failure
of the first one that fails.** Let it begin in any session whose table nobody is at, whatever has
happened before, whatever is to fail, and with whatever is left of the allowance; and let it unfold
in any way. -/
theorem operations_run_their_stages_in_order (q : Demand) (plan : FailurePlan) (users : Directory)
    (generator : Generator) (trail : List Move) (left : Nat) {turns : List Session.Turn}
    {p : Progress (Except Failure Reply)} {s : Session}
    (h : (Progress.ready q.procedure).Unfolds
      ⟨users, generator, (Vault.empty.run trail).vacated plan, left⟩ turns p s) :
    q.Account plan turns p s :=
  (account_unfolds (Vault.inOrder_vacated trail plan) h).1

/-- A key that is not there is to be replaced while nothing can be issued. Two stages are to fail,
and the first one is the answer. -/
theorem operations_run_their_stages_in_order_rotate :
    let q : Demand := ⟨⟨.selfOrAdmin, ⟨20⟩⟩, ⟨⟨1⟩, false⟩, none, .rotate "k"⟩
    let plan : FailurePlan := { insert := true }
    let s : Session := ⟨.empty, Session.oneKey, (Vault.empty.run []).vacated plan, 128⟩
    let turn := q.procedure.run s
    q.Account plan [(s, turn.2)] turn.1 turn.2 ∧
      q.setback? (sceneOf plan s s.vault.table false) .matching =
        some (.failure .credentialNotFound) ∧
      q.setback? (sceneOf plan s s.vault.table false) .insertPlan =
        some (.failure (FailurePlan.failure "insert api key")) ∧
      (turn.2.vault.answer? 0).map (Except.map fun _ => ()) =
        some (.error .credentialNotFound) := by
  intro q plan s turn
  refine ⟨operations_run_their_stages_in_order q plan .empty Session.oneKey [] 128
    (.turn .start rfl), ?_, ?_, ?_⟩ <;> decide +kernel

/-- **No stage fails, and yet the operation does.** Somebody has used the allowance up but for one
unit. A create finds the table free and enters it; but the unit is gone with that, and whoever has
no time to spare is not given another turn for the insert. -/
theorem cancelled_without_failing_stage :
    let q : Demand := ⟨⟨.selfOrAdmin, ⟨0⟩⟩, ⟨⟨1⟩, false⟩, none, .create⟩
    let work := Session.deletes ⟨1⟩ ⟨"k", by decide⟩ 126
    let s := ((Procedure.ask (.unit "a" work) (some 0) Procedure.done).run
      (Session.start .empty Session.oneKey)).2
    let turn := q.procedure.run s
    s.vault.lock.holder = none ∧ s.vault.lock.queue = [] ∧
    q.failing? (sceneOf {} s s.vault.table false) = none ∧
    .transactionOpened "create api key" ∈ turn.2.vault.log ∧
    (turn.2.vault.answer? 1).map (Except.map fun _ => ()) =
      some (.error (.cancelled "create api key")) := by
  refine ⟨?_, ?_, ?_, ?_, ?_⟩ <;> decide +kernel

end Demand

end KeyLifecycle
