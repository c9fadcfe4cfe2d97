import KeyLifecycle.Proofs.Vault.Sequential
import KeyLifecycle.Store.Vault.Poll

/-!
# A call by itself

What becomes of a call while there is nobody else, turn by turn and to the last unit of the
allowance. A request has a price (`Request.price`): to look whether it is to fail, to be given the
table, each insert and each delete. A turn in which there is as much left brings the call to its
end; a turn in which there is less uses all of it up, and brings the call nearer to its end by just
as much (`KeyLifecycle.Vault.Solo.drain_onWay`). Nothing of this takes any time. So a call is
cancelled only if it may take no time at all (`KeyLifecycle.Vault.Solo.poll_onWay`).

This is about brisk work, which neither pauses nor ends its transaction by itself
(`Work.IsBrisk`). All requests of a store but units of work are of that kind.
-/

namespace KeyLifecycle

/-! ### Prices -/

namespace Work

/-- **Brisk work** inserts and deletes, and leaves everything else to whoever runs it. -/
def IsBrisk : Work Reply → Prop
  | done _ => True
  | fail _ => True
  | insert _ _ next => ∀ credential, (next credential).IsBrisk
  | delete _ _ next => ∀ yes, (next yes).IsBrisk
  | commit _ => False
  | rollback _ => False
  | pause _ _ => False

/-- **What a brisk work takes of an allowance** on a table: a unit for each insert and each delete,
up to the first that is refused. -/
def price (plan : FailurePlan) : Work Reply → Table → Nat
  | insert owner material next, t =>
    if plan.insert then 1
    else
      match t.insert owner material with
      | .ok (credential, table) => (next credential).price plan table + 1
      | .error _ => 1
  | delete owner key next, t =>
    if plan.delete then 1
    else
      match t.remove? owner key with
      | some (_, table) => (next true).price plan table + 1
      | none => (next false).price plan t + 1
  | _, _ => 0

variable {plan : FailurePlan} {owner : UserId} {material : KeyMaterial} {key : AccessKey}
  {t : Table}

theorem price_insert_pos (next : Credential → Work Reply) :
    0 < (insert owner material next).price plan t := by
  rw [price]
  split
  · exact Nat.one_pos
  · split <;> omega

theorem price_delete_pos (next : Bool → Work Reply) : 0 < (delete owner key next).price plan t := by
  rw [price]
  split
  · exact Nat.one_pos
  · split <;> omega

theorem isBrisk_issue (owner : UserId) (material : KeyMaterial) : (issue owner material).IsBrisk :=
  fun _ => trivial

theorem isBrisk_revoke (owner : UserId) (key : AccessKey) {next : Work Reply} (h : next.IsBrisk) :
    (revoke owner key next).IsBrisk := by
  rintro (_ | _)
  · exact trivial
  · exact h

end Work

/-- The table that is left of what has been done on a copy: the copy, if all went well. -/
def Table.settled (t : Table) : Except Failure Reply × Table → Table
  | (.ok _, copy) => copy
  | (.error _, _) => t

namespace Request

/-- A request that is no lease, and whose work is brisk if it has some. -/
def IsBrisk (request : Request) : Prop :=
  request ≠ .lease ∧ ∀ work, request.work? = some work → work.IsBrisk

/-- What a request takes of an allowance from the moment on at which it asks for the table. -/
def entryPrice (plan : FailurePlan) (request : Request) (t : Table) : Nat :=
  match request.work? with
  | some work => work.price plan t + 1
  | none => 1

/-- **What a request takes of an allowance.** -/
def price (plan : FailurePlan) (request : Request) (t : Table) : Nat :=
  match request with
  | .list _ => if plan.list then 1 else 2
  | _ => request.entryPrice plan t

variable {plan : FailurePlan} {request : Request} {t : Table}

theorem perform_eq_of_work {work : Work Reply} (h : request.work? = some work) :
    request.perform plan t = ((work.perform plan t).1, t.settled (work.perform plan t)) := by
  cases hp : work.perform plan t with
  | mk answer t' =>
    cases answer with
    | ok reply => exact perform_of_work h hp
    | error cause => exact perform_of_failing h hp

/-- A request without work looks at the table, unless it is a lease. -/
theorem exists_view (hw : request.work? = none) (hl : request ≠ .lease) (t : Table) :
    ∃ reply, request.view? t = some reply := by
  cases request with
  | list owner | stamp key moment | count => exact ⟨_, rfl⟩
  | lease => exact absurd rfl hl
  | _ => simp [work?] at hw

end Request

namespace Handle

theorem insert_opened (plan : FailurePlan) (t : Table) (owner : UserId) (material : KeyMaterial) :
    (opened t).insert plan owner material =
      if plan.insert then .error (FailurePlan.failure "insert api key")
      else
        match t.insert owner material with
        | .ok (credential, table) => .ok (credential, opened table)
        | .error cause => .error cause := rfl

theorem delete_opened (plan : FailurePlan) (t : Table) (owner : UserId) (key : AccessKey) :
    (opened t).delete plan owner key =
      if plan.delete then .error (FailurePlan.failure "delete api key")
      else
        match t.remove? owner key with
        | some (row, table) => .ok (some row, opened table)
        | none => .ok (none, opened t) := rfl

end Handle

namespace Vault

/-- To enter the table with a request that only looks at it is to be answered. -/
theorem enter_of_view {request : Request} {reply : Reply} {v : Vault} {i : Nat}
    (h : request.view? v.table = some reply) :
    v.enter i request =
      v.amend i ⟨.answered (.ok reply), v.lock.leave i, request.stamped v.table, []⟩ := by
  cases request with
  | list owner | count =>
    obtain rfl := Option.some.inj h
    simp [enter, Request.work?, release, settle, setPhase, amend, Request.stamped]
  | stamp key moment =>
    obtain rfl := Option.some.inj h
    cases hk : v.table.hasKey key <;>
      simp [enter, Request.work?, Table.stamp?, hk, publish, release, settle, setPhase, amend,
        Request.stamped]
  | _ => simp [Request.view?] at h

/-! ### Where a call stands -/

/-- **What stays the same while a call is by itself**: which call it is, what it asks for and how
long it may take, what is to fail, and the moment. -/
structure Solo where
  call : Nat
  request : Request
  limit : Option Span
  plan : FailurePlan
  now : Nat

namespace Solo

/-- **Where a call stands** that was started just now: its phase, the lock and the table. -/
structure Stands (a : Solo) (phase : Phase) (lock : Lock) (t : Table) (v : Vault) : Prop where
  call : v.calls[a.call]? = some ⟨a.request, a.now, a.limit, phase⟩
  plan : v.plan = a.plan
  now : v.now = a.now
  lock : v.lock = lock
  table : v.table = t

variable {a : Solo} {phase : Phase} {lock : Lock} {t table : Table} {v : Vault} {left : Nat}

/-- The lock in the hands of the call, for which nobody waits. -/
def held (a : Solo) : Lock := ⟨some a.call, []⟩

@[simp] theorem leave_held (a : Solo) : a.held.leave a.call = .free := by
  simp [held, Lock.leave, Lock.handOver, Lock.free]

/-- **An effect of the call** moves it on. -/
theorem Stands.amend (h : a.Stands phase lock t v) (e : Effect) :
    a.Stands e.phase e.lock e.table (v.amend a.call e) where
  call := amend_calls_self h.call e
  plan := h.plan
  now := h.now
  lock := rfl
  table := rfl

theorem Stands.setPhase (h : a.Stands phase lock t v) (next : Phase) :
    a.Stands next lock t (v.setPhase a.call next) := by
  rw [setPhase_eq_amend, h.lock, h.table]
  exact h.amend ⟨next, lock, t, []⟩

theorem Stands.note (h : a.Stands phase lock t v) (event : Event) :
    a.Stands phase lock t (v.note event) := ⟨h.call, h.plan, h.now, h.lock, h.table⟩

theorem Stands.phase?_eq (h : a.Stands phase lock t v) : v.phase? a.call = some phase := by
  rw [phase?, h.call]
  rfl

/-- A stage takes place if the phase is of its kind and something is left. -/
theorem Stands.stage_eq (h : a.Stands phase lock t v) (kind : Vault → Phase → Bool) (price : Nat) :
    stage a.call kind price (left, v) =
      if 0 < left ∧ kind v phase = true then (left - price, v.step a.call) else (left, v) := by
  simp [stage, h.phase?_eq]

/-! ### Inside the transaction -/

theorem Stands.step_working {work : Work Reply} {handle : Handle}
    (h : a.Stands (.working work handle) lock t v) :
    v.step a.call = v.workStep a.call a.request work handle := by
  rw [step]
  simp only [h.call]

/-- The work has succeeded. -/
theorem Stands.step_done {reply : Reply} (hr : a.request ≠ .lease)
    (h : a.Stands (.working (.done reply) (.opened t)) a.held table v) :
    a.Stands (.answered (.ok reply)) .free t (v.step a.call) := by
  have hw : v.step a.call = v.succeed a.call a.request reply (.opened t) := by
    rw [h.step_working]
    cases hq : a.request <;> first | rfl | exact absurd hq hr
  have he : v.step a.call = v.amend a.call ⟨.answered (.ok reply), v.lock.leave a.call, t,
      .transactionCommitted a.request.operation :: a.request.audit reply⟩ := by
    rw [hw]
    simp [succeed, Handle.commit, Handle.opened, publish, release, notes, settle,
      Vault.note, Vault.setPhase, Vault.amend]
  rw [he, h.lock, leave_held]
  exact h.amend ⟨_, .free, t, _⟩

/-- The work has failed. -/
theorem Stands.step_fail {cause : Failure} (hr : a.request ≠ .lease)
    (h : a.Stands (.working (.fail cause) (.opened t)) a.held table v) :
    a.Stands (.answered (.error cause)) .free table (v.step a.call) := by
  have hw : v.step a.call = v.giveUp a.call a.request cause (.opened t) := by
    rw [h.step_working]
    cases hq : a.request <;> first | rfl | exact absurd hq hr
  have he : v.step a.call = v.amend a.call ⟨.answered (.error cause), v.lock.leave a.call, v.table,
      [.rollingBack a.request.operation cause]⟩ := by
    rw [hw]
    simp [giveUp, Handle.rollback, Handle.opened, release, settle, Vault.note,
      Vault.setPhase, Vault.amend]
  rw [he, h.lock, leave_held, h.table]
  exact h.amend ⟨_, .free, table, _⟩

/-- **What a work comes to with some allowance**, that began inside its transaction when there was
some table: to its end, or, with nothing left of the allowance, to some other work on some other
copy that comes to the same and costs as much less. -/
structure Carried (a : Solo) (work : Work Reply) (t table : Table) (left : Nat) (turn : Turn) :
    Prop where
  ended : work.price a.plan t ≤ left → turn.1 = left - work.price a.plan t ∧
    a.Stands (.answered (work.perform a.plan t).1) .free (table.settled (work.perform a.plan t))
      turn.2
  stopped : left < work.price a.plan t → turn.1 = 0 ∧ ∃ rest t', rest.IsBrisk ∧
    rest.perform a.plan t' = work.perform a.plan t ∧
    rest.price a.plan t' + left = work.price a.plan t ∧
    a.Stands (.working rest (.opened t')) a.held table turn.2

/-- With nothing left of the allowance nothing is done. -/
theorem carried_zero {work : Work Reply} (hw : work.IsBrisk) (hp : 0 < work.price a.plan t)
    (h : a.Stands (.working work (.opened t)) a.held table v) :
    a.Carried work t table 0 (0, v) where
  ended hle := absurd hle (by omega)
  stopped _ := ⟨rfl, work, t, hw, rfl, rfl, h⟩

/-- The next thing is done, for one unit of the allowance. -/
theorem Carried.cons {work next : Work Reply} {t' : Table} {turn : Turn}
    (h : a.Carried next t' table left turn)
    (hperform : work.perform a.plan t = next.perform a.plan t')
    (hprice : work.price a.plan t = next.price a.plan t' + 1) :
    a.Carried work t table (left + 1) turn where
  ended hle := by
    obtain ⟨hl, hs⟩ := h.ended (by omega)
    rw [hperform]
    exact ⟨by omega, hs⟩
  stopped hlt := by
    obtain ⟨hl, rest, t'', hb, hp, hc, hs⟩ := h.stopped (by omega)
    exact ⟨hl, rest, t'', hb, hp.trans hperform.symm, by omega, hs⟩

/-- The next thing is refused, for one unit of the allowance, and the work fails. -/
theorem carried_of_refused {work : Work Reply} {cause : Failure} (hr : a.request ≠ .lease)
    (hperform : work.perform a.plan t = (.error cause, t)) (hprice : work.price a.plan t = 1)
    (hstep : a.Stands (.working (.fail cause) (.opened t)) a.held table (v.step a.call)) :
    a.Carried work t table (left + 1) (left, (v.step a.call).step a.call) where
  ended _ := by
    rw [hperform, hprice]
    exact ⟨rfl, hstep.step_fail hr⟩
  stopped hlt := absurd hlt (by omega)

/-- **Brisk work is carried on** up to its end or to that of the allowance. -/
theorem carried {work : Work Reply} (hw : work.IsBrisk) (hr : a.request ≠ .lease)
    (h : a.Stands (.working work (.opened t)) a.held table v) :
    a.Carried work t table left (carry a.call work (.opened t) (left, v)) := by
  induction work generalizing t v left with
  | done reply => exact ⟨fun _ => ⟨rfl, h.step_done hr⟩, fun hlt => absurd hlt (Nat.not_lt_zero _)⟩
  | fail cause => exact ⟨fun _ => ⟨rfl, h.step_fail hr⟩, fun hlt => absurd hlt (Nat.not_lt_zero _)⟩
  | insert owner material next ih =>
    cases left with
    | zero =>
      rw [carry, if_neg (by simp [mayStage, Handle.opened])]
      exact carried_zero hw (Work.price_insert_pos ..) h
    | succ left =>
      rw [carry, if_pos (by simp [mayStage])]
      have hstep := h.step_working
      rw [workStep] at hstep
      rw [h.plan, Handle.insert_opened] at hstep ⊢
      by_cases hp : a.plan.insert = true
      · rw [if_pos hp] at hstep ⊢
        refine carried_of_refused hr (by rw [Work.perform, if_pos hp])
          (by rw [Work.price, if_pos hp]) ?_
        rw [hstep]
        exact h.setPhase _
      · rw [if_neg hp] at hstep ⊢
        cases hi : t.insert owner material with
        | error cause =>
          simp only [hi] at hstep ⊢
          refine carried_of_refused hr (by rw [Work.perform, if_neg hp, hi])
            (by rw [Work.price, if_neg hp, hi]) ?_
          rw [hstep]
          exact h.setPhase _
        | ok result =>
          obtain ⟨c, t'⟩ := result
          simp only [hi] at hstep ⊢
          have hnext : a.Stands (.working (next c) (.opened t')) a.held table (v.step a.call) := by
            rw [hstep]
            exact h.setPhase _
          exact (ih c (hw c) hnext).cons (by rw [Work.perform, if_neg hp, hi])
            (by rw [Work.price, if_neg hp, hi])
  | delete owner key next ih =>
    cases left with
    | zero =>
      rw [carry, if_neg (by simp [mayStage, Handle.opened])]
      exact carried_zero hw (Work.price_delete_pos ..) h
    | succ left =>
      rw [carry, if_pos (by simp [mayStage])]
      have hstep := h.step_working
      rw [workStep] at hstep
      rw [h.plan, Handle.delete_opened] at hstep ⊢
      by_cases hp : a.plan.delete = true
      · rw [if_pos hp] at hstep ⊢
        refine carried_of_refused hr (by rw [Work.perform, if_pos hp])
          (by rw [Work.price, if_pos hp]) ?_
        rw [hstep]
        exact h.setPhase _
      · rw [if_neg hp] at hstep ⊢
        rcases hf : t.remove? owner key with _ | ⟨row, t'⟩
        · simp only [hf] at hstep ⊢
          have hnext : a.Stands (.working (next false) (.opened t)) a.held table
              (v.step a.call) := by
            rw [hstep]
            exact h.setPhase _
          exact (ih false (hw false) hnext).cons (by rw [Work.perform, if_neg hp, hf])
            (by rw [Work.price, if_neg hp, hf])
        · simp only [hf] at hstep ⊢
          have hnext : a.Stands (.working (next true) (.opened t')) a.held table
              (v.step a.call) := by
            rw [hstep]
            exact (h.note _).setPhase _
          exact (ih true (hw true) hnext).cons (by rw [Work.perform, if_neg hp, hf])
            (by rw [Work.price, if_neg hp, hf])
  | commit | rollback | pause => exact hw.elim

/-! ### A turn -/

/-- The call has come to its end: it is answered what its request comes to on a plain table. -/
def Ended (a : Solo) (t : Table) (v : Vault) : Prop :=
  a.Stands (.answered (a.request.perform a.plan t).1) .free (a.request.perform a.plan t).2 v

/-- **How far a call is from its end**, in units of the allowance, since there was some table. -/
inductive OnWay (a : Solo) (t : Table) : Nat → Vault → Prop
  | checking {v : Vault} {owner : UserId} (hr : a.request = .list owner)
      (h : a.Stands .checking .free t v) : OnWay a t (a.request.price a.plan t) v
  | asking {v : Vault} (hl : ∀ owner, a.request = .list owner → a.plan.list = false)
      (h : a.Stands .asking .free t v) : OnWay a t (a.request.entryPrice a.plan t) v
  | working {v : Vault} {work rest : Work Reply} {copy : Table}
      (hw : a.request.work? = some work) (hb : rest.IsBrisk)
      (hp : rest.perform a.plan copy = work.perform a.plan t)
      (h : a.Stands (.working rest (.opened copy)) a.held t v) :
    OnWay a t (rest.price a.plan copy) v

/-- **What a call comes to with some allowance**: to its end, or nearer to it by all that was left.
-/
structure Comes (a : Solo) (t : Table) (price left : Nat) (turn : Turn) : Prop where
  ended : price ≤ left → turn.1 = left - price ∧ a.Ended t turn.2
  stopped : left < price → turn.1 = 0 ∧ a.OnWay t (price - left) turn.2

theorem comes_zero {price : Nat} (hp : 0 < price) (h : a.OnWay t price v) :
    a.Comes t price 0 (0, v) where
  ended hle := absurd hle (by omega)
  stopped _ := ⟨rfl, h⟩

/-- One unit is paid. -/
theorem Comes.cons {price : Nat} {turn : Turn} (h : a.Comes t price left turn) :
    a.Comes t (price + 1) (left + 1) turn where
  ended hle := by
    obtain ⟨hl, he⟩ := h.ended (by omega)
    exact ⟨by omega, he⟩
  stopped hlt := by
    obtain ⟨hl, hw⟩ := h.stopped (by omega)
    exact ⟨hl, by rwa [Nat.add_sub_add_right]⟩

theorem comes_ended {price : Nat} (hp : price = 0) (h : a.Ended t v) :
    a.Comes t price left (left, v) where
  ended _ := ⟨by simp [hp], h⟩
  stopped hlt := absurd hlt (by omega)

/-- Where nothing is left, or nothing is to do, stages are passed over. -/
theorem Stands.drain_eq (h : a.Stands phase lock t v)
    (hno : left = 0 ∨ (checks v phase = false ∧ asks v phase = false ∧
      isAdmitted a.call v phase = false ∧ wakes v phase = false)) :
    drain a.call (left, v) = proceed a.call (left, v) := by
  have hstage (kind : Vault → Phase → Bool) (price : Nat) (hk : left = 0 ∨ kind v phase = false) :
      stage a.call kind price (left, v) = (left, v) := by
    rw [h.stage_eq, if_neg]
    rintro ⟨hpos, hkind⟩
    rcases hk with rfl | hk
    · exact absurd hpos (Nat.lt_irrefl 0)
    · exact absurd (hkind.symm.trans hk) (by simp)
  rw [drain, hstage checks 1 (hno.imp_right (·.1)), hstage asks 0 (hno.imp_right (·.2.1)),
    hstage _ 1 (hno.imp_right (·.2.2.1)), hstage wakes 1 (hno.imp_right (·.2.2.2))]

/-- What is at work is carried on. -/
theorem drain_working {work rest : Work Reply} {copy : Table} (hlease : a.request ≠ .lease)
    (hw : a.request.work? = some work) (hb : rest.IsBrisk)
    (hp : rest.perform a.plan copy = work.perform a.plan t)
    (h : a.Stands (.working rest (.opened copy)) a.held t v) :
    a.Comes t (rest.price a.plan copy) left (proceed a.call (left, v)) := by
  have hc : a.Carried rest copy t left _ := carried hb hlease h
  have hproceed : proceed a.call (left, v) = carry a.call rest (.opened copy) (left, v) := by
    rw [proceed, h.phase?_eq]
  rw [hproceed]
  refine ⟨fun hle => ?_, fun hlt => ?_⟩
  · obtain ⟨hl, hs⟩ := hc.ended hle
    refine ⟨hl, ?_⟩
    rw [Ended, Request.perform_eq_of_work hw, ← hp]
    exact hs
  · obtain ⟨hl, rest', copy', hb', hp', hprice, hs⟩ := hc.stopped hlt
    have he : rest.price a.plan copy - left = rest'.price a.plan copy' := by omega
    rw [he]
    exact ⟨hl, .working hw hb' (hp'.trans hp) hs⟩

/-- The table is asked for, and is there to be had. -/
theorem Stands.step_asking (h : a.Stands .asking .free t v) :
    a.Stands .waiting a.held t (v.step a.call) := by
  have he : v.step a.call = v.amend a.call ⟨.waiting, a.held, t, []⟩ := by
    rw [step]
    simp only [h.call]
    simp [Vault.ask, Vault.setPhase, Vault.amend, h.lock, h.table, Lock.request, Lock.free, held]
  rw [he]
  exact h.amend ⟨.waiting, a.held, t, []⟩

theorem Stands.step_waiting (h : a.Stands .waiting a.held t v) :
    v.step a.call = v.enter a.call a.request := by
  rw [step]
  simp only [h.call]
  rw [if_pos (by rw [h.lock, held])]

/-- A transaction begins. -/
theorem Stands.step_begin {work : Work Reply} (h : a.Stands .waiting a.held t v)
    (hw : a.request.work? = some work) :
    a.Stands (.working work (.opened t)) a.held t (v.step a.call) := by
  have he : v.step a.call =
      (v.note (.transactionOpened a.request.operation)).setPhase a.call
        (.working work (.opened t)) := by
    rw [h.step_waiting]
    unfold enter
    rw [hw, h.table]
  rw [he]
  exact (h.note _).setPhase _

/-- The table is looked at. -/
theorem Stands.step_look (hlease : a.request ≠ .lease)
    (hl : ∀ owner, a.request = .list owner → a.plan.list = false) (h : a.Stands .waiting a.held t v)
    (hw : a.request.work? = none) : a.Ended t (v.step a.call) := by
  obtain ⟨reply, hv⟩ := Request.exists_view hw hlease t
  have hv' : a.request.view? v.table = some reply := by rwa [h.table]
  rw [Ended, Request.perform_of_view hl hv, h.step_waiting, enter_of_view hv', h.lock, leave_held,
    h.table]
  exact h.amend ⟨.answered (.ok reply), .free, a.request.stamped t, []⟩

/-- **From the moment on at which the table is asked for.** -/
theorem drain_asking (hb : a.request.IsBrisk)
    (hl : ∀ owner, a.request = .list owner → a.plan.list = false) (h : a.Stands .asking .free t v) :
    a.Comes t (a.request.entryPrice a.plan t) left (drain a.call (left, v)) := by
  have hpos : 0 < a.request.entryPrice a.plan t := by
    rw [Request.entryPrice]
    split <;> omega
  cases left with
  | zero =>
    rw [h.drain_eq (Or.inl rfl), proceed, h.phase?_eq]
    exact comes_zero hpos (.asking hl h)
  | succ left =>
    -- the lock is free, so the call is given the table in the same turn
    have hwait := h.step_asking
    have hdrain : drain a.call (left + 1, v) =
        proceed a.call (stage a.call wakes 1 (left, (v.step a.call).step a.call)) := by
      rw [drain, h.stage_eq, if_neg (by simp [checks]), h.stage_eq, if_pos (by simp [asks]),
        Nat.sub_zero, hwait.stage_eq, if_pos (by simp [isAdmitted, hwait.lock, held]),
        Nat.add_sub_cancel]
    rw [hdrain]
    cases hw : a.request.work? with
    | some work =>
      have hwork := hwait.step_begin hw
      have hprice : a.request.entryPrice a.plan t = work.price a.plan t + 1 := by
        rw [Request.entryPrice, hw]
      rw [hwork.stage_eq, if_neg (by simp [wakes]), hprice]
      exact (drain_working hb.1 hw (hb.2 work hw) rfl hwork).cons
    | none =>
      have hend := hwait.step_look hb.1 hl hw
      have hprice : a.request.entryPrice a.plan t = 0 + 1 := by
        rw [Request.entryPrice, hw]
      have hproceed : proceed a.call (left, (v.step a.call).step a.call) =
          (left, (v.step a.call).step a.call) := by
        rw [proceed, Stands.phase?_eq hend]
      rw [Stands.stage_eq hend, if_neg (by simp [wakes]), hproceed, hprice]
      exact (comes_ended rfl hend).cons

/-- **To look whether a list is to fail** takes one unit; the turn then goes on as one that begins
there. -/
theorem Stands.drain_checking {next : Phase} {lock : Lock} {t' : Table}
    (h : a.Stands .checking .free t v) (hn : a.Stands next lock t' (v.step a.call))
    (hno : checks (v.step a.call) next = false) :
    drain a.call (left + 1, v) = drain a.call (left, v.step a.call) := by
  have hskip : stage a.call checks 1 (left, v.step a.call) = (left, v.step a.call) := by
    rw [hn.stage_eq, if_neg (by simp [hno])]
  rw [drain, drain, hskip, h.stage_eq, if_pos (by simp [checks]), Nat.add_sub_cancel]

theorem Stands.step_checking (h : a.Stands .checking .free t v) :
    v.step a.call = v.check a.call := by
  rw [step]
  simp only [h.call]

/-- A list that is to fail has failed. -/
theorem Stands.step_check_refused {owner : UserId} (hr : a.request = .list owner)
    (hl : a.plan.list = true) (h : a.Stands .checking .free t v) : a.Ended t (v.step a.call) := by
  have hp : a.request.perform a.plan t = (.error (FailurePlan.failure "list api keys"), t) := by
    rw [hr]
    simp [Request.perform, Request.work?, hl]
  rw [Ended, hp, h.step_checking, check, if_pos (by rw [h.plan, hl])]
  exact h.setPhase _

/-- **From the beginning of a list.** -/
theorem drain_list {owner : UserId} (hb : a.request.IsBrisk) (hr : a.request = .list owner)
    (h : a.Stands .checking .free t v) :
    a.Comes t (a.request.price a.plan t) left (drain a.call (left, v)) := by
  have hprice : a.request.price a.plan t = if a.plan.list then 1 else 2 := by
    rw [hr, Request.price]
  cases left with
  | zero =>
    rw [h.drain_eq (Or.inl rfl), proceed, h.phase?_eq]
    refine comes_zero ?_ (.checking hr h)
    rw [hprice]
    split <;> omega
  | succ left =>
    rw [hprice]
    by_cases hl : a.plan.list = true
    · have hend := h.step_check_refused hr hl
      have hproceed : proceed a.call (left, v.step a.call) = (left, v.step a.call) := by
        rw [proceed, Stands.phase?_eq hend]
      rw [h.drain_checking hend rfl, Stands.drain_eq hend (Or.inr ⟨rfl, rfl, rfl, rfl⟩), hproceed,
        if_pos hl]
      exact (comes_ended rfl hend).cons
    · have hask : a.Stands .asking .free t (v.step a.call) := by
        rw [h.step_checking, check, if_neg (by rwa [h.plan])]
        exact h.setPhase _
      have hentry : a.request.entryPrice a.plan t = 1 := by
        rw [hr]
        rfl
      have hnext : a.Comes t _ left _ := drain_asking hb (fun _ _ => by simpa using hl) hask
      rw [hentry] at hnext
      rw [h.drain_checking hask rfl, if_neg hl]
      exact hnext.cons

/-- **A turn**, but for the end of the time. -/
theorem drain_onWay {price : Nat} (hb : a.request.IsBrisk) (h : a.OnWay t price v) :
    a.Comes t price left (drain a.call (left, v)) := by
  cases h with
  | checking hr h => exact drain_list hb hr h
  | asking hl h => exact drain_asking hb hl h
  | working hw hbrisk hp h =>
    rw [h.drain_eq (Or.inr ⟨rfl, rfl, rfl, rfl⟩)]
    exact drain_working hb.1 hw hbrisk hp h

/-! ### The end of the time, and of patience -/

/-- **A call on its way** goes on whenever it has a turn, and may let go of the lock. -/
theorem OnWay.stands {price : Nat} (h : a.OnWay t price v) :
    ∃ phase lock, a.Stands phase lock t v ∧ lock.leave a.call = .free ∧
      (phase = .checking ∨ phase = .asking ∨ ∃ work handle, phase = .working work handle) := by
  cases h with
  | checking hr h => exact ⟨_, _, h, rfl, Or.inl rfl⟩
  | asking hl h => exact ⟨_, _, h, rfl, Or.inr (Or.inl rfl)⟩
  | working hw hb hp h => exact ⟨_, _, h, leave_held a, Or.inr (Or.inr ⟨_, _, rfl⟩)⟩

/-- No time has passed, so the time of a call is used up only if there was none. -/
theorem OnWay.isOverdue_eq {price : Nat} (h : a.OnWay t price v) :
    v.isOverdue a.call = decide (a.limit = some 0) := by
  obtain ⟨phase, lock, h, -, hp⟩ := h.stands
  have hdue : (Option.map (a.now + ·) a.limit).any (· ≤ a.now) = decide (a.limit = some 0) := by
    cases a.limit with
    | none => rfl
    | some limit =>
      have hzero (m n : Nat) : m + n ≤ m ↔ n = 0 := by omega
      simp only [Option.map_some, Option.any_some, Option.some.injEq, decide_eq_decide]
      exact hzero a.now limit
  rw [isOverdue, h.call, h.now]
  rcases hp with rfl | rfl | ⟨work, handle, rfl⟩ <;>
    exact hdue

theorem Stands.isOverdue_answered {answer : Except Failure Reply}
    (h : a.Stands (.answered answer) lock t v) : v.isOverdue a.call = false := by
  rw [isOverdue, h.call]
  rfl

variable {price : Nat}

/-- **A turn with enough left** brings a call to its end. -/
theorem poll_ended (hb : a.request.IsBrisk) (h : a.OnWay t price v) (hle : price ≤ left) :
    ∃ w, v.poll a.call left = (left - price, w) ∧ a.Ended t w := by
  have hc : a.Comes t price left _ := drain_onWay hb h
  obtain ⟨hl, he⟩ := hc.ended hle
  refine ⟨(drain a.call (left, v)).2, ?_, he⟩
  rw [poll]
  dsimp only
  rw [Stands.isOverdue_answered he, ← hl]
  simp

/-- **A turn with too little left** brings it nearer to its end, if it may take some time. -/
theorem poll_stopped (hb : a.request.IsBrisk) (h : a.OnWay t price v) (hlt : left < price)
    (hno : left = 0 ∨ a.limit ≠ some 0) :
    ∃ w, v.poll a.call left = (0, w) ∧ a.OnWay t (price - left) w := by
  have hc : a.Comes t price left _ := drain_onWay hb h
  obtain ⟨hl, hw⟩ := hc.stopped hlt
  refine ⟨(drain a.call (left, v)).2, ?_, hw⟩
  rw [poll]
  dsimp only
  rw [hw.isOverdue_eq, if_neg, hl]
  rcases hno with rfl | hno
  · simp
  · simp [hno]

/-- **A call that may take no time** is cancelled in the turn that does not bring it to its end. -/
theorem poll_cancelled (hb : a.request.IsBrisk) (h : a.OnWay t price v) (hlt : left < price)
    (hpos : 0 < left) (hlimit : a.limit = some 0) :
    ∃ w, v.poll a.call left = (0, w) ∧
      a.Stands (.answered (.error (.cancelled a.request.operation))) .free t w := by
  have hc : a.Comes t price left _ := drain_onWay hb h
  obtain ⟨hl, hw⟩ := hc.stopped hlt
  refine ⟨(drain a.call (left, v)).2.expire a.call, ?_, ?_⟩
  · rw [poll]
    dsimp only
    rw [hw.isOverdue_eq, if_pos (by simp [hpos, hlimit]), hl]
  · generalize (drain a.call (left, v)).2 = w at hw
    obtain ⟨phase, lock, hs, hleave, -⟩ := hw.stands
    have he : w.expire a.call = w.amend a.call ⟨.answered (.error (.cancelled a.request.operation)),
        .free, t, [.timedOut a.request.operation 0]⟩ := by
      rw [expire]
      simp only [hs.call, hlimit]
      rw [if_pos (by rw [hw.isOverdue_eq, hlimit]; rfl)]
      simp [release, settle, Vault.note, Vault.setPhase, Vault.amend, hs.lock, hs.table, hleave]
    rw [he]
    exact hs.amend ⟨_, .free, t, _⟩

/-- **A call that is given up** lets go of the lock, and has done nothing. -/
theorem OnWay.interrupt (hlease : a.request ≠ .lease) (h : a.OnWay t price v) :
    a.Stands .dropped .free t (v.interrupt a.call) := by
  obtain ⟨phase, lock, hs, hleave, hp⟩ := h.stands
  have hdrop : v.interrupt a.call = v.drop a.call := by
    rw [Vault.interrupt]
    simp only [hs.call]
    split
    · exact absurd ‹_› hlease
    · exact absurd ‹_› hlease
    · rfl
  have hlive : (⟨a.request, a.now, a.limit, phase⟩ : Call).isLive = true := by
    rcases hp with rfl | rfl | ⟨work, handle, rfl⟩ <;> rfl
  have he : v.drop a.call = v.amend a.call ⟨.dropped, .free, t, []⟩ := by
    rw [drop]
    simp only [hs.call]
    rw [if_pos hlive]
    simp [release, Vault.setPhase, Vault.amend, hs.lock, hs.table, hleave]
  rw [hdrop, he]
  exact hs.amend ⟨.dropped, .free, t, []⟩

/-- **Time does not pass** while a call is on its way. -/
theorem OnWay.advance_eq (h : a.OnWay t price v) (moment : Nat) : v.advance moment = v := by
  obtain ⟨phase, lock, hs, -, hp⟩ := h.stands
  have hready : v.isReady a.call ⟨a.request, a.now, a.limit, phase⟩ = true := by
    rcases hp with rfl | rfl | ⟨work, handle, rfl⟩ <;> rfl
  have hquiet : v.isQuiet = false := by
    rw [isQuiet, List.all_eq_false]
    refine ⟨(_, a.call), List.mem_zipIdx_iff_getElem?.mpr hs.call, ?_⟩
    simp [hready]
  rw [advance, hquiet]
  rfl

theorem OnWay.answer?_eq (h : a.OnWay t price v) : v.answer? a.call = none := by
  obtain ⟨phase, lock, hs, -, hp⟩ := h.stands
  rw [answer?, hs.call]
  rcases hp with rfl | rfl | ⟨work, handle, rfl⟩ <;> rfl

end Solo

end Vault

end KeyLifecycle
