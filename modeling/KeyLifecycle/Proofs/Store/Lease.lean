import KeyLifecycle.Proofs.Store.Transaction
import KeyLifecycle.Proofs.Vault.Custody

/-!
# A transaction that is asked for one thing at a time

A lease is a transaction whose steps are asked for one by one: an insert, a delete, a commit, a
rollback, in any order and any number of times, until it is dropped. Both a commit and a rollback
leave an empty copy behind, and a table would be lost if that copy were ever published. It never is,
because whoever has finished has let go of the table before.

What a lease ought to answer is said without handles and copies. `Draft` is a private table, until
something ends it:

| asked for | answered by a private table | what becomes of it |
|---|---|---|
| an insert or a delete | as on any table (`Work.perform`) | the table of that insert or delete |
| a commit or a rollback | `ok` | it is no more |
| anything, when it is no more | a failure (`Ask.refusal`) | it is no more |

An `Episode` is one thing that is asked for, the failure plan that it meets, and whatever else
happens in the vault in the meantime. `KeyLifecycle.Vault.lease_publishes_at_most_once` follows a
lease from its grant through any episodes. The invariant is `Vault.IsAt`: as long as the transaction
is open it holds the lock and the table is still the one with which it began. It needs no more of
the vault than that whoever has a transaction open holds the lock (`Vault.Exclusive`), so it does
not matter with which table the vault began.
-/

namespace KeyLifecycle

/-! ### What may be asked for -/

/-- Something that a transaction may be asked for. -/
inductive Ask where
  | insert (owner : UserId) (material : KeyMaterial)
  | delete (owner : UserId) (key : AccessKey)
  | commit
  | rollback
  deriving DecidableEq

namespace Ask

/-- The work that is done for it. -/
def work : Ask → Work Reply
  | insert owner material => .issue owner material
  | delete owner key => .delete owner key fun yes => .done (.found yes)
  | commit => .commit (.done .done)
  | rollback => .rollback (.done .done)

/-- Whether it ends a transaction. -/
def ends : Ask → Bool
  | commit => true
  | rollback => true
  | _ => false

/-- What is answered when there is no transaction any more. -/
def refusal : Ask → Failure
  | commit => .storage "commit" "Transaction already finished"
  | _ => .storage "transaction" "Transaction already finished"

/-- **Whoever is refused has changed nothing**: an insert or a delete that fails, and a delete that
finds no such row. -/
theorem perform_refused {ask : Ask} {plan : FailurePlan} {t : Table}
    (h : ∀ reply, (ask.work.perform plan t).1 = .ok reply → reply = .found false) :
    (ask.work.perform plan t).2 = t := by
  cases ask with
  | insert owner material =>
    rw [work, Work.issue, Work.perform] at h ⊢
    split
    · rfl
    · rename_i hp
      rw [if_neg hp] at h
      cases hi : t.insert owner material with
      | error cause => rfl
      | ok result =>
        have hissued := h _ (by rw [hi]; rfl)
        simp at hissued
  | delete owner key =>
    rw [work, Work.perform] at h ⊢
    split
    · rfl
    · rename_i hp
      rw [if_neg hp] at h
      cases hr : t.remove? owner key with
      | none => rfl
      | some result =>
        have hfound := h _ (by rw [hr]; rfl)
        simp at hfound
  | commit => rfl
  | rollback => rfl

/-- An open transaction refuses what a private table refuses, and is left as it is. -/
theorem perform_of_fault {ask : Ask} {plan : FailurePlan} {t : Table} {cause : Failure}
    (h : ask.work.fault? plan (.opened t) = some cause) :
    ask.work.perform plan t = (.error cause, t) := by
  cases ask with
  | insert owner material =>
    cases hp : plan.insert <;> cases hi : t.insert owner material <;>
      simp_all [work, Work.issue, Work.fault?, Handle.insert, Handle.opened, Work.perform]
  | delete owner key =>
    cases hp : plan.delete <;> cases hr : t.remove? owner key <;>
      simp_all [work, Work.fault?, Handle.delete, Handle.opened, Work.perform]
  | commit | rollback => simp [work, Work.fault?, Handle.opened] at h

end Ask

/-! ### Private tables -/

/-- **A private table**, in place of a transaction; nothing if it has been ended. -/
abbrev Draft := Option Table

namespace Draft

/-- What a private table answers. -/
def answer (d : Draft) (plan : FailurePlan) (ask : Ask) : Except Failure Reply :=
  match d with
  | some t => (ask.work.perform plan t).1
  | none => .error ask.refusal

/-- What becomes of a private table that is asked for something. -/
def next (d : Draft) (plan : FailurePlan) (ask : Ask) : Draft :=
  match d with
  | some t => if ask.ends then none else some (ask.work.perform plan t).2
  | none => none

/-- The transaction of which a private table is the copy. -/
def handle : Draft → Handle
  | some t => .opened t
  | none => .finished

theorem isSome_next (d : Draft) (plan : FailurePlan) (ask : Ask) :
    (d.next plan ask).isSome = (d.isSome && !ask.ends) := by
  cases d with
  | none => rfl
  | some t =>
    rw [next]
    cases ask.ends <;> rfl

end Draft

/-! ### Episodes -/

/-- **One thing that is asked for**, the failure plan that it meets, and what else happens until it
is asked for, until it is done, and until it is answered. -/
structure Episode where
  ask : Ask
  plan : FailurePlan
  before : List Move
  during : List Move
  after : List Move

namespace Episode

/-- What else happens is not the doing of a call. -/
structure LeavesAlone (u : Episode) (i : Nat) : Prop where
  before {m : Move} (h : m ∈ u.before) : m.call? ≠ some i
  during {m : Move} (h : m ∈ u.during) : m.call? ≠ some i
  after {m : Move} (h : m ∈ u.after) : m.call? ≠ some i

variable (u : Episode) (i : Nat) (v : Vault)

/-- The vault when it is to be asked for. -/
def met : Vault := v.run u.before

/-- The vault when it is to be done. -/
def ready : Vault := (((u.met v).resume i u.ask.work).run u.during).setPlan u.plan

/-- The vault when it has been done. -/
def done : Vault := (u.ready i v).step i

/-- The vault when it is to be answered. -/
def late : Vault := (u.done i v).run u.after

/-- The vault when it has been answered. -/
def rested : Vault := (u.late i v).step i

end Episode

/-- **The private table after some episodes**: each insert and delete is done to what those before
it have left. -/
def Draft.after (d : Draft) (episodes : List Episode) : Draft :=
  episodes.foldl (fun d u => d.next u.plan u.ask) d

/-- A private table is there until the first commit or rollback. -/
theorem Draft.isSome_after (d : Draft) (episodes : List Episode) :
    (d.after episodes).isSome = (d.isSome && episodes.all fun u => !u.ask.ends) := by
  induction episodes generalizing d with
  | nil => simp [after]
  | cons u episodes ih =>
    have hcons : d.after (u :: episodes) = (d.next u.plan u.ask).after episodes := rfl
    rw [hcons, ih, isSome_next, List.all_cons, Bool.and_assoc]

namespace Vault

variable {v : Vault} {i j : Nat} {call : Call} {e : Effect} {m : Move} {moves : List Move}
  {t : Table} {phase : Phase} {d : Draft}

/-! ### Whoever has a transaction open -/

/-- A vault that begins with a table. -/
def holding (t : Table) : Vault := { Vault.empty with table := t }

/-- **Whoever has a transaction open holds the lock.** -/
def Exclusive (v : Vault) : Prop :=
  ∀ ⦃i : Nat⦄ ⦃call : Call⦄ ⦃handle : Handle⦄, v.calls[i]? = some call →
    call.phase.handle? = some handle → handle.isOpen = true → v.lock.holder = some i

/-- A deed of somebody else leaves the lock with whoever holds it. -/
theorem Deed.holder_of_ne (hd : v.Deed j call e) (hl : v.lock.holder = some i) (hne : i ≠ j) :
    e.lock.holder = some i := by
  rcases hd.lock_cases with ⟨h, -⟩ | ⟨h, -, -⟩ | ⟨h, -⟩
  · rwa [h]
  · rw [h]
    exact Lock.holder_request hl
  · rw [h]
    exact Lock.holder_leave_of_ne hl hne

/-- A call that has its transaction open after a deed has the lock. -/
theorem Exclusive.holder_deed (h : v.Exclusive) (hc : v.calls[i]? = some call)
    (hd : v.Deed i call e) {handle : Handle} (hh : e.phase.handle? = some handle)
    (ho : handle.isOpen = true) : e.lock.holder = some i := by
  have hl : v.lock.holder = some i := by
    rcases hd.opened_or_open hh ho with ⟨-, hl⟩ | ⟨before, hb, hbo⟩
    · exact hl
    · exact h hc hb hbo
  rcases hd.lock_cases with ⟨he, -⟩ | ⟨-, -, hp⟩ | ⟨-, hp⟩
  · rwa [he]
  · rw [hp] at hh
    simp [Phase.handle?] at hh
  · -- who lets go of the lock has no open transaction
    rw [Phase.claims_of_handle hh, ho] at hp
    simp at hp

theorem Exclusive.amend (h : v.Exclusive) (hc : v.calls[i]? = some call) (hd : v.Deed i call e) :
    (v.amend i e).Exclusive := by
  intro j call' handle hc' hh ho
  rcases amend_calls_cases hc hc' with ⟨rfl, rfl⟩ | ⟨hne, hc'⟩
  · exact h.holder_deed hc hd hh ho
  · exact hd.holder_of_ne (h hc' hh ho) hne

theorem Exclusive.run (h : v.Exclusive) (moves : List Move) : (v.run moves).Exclusive := by
  have plans : ∀ plan, .setPlan plan ∈ moves → (fun _ => True) plan := fun _ _ => trivial
  refine run_induction (P := Exclusive) ?_ ?_ ?_ ?_ ?_ h plans
  · intro v request limit h i call handle hc hh ho
    rcases start_calls_cases hc with ⟨-, rfl⟩ | hc
    · rw [Orderly.handle?_firstPhase] at hh
      simp at hh
    · exact h hc hh ho
  · exact fun v i call e h hc hd => h.amend hc hd
  · exact fun v plan _ h => h
  · exact fun v moment h => h
  · exact fun v events h => h

theorem exclusive_holding (t : Table) : (holding t).Exclusive := by
  intro i call handle hc
  simp [holding, empty] at hc

theorem attended_holding (t : Table) : (holding t).Attended :=
  ⟨Lock.isSound_free, attended_empty.mem_line⟩

/-- **What others do** while a call has the lock: they leave it the lock, and the table as it is. -/
theorem Exclusive.move_of_ne (h : v.Exclusive) (hl : v.lock.holder = some i)
    (hm : m.call? ≠ some i) : (v.move m).lock.holder = some i ∧ (v.move m).table = v.table := by
  cases hj : m.call? with
  | none =>
    cases m with
    | start | setPlan | clock | report => exact ⟨hl, rfl⟩
    | _ => simp [Move.call?] at hj
  | some j =>
    have hne : i ≠ j := fun hij => hm (hij ▸ hj)
    cases hc : v.calls[j]? with
    | none =>
      rw [move_of_absent hj hc]
      exact ⟨hl, rfl⟩
    | some call =>
      rcases move_eq_or_deed hj hc with he | ⟨e, he, hd⟩
      · rw [he]
        exact ⟨hl, rfl⟩
      · rw [he]
        refine ⟨hd.holder_of_ne hl hne, ?_⟩
        -- the table is written to only by who has the lock
        have hni : v.lock.holder ≠ some j := by
          rw [hl]
          exact fun hij => hne (Option.some.inj hij)
        cases hd with
        | look hp hl' => exact absurd hl' hni
        | commit hp ho => exact absurd (h hc (by rw [hp, Phase.handle?]) ho) hni
        | succeed hp hr ho => exact absurd (h hc (by rw [hp, Phase.handle?]) ho) hni
        | _ => rfl

/-! ### Where a lease is -/

/-- **A lease is in a phase**; as long as its transaction is open, the table is the one with which
it began. -/
structure IsAt (v : Vault) (i : Nat) (t : Table) (phase : Phase) : Prop where
  call : ∃ call, v.calls[i]? = some call ∧ call.request = .lease ∧ call.phase = phase
  exclusive : v.Exclusive
  attended : v.Attended
  table {handle : Handle} (hh : phase.handle? = some handle) (ho : handle.isOpen = true) :
    v.table = t

/-- Work that is refused goes on to its failure. -/
theorem workStep_of_fault {work : Work Reply} {handle : Handle} {cause : Failure}
    (h : work.fault? v.plan handle = some cause) (request : Request) :
    v.workStep i request work handle = v.setPhase i (.working (.fail cause) handle) := by
  cases work with
  | insert owner material next =>
    cases hi : handle.insert v.plan owner material <;> simp_all [Work.fault?, workStep]
  | delete owner key next =>
    cases hd : handle.delete v.plan owner key <;> simp_all [Work.fault?, workStep]
  | commit next =>
    cases ho : handle.isOpen <;> simp_all [Work.fault?, workStep, Handle.commit]
  | rollback next =>
    cases ho : handle.isOpen <;> simp_all [Work.fault?, workStep, Handle.rollback]
  | _ => simp [Work.fault?] at h

namespace IsAt

theorem holder (h : v.IsAt i t phase) {handle : Handle} (hh : phase.handle? = some handle)
    (ho : handle.isOpen = true) : v.lock.holder = some i := by
  obtain ⟨call, hc, -, rfl⟩ := h.call
  exact h.exclusive hc hh ho

/-- A lease without an open transaction has no claim to the table. -/
theorem notMem_line (h : v.IsAt i t phase) (hp : phase.claims = false) : i ∉ v.lock.line := by
  obtain ⟨call, hc, -, rfl⟩ := h.call
  rw [h.attended.mem_line, claims_eq hc, hp]
  simp

/-- **Moves of others** leave a lease where it is. -/
theorem move (h : v.IsAt i t phase) (hm : m.call? ≠ some i) : (v.move m).IsAt i t phase where
  call := by
    obtain ⟨call, hc, hr, hp⟩ := h.call
    obtain ⟨call', hc', -⟩ := exists_call_move hc m
    rcases move_calls_cases hm hc' with hsame | ⟨hnone, -⟩
    · obtain rfl := Option.some.inj (hc.symm.trans hsame)
      exact ⟨call, hc', hr, hp⟩
    · simp [hc] at hnone
  exclusive := h.exclusive.run [m]
  attended := h.attended.run [m]
  table hh ho := by
    rw [(h.exclusive.move_of_ne (h.holder hh ho) hm).2]
    exact h.table hh ho

theorem run (h : v.IsAt i t phase) (hm : ∀ m ∈ moves, m.call? ≠ some i) :
    (v.run moves).IsAt i t phase := by
  induction moves generalizing v with
  | nil => exact h
  | cons m moves ih =>
    exact ih (h.move (hm m List.mem_cons_self)) fun m' h' => hm m' (List.mem_cons_of_mem m h')

/-- **A move of the lease itself.** -/
theorem amend (h : v.IsAt i t phase)
    (hd : ∀ call : Call, call.request = .lease → call.phase = phase → v.Deed i call e)
    (ht : ∀ handle, e.phase.handle? = some handle → handle.isOpen = true → e.table = t) :
    (v.amend i e).IsAt i t e.phase := by
  obtain ⟨call, hc, hr, hp⟩ := h.call
  exact ⟨⟨_, amend_calls_self hc e, hr, rfl⟩, h.exclusive.amend hc (hd call hr hp),
    h.attended.amend hc (hd call hr hp), ht _⟩

/-- A lease that has been given the table begins its transaction with it. -/
theorem grant (h : v.IsAt i t .waiting) (hl : v.lock.holder = some i) :
    (v.step i).IsAt i v.table (.resting (.ok .done) (.opened v.table)) := by
  have h' : v.IsAt i v.table .waiting := ⟨h.call, h.exclusive, h.attended, fun hh => by cases hh⟩
  have hstep : v.step i =
      v.amend i ⟨.resting (.ok .done) (.opened v.table), v.lock, v.table, []⟩ := by
    obtain ⟨call, hc, hr, hp⟩ := h.call
    simp [step, hc, hp, hl, hr, enter, Request.work?, setPhase_eq_amend]
  rw [hstep]
  exact h'.amend (fun call hr hp => .grant hp hl hr) fun _ _ _ => rfl

/-- To ask a lease for something touches nothing but the lease. -/
theorem resume {answer : Except Failure Reply} {handle : Handle}
    (h : v.IsAt i t (.resting answer handle)) (work : Work Reply) :
    v.resume i work = v.setPhase i (.working work handle) ∧
      (v.resume i work).IsAt i t (.working work handle) := by
  have hphase : v.resume i work = v.setPhase i (.working work handle) := by
    obtain ⟨call, hc, -, hp⟩ := h.call
    simp [Vault.resume, hc, hp]
  refine ⟨hphase, ?_⟩
  rw [hphase, setPhase_eq_amend]
  exact h.amend (fun call hr hp => .resume hp) fun _ hh => h.table hh

/-- A lease that has come to its answer comes to rest, and that touches nothing else. -/
theorem rest {answer : Except Failure Reply} {work : Work Reply} {handle : Handle}
    (h : v.IsAt i t (.working work handle)) (hw : work.outcome? = some answer) :
    v.step i = v.setPhase i (.resting answer handle) ∧
      (v.step i).IsAt i t (.resting answer handle) := by
  have hphase : v.step i = v.setPhase i (.resting answer handle) := by
    obtain ⟨call, hc, hr, hp⟩ := h.call
    rw [step, hc]
    simp only [hp, hr]
    cases work <;> simp_all [Work.outcome?, workStep]
  refine ⟨hphase, ?_⟩
  rw [hphase, setPhase_eq_amend]
  exact h.amend (fun call hr hp => .rest hp hr hw) fun _ hh => h.table hh

/-! ### What a lease does -/

variable {p : Table} {ask : Ask}

/-- Work that is refused goes on to its failure, and nothing else is touched. -/
theorem fault {work : Work Reply} {handle : Handle} {cause : Failure}
    (h : v.IsAt i t (.working work handle)) (hf : work.fault? v.plan handle = some cause) :
    v.step i = v.setPhase i (.working (.fail cause) handle) ∧
      (v.step i).IsAt i t (.working (.fail cause) handle) := by
  have hphase : v.step i = v.setPhase i (.working (.fail cause) handle) := by
    obtain ⟨call, hc, -, hp⟩ := h.call
    rw [step, hc]
    simp only [hp]
    exact workStep_of_fault hf call.request
  refine ⟨hphase, ?_⟩
  rw [hphase, setPhase_eq_amend]
  exact h.amend (fun call _ hp => .fault hp hf) fun _ hh => h.table hh

/-- **An insert or a delete** is answered as by a private table, and leaves the lock and the shared
table alone. -/
theorem stages (h : v.IsAt i t (.working ask.work (.opened p))) (he : ask.ends = false) :
    ∃ work, work.outcome? = some (ask.work.perform v.plan p).1 ∧
      (v.step i).IsAt i t (.working work (.opened (ask.work.perform v.plan p).2)) ∧
      (v.step i).table = v.table ∧ (v.step i).lock = v.lock := by
  cases hf : ask.work.fault? v.plan (.opened p) with
  | some cause =>
    obtain ⟨hphase, hat⟩ := h.fault hf
    rw [Ask.perform_of_fault hf]
    exact ⟨.fail cause, rfl, hat, by rw [hphase, setPhase], by rw [hphase, setPhase]⟩
  | none =>
    obtain ⟨call, hc, -, hp⟩ := h.call
    cases ask with
    | insert owner material =>
      cases hi : (Handle.opened p).insert v.plan owner material with
      | error cause => simp [Ask.work, Work.issue, Work.fault?, hi] at hf
      | ok result =>
        obtain ⟨credential, staged⟩ := result
        obtain ⟨-, hplan, p', hp', rfl⟩ := Handle.insert_eq_ok.mp hi
        have hstep : v.step i = v.amend i
            ⟨.working (.done (.issued credential)) (.opened p'), v.lock, v.table, []⟩ := by
          rw [step, hc]
          simp only [hp, Ask.work, Work.issue, workStep, hi]
          exact setPhase_eq_amend v i _
        have hperform : (Ask.insert owner material).work.perform v.plan p =
            (.ok (.issued credential), p') := by
          simp only [Ask.work, Work.issue, Work.perform, hplan]
          rw [if_neg Bool.false_ne_true, show p.insert owner material = _ from hp']
        rw [hperform, hstep]
        exact ⟨_, rfl, h.amend (fun _ _ hp => .insert hp hi) fun _ _ _ => h.table rfl rfl, rfl, rfl⟩
    | delete owner key =>
      cases hd : (Handle.opened p).delete v.plan owner key with
      | error cause => simp [Ask.work, Work.fault?, hd] at hf
      | ok result =>
        obtain ⟨row, staged⟩ := result
        have hstep : v.step i = v.amend i ⟨.working (.done (.found row.isSome)) staged, v.lock,
            v.table, (row.map fun row => .deleteStaged row.id).toList⟩ := by
          rw [step, hc]
          simp only [hp, Ask.work, workStep, hd]
          cases row with
          | none => exact setPhase_eq_amend v i _
          | some row => rfl
        have hperform : ∃ p', staged = .opened p' ∧
            (Ask.delete owner key).work.perform v.plan p = (.ok (.found row.isSome), p') := by
          obtain ⟨-, hplan, ⟨rfl, hr, rfl⟩ | ⟨found, p', rfl, hr, rfl⟩⟩ :=
            Handle.delete_eq_ok.mp hd
          all_goals
            refine ⟨_, rfl, ?_⟩
            simp only [Ask.work, Work.perform, hplan]
            rw [if_neg Bool.false_ne_true, show p.remove? owner key = _ from hr]
            rfl
        obtain ⟨p', rfl, hperform⟩ := hperform
        rw [hperform, hstep]
        exact ⟨_, rfl, h.amend (fun _ _ hp => .delete hp hd) fun _ _ _ => h.table rfl rfl, rfl,
          rfl⟩
    | commit | rollback => simp [Ask.ends] at he

/-- **A commit** publishes the copy and lets go of the lock. -/
theorem commits (h : v.IsAt i t (.working Ask.commit.work (.opened p))) :
    (v.step i).IsAt i t (.working (.done .done) .finished) ∧ (v.step i).table = p ∧
      (v.step i).lock = v.lock.leave i := by
  have hstep : v.step i =
      v.amend i ⟨.working (.done .done) .finished, v.lock.leave i, p, []⟩ := by
    obtain ⟨call, hc, -, hp⟩ := h.call
    rw [step, hc]
    simp [hp, Ask.work, workStep, Handle.commit, Handle.opened, publish, release, setPhase,
      Vault.amend]
  rw [hstep]
  refine ⟨h.amend (fun _ _ hp => .commit hp rfl) fun handle hh ho => ?_, rfl, rfl⟩
  obtain rfl := Option.some.inj hh
  simp [Handle.finished] at ho

/-- **A rollback** lets go of the lock and leaves the table alone. -/
theorem rollsBack (h : v.IsAt i t (.working Ask.rollback.work (.opened p))) :
    (v.step i).IsAt i t (.working (.done .done) .finished) ∧ (v.step i).table = v.table ∧
      (v.step i).lock = v.lock.leave i := by
  have hstep : v.step i =
      v.amend i ⟨.working (.done .done) .finished, v.lock.leave i, v.table, []⟩ := by
    obtain ⟨call, hc, -, hp⟩ := h.call
    rw [step, hc]
    simp [hp, Ask.work, workStep, Handle.rollback, Handle.opened, release, setPhase, Vault.amend]
  rw [hstep]
  refine ⟨h.amend (fun _ _ hp => .rollback hp rfl) fun handle hh ho => ?_, rfl, rfl⟩
  obtain rfl := Option.some.inj hh
  simp [Handle.finished] at ho

/-- **A lease that is dropped** leaves the table alone and lets go of the lock. -/
theorem drop {answer : Except Failure Reply} {handle : Handle}
    (h : v.IsAt i t (.resting answer handle)) :
    (v.drop i).table = v.table ∧ (v.drop i).lock = v.lock.leave i := by
  obtain ⟨call, hc, -, hp⟩ := h.call
  have hlive : call.isLive = true := by rw [Call.isLive, hp]
  simp [Vault.drop, hc, hlive, release, setPhase]

end IsAt

/-- **What a lease does in one step**, on a private table in place of its transaction, which began
with a table. -/
structure Does (v : Vault) (i : Nat) (t : Table) (d : Draft) (ask : Ask) : Prop where
  /-- Until then nobody has touched the table. -/
  untouched (hd : d.isSome = true) : v.table = t ∧ v.lock.holder = some i
  /-- An insert and a delete are done to the private table alone. -/
  stages (hd : d.isSome = true) (ha : ask.ends = false) :
    (v.step i).table = t ∧ (v.step i).lock = v.lock
  /-- A commit makes the private table the shared one, and lets go of the lock. -/
  commits {p : Table} (hd : d = some p) (ha : ask = .commit) :
    (v.step i).table = p ∧ (v.step i).lock = v.lock.handOver
  /-- A rollback leaves the shared table as it is, and lets go of the lock. -/
  rollsBack (hd : d.isSome = true) (ha : ask = .rollback) :
    (v.step i).table = t ∧ (v.step i).lock = v.lock.handOver
  /-- Once there is no private table any more, nothing but the call is touched. -/
  finished (hd : d = none) : ∃ phase, v.step i = v.setPhase i phase

theorem IsAt.does {ask : Ask} (h : v.IsAt i t (.working ask.work d.handle)) :
    v.Does i t d ask ∧ ∃ work, work.outcome? = some (d.answer v.plan ask) ∧
      (v.step i).IsAt i t (.working work (d.next v.plan ask).handle) := by
  cases d with
  | none =>
    have hf : ask.work.fault? v.plan .finished = some ask.refusal := by cases ask <;> rfl
    obtain ⟨hphase, hat⟩ := h.fault hf
    have hdoes : v.Does i t none ask := by
      constructor
      case finished => exact fun _ => ⟨_, hphase⟩
      all_goals
        intros
        contradiction
    exact ⟨hdoes, _, rfl, hat⟩
  | some p =>
    have ht : v.table = t := h.table rfl rfl
    have hl : v.lock.holder = some i := h.holder rfl rfl
    have hleave : v.lock.leave i = v.lock.handOver := by rw [Lock.leave, if_pos hl]
    cases ha : ask.ends with
    | false =>
      have hne : ask ≠ .commit ∧ ask ≠ .rollback := by
        constructor <;> rintro rfl <;> simp [Ask.ends] at ha
      obtain ⟨work, hw, hat, htable, hlock⟩ := h.stages ha
      have hdoes : v.Does i t (some p) ask := by
        constructor
        case untouched => exact fun _ => ⟨ht, hl⟩
        case stages => exact fun _ _ => ⟨htable.trans ht, hlock⟩
        case commits => exact fun _ hask => absurd hask hne.1
        case rollsBack => exact fun _ hask => absurd hask hne.2
        case finished => exact fun hd => absurd hd (Option.some_ne_none p)
      refine ⟨hdoes, work, hw, ?_⟩
      rw [Draft.next, ha]
      exact hat
    | true =>
      cases ask with
      | commit =>
        obtain ⟨hat, htable, hlock⟩ := h.commits
        rw [hleave] at hlock
        have hdoes : v.Does i t (some p) .commit := by
          constructor
          case untouched => exact fun _ => ⟨ht, hl⟩
          case commits =>
            intro _ hd _
            cases hd
            exact ⟨htable, hlock⟩
          all_goals
            intros
            contradiction
        exact ⟨hdoes, _, rfl, hat⟩
      | rollback =>
        obtain ⟨hat, htable, hlock⟩ := h.rollsBack
        rw [hleave] at hlock
        have hdoes : v.Does i t (some p) .rollback := by
          constructor
          case untouched => exact fun _ => ⟨ht, hl⟩
          case rollsBack => exact fun _ _ => ⟨htable.trans ht, hlock⟩
          all_goals
            intros
            contradiction
        exact ⟨hdoes, _, rfl, hat⟩
      | insert | delete => simp [Ask.ends] at ha

/-! ### One episode after the other -/

/-- **A lease keeps to a private table in an episode**: it is answered as the private table answers,
and touches nothing but its own call, except in the step in which it does what it was asked for. -/
structure KeepsTo (v : Vault) (i : Nat) (t : Table) (d : Draft) (u : Episode) : Prop where
  answer : (u.rested i v).answer? i = some (d.answer u.plan u.ask)
  asks : ∃ phase, (u.met v).resume i u.ask.work = (u.met v).setPhase i phase
  does : (u.ready i v).Does i t d u.ask
  rests : ∃ phase, u.rested i v = (u.late i v).setPhase i phase

theorem IsAt.episode {answer : Except Failure Reply} {u : Episode}
    (h : v.IsAt i t (.resting answer d.handle)) (hu : u.LeavesAlone i) :
    v.KeepsTo i t d u ∧ (u.rested i v).IsAt i t
      (.resting (d.answer u.plan u.ask) (d.next u.plan u.ask).handle) := by
  have hmet : (u.met v).IsAt i t (.resting answer d.handle) := h.run fun _ => hu.before
  obtain ⟨hasks, hasked⟩ := hmet.resume u.ask.work
  have hready : (u.ready i v).IsAt i t (.working u.ask.work d.handle) :=
    (hasked.run fun _ => hu.during).move (m := .setPlan u.plan) nofun
  obtain ⟨hdoes, work, hw, hdone⟩ := hready.does
  have hlate : (u.late i v).IsAt i t (.working work (d.next u.plan u.ask).handle) :=
    hdone.run fun _ => hu.after
  obtain ⟨hrests, hrested⟩ := hlate.rest hw
  refine ⟨⟨?_, ⟨_, hasks⟩, hdoes, _, hrests⟩, hrested⟩
  obtain ⟨call, hc, -, hp⟩ := hrested.call
  rw [answer?, Episode.rested, hc, Option.bind_some, Call.answer?, hp]
  rfl

/-- The vault after some episodes. -/
def follow (v : Vault) (i : Nat) (episodes : List Episode) : Vault :=
  episodes.foldl (fun v u => u.rested i v) v

theorem IsAt.follow {answer : Except Failure Reply} {episodes : List Episode}
    (h : v.IsAt i t (.resting answer d.handle)) (hu : ∀ u ∈ episodes, u.LeavesAlone i) :
    ∃ answer', (v.follow i episodes).IsAt i t (.resting answer' (d.after episodes).handle) := by
  induction episodes generalizing v d answer with
  | nil => exact ⟨answer, h⟩
  | cons u episodes ih =>
    exact ih (h.episode (hu u List.mem_cons_self)).2 fun u' h' => hu u' (List.mem_cons_of_mem u h')

/-- **A lease publishes at most once, and is dead afterwards.** A vault has begun with a table, any
whatsoever, and anything may have happened in it; a lease that has asked for the table has been
given it, and enters it. Then it is asked for one thing after the other, under any failure plans and
whatever others do in the meantime, and at last it is dropped.

There is a private table, which begins as the table that was there when the lease entered, until the
first commit or rollback. Whatever the lease is asked for is answered by the private table, and what
the private table refuses or does not find changes nothing in it. As long as it is there, nobody
touches the shared table, and the lease keeps the lock. A commit then makes the private table the
shared one, a rollback leaves the shared one as it is, and so does a drop; each of them lets go of
the lock, which never comes back to the lease. Once there is no private table any more, everything
is refused, and nothing but the lease itself is touched, nor is anything by a drop. -/
theorem lease_publishes_at_most_once (t₀ : Table) (trail : List Move) {i : Nat} {call : Call}
    (hc : ((holding t₀).run trail).calls[i]? = some call) (hr : call.request = .lease)
    (hp : call.phase = .waiting) (hl : ((holding t₀).run trail).lock.holder = some i)
    (episodes : List Episode) (hu : ∀ u ∈ episodes, u.LeavesAlone i) :
    let v := (holding t₀).run trail
    let w := (v.step i).follow i episodes
    let d := Draft.after (some v.table) episodes
    (d.isSome = true ↔ ∀ u ∈ episodes, u.ask.ends = false) ∧
      (∀ u : Episode, u.LeavesAlone i → w.KeepsTo i v.table d u) ∧
      (∀ (plan : FailurePlan) (ask : Ask) (p : Table),
        (∀ reply, (ask.work.perform plan p).1 = .ok reply → reply = .found false) →
          (ask.work.perform plan p).2 = p) ∧
      ∀ others : List Move, (∀ m ∈ others, m.call? ≠ some i) →
        let x := w.run others
        (x.drop i).table = x.table ∧
          (d.isSome = true → x.table = v.table ∧ x.lock.holder = some i ∧
            (x.drop i).lock = x.lock.handOver) ∧
          (d = none → i ∉ x.lock.line ∧ (x.drop i).lock = x.lock) := by
  intro v w d
  have hwaits : v.IsAt i v.table .waiting :=
    ⟨⟨call, hc, hr, hp⟩, (exclusive_holding t₀).run trail, (attended_holding t₀).run trail,
      fun hh => by cases hh⟩
  obtain ⟨answer, hw⟩ : ∃ answer, w.IsAt i v.table (.resting answer d.handle) :=
    IsAt.follow (d := some v.table) (hwaits.grant hl) hu
  refine ⟨?_, fun u hu => (hw.episode hu).1, fun plan ask p => Ask.perform_refused, ?_⟩
  · rw [Draft.isSome_after]
    simp
  · intro others hothers x
    have hx : x.IsAt i v.table (.resting answer d.handle) := hw.run hothers
    obtain ⟨htable, hlock⟩ := hx.drop
    refine ⟨htable, fun hd => ?_, fun hd => ?_⟩
    · obtain ⟨p, hd⟩ := Option.isSome_iff_exists.mp hd
      rw [hd] at hx
      have hholder : x.lock.holder = some i := hx.holder rfl rfl
      exact ⟨hx.table rfl rfl, hholder, by rw [hlock, Lock.leave, if_pos hholder]⟩
    · rw [hd] at hx
      have hline : i ∉ x.lock.line := hx.notMem_line rfl
      exact ⟨hline, by rw [hlock, Lock.leave_of_notMem hline]⟩

/-- A lease that has issued `b`, been refused to issue it once more, revoked `a` and committed is
refused a second commit, which does not publish the empty copy. -/
theorem lease_publishes_at_most_once_commit_twice :
    let a : AccessKey := ⟨"a", by decide⟩
    let b : AccessKey := ⟨"b", by decide⟩
    let t₀ : Table := ⟨[⟨⟨1⟩, ⟨1⟩, a, ⟨[1]⟩, none⟩], 1⟩
    let trail : List Move :=
      [.start .lease none, .step 0, .start (.list ⟨1⟩) none, .step 1, .step 1]
    let v := (holding t₀).run trail
    let alone (ask : Ask) : Episode := ⟨ask, {}, [], [], []⟩
    let episodes := [alone (.insert ⟨1⟩ ⟨b, ⟨[2]⟩⟩), alone (.insert ⟨2⟩ ⟨b, ⟨[3]⟩⟩),
      alone (.delete ⟨1⟩ a), alone .commit]
    let w := (v.step 0).follow 0 episodes
    let x := (alone .commit).rested 0 w
    v.calls[0]? = some ⟨.lease, 0, none, .waiting⟩ ∧ v.lock = ⟨some 0, [1]⟩ ∧
      (∀ u ∈ episodes, u.LeavesAlone 0) ∧ (alone .commit).LeavesAlone 0 ∧
      w.table.rows.map (·.key) = [b] ∧ w.lock = ⟨some 1, []⟩ ∧
      x.answer? 0 = some (.error (.storage "commit" "Transaction already finished")) ∧
      x.table = w.table ∧ (x.drop 0).lock = ⟨some 1, []⟩ := by
  intro a b t₀ trail v alone episodes w x
  have halone (ask : Ask) : (alone ask).LeavesAlone 0 := ⟨nofun, nofun, nofun⟩
  have hu : ∀ u ∈ episodes, u.LeavesAlone 0 := by simp [episodes, halone]
  obtain ⟨-, hkeeps, -⟩ :=
    lease_publishes_at_most_once t₀ trail (i := 0) rfl rfl rfl rfl episodes hu
  exact ⟨rfl, by decide +kernel, hu, halone _, by decide +kernel, by decide +kernel,
    (hkeeps _ (halone .commit)).answer, by decide +kernel, by decide +kernel⟩

end Vault

end KeyLifecycle
