import KeyLifecycle.Proofs.Vault.Staging

/-!
# Whoever has a transaction open has the table to themselves

The invariant of a vault, `Vault.Orderly`, and that no move breaks it. Its heart is two facts about
a call whose transaction is open:

* it holds the lock (`KeyLifecycle.Vault.Orderly.holds`), so there is only one such call, and nobody
  else changes the table while it is at work (`KeyLifecycle.Vault.Orderly.others`);
* its work has come to where it is *from the table as it stands now*
  (`KeyLifecycle.Vault.Orderly.copies`), although the copy was taken when the transaction began.

The second is why it does no harm that a commit writes back the whole copy: the copy is what the
work makes of the present table, so nothing that others have done since is lost – there is nothing
that others have done since.
-/

namespace KeyLifecycle

/-! ### The lock -/

namespace Lock

variable {l : Lock} {i j : Nat}

/-- Asking for a lock takes it from nobody. -/
theorem holder_request (h : l.holder = some j) : (l.request i).holder = some j := by
  simp [request, h]

/-- Only the holder lets go of a lock. -/
theorem holder_leave_of_ne (h : l.holder = some j) (hne : j ≠ i) :
    (l.leave i).holder = some j := by
  simp [leave, h, hne]

end Lock

namespace Vault

variable {plans : FailurePlan → Prop} {v : Vault} {i j : Nat} {call : Call} {e : Effect}

/-! ### The invariant -/

/-- **A vault in order.** Only the failure plans of some kind are met in it. -/
structure Orderly (plans : FailurePlan → Prop) (v : Vault) : Prop where
  plan : plans v.plan
  distinct : v.table.HasDistinctKeys
  /-- Only lists look whether they are to fail. -/
  checks {i : Nat} {call : Call} (hc : v.calls[i]? = some call) (hp : call.phase = .checking) :
    ∃ owner, call.request = .list owner
  /-- A list that has gone on was not to fail. -/
  passes {i : Nat} {call : Call} {owner : UserId} (hc : v.calls[i]? = some call)
    (hr : call.request = .list owner) (hp : call.phase = .asking ∨ call.phase = .waiting) :
    ∃ plan, plans plan ∧ plan.list = false
  /-- Whoever has a transaction open holds the lock. -/
  holds {i : Nat} {call : Call} {handle : Handle} (hc : v.calls[i]? = some call)
    (hh : call.phase.handle? = some handle) (ho : handle.isOpen = true) : v.lock.holder = some i
  /-- The keys of an open copy are distinct. -/
  staged {i : Nat} {call : Call} {handle : Handle} (hc : v.calls[i]? = some call)
    (hh : call.phase.handle? = some handle) (ho : handle.isOpen = true) :
    handle.staged.HasDistinctKeys
  /-- Only leases rest. -/
  rests {i : Nat} {call : Call} {answer : Except Failure Reply} {handle : Handle}
    (hc : v.calls[i]? = some call) (hp : call.phase = .resting answer handle) :
    call.request = .lease
  /-- Whatever is at work is a lease or has work to do. -/
  works {i : Nat} {call : Call} {rest : Work Reply} {handle : Handle}
    (hc : v.calls[i]? = some call) (hi : call.phase.inside? = some (rest, handle)) :
    call.request = .lease ∨ ∃ work, call.request.work? = some work
  /-- The transaction of plain work stays open. -/
  opens {i : Nat} {call : Call} {work rest : Work Reply} {handle : Handle}
    (hc : v.calls[i]? = some call) (hw : call.request.work? = some work) (hplain : work.IsPlain)
    (hi : call.phase.inside? = some (rest, handle)) : handle.isOpen = true
  /-- Work in an open transaction has come to where it is from the table as it stands. -/
  copies {i : Nat} {call : Call} {work rest : Work Reply} {handle : Handle}
    (hc : v.calls[i]? = some call) (hw : call.request.work? = some work)
    (hi : call.phase.inside? = some (rest, handle)) (ho : handle.isOpen = true) :
    Work.Reached plans work v.table rest handle

namespace Orderly

theorem handle?_of_inside? {phase : Phase} {work : Work Reply} {handle : Handle}
    (h : phase.inside? = some (work, handle)) : phase.handle? = some handle := by
  cases phase <;> simp_all [Phase.inside?, Phase.handle?]

/-- The answer of a call that is no lease is its end. -/
theorem answer?_eq_some (hv : v.Orderly plans) (hc : v.calls[i]? = some call)
    (hl : call.request ≠ .lease) {answer : Except Failure Reply} :
    v.answer? i = some answer ↔ call.phase = .answered answer := by
  rw [answer?, hc, Option.bind_some, Call.answer?]
  cases hp : call.phase with
  | answered answer' => simp
  | resting answer' handle => exact absurd (hv.rests hc hp) hl
  | _ => simp

/-- **The holder is left alone**: a deed of somebody else leaves both the lock and the table as they
are. -/
theorem others (hv : v.Orderly plans) (hc : v.calls[i]? = some call) (hd : v.Deed i call e)
    (hl : v.lock.holder = some j) (hne : j ≠ i) : e.lock.holder = some j ∧ e.table = v.table := by
  have hleave : (v.lock.leave i).holder = some j := Lock.holder_leave_of_ne hl hne
  -- the table is written to only by who holds the lock, and that is somebody else
  have hni : v.lock.holder ≠ some i := by
    rw [hl]
    exact fun h => hne (Option.some.inj h)
  cases hd with
  | ask => exact ⟨Lock.holder_request hl, rfl⟩
  | look hp h => exact absurd h hni
  | commit hp ho => exact absurd (hv.holds hc (by rw [hp, Phase.handle?]) ho) hni
  | succeed hp hr ho => exact absurd (hv.holds hc (by rw [hp, Phase.handle?]) ho) hni
  | rollback | late | giveUp | expire | drop => exact ⟨hleave, rfl⟩
  | _ => exact ⟨hl, rfl⟩

/-- A deed after which its call has an open transaction leaves the table as it is, and the lock to
the call. -/
theorem holds_deed (hv : v.Orderly plans) (hc : v.calls[i]? = some call) (hd : v.Deed i call e)
    {handle : Handle} (hh : e.phase.handle? = some handle) (ho : handle.isOpen = true) :
    e.lock.holder = some i ∧ e.table = v.table ∧ handle.staged.HasDistinctKeys := by
  -- a deed that hands the transaction on as it was
  have kept : call.phase.handle? = some handle →
      v.lock.holder = some i ∧ v.table = v.table ∧ handle.staged.HasDistinctKeys :=
    fun h => ⟨hv.holds hc h ho, rfl, hv.staged hc h ho⟩
  cases hd with
  | begin hp hl hw =>
    obtain rfl := Option.some.inj hh
    exact ⟨hl, rfl, hv.distinct⟩
  | grant hp hl hr =>
    obtain rfl := Option.some.inj hh
    exact ⟨hl, rfl, hv.distinct⟩
  | insert hp hi =>
    obtain rfl := Option.some.inj hh
    obtain ⟨ho', -, t, ht, rfl⟩ := Handle.insert_eq_ok.mp hi
    exact ⟨hv.holds hc (by rw [hp, Phase.handle?]) ho', rfl,
      (hv.staged hc (by rw [hp, Phase.handle?]) ho').insert ht⟩
  | delete hp hd =>
    obtain rfl := Option.some.inj hh
    have ho' := (Handle.isOpen_of_delete hd).1
    have hk := hv.staged hc (by rw [hp, Phase.handle?]) ho'
    refine ⟨hv.holds hc (by rw [hp, Phase.handle?]) ho', rfl, ?_⟩
    obtain ⟨-, -, ⟨-, -, rfl⟩ | ⟨found, t, -, ht, rfl⟩⟩ := Handle.delete_eq_ok.mp hd
    · exact hk
    · exact hk.remove? ht
  | fault hp hf =>
    obtain rfl := Option.some.inj hh
    exact kept (by rw [hp, Phase.handle?])
  | pause hp | wake hp hm | resume hp =>
    obtain rfl := Option.some.inj hh
    exact kept (by rw [hp, Phase.handle?])
  | rest hp hr hf =>
    obtain rfl := Option.some.inj hh
    exact kept (by rw [hp, Phase.handle?])
  | interrupt hr hp =>
    obtain rfl := Option.some.inj hh
    exact kept (handle?_of_inside? hp)
  | commit | rollback =>
    obtain rfl := Option.some.inj hh
    exact absurd ho (by simp [Handle.finished])
  | _ => simp [Phase.handle?] at hh

/-- After a deed only a lease rests. -/
theorem rests_deed (hd : v.Deed i call e) {answer : Except Failure Reply} {handle : Handle}
    (hp : e.phase = .resting answer handle) : call.request = .lease := by
  cases hd with
  | grant _ _ hr => exact hr
  | rest _ hr _ => exact hr
  | interrupt hr _ => exact hr
  | _ => simp at hp

/-- No deed leads back to the beginning of a list, and a list goes on if it is not to fail. -/
theorem passes_deed (hv : v.Orderly plans) (hc : v.calls[i]? = some call) (hd : v.Deed i call e) :
    e.phase ≠ .checking ∧ ∀ owner, call.request = .list owner →
      e.phase = .asking ∨ e.phase = .waiting → ∃ plan, plans plan ∧ plan.list = false := by
  cases hd with
  | pass hp h => exact ⟨by simp, fun _ _ _ => ⟨v.plan, hv.plan, h⟩⟩
  | ask hp => exact ⟨by simp, fun owner hr _ => hv.passes hc hr (Or.inl hp)⟩
  | _ => exact ⟨by simp, by simp⟩

/-- After a deed only a lease or a request with work is at work. -/
theorem works_deed (hv : v.Orderly plans) (hc : v.calls[i]? = some call) (hd : v.Deed i call e)
    {rest : Work Reply} {handle : Handle} (hi : e.phase.inside? = some (rest, handle)) :
    call.request = .lease ∨ ∃ work, call.request.work? = some work := by
  cases hd with
  | begin hp hl hw => exact Or.inr ⟨_, hw⟩
  | insert hp h | delete hp h | fault hp h | wake hp h | commit hp h | rollback hp h =>
    exact hv.works hc (by rw [hp, Phase.inside?])
  | pause hp => exact hv.works hc (by rw [hp, Phase.inside?])
  | resume hp => exact Or.inl (hv.rests hc hp)
  | _ => simp [Phase.inside?] at hi

/-- The transaction of plain work is open after a deed, if the work goes on. -/
theorem opens_deed (hv : v.Orderly plans) (hc : v.calls[i]? = some call) (hd : v.Deed i call e)
    {work rest : Work Reply} {handle : Handle} (hw : call.request.work? = some work)
    (hplain : work.IsPlain) (hi : e.phase.inside? = some (rest, handle)) :
    handle.isOpen = true := by
  have kept {rest' : Work Reply} : call.phase.inside? = some (rest', handle) →
      handle.isOpen = true := hv.opens hc hw hplain
  -- what is left of plain work never ends its transaction by itself
  have plain {rest' : Work Reply} {handle' : Handle}
      (h : call.phase.inside? = some (rest', handle')) : rest'.IsPlain :=
    (hv.copies hc hw h (hv.opens hc hw hplain h)).isPlain hplain
  cases hd with
  | begin hp hl hw' =>
    obtain ⟨rfl, rfl⟩ := Prod.mk.inj (Option.some.inj hi)
    rfl
  | insert hp h =>
    obtain ⟨rfl, rfl⟩ := Prod.mk.inj (Option.some.inj hi)
    exact (Handle.isOpen_of_insert h).2
  | delete hp h =>
    obtain ⟨rfl, rfl⟩ := Prod.mk.inj (Option.some.inj hi)
    exact (Handle.isOpen_of_delete h).2
  | fault hp hf =>
    obtain ⟨rfl, rfl⟩ := Prod.mk.inj (Option.some.inj hi)
    exact kept (by rw [hp, Phase.inside?])
  | pause hp | wake hp hm =>
    obtain ⟨rfl, rfl⟩ := Prod.mk.inj (Option.some.inj hi)
    exact kept (by rw [hp, Phase.inside?])
  | commit hp ho | rollback hp ho =>
    have h := plain (by rw [hp, Phase.inside?])
    exact False.elim h
  | resume hp =>
    rw [hv.rests hc hp] at hw
    simp [Request.work?] at hw
  | _ => simp [Phase.inside?] at hi

/-- **A deed keeps the copy in step**: what is left of the work and the copy have been reached from
the table as it stands. -/
theorem copies_deed (hv : v.Orderly plans) (hc : v.calls[i]? = some call) (hd : v.Deed i call e)
    {work rest : Work Reply} {handle : Handle} (hw : call.request.work? = some work)
    (hi : e.phase.inside? = some (rest, handle)) (ho : handle.isOpen = true) :
    Work.Reached plans work v.table rest handle := by
  cases hd with
  | begin hp hl hw' =>
    obtain ⟨rfl, rfl⟩ := Prod.mk.inj (Option.some.inj hi)
    obtain rfl := Option.some.inj (hw.symm.trans hw')
    exact .opened
  | insert hp h =>
    obtain ⟨rfl, rfl⟩ := Prod.mk.inj (Option.some.inj hi)
    have hopen := (Handle.isOpen_of_insert h).1
    exact (hv.copies hc hw (by rw [hp, Phase.inside?]) hopen).insert hv.plan h
  | delete hp h =>
    obtain ⟨rfl, rfl⟩ := Prod.mk.inj (Option.some.inj hi)
    have hopen := (Handle.isOpen_of_delete h).1
    exact (hv.copies hc hw (by rw [hp, Phase.inside?]) hopen).delete hv.plan h
  | fault hp hf =>
    obtain ⟨rfl, rfl⟩ := Prod.mk.inj (Option.some.inj hi)
    exact (hv.copies hc hw (by rw [hp, Phase.inside?]) ho).fault hv.plan hf
  | pause hp =>
    obtain ⟨rfl, rfl⟩ := Prod.mk.inj (Option.some.inj hi)
    exact (hv.copies hc hw (by rw [hp, Phase.inside?]) ho).pause
  | wake hp hm =>
    obtain ⟨rfl, rfl⟩ := Prod.mk.inj (Option.some.inj hi)
    exact hv.copies hc hw (by rw [hp, Phase.inside?]) ho
  | commit | rollback =>
    obtain ⟨rfl, rfl⟩ := Prod.mk.inj (Option.some.inj hi)
    exact absurd ho (by simp [Handle.finished])
  | resume hp =>
    rw [hv.rests hc hp] at hw
    simp [Request.work?] at hw
  | _ => simp [Phase.inside?] at hi

/-- The keys of the table are distinct after a deed. -/
theorem distinct_deed (hv : v.Orderly plans) (hc : v.calls[i]? = some call) (hd : v.Deed i call e) :
    e.table.HasDistinctKeys := by
  cases hd with
  | look hp hl h => exact hv.distinct.stamped call.request
  | commit hp ho => exact hv.staged hc (by rw [hp, Phase.handle?]) ho
  | succeed hp hr ho => exact hv.staged hc (by rw [hp, Phase.handle?]) ho
  | _ => exact hv.distinct

/-! ### Every run keeps the vault in order -/

/-- **A deed leaves the vault in order.** The call itself is settled by the lemmas above; for all
others it is enough that they hold the lock if they have a transaction open, since then nothing that
they see has changed. -/
theorem amend (hv : v.Orderly plans) (hc : v.calls[i]? = some call) (hd : v.Deed i call e) :
    (v.amend i e).Orderly plans where
  plan := hv.plan
  distinct := hv.distinct_deed hc hd
  checks hc' hp := by
    rcases amend_calls_cases hc hc' with ⟨rfl, rfl⟩ | ⟨hne, hc'⟩
    · exact absurd hp (hv.passes_deed hc hd).1
    · exact hv.checks hc' hp
  passes hc' hr hp := by
    rcases amend_calls_cases hc hc' with ⟨rfl, rfl⟩ | ⟨hne, hc'⟩
    · exact (hv.passes_deed hc hd).2 _ hr hp
    · exact hv.passes hc' hr hp
  holds hc' hh ho := by
    rcases amend_calls_cases hc hc' with ⟨rfl, rfl⟩ | ⟨hne, hc'⟩
    · exact (hv.holds_deed hc hd hh ho).1
    · exact (hv.others hc hd (hv.holds hc' hh ho) hne).1
  staged hc' hh ho := by
    rcases amend_calls_cases hc hc' with ⟨rfl, rfl⟩ | ⟨hne, hc'⟩
    · exact (hv.holds_deed hc hd hh ho).2.2
    · exact hv.staged hc' hh ho
  rests hc' hp := by
    rcases amend_calls_cases hc hc' with ⟨rfl, rfl⟩ | ⟨hne, hc'⟩
    · have h := rests_deed hd hp
      exact h
    · exact hv.rests hc' hp
  works hc' hi := by
    rcases amend_calls_cases hc hc' with ⟨rfl, rfl⟩ | ⟨hne, hc'⟩
    · have h := hv.works_deed hc hd hi
      exact h
    · exact hv.works hc' hi
  opens hc' hw hplain hi := by
    rcases amend_calls_cases hc hc' with ⟨rfl, rfl⟩ | ⟨hne, hc'⟩
    · exact hv.opens_deed hc hd hw hplain hi
    · exact hv.opens hc' hw hplain hi
  copies hc' hw hi ho := by
    rcases amend_calls_cases hc hc' with ⟨rfl, rfl⟩ | ⟨hne, hc'⟩
    · have ht := (hv.holds_deed hc hd (handle?_of_inside? hi) ho).2.1
      rw [amend_table, ht]
      exact hv.copies_deed hc hd hw hi ho
    · have hl := hv.holds hc' (handle?_of_inside? hi) ho
      rw [amend_table, (hv.others hc hd hl hne).2]
      exact hv.copies hc' hw hi ho

/-- A request that has just become a call has no transaction yet. -/
theorem handle?_firstPhase (request : Request) : request.firstPhase.handle? = none := by
  cases request <;> rfl

theorem inside?_firstPhase (request : Request) : request.firstPhase.inside? = none := by
  cases request <;> rfl

theorem start (hv : v.Orderly plans) (request : Request) (limit : Option Span) :
    (v.start request limit).Orderly plans where
  plan := hv.plan
  distinct := hv.distinct
  checks hc hp := by
    rcases start_calls_cases hc with ⟨-, rfl⟩ | hc
    · cases request <;> simp [Request.firstPhase] at hp ⊢
    · exact hv.checks hc hp
  passes hc hr hp := by
    rcases start_calls_cases hc with ⟨-, rfl⟩ | hc
    · subst hr
      simp [Request.firstPhase] at hp
    · exact hv.passes hc hr hp
  holds hc hh ho := by
    rcases start_calls_cases hc with ⟨-, rfl⟩ | hc
    · simp [handle?_firstPhase] at hh
    · exact hv.holds hc hh ho
  staged hc hh ho := by
    rcases start_calls_cases hc with ⟨-, rfl⟩ | hc
    · simp [handle?_firstPhase] at hh
    · exact hv.staged hc hh ho
  rests hc hp := by
    rcases start_calls_cases hc with ⟨-, rfl⟩ | hc
    · cases request <;> simp [Request.firstPhase] at hp
    · exact hv.rests hc hp
  works hc hi := by
    rcases start_calls_cases hc with ⟨-, rfl⟩ | hc
    · simp [inside?_firstPhase] at hi
    · exact hv.works hc hi
  opens hc hw hplain hi := by
    rcases start_calls_cases hc with ⟨-, rfl⟩ | hc
    · simp [inside?_firstPhase] at hi
    · exact hv.opens hc hw hplain hi
  copies hc hw hi ho := by
    rcases start_calls_cases hc with ⟨-, rfl⟩ | hc
    · simp [inside?_firstPhase] at hi
    · exact hv.copies hc hw hi ho

/-- **Every run of a vault in order leaves it in order.** -/
theorem run (hv : v.Orderly plans) {moves : List Move}
    (hm : ∀ plan, .setPlan plan ∈ moves → plans plan) : (v.run moves).Orderly plans := by
  refine run_induction (P := Vault.Orderly plans) ?_ ?_ ?_ ?_ ?_ hv hm
  · exact fun v request limit hv => hv.start request limit
  · exact fun v i call e hv hc hd => hv.amend hc hd
  · exact fun v plan hp hv =>
      ⟨hp, hv.distinct, hv.checks, hv.passes, hv.holds, hv.staged, hv.rests, hv.works, hv.opens,
        hv.copies⟩
  · exact fun v moment hv =>
      ⟨hv.plan, hv.distinct, hv.checks, hv.passes, hv.holds, hv.staged, hv.rests, hv.works,
        hv.opens, hv.copies⟩
  · exact fun v events hv =>
      ⟨hv.plan, hv.distinct, hv.checks, hv.passes, hv.holds, hv.staged, hv.rests, hv.works,
        hv.opens, hv.copies⟩

/-- **A plain call at work**: its transaction is open, and what is left of its work has been reached
from the table as it stands. -/
theorem inside (hv : v.Orderly plans) (hc : v.calls[i]? = some call) (hr : call.request.IsPlain)
    {rest : Work Reply} {handle : Handle} (hi : call.phase.inside? = some (rest, handle)) :
    handle.isOpen = true ∧ rest.IsPlain ∧ ∃ work, call.request.work? = some work ∧
      Work.Reached plans work v.table rest handle := by
  obtain ⟨work, hw⟩ := (hv.works hc hi).resolve_left hr.1
  have ho := hv.opens hc hw (hr.2 work hw) hi
  have h := hv.copies hc hw hi ho
  exact ⟨ho, h.isPlain (hr.2 work hw), work, hw, h⟩

end Orderly

/-- A vault without calls, in which only some plan is met, is in order. -/
theorem orderly_of_calls_nil (hp : plans v.plan) (ht : v.table.HasDistinctKeys)
    (hc : v.calls = []) : v.Orderly plans where
  plan := hp
  distinct := ht
  checks h := by simp [hc] at h
  passes h := by simp [hc] at h
  holds h := by simp [hc] at h
  staged h := by simp [hc] at h
  rests h := by simp [hc] at h
  works h := by simp [hc] at h
  opens h := by simp [hc] at h
  copies h := by simp [hc] at h

/-- The vault before the first call is in order, whatever is going to fail. -/
theorem orderly_empty : Vault.empty.Orderly fun _ => True :=
  orderly_of_calls_nil trivial Table.hasDistinctKeys_empty rfl

end Vault

end KeyLifecycle
