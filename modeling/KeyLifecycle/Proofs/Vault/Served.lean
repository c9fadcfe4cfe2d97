import KeyLifecycle.Proofs.Vault.Alone
import KeyLifecycle.Proofs.Vault.Custody
import KeyLifecycle.Proofs.Vault.Deadline
import KeyLifecycle.Proofs.Vault.Progress

/-!
# A turn among others

What becomes of a brisk call (`Request.IsBrisk`) in one turn, whoever else is there. There are three
ways for a turn to end, and `Vault.Outcome` says what is so in each of them:

* the call goes on, and has left the table as it was: the allowance has stopped it, or it waits for
  a table that somebody else held before the turn and still holds;
* it is answered what its request comes to on the table *as it stood when the turn began*, and
  leaves the table to which that leads;
* it is cancelled because its time is used up, and has left the table as it was, too.

Why it is the table from the beginning of the turn: nobody but the call does anything in its turn,
and the call does nothing to the table before its end (`Vault.Served.table`). So it does not matter
how much of its work had been done in earlier turns.
-/

namespace KeyLifecycle

/-- Brisk work leaves the end of its transaction to whoever runs it. -/
theorem Work.IsBrisk.isPlain {work : Work Reply} (h : work.IsBrisk) : work.IsPlain := by
  induction work with
  | done | fail => exact trivial
  | insert owner material next ih => exact fun credential => ih credential (h credential)
  | delete owner key next ih => exact fun yes => ih yes (h yes)
  | commit | rollback | pause => exact h.elim

theorem Request.IsBrisk.isPlain {request : Request} (h : request.IsBrisk) : request.IsPlain :=
  ⟨h.1, fun work hw => (h.2 work hw).isPlain⟩

/-- The phases of a brisk call that has not been given up. -/
def Phase.IsBrisk : Phase → Prop
  | .working work _ => work.IsBrisk
  | .paused _ _ _ => False
  | .resting _ _ => False
  | .dropped => False
  | _ => True

theorem Request.isBrisk_firstPhase (request : Request) : request.firstPhase.IsBrisk := by
  cases request <;> exact trivial

namespace Work

/-- Work that takes so many units of an allowance at most: one for each insert, delete and pause. -/
def IsWithin : Work Reply → Nat → Prop
  | done _, _ => True
  | fail _, _ => True
  | insert _ _ next, n => 0 < n ∧ ∀ credential, (next credential).IsWithin (n - 1)
  | delete _ _ next, n => 0 < n ∧ ∀ yes, (next yes).IsWithin (n - 1)
  | commit next, n => next.IsWithin n
  | rollback next, n => next.IsWithin n
  | pause _ next, n => 0 < n ∧ next.IsWithin (n - 1)

variable {work : Work Reply} {m n : Nat}

theorem IsWithin.mono (h : work.IsWithin m) (hle : m ≤ n) : work.IsWithin n := by
  induction work generalizing m n with
  | done | fail => exact trivial
  | insert owner material next ih =>
    exact ⟨Nat.lt_of_lt_of_le h.1 hle, fun c => ih c (h.2 c) (Nat.sub_le_sub_right hle 1)⟩
  | delete owner key next ih =>
    exact ⟨Nat.lt_of_lt_of_le h.1 hle, fun yes => ih yes (h.2 yes) (Nat.sub_le_sub_right hle 1)⟩
  | commit next ih | rollback next ih => exact ih h hle
  | pause duration next ih =>
    exact ⟨Nat.lt_of_lt_of_le h.1 hle, ih h.2 (Nat.sub_le_sub_right hle 1)⟩

/-- What is left of a work takes no more than all of it. -/
theorem Reached.isWithin {plans : FailurePlan → Prop} {table : Table} {rest : Work Reply}
    {handle : Handle} (h : Reached plans work table rest handle) (hw : work.IsWithin n) :
    rest.IsWithin n := by
  induction h with
  | opened => exact hw
  | insert _ _ _ ih => exact (ih.2 _).mono (Nat.sub_le n 1)
  | delete _ _ _ ih => exact (ih.2 _).mono (Nat.sub_le n 1)
  | fault => exact trivial
  | pause _ ih => exact ih.2.mono (Nat.sub_le n 1)

end Work

namespace Vault

variable {plan : FailurePlan} {v w : Vault} {i left : Nat} {call : Call} {e : Effect}

/-! ### What a step does not do -/

/-- **No step reports that a time is used up.** -/
theorem step_news (v : Vault) (i : Nat) :
    ∃ news, (v.step i).log = v.log ++ news ∧
      ∀ operation limit, .timedOut operation limit ∉ news := by
  have silent {w : Vault} (h : w.log = v.log) : ∃ news, w.log = v.log ++ news ∧
      ∀ operation limit, .timedOut operation limit ∉ news :=
    ⟨[], by rw [h, List.append_nil], by simp⟩
  have audit (request : Request) (reply : Reply) (operation : String) (limit : Span) :
      .timedOut operation limit ∉ request.audit reply := by
    unfold Request.audit
    split <;> simp
  rw [step]
  split
  · exact silent rfl
  · rename_i call hc
    split
    · rw [check]
      split <;> exact silent rfl
    · exact silent rfl
    · split
      · cases call.request with
        | list | count | lease => exact silent rfl
        | stamp key moment =>
          dsimp only [enter, Request.work?]
          split <;> exact silent rfl
        | _ => exact ⟨[.transactionOpened _], rfl, by simp⟩
      · exact silent rfl
    · unfold workStep
      split
      · split
        · exact silent rfl
        · rw [succeed]
          split
          · exact ⟨_ :: call.request.audit _, List.append_assoc .., by simp [audit]⟩
          · exact silent rfl
      · split
        · exact silent rfl
        · rw [giveUp]
          split
          · exact ⟨[.rollingBack _ _], rfl, by simp⟩
          · exact ⟨[.rollingBack _ _, .rollbackFailed _ _], List.append_assoc .., by simp⟩
      · split <;> exact silent rfl
      · split
        · exact ⟨[.deleteStaged _], rfl, by simp⟩
        · exact silent rfl
        · exact silent rfl
      · split <;> exact silent rfl
      · split <;> exact silent rfl
      · exact silent rfl
    · split <;> exact silent rfl
    · exact silent rfl

/-- **A step is nothing, or a deed** that neither reports that a time is used up nor drops the call.
-/
theorem step_eq_or_deed_of_brisk (hc : v.calls[i]? = some call) (hp : call.phase ≠ .dropped) :
    v.step i = v ∨ ∃ e, v.step i = v.amend i e ∧ v.Deed i call e ∧ e.phase ≠ .dropped ∧
      ∀ operation limit, .timedOut operation limit ∉ e.news := by
  rcases step_eq_or_deed hc with he | ⟨e, he, hd⟩
  · exact Or.inl he
  · refine Or.inr ⟨e, he, hd, ?_, ?_⟩
    · have hkept := phase?_step_ne (v := v) (i := i) (by simpa [phase?_eq hc] using hp)
      rw [he, phase?_eq (amend_calls_self hc e)] at hkept
      simpa using hkept
    · obtain ⟨news, hlog, hnews⟩ := step_news v i
      rw [he] at hlog
      obtain rfl := List.append_cancel_left hlog
      exact hnews

/-! ### In the course of a turn -/

/-- **Where a brisk call stands** in the course of a turn of its own that began with some vault. -/
structure Served (plan : FailurePlan) (i : Nat) (v : Vault) (call : Call) (w : Vault) : Prop where
  orderly : w.Orderly (· = plan)
  attended : w.Attended
  now : w.now = v.now
  here : w.calls[i]? = some call
  brisk : call.phase.IsBrisk
  /-- The call leaves the table alone up to its end. -/
  table (hl : call.isLive = true) : w.table = v.table
  /-- What it is answered in the end is what its request comes to. -/
  answer {answer : Except Failure Reply} (hp : call.phase = .answered answer) :
    call.request.perform plan v.table = (answer, w.table)
  /-- It has done nothing to the lock before it asks for it. -/
  lock (hp : call.phase.way ≤ 1) : w.lock = v.lock
  /-- If it waits, it has the table, or somebody else has had it from the beginning. -/
  waits (hp : call.phase = .waiting) (hne : w.lock.holder ≠ some i) :
    ∃ j, j ≠ i ∧ v.lock.holder = some j ∧ w.lock.holder = some j

/-- Whoever waits for a table that they have not been given waits for somebody else. -/
theorem Attended.exists_holder (ha : v.Attended) (hc : v.calls[i]? = some call)
    (hp : call.phase = .waiting) (hne : v.lock.holder ≠ some i) :
    ∃ j, j ≠ i ∧ v.lock.holder = some j := by
  have hline : i ∈ v.lock.line := by
    rw [ha.mem_line, claims_eq hc, hp]
    rfl
  have hqueue := (Lock.mem_line.mp hline).resolve_left hne
  cases hl : v.lock.holder with
  | none =>
    rw [ha.sound.idle hl] at hqueue
    cases hqueue
  | some j => exact ⟨j, fun hj => hne (hj ▸ hl), rfl⟩

/-- A turn begins. -/
theorem served_self (hv : v.Orderly (· = plan)) (ha : v.Attended) (hc : v.calls[i]? = some call)
    (hp : call.phase.IsBrisk) (hl : call.isLive = true) : v.Served plan i call v where
  orderly := hv
  attended := ha
  now := rfl
  here := hc
  brisk := hp
  table _ := rfl
  answer hp' := by simp [Call.isLive, hp'] at hl
  lock _ := rfl
  waits hp' hne := by
    obtain ⟨j, hj, hh⟩ := ha.exists_holder hc hp' hne
    exact ⟨j, hj, hh, hh⟩

/-- After a deed of a brisk call it is in the phase of one, unless it is dropped. -/
theorem Deed.isBrisk (hd : v.Deed i call e) (hb : call.request.IsBrisk) (hp : call.phase.IsBrisk)
    (hdrop : e.phase ≠ .dropped) : e.phase.IsBrisk := by
  cases hd with
  | begin hp' hl hw => exact hb.2 _ hw
  | insert hp' hi | delete hp' hi =>
    rw [hp'] at hp
    exact hp _
  | pause hp' | commit hp' | rollback hp' | wake hp' | resume hp' =>
    rw [hp'] at hp
    exact hp.elim
  | grant _ _ hr | rest _ hr | interrupt hr => exact absurd hr hb.1
  | drop => exact absurd rfl hdrop
  | _ => exact trivial

/-- **A step of the call.** -/
theorem Served.amend (h : v.Served plan i call w) (hb : call.request.IsBrisk)
    (hd : w.Deed i call e) (hdrop : e.phase ≠ .dropped)
    (hnews : ∀ operation limit, .timedOut operation limit ∉ e.news) :
    v.Served plan i { call with phase := e.phase } (w.amend i e) where
  orderly := h.orderly.amend h.here hd
  attended := h.attended.amend h.here hd
  now := h.now
  here := amend_calls_self h.here e
  brisk := hd.isBrisk hb h.brisk hdrop
  table hl := by
    have hkept := hd.keeps h.orderly h.here hb.isPlain fun answer hp => by
      simp [Call.isLive, hp] at hl
    exact hkept.trans (h.table hd.isLive)
  answer hp := by
    rcases hd.performs h.orderly h.here hb.isPlain hp with hperform | ⟨-, -, limit, hlate⟩
    · rwa [h.table hd.isLive] at hperform
    · exact absurd hlate (hnews _ limit)
  lock hp := by
    dsimp only at hp
    cases hd with
    | pass hp' => exact h.lock (by rw [hp']; exact Nat.zero_le 1)
    | drop => exact absurd rfl hdrop
    | _ => simp [Phase.way] at hp
  waits hp hne := by
    dsimp only at hp
    cases hd with
    | ask hp' =>
      have hlock := h.lock (by rw [hp']; exact Nat.le_refl 1)
      -- whoever is about to ask has no claim to the table
      have hno : w.lock.holder ≠ some i := fun hi => by
        have hline := Lock.mem_line.mpr (Or.inl hi)
        rw [h.attended.mem_line, claims_eq h.here, hp'] at hline
        cases hline
      cases hl : w.lock.holder with
      | none => exact absurd (by simp [Vault.amend, Lock.request, hl]) hne
      | some j =>
        refine ⟨j, fun hj => hno (hj ▸ hl), by rw [← hlock, hl], ?_⟩
        exact Lock.holder_request hl
    | _ => simp at hp

/-- **As far as the call can go.** -/
theorem served_drain (hv : v.Orderly (· = plan)) (ha : v.Attended) (hc : v.calls[i]? = some call)
    (hb : call.request.IsBrisk) (hp : call.phase.IsBrisk) (hl : call.isLive = true) (left : Nat) :
    ∃ phase, v.Served plan i { call with phase := phase } (drain i (left, v)).2 := by
  refine drain_induction (P := fun w => ∃ phase, v.Served plan i { call with phase := phase } w) ?_
    left ⟨call.phase, served_self hv ha hc hp hl⟩
  rintro w ⟨phase, h⟩
  have hne : phase ≠ .dropped := by
    rintro rfl
    exact h.brisk
  rcases step_eq_or_deed_of_brisk h.here hne with he | ⟨e, he, hd, hdrop, hnews⟩
  · rw [he]
    exact ⟨phase, h⟩
  · rw [he]
    exact ⟨e.phase, h.amend hb hd hdrop hnews⟩

/-! ### What a turn takes of the allowance -/

theorem le_stage (i : Nat) (kind : Vault → Phase → Bool) (price : Nat) (t : Turn) :
    t.1 ≤ (stage i kind price t).1 + price := by
  rw [stage]
  split
  · dsimp only
    omega
  · exact Nat.le_add_right t.1 price

theorem le_carry {work : Work Reply} {n : Nat} (h : work.IsWithin n) (handle : Handle)
    (left : Nat) (v : Vault) : left ≤ (carry i work handle (left, v)).1 + n := by
  have hafter (handle : Handle) (left : Nat) : left ≤ afterStaging handle left + 1 := by
    rw [afterStaging]
    split <;> omega
  induction work generalizing handle left v n with
  | done | fail => exact Nat.le_add_right left n
  | insert owner material next ih =>
    obtain ⟨hpos, hnext⟩ := h
    have hunit := hafter handle left
    rw [carry]
    split
    · split
      · rename_i credential staged _
        have hrest := ih credential (hnext credential) staged (afterStaging handle left) (v.step i)
        omega
      · dsimp only
        omega
    · exact Nat.le_add_right left n
  | delete owner key next ih =>
    obtain ⟨hpos, hnext⟩ := h
    have hunit := hafter handle left
    rw [carry]
    split
    · split
      · rename_i row staged _
        have hrest := ih row.isSome (hnext row.isSome) staged (afterStaging handle left) (v.step i)
        omega
      · dsimp only
        omega
    · exact Nat.le_add_right left n
  | commit next ih | rollback next ih =>
    rw [carry]
    split
    · exact ih h _ _ _
    · exact Nat.le_add_right left n
  | pause duration next ih =>
    obtain ⟨hpos, hnext⟩ := h
    rw [carry]
    split
    · have hrest := ih hnext handle (left - 1) ((v.step i).step i)
      omega
    · exact Nat.le_add_right left n

/-- **What a call takes of the allowance**: as much as its work does, and one unit each to look
whether it is to fail, to be given the table, and to end a pause. -/
theorem le_drain {plans : FailurePlan → Prop} {n : Nat} (hv : v.Orderly plans)
    (hc : v.calls[i]? = some call) (hr : call.request.IsPlain)
    (hw : ∀ work, call.request.work? = some work → work.IsWithin n) (left : Nat) :
    left ≤ (drain i (left, v)).1 + (n + 3) := by
  -- the call is the same one all the time, and the vault is in order
  have step (w : Vault) (h : w.Orderly plans ∧ ∃ phase,
      w.calls[i]? = some { call with phase := phase }) : (w.step i).Orderly plans ∧ ∃ phase,
      (w.step i).calls[i]? = some { call with phase := phase } := by
    obtain ⟨hw, phase, hp⟩ := h
    rcases step_eq_or_deed hp with he | ⟨e, he, hd⟩
    · rw [he]
      exact ⟨hw, phase, hp⟩
    · rw [he]
      exact ⟨hw.amend hp hd, e.phase, amend_calls_self hp e⟩
  rw [drain]
  have h₁ := le_stage i checks 1 (left, v)
  have p₁ := stage_induction step checks 1 (t := (left, v)) ⟨hv, call.phase, hc⟩
  generalize stage i checks 1 (left, v) = t₁ at *
  have h₂ := le_stage i asks 0 t₁
  have p₂ := stage_induction step asks 0 p₁
  generalize stage i asks 0 t₁ = t₂ at *
  have h₃ := le_stage i (isAdmitted i) 1 t₂
  have p₃ := stage_induction step (isAdmitted i) 1 p₂
  generalize stage i (isAdmitted i) 1 t₂ = t₃ at *
  have h₄ := le_stage i wakes 1 t₃
  obtain ⟨hv₄, phase, hc₄⟩ := stage_induction step wakes 1 p₃
  generalize stage i wakes 1 t₃ = t₄ at *
  have h₅ : t₄.1 ≤ (proceed i t₄).1 + n := by
    rw [proceed, phase?_eq hc₄]
    split
    · rename_i work handle hp
      obtain rfl := Option.some.inj hp
      obtain ⟨-, -, whole, hwhole, hreached⟩ := hv₄.inside hc₄ hr rfl
      exact le_carry (hreached.isWithin (hw whole hwhole)) handle t₄.1 t₄.2
    · exact Nat.le_add_right t₄.1 n
  dsimp only at h₁
  omega

/-- Who finds nothing of the allowance leaves nothing of it. -/
theorem poll_zero (v : Vault) (i : Nat) : (v.poll i 0).1 = 0 := by
  have hrest : (drain i (0, v)).1 ≤ 0 := by
    rw [drain]
    refine Nat.le_trans (proceed_le i _) (Nat.le_trans (stage_le i wakes 1 _) ?_)
    refine Nat.le_trans (stage_le i (isAdmitted i) 1 _) (Nat.le_trans (stage_le i asks 0 _) ?_)
    exact stage_le i checks 1 (0, v)
  rw [poll_eq, if_neg (by simp)]
  exact Nat.le_zero.mp hrest

/-! ### The end of a turn -/

/-- **A call is stopped in a turn** whose work takes so many units: it had less of the allowance
than it may take, of which nothing is left, or it waits for a table that somebody else held before
the turn and still holds. -/
def Stopped (n i left : Nat) (v : Vault) (after : Turn) : Prop :=
  (left ≤ n + 3 ∧ after.1 = 0) ∨
    ∃ j, j ≠ i ∧ v.lock.holder = some j ∧ after.2.lock.holder = some j

/-- **What a turn of a brisk call comes to**, which began with some vault and something left of the
allowance: the phase in which it leaves the call. -/
inductive Outcome (plan : FailurePlan) (call : Call) (n i left : Nat) (v : Vault) (after : Turn) :
    Phase → Prop
  /-- It goes on, since it has been stopped and has time left, or since there was no turn at all. -/
  | goesOn {phase : Phase} (hb : phase.IsBrisk)
      (hr : Call.isRunning { call with phase := phase } = true)
      (table : after.2.table = v.table) (stopped : Stopped n i left v after)
      (time : left = 0 ∨ call.isDue v.now = false) : Outcome plan call n i left v after phase
  /-- It is answered what its request comes to. -/
  | served {answer : Except Failure Reply}
      (h : call.request.perform plan v.table = (answer, after.2.table)) :
    Outcome plan call n i left v after (.answered answer)
  /-- It has been stopped, and its time is used up. -/
  | cancelled (table : after.2.table = v.table) (stopped : Stopped n i left v after)
      (due : call.isDue v.now = true)
      (passed : ∀ owner, call.request = .list owner → plan.list = false) :
    Outcome plan call n i left v after (.answered (.error (.cancelled call.request.operation)))

/-- **Whoever has had a turn** in which there was something left has looked whether they are to
fail. -/
theorem one_le_way_drain (hc : v.calls[i]? = some call) (hleft : 0 < left) :
    ∃ phase, (drain i (left, v)).2.calls[i]? = some { call with phase := phase } ∧
      1 ≤ phase.way := by
  have deed {w : Vault} {other : Call} {e : Effect} (hw : w.calls[i]? = some other)
      (hd : w.Deed i other e) (ho : ∃ phase, other = { call with phase := phase }) :
      ∃ phase, (w.amend i e).calls[i]? = some { call with phase := phase } ∧ 1 ≤ phase.way := by
    obtain ⟨phase, rfl⟩ := ho
    have hway := hd.way
    exact ⟨e.phase, amend_calls_self hw e, by omega⟩
  have step (w : Vault)
      (hw : ∃ phase, w.calls[i]? = some { call with phase := phase } ∧ 1 ≤ phase.way) :
      ∃ phase, (w.step i).calls[i]? = some { call with phase := phase } ∧ 1 ≤ phase.way := by
    obtain ⟨phase, hp, hway⟩ := hw
    rcases step_eq_or_deed hp with he | ⟨e, he, hd⟩
    · rw [he]
      exact ⟨phase, hp, hway⟩
    · rw [he]
      exact deed hp hd ⟨phase, rfl⟩
  cases hp : call.phase with
  | checking =>
    have hcan : v.canStep i = true := by
      rw [canStep_eq hc, hp]
      rfl
    refine drain_induction_of_canStep step hcan hleft ?_
    obtain ⟨e, he, hd⟩ := step_deed hc hcan
    rw [he]
    exact deed hc hd ⟨call.phase, rfl⟩
  | _ => exact drain_induction step left ⟨call.phase, hc, by simp [hp, Phase.way]⟩

/-- **Whoever is not through has been stopped**, as far as they have gone. -/
theorem Served.stopped {phase : Phase} {n : Nat}
    (h : v.Served plan i { call with phase := phase } (drain i (left, v)).2)
    (hc : v.calls[i]? = some call) (hunits : left ≤ (drain i (left, v)).1 + (n + 3))
    (hr : Call.isRunning { call with phase := phase } = true) :
    Stopped n i left v (drain i (left, v)) := by
  rcases Nat.eq_zero_or_pos (drain i (left, v)).1 with hnone | hrest
  · exact Or.inl ⟨by omega, hnone⟩
  rcases heldUp_of_canStep h.here (canStep_drain hc hrest) hr with ⟨hwait, hne⟩ | hpause
  · exact Or.inr (h.waits hwait hne)
  · obtain ⟨wake, work, handle, rfl, -⟩ := hpause
    exact h.brisk.elim

/-- **A list that is on its way after a turn** is not to fail: it is past the beginning, and no work
is done for it. -/
theorem Served.list_eq_false {phase : Phase} {owner : UserId}
    (h : v.Served plan i { call with phase := phase } (drain i (left, v)).2)
    (hc : v.calls[i]? = some call) (hleft : 0 < left)
    (hr : Call.isRunning { call with phase := phase } = true) (hlist : call.request = .list owner) :
    plan.list = false := by
  obtain ⟨phase', hp', hway⟩ := one_le_way_drain hc hleft
  obtain rfl : phase = phase' := (Call.mk.inj (Option.some.inj (h.here.symm.trans hp'))).2.2.2
  have hasks : phase = .asking ∨ phase = .waiting := by
    have hbrisk := h.brisk
    cases phase with
    | asking => exact Or.inl rfl
    | waiting => exact Or.inr rfl
    | working work handle =>
      rcases h.orderly.works h.here rfl with hlease | ⟨work', hw⟩
      · exact absurd (hlist.symm.trans hlease) (by simp)
      · simp [hlist, Request.work?] at hw
    | checking => simp [Phase.way] at hway
    | paused => exact hbrisk.elim
    | _ => simp [Call.isRunning] at hr
  obtain ⟨_, rfl, hf⟩ := h.orderly.passes h.here hlist hasks
  exact hf

/-- **A turn of a brisk call** has one of three outcomes. -/
theorem exists_outcome (hv : v.Orderly (· = plan)) (ha : v.Attended) (hc : v.calls[i]? = some call)
    (hb : call.request.IsBrisk) {n : Nat}
    (hn : ∀ work, call.request.work? = some work → work.IsWithin n) (hp : call.phase.IsBrisk)
    (hl : call.isLive = true) (left : Nat) :
    ∃ phase, (v.poll i left).2.calls[i]? = some { call with phase := phase } ∧
      Outcome plan call n i left v (v.poll i left) phase := by
  obtain ⟨phase, h⟩ := served_drain hv ha hc hb hp hl left
  have hunits := le_drain hv hc hb.isPlain hn left
  by_cases hout : RunsOut i (left, v)
  · obtain ⟨hleft, hover⟩ := hout
    obtain ⟨hr, hdue, limit, hlimit⟩ := exists_limit h.here hover
    have hend := expire_eq_amend h.here hlimit hover
    have hpoll : v.poll i left =
        ((drain i (left, v)).1 - 1, (drain i (left, v)).2.expire i) := by
      rw [poll_eq, if_pos (by simp [hleft, hover])]
    have hcancelled := amend_calls_self h.here
      ⟨.answered (.error (.cancelled call.request.operation)), (drain i (left, v)).2.lock.leave i,
        (drain i (left, v)).2.table, [.timedOut call.request.operation limit]⟩
    rw [hpoll, hend]
    refine ⟨_, hcancelled, .cancelled (h.table (Call.isLive_of_isRunning hr)) ?_ ?_ fun _ =>
      h.list_eq_false hc hleft hr⟩
    · rcases h.stopped hc hunits hr with ⟨hfew, hnone⟩ | ⟨j, hj, hbefore, hafter⟩
      · exact Or.inl ⟨hfew, by rw [hnone]⟩
      · exact Or.inr ⟨j, hj, hbefore, Lock.holder_leave_of_ne hafter hj⟩
    · rwa [h.now] at hdue
  · rw [poll_eq_drain hout]
    refine ⟨phase, h.here, ?_⟩
    by_cases hr : Call.isRunning { call with phase := phase } = true
    · refine .goesOn h.brisk hr (h.table (Call.isLive_of_isRunning hr)) (h.stopped hc hunits hr) ?_
      by_contra hno
      push Not at hno
      obtain ⟨hleft, hdue⟩ := hno
      refine hout ⟨Nat.pos_of_ne_zero hleft, ?_⟩
      rw [isOverdue, h.here, Option.any_some, hr, h.now, Bool.true_and]
      exact (Bool.not_eq_false _).mp hdue
    · have hbrisk := h.brisk
      cases phase with
      | answered answer => exact .served (h.answer rfl)
      | resting | dropped => exact hbrisk.elim
      | _ => simp [Call.isRunning] at hr

/-- **A list that is to fail never asks for the table.** -/
theorem lock_poll_of_list {owner : UserId} (hv : v.Orderly (· = plan)) (ha : v.Attended)
    (hc : v.calls[i]? = some call) (hr : call.request = .list owner) (hplan : plan.list = true)
    (left : Nat) : (v.poll i left).2.lock = v.lock := by
  -- the call has no claim to the table, so what it does to the lock comes to nothing
  have hkept : ∃ phase, (v.poll i left).2.calls[i]? = some { call with phase := phase } ∧
      (v.poll i left).2.Orderly (· = plan) ∧ (v.poll i left).2.Attended ∧
        (v.poll i left).2.lock = v.lock := by
    refine poll_induction_of_deed (P := fun w => ∃ phase,
      w.calls[i]? = some { call with phase := phase } ∧ w.Orderly (· = plan) ∧ w.Attended ∧
        w.lock = v.lock) ?_ left ⟨call.phase, hc, hv, ha, rfl⟩
    rintro w other e ⟨phase, hp, hw, hattended, hlock⟩ hother hd
    obtain rfl := Option.some.inj (hp.symm.trans hother)
    refine ⟨e.phase, amend_calls_self hother e, hw.amend hother hd, hattended.amend hother hd, ?_⟩
    have hno : phase ≠ .asking ∧ phase ≠ .waiting := by
      constructor <;> rintro rfl <;>
        (obtain ⟨_, rfl, hf⟩ := hw.passes hother hr (by simp)
         exact absurd hf (by simp [hplan]))
    refine Eq.trans ?_ hlock
    rcases hd.lock_cases with ⟨hl, -⟩ | ⟨-, hasks, -⟩ | ⟨hl, -⟩
    · exact hl
    · exact absurd hasks hno.1
    · refine hl.trans (Lock.leave_of_notMem ?_)
      rw [hattended.mem_line, claims_eq hother]
      cases phase with
      | waiting => exact absurd rfl hno.2
      | working work handle | paused wake work handle =>
        rcases hw.works hother rfl with hlease | ⟨work', hw⟩
        · exact absurd (hr.symm.trans hlease) (by simp)
        · simp [hr, Request.work?] at hw
      | resting answer handle =>
        have hlease := hw.rests hother (Eq.refl (Phase.resting answer handle))
        exact absurd (hr.symm.trans hlease) (by simp)
      | _ => simp [Phase.claims, Phase.handle?]
  obtain ⟨-, -, -, -, h⟩ := hkept
  exact h

end Vault

end KeyLifecycle
