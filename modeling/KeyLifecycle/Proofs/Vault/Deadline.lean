import KeyLifecycle.Proofs.Vault.Serial
import KeyLifecycle.Proofs.Vault.Stalling

/-!
# Deadlines

Time passes while all wait, and stops at the next moment at which something happens to one of them
(`Vault.advance`). So no deadline is missed: whoever is not through is cancelled *at* the deadline
and not after it, and a pause ends when it is to end (`Vault.OnTime`). What is left to say is who is
cancelled. A turn in which a call runs out of time (`Vault.RunsOut`) leaves it three ways to be
where it is (`KeyLifecycle.Vault.RunsOut.cases`):

* it waits for the table, which somebody else has;
* it pauses in its work, until a moment after the deadline;
* nothing is left of the allowance, which has stopped it.

The first two are those of a call that has to wait. A call that has the table and whose work ends by
a moment, whatever it is answered (`Work.EndsBy`), never comes into them before that moment
(`Vault.InTime`): its pauses are the only thing it waits for, and they are over in time. The third
is the runtime's, and has nothing to do with waiting.
-/

namespace KeyLifecycle

/-! ### Work that ends by a moment -/

/-- **Work in a transaction is through by a moment**, if it goes on at another one: its pauses, on
the way that its answers lead it, are over by then. What an insert or a delete comes to depends on
the transaction, and on which operations are to fail. -/
def Work.EndsBy (plans : FailurePlan → Prop) (moment : Nat) : Work Reply → Handle → Nat → Prop
  | .done _, _, now => now ≤ moment
  | .fail _, _, now => now ≤ moment
  | .insert owner material next, handle, now => ∀ plan, plans plan →
    match handle.insert plan owner material with
    | .ok (credential, staged) => (next credential).EndsBy plans moment staged now
    | .error _ => now ≤ moment
  | .delete owner key next, handle, now => ∀ plan, plans plan →
    match handle.delete plan owner key with
    | .ok (row, staged) => (next row.isSome).EndsBy plans moment staged now
    | .error _ => now ≤ moment
  | .commit next, handle, now =>
    match handle.commit with
    | .ok (_, finished) => next.EndsBy plans moment finished now
    | .error _ => now ≤ moment
  | .rollback next, handle, now =>
    match handle.rollback with
    | .ok finished => next.EndsBy plans moment finished now
    | .error _ => now ≤ moment
  | .pause duration next, handle, now => next.EndsBy plans moment handle (now + duration)

/-- Work that ends by a moment goes on no later than at that moment. -/
theorem Work.EndsBy.le {plans : FailurePlan → Prop} {moment now : Nat} {work : Work Reply}
    {handle : Handle} {plan : FailurePlan} (h : work.EndsBy plans moment handle now)
    (hp : plans plan) : now ≤ moment := by
  induction work generalizing handle now with
  | done | fail => exact h
  | insert owner material next ih =>
    have hone := h plan hp
    split at hone
    · exact ih _ hone
    · exact hone
  | delete owner key next ih =>
    have hone := h plan hp
    split at hone
    · exact ih _ hone
    · exact hone
  | commit next ih | rollback next ih =>
    rw [EndsBy] at h
    split at h
    · exact ih h
    · exact h
  | pause duration next ih => exact Nat.le_trans (Nat.le_add_right now duration) (ih h)

namespace Vault

variable {plans : FailurePlan → Prop} {v : Vault} {i j moment left : Nat} {call other : Call}
  {e : Effect} {limit : Span}

/-! ### The passing of time -/

/-- **The passing of time**: nothing, or the clock moves while nobody is ready, and no further than
to the next moment of anybody. -/
theorem advance_cases (v : Vault) (moment : Nat) :
    v.advance moment = v ∨ (v.advance moment = { v with now := moment } ∧ v.now ≤ moment ∧
      ∀ i call, v.calls[i]? = some call → v.isReady i call = false ∧
        ∀ next, call.next? = some next → moment ≤ next) := by
  rw [advance]
  split
  · rename_i h
    rw [Bool.and_eq_true, Bool.and_eq_true, decide_eq_true_eq] at h
    obtain ⟨⟨hquiet, hnow⟩, hnext⟩ := h
    refine Or.inr ⟨rfl, hnow, fun i call hc => ⟨?_, fun next hn => ?_⟩⟩
    · have hmem : (call, i) ∈ v.calls.zipIdx := by
        rw [List.mem_zipIdx_iff_getElem?]
        exact hc
      simpa using List.all_eq_true.mp hquiet _ hmem
    · have hmem : next ∈ v.calls.filterMap Call.next? :=
        List.mem_filterMap.mpr ⟨call, List.mem_of_getElem? hc, hn⟩
      cases hmin : v.next? with
      | none =>
        rw [next?, List.min?_eq_none_iff] at hmin
        simp [hmin] at hmem
      | some first =>
        rw [hmin, Option.all_some, decide_eq_true_eq] at hnext
        exact Nat.le_trans hnext ((List.min?_eq_some_iff.mp hmin).2 next hmem)
  · exact Or.inl rfl

theorem calls_advance (v : Vault) (moment : Nat) : (v.advance moment).calls = v.calls := by
  rcases v.advance_cases moment with h | ⟨h, -⟩ <;> rw [h]

/-- The next moment of whoever is not ready is still to come. -/
theorem lt_next {next : Nat} (hready : v.isReady i call = false) (hn : call.next? = some next) :
    v.now < next := by
  have hdue {moment : Nat} (h : call.isDue v.now = false) (hd : call.deadline? = some moment) :
      v.now < moment := by
    simpa [Call.isDue, hd] using h
  cases hp : call.phase with
  | waiting =>
    rw [Call.next?, hp] at hn
    rw [isReady, hp, Bool.or_eq_false_iff] at hready
    exact hdue hready.2 hn
  | paused wake work handle =>
    rw [Call.next?, hp] at hn
    rw [isReady, hp, Bool.or_eq_false_iff, decide_eq_false_iff_not] at hready
    cases hd : call.deadline? with
    | none =>
      obtain rfl : wake = next := by simpa [hd] using hn
      omega
    | some deadline =>
      obtain rfl : min wake deadline = next := by simpa [hd] using hn
      have hlt := hdue hready.2 hd
      omega
  | working => simp [isReady, hp] at hready
  | _ => simp [Call.next?, hp] at hn

/-- Whoever is on their way with a limit, and is neither ready nor rests, has a next moment. -/
theorem exists_next (hc : v.calls[i]? = some call) (hready : v.isReady i call = false)
    (hd : call.limit = some limit) (hlive : call.isLive = true)
    (hr : ∀ answer handle, call.phase ≠ .resting answer handle) : ∃ next, v.next? = some next := by
  obtain ⟨next, hn⟩ : ∃ next, call.next? = some next := by
    cases hp : call.phase with
    | waiting => exact ⟨_, by rw [Call.next?, hp]; dsimp only; rw [Call.deadline?, hd]; rfl⟩
    | paused wake work handle => exact ⟨_, by rw [Call.next?, hp]⟩
    | checking | asking | working => simp [isReady, hp] at hready
    | resting answer handle => exact absurd hp (hr answer handle)
    | answered | dropped => simp [Call.isLive, hp] at hlive
  cases hmin : v.next? with
  | some first => exact ⟨first, rfl⟩
  | none =>
    rw [next?, List.min?_eq_none_iff] at hmin
    have hmem : next ∈ v.calls.filterMap Call.next? :=
      List.mem_filterMap.mpr ⟨call, List.mem_of_getElem? hc, hn⟩
    simp [hmin] at hmem

/-- **If nobody is ready, time passes up to the next moment of anybody**, which is still to come. -/
theorem advance_next (hquiet : ∀ i call, v.calls[i]? = some call → v.isReady i call = false)
    {next : Nat} (hn : v.next? = some next) :
    v.now < next ∧ v.advance next = { v with now := next } := by
  have hlt : v.now < next := by
    have hmem := (List.min?_eq_some_iff.mp hn).1
    obtain ⟨call, hc, hcall⟩ := List.mem_filterMap.mp hmem
    obtain ⟨i, hi⟩ := List.getElem?_of_mem hc
    exact lt_next (hquiet i call hi) hcall
  have hall : v.isQuiet = true := by
    refine List.all_eq_true.mpr fun (call, i) hmem => ?_
    rw [List.mem_zipIdx_iff_getElem?] at hmem
    simpa using hquiet i call hmem
  refine ⟨hlt, ?_⟩
  rw [advance, if_pos (by simp [hall, hn, Nat.le_of_lt hlt])]

/-- **A vault in which no deadline has been missed.** -/
structure OnTime (v : Vault) : Prop where
  orderly : v.Orderly fun _ => True
  /-- No call has been started in the future. -/
  begun {i : Nat} {call : Call} (hc : v.calls[i]? = some call) : call.started ≤ v.now
  /-- Whoever is on their way has not gone past their deadline, unless they are a lease. -/
  due {i : Nat} {call : Call} {limit : Span} (hc : v.calls[i]? = some call)
    (hl : call.request ≠ .lease) (hlive : call.isLive = true) (hd : call.limit = some limit) :
    v.now ≤ call.started + limit
  /-- Nobody has slept longer than they wanted. -/
  wake {i wake : Nat} {call : Call} {work : Work Reply} {handle : Handle}
    (hc : v.calls[i]? = some call) (hp : call.phase = .paused wake work handle) : v.now ≤ wake

namespace OnTime

theorem empty : Vault.empty.OnTime where
  orderly := orderly_empty
  begun h := by simp [Vault.empty] at h
  due h := by simp [Vault.empty] at h
  wake h := by simp [Vault.empty] at h

theorem start (h : v.OnTime) (request : Request) (limit : Option Span) :
    (v.start request limit).OnTime where
  orderly := h.orderly.start request limit
  begun hc := by
    rcases start_calls_cases hc with ⟨-, rfl⟩ | hc
    · exact Nat.le_refl v.now
    · exact h.begun hc
  due hc hl hlive hd := by
    rcases start_calls_cases hc with ⟨-, rfl⟩ | hc
    · exact Nat.le_add_right v.now _
    · exact h.due hc hl hlive hd
  wake hc hp := by
    rcases start_calls_cases hc with ⟨-, rfl⟩ | hc
    · cases request <;> simp [Request.firstPhase] at hp
    · exact h.wake hc hp

/-- A deed takes no time. -/
theorem amend (h : v.OnTime) (hc : v.calls[i]? = some call) (hd : v.Deed i call e) :
    (v.amend i e).OnTime where
  orderly := h.orderly.amend hc hd
  begun hc' := by
    rcases amend_calls_cases hc hc' with ⟨rfl, rfl⟩ | ⟨-, hc'⟩
    · have hbegun := h.begun hc
      exact hbegun
    · exact h.begun hc'
  due hc' hl hlive hlimit := by
    rcases amend_calls_cases hc hc' with ⟨rfl, rfl⟩ | ⟨-, hc'⟩
    · have hdue := h.due hc hl hd.isLive hlimit
      exact hdue
    · exact h.due hc' hl hlive hlimit
  wake hc' hp := by
    rcases amend_calls_cases hc hc' with ⟨rfl, rfl⟩ | ⟨-, hc'⟩
    · dsimp only at hp
      cases hd with
      | pause =>
        obtain ⟨rfl, -⟩ := Phase.paused.inj hp
        exact Nat.le_add_right v.now _
      | _ => simp at hp
    · exact h.wake hc' hp

theorem setPlan (h : v.OnTime) (plan : FailurePlan) : (v.setPlan plan).OnTime where
  orderly := show (v.run [.setPlan plan]).Orderly _ from h.orderly.run fun _ _ => trivial
  begun := h.begun
  due := h.due
  wake := h.wake

/-- **Time stops at every deadline.** Whoever is on their way waits or pauses while time passes, and
so it is one of those whose next moment is waited for. -/
theorem advance (h : v.OnTime) (moment : Nat) : (v.advance moment).OnTime := by
  rcases v.advance_cases moment with he | ⟨he, hnow, hquiet⟩
  · rwa [he]
  have horderly : (v.run [.clock moment]).Orderly _ := h.orderly.run fun _ _ => trivial
  rw [he]
  refine ⟨horderly, ?_, ?_, ?_⟩
  · exact fun hc => Nat.le_trans (h.begun hc) hnow
  · intro i call limit hc hl hlive hd
    obtain ⟨hready, hnext⟩ := hquiet i call hc
    cases hp : call.phase with
    | waiting => exact hnext _ (by simp [Call.next?, Call.deadline?, hp, hd])
    | paused wake work handle =>
      refine Nat.le_trans (hnext _ (by rw [Call.next?, hp])) ?_
      simp only [Call.deadline?, hd, Option.map_some, Option.elim_some]
      exact Nat.min_le_right _ _
    | checking | asking | working => simp [isReady, hp] at hready
    | resting => exact absurd (h.orderly.rests hc hp) hl
    | answered | dropped => simp [Call.isLive, hp] at hlive
  · intro i wake call work handle hc hp
    refine Nat.le_trans ((hquiet i call hc).2 _ (by rw [Call.next?, hp])) ?_
    cases call.deadline? with
    | none => exact Nat.le_refl wake
    | some deadline => exact Nat.min_le_left wake deadline

/-- **Whoever is overdue is so at their deadline.** -/
theorem now_eq (h : v.OnTime) (hc : v.calls[i]? = some call) (hl : call.request ≠ .lease)
    (hd : call.limit = some limit) (hover : v.isOverdue i = true) :
    v.now = call.started + limit := by
  rw [isOverdue, hc, Option.any_some, Bool.and_eq_true] at hover
  obtain ⟨hrunning, hdue⟩ := hover
  rw [Call.isDue, Call.deadline?, hd, Option.map_some, Option.any_some, decide_eq_true_eq] at hdue
  exact Nat.le_antisymm (h.due hc hl (Call.isLive_of_isRunning hrunning) hd) hdue

end OnTime

/-! ### Who runs out of time -/

/-- **A call runs out of time in a turn**: it has gone as far as it can, is not through, and its
time is used up. -/
def RunsOut (i : Nat) (t : Turn) : Prop := 0 < t.1 ∧ (drain i t).2.isOverdue i = true

/-- Whoever runs out of time is cancelled. -/
theorem RunsOut.poll_eq (h : RunsOut i (left, v)) :
    (v.poll i left).2 = (drain i (left, v)).2.expire i := by
  rw [Vault.poll_eq, if_pos (by simp [h.1, h.2])]

/-- Whoever does not run out of time has gone as far as they can, and that is all. -/
theorem poll_eq_drain (h : ¬RunsOut i (left, v)) : v.poll i left = drain i (left, v) := by
  rw [Vault.poll_eq, if_neg]
  intro hover
  rw [Bool.and_eq_true, decide_eq_true_eq] at hover
  exact h hover

/-- **Whoever is on their way and cannot take a step** waits for a table that somebody else has, or
pauses until later. -/
theorem heldUp_of_canStep (hc : v.calls[i]? = some call) (hno : v.canStep i = false)
    (hrunning : call.isRunning = true) :
    (call.phase = .waiting ∧ v.lock.holder ≠ some i) ∨
      ∃ wake work handle, call.phase = .paused wake work handle ∧ v.now < wake := by
  rw [canStep_eq hc] at hno
  cases hp : call.phase with
  | waiting =>
    rw [hp] at hno
    exact Or.inl ⟨rfl, by simpa [mayStep] using hno⟩
  | paused wake work handle =>
    rw [hp] at hno
    exact Or.inr ⟨wake, work, handle, rfl, by simpa [mayStep] using hno⟩
  | checking | asking | working => simp [hp, mayStep] at hno
  | _ => simp [Call.isRunning, hp] at hrunning

/-- A turn takes no time, and its call stays the same call. -/
theorem call_drain (hc : v.calls[i]? = some call) (left : Nat) :
    (drain i (left, v)).2.now = v.now ∧
      ∃ phase, (drain i (left, v)).2.calls[i]? = some { call with phase := phase } := by
  refine drain_induction_of_deed (P := fun w => w.now = v.now ∧
    ∃ phase, w.calls[i]? = some { call with phase := phase }) ?_ left ⟨rfl, call.phase, hc⟩
  rintro w other e ⟨hnow, phase, hp⟩ hw -
  obtain rfl := Option.some.inj (hp.symm.trans hw)
  exact ⟨hnow, e.phase, amend_calls_self hw e⟩

/-- **Whoever runs out of time** does so at their deadline, and has not come into the table yet or
is still inside of their work. They are waiting for a table that somebody else has, or in a pause
that lasts longer; or the allowance has stopped them. -/
theorem RunsOut.cases (h : RunsOut i (left, v)) (hv : v.OnTime) (hc : v.calls[i]? = some call)
    (hl : call.request ≠ .lease) (hd : call.limit = some limit) :
    v.now = call.started + limit ∧
      ∃ phase, (drain i (left, v)).2.calls[i]? = some { call with phase := phase } ∧
        (phase.way ≤ 2 ∨ ∃ work handle, phase.inside? = some (work, handle)) ∧
        ((phase = .waiting ∧ (drain i (left, v)).2.lock.holder ≠ some i) ∨
          (∃ wake work handle, phase = .paused wake work handle ∧ call.started + limit < wake) ∨
          (drain i (left, v)).1 = 0) := by
  obtain ⟨hnow, phase, hp⟩ := call_drain hc left
  have hw : (drain i (left, v)).2.OnTime :=
    drain_induction_of_deed (fun _ _ _ hw hc hd => hw.amend hc hd) left hv
  have hdeadline := hw.now_eq hp hl hd h.2
  dsimp only at hdeadline
  have hrunning : Call.isRunning { call with phase := phase } = true := by
    have hover := h.2
    rw [isOverdue, hp, Option.any_some, Bool.and_eq_true] at hover
    exact hover.1
  refine ⟨by rw [← hnow, hdeadline], phase, hp, ?_, ?_⟩
  · cases phase <;> simp_all [Phase.way, Phase.inside?, Call.isRunning]
  rcases Nat.eq_zero_or_pos (drain i (left, v)).1 with hnone | hrest
  · exact Or.inr (Or.inr hnone)
  rcases heldUp_of_canStep hp (canStep_drain hc hrest) hrunning with hwait | hpause
  · exact Or.inl hwait
  · rw [hdeadline] at hpause
    exact Or.inr (Or.inl hpause)

/-! ### Who is in time -/

/-- What a call still has to do ends by a moment, once it has the table. -/
def EndsBy (plans : FailurePlan → Prop) (moment : Nat) (v : Vault) (call : Call) : Prop :=
  match call.phase with
  | .working work handle => work.EndsBy plans moment handle v.now
  | .paused wake work handle => work.EndsBy plans moment handle wake
  | .resting _ _ => True
  | .answered _ => True
  | .dropped => True
  | _ => ∀ work, call.request.work? = some work →
    work.EndsBy plans moment (.opened v.table) v.now

/-- **A call that need not wait for the table**, and what it has to do ends by a moment. -/
structure InTime (plans : FailurePlan → Prop) (moment i : Nat) (v : Vault) (call : Call) :
    Prop where
  here : v.calls[i]? = some call
  /-- If it waits, the table has been given to it. -/
  admitted (hp : call.phase = .waiting) : v.lock.holder = some i
  /-- If it has not asked yet, nobody has the table. -/
  unrivalled (hp : call.phase = .checking ∨ call.phase = .asking) : v.lock.holder = none
  ends : v.EndsBy plans moment call

namespace InTime

/-- **Whoever is in time stays so** in all that they do. -/
theorem amend (h : v.InTime plans moment i call) (hv : v.OnTime) (hplan : plans v.plan)
    (hl : call.request ≠ .lease) (hd : v.Deed i call e) :
    (v.amend i e).InTime plans moment i { call with phase := e.phase } := by
  have hends := h.ends
  rw [EndsBy] at hends
  refine ⟨amend_calls_self h.here e, ?_, ?_, ?_⟩
  · intro hp
    cases hd with
    | ask hp' =>
      have hnone := h.unrivalled (Or.inr hp')
      simp [Vault.amend, Lock.request, hnone]
    | _ => simp at hp
  · intro hp
    cases hd with
    | pass hp' => exact h.unrivalled (Or.inl hp')
    | _ => simp at hp
  · rw [EndsBy]
    cases hd with
    | pass hp | ask hp =>
      rw [hp] at hends
      exact hends
    | begin hp _ hw =>
      rw [hp] at hends
      exact hends _ hw
    | insert hp hi =>
      rw [hp] at hends
      have hnext := hends v.plan hplan
      rw [hi] at hnext
      exact hnext
    | delete hp hi =>
      rw [hp] at hends
      have hnext := hends v.plan hplan
      rw [hi] at hnext
      exact hnext
    | fault hp hf =>
      rw [hp] at hends
      have hle := Work.EndsBy.le hends hplan
      exact hle
    | pause hp =>
      rw [hp] at hends
      exact hends
    | wake hp hm =>
      rw [hp] at hends
      dsimp only at hends
      rw [Nat.le_antisymm hm (hv.wake h.here hp)] at hends
      exact hends
    | commit hp ho =>
      rw [hp] at hends
      dsimp only at hends
      rw [Work.EndsBy, Handle.commit, if_pos ho] at hends
      exact hends
    | rollback hp ho =>
      rw [hp] at hends
      dsimp only at hends
      rw [Work.EndsBy, Handle.rollback, if_pos ho] at hends
      exact hends
    | resume hp => exact absurd (hv.orderly.rests h.here hp) hl
    | _ => trivial

/-- **Others do not make them late**, once they have asked for the table. -/
theorem others (h : v.InTime plans moment i call) (hv : v.OnTime)
    (hasked : call.phase ≠ .checking ∧ call.phase ≠ .asking) (hj : v.calls[j]? = some other)
    (hd : v.Deed j other e) (hne : i ≠ j) : (v.amend j e).InTime plans moment i call := by
  refine ⟨by rw [amend_calls_of_ne hne, h.here], fun hp => ?_, fun hp => ?_, ?_⟩
  · exact (hv.orderly.others hj hd (h.admitted hp) hne).1
  · exact absurd hp (by simp [hasked.1, hasked.2])
  · have hends := h.ends
    rw [EndsBy] at hends ⊢
    cases hp : call.phase with
    | waiting =>
      rw [hp] at hends
      rw [amend_table, (hv.orderly.others hj hd (h.admitted hp) hne).2]
      exact hends
    | checking | asking => simp [hp] at hasked
    | _ =>
      rw [hp] at hends
      exact hends

/-- New calls do not make them late. -/
theorem start (h : v.InTime plans moment i call) (request : Request) (limit : Option Span) :
    (v.start request limit).InTime plans moment i call where
  here := by
    have hi := (List.getElem?_eq_some_iff.mp h.here).1
    rw [Vault.start, List.getElem?_append_left hi, h.here]
  admitted := h.admitted
  unrivalled := h.unrivalled
  ends := h.ends

/-- **Time does not make them late**: it passes in their pauses only. -/
theorem advance (h : v.InTime plans moment i call) (later : Nat) :
    (v.advance later).InTime plans moment i call := by
  rcases v.advance_cases later with he | ⟨he, -, hquiet⟩
  · rwa [he]
  have hready := (hquiet i call h.here).1
  rw [he]
  refine ⟨h.here, h.admitted, h.unrivalled, ?_⟩
  have hends := h.ends
  rw [EndsBy] at hends ⊢
  cases hp : call.phase with
  | waiting => simp [isReady, hp, h.admitted hp] at hready
  | checking | asking | working => simp [isReady, hp] at hready
  | _ =>
    rw [hp] at hends
    exact hends

/-- At the moment by which they end, **whoever is in time and has gone as far as they can is
through**. -/
theorem hasEnded (h : v.InTime plans moment i call) (hv : v.OnTime) (hplan : plans v.plan)
    (hl : call.request ≠ .lease) (hnow : moment ≤ v.now) (hno : v.canStep i = false) :
    v.hasEnded i = true := by
  rw [hasEnded_eq h.here]
  rw [canStep_eq h.here] at hno
  have hends := h.ends
  rw [EndsBy] at hends
  cases hp : call.phase with
  | waiting => simp [hp, mayStep, h.admitted hp] at hno
  | paused wake work handle =>
    rw [hp] at hends hno
    have hle := Work.EndsBy.le hends hplan
    simp [mayStep] at hno
    omega
  | checking | asking | working => simp [hp, mayStep] at hno
  | resting => exact absurd (hv.orderly.rests h.here hp) hl
  | answered | dropped => simp [Call.isLive, hp]

/-- **Whoever is in time is through in their turn** at the moment by which they end, or nothing is
left of the allowance. -/
theorem hasEnded_drain (h : v.InTime plans moment i call) (hv : v.OnTime) (hplan : plans v.plan)
    (hl : call.request ≠ .lease) (hnow : moment ≤ v.now) (hrest : 0 < (drain i (left, v)).1) :
    (drain i (left, v)).2.hasEnded i = true := by
  have hdrain : (drain i (left, v)).2.OnTime ∧ plans (drain i (left, v)).2.plan ∧
      ∃ phase, (drain i (left, v)).2.InTime plans moment i { call with phase := phase } := by
    refine drain_induction_of_deed (P := fun w => w.OnTime ∧ plans w.plan ∧
      ∃ phase, w.InTime plans moment i { call with phase := phase }) ?_ left
      ⟨hv, hplan, call.phase, h⟩
    rintro w other e ⟨hw, hp, phase, hin⟩ hc hd
    obtain rfl := Option.some.inj (hin.here.symm.trans hc)
    exact ⟨hw.amend hc hd, hp, e.phase, hin.amend hw hp hl hd⟩
  obtain ⟨hw, hp, phase, hin⟩ := hdrain
  refine hin.hasEnded hw hp hl ?_ (canStep_drain h.here hrest)
  rw [(call_drain h.here left).1]
  exact hnow

/-- **Whoever is in time does not run out of it**, unless nothing is left of the allowance. -/
theorem drain_eq_zero (h : v.InTime plans moment i call) (hm : moment = call.started + limit)
    (hv : v.OnTime) (hplan : plans v.plan) (hl : call.request ≠ .lease)
    (hd : call.limit = some limit) (hout : RunsOut i (left, v)) : (drain i (left, v)).1 = 0 := by
  by_contra hrest
  have hnow := (hout.cases hv h.here hl hd).1
  have hended := h.hasEnded_drain hv hplan hl (Nat.le_of_eq (hm.trans hnow.symm))
    (Nat.pos_of_ne_zero hrest)
  -- whoever is through is not overdue
  obtain ⟨final, hfinal, hlive⟩ := exists_of_hasEnded hended
  have hlate := hout.2
  rw [isOverdue, hfinal, Option.any_some, Bool.and_eq_true] at hlate
  rw [Call.isLive_of_isRunning hlate.1] at hlive
  cases hlive

end InTime

end Vault

end KeyLifecycle
