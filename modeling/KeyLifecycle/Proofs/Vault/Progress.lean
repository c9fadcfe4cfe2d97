import KeyLifecycle.Proofs.Vault.Stalling
import Mathlib.Order.WellFounded

/-!
# Nobody goes on for ever

`Phase.Succeeds` is the order in which a call goes through its phases, and it is well-founded
(`KeyLifecycle.Phase.wellFounded_succeeds`). The phases before the transaction come one after the
other; inside of it, what is left of the work is a part of what was there before, or a failure, so
the proof is an induction on the work. There is no number of steps that would do instead: how much
work is left may depend on the credentials that have been issued, and there are infinitely many of
those.

Every turn leads down in this order or changes nothing
(`KeyLifecycle.Vault.poll_eq_or_advances`), and it does the former if the call is ready
(`KeyLifecycle.Vault.advances_poll`). So a call that has turns again and again is held up some time.
-/

namespace KeyLifecycle

namespace Phase

open Vault

/-- **One phase comes right after another** in the life of a call that does not rest. -/
def Succeeds (later earlier : Phase) : Prop :=
  ∃ (v : Vault) (i : Nat) (call : Call) (e : Effect), call.phase = earlier ∧
    (∀ answer handle, earlier ≠ .resting answer handle) ∧ v.Deed i call e ∧ e.phase = later

/-- Nothing comes after the end. -/
theorem AtEnd.acc {phase : Phase} (h : phase.AtEnd) : Acc Succeeds phase := by
  refine ⟨_, ?_⟩
  rintro later ⟨v, i, call, e, rfl, hr, hd, -⟩
  have hlive := hd.isLive
  cases hp : call.phase with
  | resting answer handle => exact absurd hp (hr answer handle)
  | answered | dropped => simp [Call.isLive, hp] at hlive
  | _ => simp [AtEnd, hp] at h

/-- Inside of a work nobody goes on for ever, if nobody does who is at work. -/
theorem acc_of_inside {phase : Phase} {work : Work Reply} {handle : Handle}
    (hi : phase.inside? = some (work, handle)) (h : Acc Succeeds (.working work handle)) :
    Acc Succeeds phase := by
  cases phase with
  | working work' handle' =>
    obtain ⟨rfl, rfl⟩ := Prod.mk.inj (Option.some.inj hi)
    exact h
  | paused wake work' handle' =>
    obtain ⟨rfl, rfl⟩ := Prod.mk.inj (Option.some.inj hi)
    refine ⟨_, ?_⟩
    rintro later ⟨v, i, call, e, hp, -, hd, rfl⟩
    rcases hd.of_paused hp with hend | hq
    · exact hend.acc
    · rwa [hq]
  | _ => simp [inside?] at hi

/-- **Nobody is at work for ever**, if nobody is at work for ever on what is left, or after a
failure. -/
theorem acc_working_of_rest {work : Work Reply}
    (hfail : work.outcome? = none → ∀ cause handle, Acc Succeeds (.working (.fail cause) handle))
    (hrest : ∀ rest : Work Reply, rest.IsRest work → ∀ handle, Acc Succeeds (.working rest handle))
    (handle : Handle) : Acc Succeeds (.working work handle) := by
  refine ⟨_, ?_⟩
  rintro later ⟨v, i, call, e, hp, -, hd, rfl⟩
  rcases hd.of_working hp with hend | ⟨hno, cause, hq⟩ | ⟨rest, staged, hr, hi⟩
  · exact hend.acc
  · rw [hq]
    exact hfail hno cause handle
  · exact acc_of_inside hi (hrest rest hr staged)

theorem acc_working (work : Work Reply) (handle : Handle) :
    Acc Succeeds (.working work handle) := by
  have hfail (cause : Failure) (handle : Handle) :
      Acc Succeeds (.working (.fail cause) handle) := by
    refine acc_working_of_rest (fun h => ?_) (fun rest h => ?_) handle
    · simp [Work.outcome?] at h
    · exact False.elim h
  induction work generalizing handle with
  | done reply =>
    refine acc_working_of_rest (fun _ => hfail) (fun rest h => ?_) handle
    exact False.elim h
  | fail cause => exact hfail cause handle
  | insert owner material next ih =>
    refine acc_working_of_rest (fun _ => hfail) ?_ handle
    rintro _ ⟨credential, rfl⟩
    exact ih credential
  | delete owner key next ih =>
    refine acc_working_of_rest (fun _ => hfail) ?_ handle
    rintro _ ⟨yes, rfl⟩
    exact ih yes
  | commit next ih | rollback next ih | pause duration next ih =>
    refine acc_working_of_rest (fun _ => hfail) ?_ handle
    rintro _ rfl
    exact ih

/-- **Nobody goes on for ever.** -/
theorem wellFounded_succeeds : WellFounded Succeeds := by
  have hwaiting : Acc Succeeds .waiting := by
    refine ⟨_, ?_⟩
    rintro later ⟨v, i, call, e, hp, -, hd, rfl⟩
    cases hd with
    | begin => exact acc_working _ _
    | grant | look | expire | drop => exact AtEnd.acc trivial
    | interrupt hr hp' => simp [hp, inside?] at hp'
    | _ => simp_all
  have hasking : Acc Succeeds .asking := by
    refine ⟨_, ?_⟩
    rintro later ⟨v, i, call, e, hp, -, hd, rfl⟩
    cases hd with
    | ask => exact hwaiting
    | expire | drop => exact AtEnd.acc trivial
    | interrupt hr hp' => simp [hp, inside?] at hp'
    | _ => simp_all
  refine ⟨fun phase => ?_⟩
  cases phase with
  | checking =>
    refine ⟨_, ?_⟩
    rintro later ⟨v, i, call, e, hp, -, hd, rfl⟩
    cases hd with
    | pass => exact hasking
    | refuse | expire | drop => exact AtEnd.acc trivial
    | interrupt hr hp' => simp [hp, inside?] at hp'
    | _ => simp_all
  | asking => exact hasking
  | waiting => exact hwaiting
  | working work handle => exact acc_working work handle
  | paused wake work handle => exact acc_of_inside rfl (acc_working work handle)
  | _ => exact AtEnd.acc trivial

end Phase

namespace Vault

variable {u v w : Vault} {i left : Nat} {call : Call} {e : Effect}

/-- **A call has gone on** from one vault to another: it is in a later phase, and otherwise as it
was. -/
def Advances (i : Nat) (v w : Vault) : Prop :=
  ∃ call phase, v.calls[i]? = some call ∧ w.calls[i]? = some { call with phase := phase } ∧
    Relation.TransGen Phase.Succeeds phase call.phase

theorem Advances.trans (h : u.Advances i v) (h' : v.Advances i w) : u.Advances i w := by
  obtain ⟨call, phase, hu, hv, hlong⟩ := h
  obtain ⟨call', phase', hv', hw, hlong'⟩ := h'
  obtain rfl := Option.some.inj (hv.symm.trans hv')
  exact ⟨call, phase', hu, hw, hlong'.trans hlong⟩

/-- Nobody goes on and is where they were. -/
theorem Advances.ne (h : v.Advances i w) : v.calls[i]? ≠ w.calls[i]? := by
  obtain ⟨call, phase, hv, hw, hlong⟩ := h
  rw [hv, hw]
  intro he
  have hphase : call.phase = phase := congrArg Call.phase (Option.some.inj he)
  rw [hphase] at hlong
  exact Phase.wellFounded_succeeds.transGen.irrefl.irrefl _ hlong

/-- A deed of a call that does not rest lets it go on. -/
theorem Deed.advances (hd : v.Deed i call e) (hc : v.calls[i]? = some call)
    (hr : ∀ answer handle, call.phase ≠ .resting answer handle) : v.Advances i (v.amend i e) :=
  ⟨call, e.phase, hc, amend_calls_self hc e, .single ⟨v, i, call, e, rfl, hr, hd, rfl⟩⟩

theorem step_eq_or_advances (v : Vault) (i : Nat) : v.step i = v ∨ v.Advances i (v.step i) := by
  cases hc : v.calls[i]? with
  | none => exact Or.inl (move_of_absent (m := .step i) rfl hc)
  | some call =>
    rcases step_eq_or_deed hc with he | ⟨e, he, hd⟩
    · exact Or.inl he
    · by_cases hr : ∀ answer handle, call.phase ≠ .resting answer handle
      · rw [he]
        exact Or.inr (hd.advances hc hr)
      · push Not at hr
        obtain ⟨answer, handle, hp⟩ := hr
        exact Or.inl (by rw [step, hc]; dsimp only; rw [hp])

/-- **What it is to be cancelled**, for whoever is overdue. -/
theorem expire_eq_amend {limit : Span} (hc : v.calls[i]? = some call) (hl : call.limit = some limit)
    (h : v.isOverdue i = true) :
    v.expire i = v.amend i ⟨.answered (.error (.cancelled call.request.operation)),
      v.lock.leave i, v.table, [.timedOut call.request.operation limit]⟩ := by
  rw [expire, hc]
  dsimp only
  rw [hl]
  dsimp only
  rw [if_pos h]
  rfl

/-- Whoever is overdue has a limit. -/
theorem exists_limit (hc : v.calls[i]? = some call) (h : v.isOverdue i = true) :
    call.isRunning = true ∧ call.isDue v.now = true ∧ ∃ limit, call.limit = some limit := by
  rw [isOverdue, hc, Option.any_some, Bool.and_eq_true] at h
  obtain ⟨hrunning, hdue⟩ := h
  refine ⟨hrunning, hdue, ?_⟩
  cases hl : call.limit with
  | none => simp [Call.isDue, Call.deadline?, hl] at hdue
  | some limit => exact ⟨limit, rfl⟩

/-- Whoever is overdue is cancelled, and that is going on, too. -/
theorem expire_of_isOverdue (h : v.isOverdue i = true) : v.Advances i (v.expire i) := by
  obtain ⟨call, hc, -⟩ := (Option.any_eq_true _ _).mp h
  obtain ⟨hrunning, hdue, limit, hl⟩ := exists_limit hc h
  rw [expire_eq_amend hc hl h]
  refine (Deed.expire hl hrunning hdue).advances hc fun answer handle hp => ?_
  simp [Call.isRunning, hp] at hrunning

theorem expire_eq_or_advances (v : Vault) (i : Nat) :
    v.expire i = v ∨ v.Advances i (v.expire i) := by
  by_cases h : v.isOverdue i = true
  · exact Or.inr (expire_of_isOverdue h)
  · refine Or.inl ?_
    rw [expire]
    split
    · rfl
    · split
      · rfl
      · rw [if_neg h]

/-- **A turn changes nothing, or the call goes on in it.** -/
theorem poll_eq_or_advances (v : Vault) (i left : Nat) :
    (v.poll i left).2 = v ∨ v.Advances i (v.poll i left).2 := by
  have more {w w' : Vault} (hw : w = v ∨ v.Advances i w) (hw' : w' = w ∨ w.Advances i w') :
      w' = v ∨ v.Advances i w' := by
    rcases hw with rfl | hw
    · exact hw'
    · rcases hw' with rfl | hw'
      · exact Or.inr hw
      · exact Or.inr (hw.trans hw')
  exact poll_induction (P := fun w => w = v ∨ v.Advances i w)
    (fun w hw => more hw (w.step_eq_or_advances i))
    (fun w hw => more hw (w.expire_eq_or_advances i)) left (Or.inl rfl)

/-- **Whoever is ready goes on in their turn**, if something is left of the allowance. -/
theorem advances_poll (hc : v.calls[i]? = some call) (h : v.isReady i call = true)
    (hleft : 0 < left) : v.Advances i (v.poll i left).2 := by
  have step (w : Vault) (hw : v.Advances i w) : v.Advances i (w.step i) := by
    rcases w.step_eq_or_advances i with he | he
    · rwa [he]
    · exact hw.trans he
  have expire (w : Vault) (hw : v.Advances i w) : v.Advances i (w.expire i) := by
    rcases w.expire_eq_or_advances i with he | he
    · rwa [he]
    · exact hw.trans he
  by_cases hcan : v.canStep i = true
  · have hfirst : v.Advances i (v.step i) := by
      obtain ⟨e, he, hd⟩ := step_deed hc hcan
      rw [he]
      refine hd.advances hc fun answer handle hp => ?_
      simp [canStep_eq hc, hp, mayStep] at hcan
    have hdrain := drain_induction_of_canStep step hcan hleft hfirst
    rw [poll_eq]
    split
    · exact expire _ hdrain
    · exact hdrain
  -- whoever is ready and cannot take a step is to be cancelled
  · have hover : v.isOverdue i = true := by
      rw [isOverdue, hc, Option.any_some]
      rw [canStep_eq hc] at hcan
      cases hp : call.phase with
      | waiting => simp_all [isReady, mayStep, Call.isRunning]
      | paused wake work handle =>
        rw [hp] at hcan
        rw [isReady, hp] at h
        have hdue := (Bool.or_eq_true _ _ ▸ h).resolve_left hcan
        simp [Call.isRunning, hp, hdue]
      | _ => simp_all [isReady, mayStep]
    have hdrain : (drain i (left, v)).2 = v ∨ v.Advances i (drain i (left, v)).2 := by
      refine drain_induction (P := fun w => w = v ∨ v.Advances i w) ?_ left (Or.inl rfl)
      rintro w (rfl | hw)
      · exact w.step_eq_or_advances i
      · exact Or.inr (step w hw)
    rw [poll_eq]
    rcases hdrain with he | hdrain
    · rw [he, if_pos (by simp [hleft, hover])]
      exact expire_of_isOverdue hover
    · split
      · exact expire _ hdrain
      · exact hdrain

end Vault

end KeyLifecycle
