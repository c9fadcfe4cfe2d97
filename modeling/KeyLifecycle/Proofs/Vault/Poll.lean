import KeyLifecycle.Proofs.Vault.Move
import KeyLifecycle.Store.Vault.Poll

/-!
# A turn is made of moves

Giving a call its turn makes steps of that call, and cancels it at most. So what is kept by both of
these is kept by every turn (`KeyLifecycle.Vault.poll_induction`), whatever the allowance; and a
turn is a run of moves of that call and no others (`KeyLifecycle.Vault.follows_poll`). Whatever is
said of all runs of a vault is said of all turns, in whatever order they are given.
-/

namespace KeyLifecycle.Vault

variable {u v w : Vault} {i left : Nat}

/-! ### Induction along a turn -/

section Induction

variable {P : Vault → Prop} (step : ∀ v, P v → P (v.step i))

include step

theorem stage_induction (kind : Vault → Phase → Bool) (price : Nat) {t : Turn} (h : P t.2) :
    P (stage i kind price t).2 := by
  rw [stage]
  split
  · exact step _ h
  · exact h

/-- Carrying a work on makes steps of its call. -/
theorem carry_induction (work : Work Reply) (handle : Handle) (left : Nat) (h : P v) :
    P (carry i work handle (left, v)).2 := by
  induction work generalizing handle left v with
  | done reply => exact step _ h
  | fail cause => exact step _ h
  | insert owner material next ih =>
    -- a refusal takes one step more, in which the call fails
    rw [carry]
    split
    · split
      · exact ih _ _ _ (step _ h)
      · exact step _ (step _ h)
    · exact h
  | delete owner key next ih =>
    rw [carry]
    split
    · split
      · exact ih _ _ _ (step _ h)
      · exact step _ (step _ h)
    · exact h
  | commit next ih =>
    rw [carry]
    split
    · exact ih _ _ (step _ h)
    · exact step _ (step _ h)
  | rollback next ih =>
    rw [carry]
    split
    · exact ih _ _ (step _ h)
    · exact step _ (step _ h)
  | pause duration next ih =>
    rw [carry]
    split
    · exact ih _ _ (step _ (step _ h))
    · exact step _ h

theorem proceed_induction {t : Turn} (h : P t.2) : P (proceed i t).2 := by
  rw [proceed]
  split
  · exact carry_induction step _ _ _ h
  · exact h

theorem drain_induction (left : Nat) (h : P v) : P (drain i (left, v)).2 := by
  refine proceed_induction step ?_
  refine stage_induction step wakes 1 (stage_induction step (isAdmitted i) 1 ?_)
  exact stage_induction step asks 0 (stage_induction step checks 1 h)

end Induction

/-- A turn goes as far as the call can, and then the call is cancelled or not. -/
theorem poll_eq (v : Vault) (i left : Nat) :
    v.poll i left =
      if 0 < left && (drain i (left, v)).2.isOverdue i then
        ((drain i (left, v)).1 - 1, (drain i (left, v)).2.expire i)
      else drain i (left, v) := by
  rw [poll]

/-- **What steps and the end of patience keep, every turn keeps.** -/
theorem poll_induction {P : Vault → Prop} (step : ∀ v, P v → P (v.step i))
    (expire : ∀ v, P v → P (v.expire i)) (left : Nat) (h : P v) : P (v.poll i left).2 := by
  have hdrain := drain_induction step left h
  rw [poll_eq]
  split
  · exact expire _ hdrain
  · exact hdrain

section Deeds

variable {P : Vault → Prop}
  (deed : ∀ v call e, P v → v.calls[i]? = some call → v.Deed i call e → P (v.amend i e))

include deed

/-- What deeds of a call keep, every move of it keeps. -/
theorem move_induction {m : Move} (hm : m.call? = some i) (h : P v) : P (v.move m) := by
  cases hc : v.calls[i]? with
  | none => rwa [move_of_absent hm hc]
  | some call =>
    rcases move_eq_or_deed hm hc with he | ⟨e, he, hd⟩
    · rwa [he]
    · rw [he]
      exact deed v call e h hc hd

/-- **What deeds of a call keep** is so when it has gone as far as it can. -/
theorem drain_induction_of_deed (left : Nat) (h : P v) : P (drain i (left, v)).2 :=
  drain_induction (fun _ hw => move_induction deed (m := .step i) rfl hw) left h

/-- **What deeds of a call keep, its turns keep.** -/
theorem poll_induction_of_deed (left : Nat) (h : P v) : P (v.poll i left).2 :=
  poll_induction (fun _ hw => move_induction deed (m := .step i) rfl hw)
    (fun _ hw => move_induction deed (m := .expire i) rfl hw) left h

end Deeds

/-- A call is the same call after its turn. -/
theorem exists_call_poll {call : Call} (hc : v.calls[i]? = some call) (left : Nat) :
    ∃ phase, (v.poll i left).2.calls[i]? = some { call with phase := phase } := by
  refine poll_induction_of_deed
    (P := fun w => ∃ phase, w.calls[i]? = some { call with phase := phase }) ?_ left
    ⟨call.phase, hc⟩
  rintro w other e ⟨phase, hw⟩ hother -
  obtain rfl := Option.some.inj (hw.symm.trans hother)
  exact ⟨e.phase, amend_calls_self hother e⟩

/-! ### The moves of a turn -/

/-- A vault has come to another by moves of one call. -/
def Follows (i : Nat) (v w : Vault) : Prop :=
  ∃ moves, w = v.run moves ∧ ∀ m ∈ moves, m.call? = some i

theorem follows_refl (i : Nat) (v : Vault) : v.Follows i v := ⟨[], rfl, by simp⟩

theorem Follows.trans (huv : u.Follows i v) (hvw : v.Follows i w) : u.Follows i w := by
  obtain ⟨before, rfl, hb⟩ := huv
  obtain ⟨after, rfl, ha⟩ := hvw
  refine ⟨before ++ after, (run_append u before after).symm, fun m hm => ?_⟩
  exact (List.mem_append.mp hm).elim (hb m) (ha m)

theorem Follows.step (h : v.Follows i w) : v.Follows i (w.step i) :=
  h.trans ⟨[.step i], rfl, by simp [Move.call?]⟩

theorem Follows.expire (h : v.Follows i w) : v.Follows i (w.expire i) :=
  h.trans ⟨[.expire i], rfl, by simp [Move.call?]⟩

theorem Follows.interrupt (h : v.Follows i w) : v.Follows i (w.interrupt i) :=
  h.trans ⟨[.interrupt i], rfl, by simp [Move.call?]⟩

/-- **A turn is a run of moves of the call whose turn it is.** -/
theorem follows_poll (v : Vault) (i left : Nat) : v.Follows i (v.poll i left).2 :=
  poll_induction (fun _ h => h.step) (fun _ h => h.expire) left (follows_refl i v)

/-! ### Nobody is dropped in a turn -/

/-- A call that has entered a phase has not been dropped, unless it is that phase. -/
theorem phase?_setPhase_ne {phase : Phase} (hne : phase ≠ .dropped) (w : Vault) (i : Nat) :
    (w.setPhase i phase).phase? i ≠ some .dropped := by
  rw [phase?, setPhase]
  dsimp only
  rw [List.getElem?_modify_eq]
  cases w.calls[i]? <;> simp [hne]

/-- **Nobody is dropped by a step** of their own. -/
theorem phase?_step_ne (h : v.phase? i ≠ some .dropped) :
    (v.step i).phase? i ≠ some .dropped := by
  have settles (w : Vault) (answer : Except Failure Reply) :
      (w.settle i answer).phase? i ≠ some .dropped := phase?_setPhase_ne (by simp) w i
  have enters (w : Vault) {work : Work Reply} {handle : Handle} :
      (w.setPhase i (.working work handle)).phase? i ≠ some .dropped :=
    phase?_setPhase_ne (by simp) w i
  rw [step]
  split
  · exact h
  · rename_i call hc
    split
    · rw [check]
      split
      · exact settles _ _
      · exact phase?_setPhase_ne (by simp) _ i
    · exact phase?_setPhase_ne (by simp) _ i
    · split
      · cases call.request with
        | list | count => exact settles (v.release i) _
        | stamp key moment =>
          dsimp only [enter, Request.work?]
          split
          · exact settles (v.publish i _) _
          · exact settles (v.release i) _
        | lease => exact phase?_setPhase_ne (by simp) v i
        | _ => exact enters (v.note _)
      · exact h
    · unfold workStep
      split
      · split
        · exact phase?_setPhase_ne (by simp) v i
        · rw [succeed]
          split <;> exact settles _ _
      · split
        · exact phase?_setPhase_ne (by simp) v i
        · rw [giveUp]
          split <;> exact settles _ _
      · split <;> exact enters _
      · split <;> exact enters _
      · split <;> exact enters _
      · split <;> exact enters _
      · exact phase?_setPhase_ne (by simp) v i
    · split
      · exact enters v
      · exact h
    · exact h

/-- **Nobody is dropped in their turn.** -/
theorem phase?_poll_ne (h : v.phase? i ≠ some .dropped) (left : Nat) :
    (v.poll i left).2.phase? i ≠ some .dropped := by
  refine poll_induction (P := fun w => w.phase? i ≠ some .dropped) (fun _ => phase?_step_ne)
    (fun w hw => ?_) left h
  rw [expire]
  split
  · exact hw
  · split
    · exact hw
    · split
      · exact phase?_setPhase_ne (by simp) _ i
      · exact hw

end KeyLifecycle.Vault
