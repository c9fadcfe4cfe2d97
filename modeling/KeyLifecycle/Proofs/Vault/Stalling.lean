import KeyLifecycle.Proofs.Vault.Poll

/-!
# How far a turn goes

A call that has its turn goes on until it is held up. `Vault.canStep` says of a call that it is not:
it neither waits for a table that somebody else has nor pauses until later, and it is not through.
Then

* whoever can still take a step after their turn has been stopped by the allowance, of which nothing
  is left (`KeyLifecycle.Vault.canStep_drain`);
* whoever can take a step and finds something left does take one
  (`KeyLifecycle.Vault.drain_induction_of_canStep`).

The stages of a turn follow the way of a call into the table (`Phase.way`), on which there is no
going back; so what one stage has left behind does not come up again at the end of the turn. Inside
of a transaction the proof is an induction on the work.
-/

namespace KeyLifecycle

/-- How far a call has gone on its way into the table. -/
def Phase.way : Phase → Nat
  | .checking => 0
  | .asking => 1
  | .waiting => 2
  | _ => 3

/-- A call that is through, or rests. -/
def Phase.AtEnd : Phase → Prop
  | .resting _ _ => True
  | .answered _ => True
  | .dropped => True
  | _ => False

/-- What may be left of a work after the next thing in it. -/
def Work.IsRest (rest : Work Reply) : Work Reply → Prop
  | .insert _ _ next => ∃ credential, rest = next credential
  | .delete _ _ next => ∃ yes, rest = next yes
  | .commit next => rest = next
  | .rollback next => rest = next
  | .pause _ next => rest = next
  | _ => False

namespace Vault

variable {v : Vault} {i left : Nat} {call : Call} {e : Effect} {t : Turn} {work : Work Reply}
  {handle : Handle}

/-! ### What comes after a phase -/

/-- **The way into the table is gone forward**: a deed leads further on it, or its call has gone all
of it before. -/
theorem Deed.way (hd : v.Deed i call e) :
    call.phase.way < e.phase.way ∨ (call.phase.way = 3 ∧ e.phase.way = 3) := by
  cases hd with
  | expire hl hr h =>
    cases hp : call.phase <;> simp_all [Phase.way, Call.isRunning]
  | drop h =>
    cases hp : call.phase <;> simp_all [Phase.way, Call.isLive]
  | interrupt hr hp =>
    cases hq : call.phase <;> simp_all [Phase.way, Phase.inside?]
  | _ => simp [Phase.way, *]

/-- **After a deed at work** the call is through or at rest, its work has failed, or it is inside of
what is left of the work. -/
theorem Deed.of_working (hd : v.Deed i call e) (hp : call.phase = .working work handle) :
    e.phase.AtEnd ∨
      (work.outcome? = none ∧ ∃ cause, e.phase = .working (.fail cause) handle) ∨
      ∃ rest staged, rest.IsRest work ∧ e.phase.inside? = some (rest, staged) := by
  cases hd with
  | insert hp' hi =>
    obtain ⟨rfl, -⟩ := Phase.working.inj (hp.symm.trans hp')
    exact Or.inr (Or.inr ⟨_, _, ⟨_, rfl⟩, rfl⟩)
  | delete hp' hi =>
    obtain ⟨rfl, -⟩ := Phase.working.inj (hp.symm.trans hp')
    exact Or.inr (Or.inr ⟨_, _, ⟨_, rfl⟩, rfl⟩)
  | pause hp' | commit hp' | rollback hp' =>
    obtain ⟨rfl, -⟩ := Phase.working.inj (hp.symm.trans hp')
    exact Or.inr (Or.inr ⟨_, _, rfl, rfl⟩)
  | fault hp' hf =>
    obtain ⟨rfl, rfl⟩ := Phase.working.inj (hp.symm.trans hp')
    refine Or.inr (Or.inl ⟨?_, _, rfl⟩)
    cases work <;> simp [Work.outcome?, Work.fault?] at hf ⊢
  | rest | succeed | late | giveUp | expire | drop | interrupt => exact Or.inl trivial
  | _ => simp_all

/-- **After a deed in a pause** the call is through or at rest, or at work. -/
theorem Deed.of_paused (hd : v.Deed i call e) {wake : Nat}
    (hp : call.phase = .paused wake work handle) :
    e.phase.AtEnd ∨ e.phase = .working work handle := by
  cases hd with
  | wake hp' =>
    obtain ⟨-, rfl, rfl⟩ := Phase.paused.inj (hp.symm.trans hp')
    exact Or.inr rfl
  | expire | drop | interrupt => exact Or.inl trivial
  | _ => simp_all

/-! ### Whether a call can take a step -/

/-- Whether a call in some phase can take a step. -/
def mayStep (v : Vault) (i : Nat) : Phase → Bool
  | .checking => true
  | .asking => true
  | .waiting => v.lock.holder = some i
  | .working _ _ => true
  | .paused wake _ _ => wake ≤ v.now
  | _ => false

/-- Whether there is such a call, and it can take a step. -/
def canStep (v : Vault) (i : Nat) : Bool := (v.phase? i).any (v.mayStep i)

theorem phase?_eq (hc : v.calls[i]? = some call) : v.phase? i = some call.phase := by
  rw [phase?, hc, Option.map_some]

theorem canStep_eq (hc : v.calls[i]? = some call) : v.canStep i = v.mayStep i call.phase := by
  rw [canStep, phase?_eq hc, Option.any_some]

theorem exists_of_phase? {phase : Phase} (h : v.phase? i = some phase) :
    ∃ call, v.calls[i]? = some call ∧ call.phase = phase := by
  rw [phase?, Option.map_eq_some_iff] at h
  exact h

theorem setPhase_calls_self (hc : v.calls[i]? = some call) (phase : Phase) :
    (v.setPhase i phase).calls[i]? = some { call with phase := phase } := by
  rw [setPhase_eq_amend]
  exact amend_calls_self hc _

theorem step_of_working (hc : v.calls[i]? = some call) (hp : call.phase = .working work handle) :
    v.step i = v.workStep i call.request work handle := by
  rw [step, hc]
  dsimp only
  rw [hp]

theorem step_of_paused {wake : Nat} (hc : v.calls[i]? = some call)
    (hp : call.phase = .paused wake work handle) (h : wake ≤ v.now) :
    v.step i = v.setPhase i (.working work handle) := by
  rw [step, hc]
  dsimp only
  rw [hp]
  dsimp only
  rw [if_pos h]

/-- **Whoever can take a step takes one.** -/
theorem step_deed (hc : v.calls[i]? = some call) (h : v.canStep i = true) :
    ∃ e, v.step i = v.amend i e ∧ v.Deed i call e := by
  rw [canStep_eq hc] at h
  cases hp : call.phase with
  | checking =>
    have hstep : v.step i = v.check i := by rw [step, hc]; dsimp only; rw [hp]
    rw [hstep]
    exact check_deed hp
  | asking =>
    have hstep : v.step i = v.ask i := by rw [step, hc]; dsimp only; rw [hp]
    rw [hstep]
    exact ⟨⟨_, _, _, []⟩, by simp [ask, setPhase, amend], .ask hp⟩
  | waiting =>
    have hl : v.lock.holder = some i := by
      rw [hp] at h
      exact of_decide_eq_true h
    have hstep : v.step i = v.enter i call.request := by
      rw [step, hc]
      dsimp only
      rw [hp]
      dsimp only
      rw [if_pos hl]
    rw [hstep]
    exact enter_deed hp hl
  | working work handle =>
    rw [step_of_working hc hp]
    exact workStep_deed hp
  | paused wake work handle =>
    have hwake : wake ≤ v.now := by
      rw [hp] at h
      exact of_decide_eq_true h
    rw [step_of_paused hc hp hwake]
    exact ⟨_, setPhase_eq_amend v i _, .wake hp hwake⟩
  | _ =>
    rw [hp] at h
    simp [mayStep] at h

/-! ### Inside of a transaction -/

/-- Whoever is through or rests cannot take a step. -/
theorem mayStep_of_atEnd {phase : Phase} (h : phase.AtEnd) : v.mayStep i phase = false := by
  cases phase with
  | resting | answered | dropped => rfl
  | _ => exact False.elim h

/-- A call whose work has come to its end cannot go on after the next step. -/
theorem canStep_step_of_outcome {answer : Except Failure Reply} (hc : v.calls[i]? = some call)
    (hp : call.phase = .working work handle) (h : work.outcome? = some answer) :
    (v.step i).canStep i = false := by
  have hcan : v.canStep i = true := by
    rw [canStep_eq hc, hp]
    rfl
  obtain ⟨e, he, hd⟩ := step_deed hc hcan
  rw [he, canStep_eq (amend_calls_self hc e)]
  rcases hd.of_working hp with hend | ⟨hno, -⟩ | ⟨rest, staged, hrest, -⟩
  · exact mayStep_of_atEnd hend
  · simp [h] at hno
  · cases work <;> simp [Work.outcome?, Work.IsRest] at h hrest

/-- A call whose work is refused something is through with it after the step in which it fails. -/
theorem canStep_step_step_of_fault {cause : Failure} (hc : v.calls[i]? = some call)
    (hs : v.workStep i call.request work handle = v.setPhase i (.working (.fail cause) handle))
    (hp : call.phase = .working work handle) : ((v.step i).step i).canStep i = false := by
  rw [step_of_working hc hp, hs]
  exact canStep_step_of_outcome (setPhase_calls_self hc _) rfl rfl

/-- **Inside of a transaction a turn ends** where the call is held up or through, or where nothing
is left of the allowance. -/
theorem canStep_carry (hc : v.calls[i]? = some call)
    (hp : call.phase = .working work handle) (h : 0 < (carry i work handle (left, v)).1) :
    (carry i work handle (left, v)).2.canStep i = false := by
  induction work generalizing v call handle left with
  | done reply => exact canStep_step_of_outcome hc hp rfl
  | fail cause => exact canStep_step_of_outcome hc hp rfl
  | insert owner material next ih =>
    rw [carry] at h ⊢
    split at h
    · rename_i hmay
      rw [if_pos hmay]
      cases hi : handle.insert v.plan owner material with
      | ok result =>
        obtain ⟨credential, staged⟩ := result
        rw [hi] at h
        have hnext : (v.step i).calls[i]? =
            some { call with phase := .working (next credential) staged } := by
          rw [step_of_working hc hp, workStep, hi]
          exact setPhase_calls_self hc _
        exact ih credential hnext rfl h
      | error cause => exact canStep_step_step_of_fault hc (by rw [workStep, hi]) hp
    · rename_i hmay
      simp [mayStage, h] at hmay
  | delete owner key next ih =>
    rw [carry] at h ⊢
    split at h
    · rename_i hmay
      rw [if_pos hmay]
      cases hd : handle.delete v.plan owner key with
      | ok result =>
        obtain ⟨row, staged⟩ := result
        rw [hd] at h
        have hnext : (v.step i).calls[i]? =
            some { call with phase := .working (next row.isSome) staged } := by
          rw [step_of_working hc hp, workStep, hd]
          cases row with
          | none => exact setPhase_calls_self hc _
          | some row => exact setPhase_calls_self (v := v.note _) hc _
        exact ih row.isSome hnext rfl h
      | error cause => exact canStep_step_step_of_fault hc (by rw [workStep, hd]) hp
    · rename_i hmay
      simp [mayStage, h] at hmay
  | commit next ih =>
    rw [carry] at h ⊢
    cases hm : handle.commit with
    | ok result =>
      obtain ⟨table, finished⟩ := result
      rw [hm] at h
      have hnext : (v.step i).calls[i]? = some { call with phase := .working next finished } := by
        rw [step_of_working hc hp, workStep, hm]
        exact setPhase_calls_self (v := v.publish i table) hc _
      exact ih hnext rfl h
    | error cause => exact canStep_step_step_of_fault hc (by rw [workStep, hm]) hp
  | rollback next ih =>
    rw [carry] at h ⊢
    cases hm : handle.rollback with
    | ok finished =>
      rw [hm] at h
      have hnext : (v.step i).calls[i]? = some { call with phase := .working next finished } := by
        rw [step_of_working hc hp, workStep, hm]
        exact setPhase_calls_self (v := v.release i) hc _
      exact ih hnext rfl h
    | error cause => exact canStep_step_step_of_fault hc (by rw [workStep, hm]) hp
  | pause duration next ih =>
    have hpaused : (v.step i).calls[i]? =
        some { call with phase := .paused (v.now + duration) next handle } := by
      rw [step_of_working hc hp]
      exact setPhase_calls_self hc _
    have hnow : (v.step i).now = v.now := by
      rw [step_of_working hc hp]
      rfl
    rw [carry] at h ⊢
    split at h
    · rename_i hzero
      rw [if_pos hzero]
      -- a pause of no length is over at once
      have hnext : ((v.step i).step i).calls[i]? =
          some { call with phase := .working next handle } := by
        rw [step_of_paused hpaused rfl (by rw [hnow, hzero.1]; exact Nat.le_refl _)]
        exact setPhase_calls_self hpaused _
      exact ih hnext rfl h
    · rename_i hzero
      rw [if_neg hzero, canStep_eq hpaused]
      have hpos : duration ≠ 0 := fun hd => hzero ⟨hd, h⟩
      simp only [mayStep, hnow, decide_eq_false_iff_not]
      exact Nat.not_le_of_lt (Nat.lt_add_of_pos_right (Nat.pos_of_ne_zero hpos))

/-! ### From the beginning of a turn to its end -/

/-- **A stage after which something is left** has been skipped, or was a deed. -/
theorem stage_cases {kind : Vault → Phase → Bool} {price : Nat}
    (hkind : ∀ w phase, kind w phase = true → w.mayStep i phase = true)
    (hc : t.2.calls[i]? = some call) (h : 0 < (stage i kind price t).1) :
    (stage i kind price t = t ∧ kind t.2 call.phase = false) ∨
      ∃ e, (stage i kind price t).2 = t.2.amend i e ∧ kind t.2 call.phase = true ∧
        t.2.Deed i call e := by
  rw [stage, phase?_eq hc, Option.any_some] at h ⊢
  cases hk : kind t.2 call.phase with
  | false => exact Or.inl ⟨by rw [Bool.and_false, if_neg Bool.false_ne_true], rfl⟩
  | true =>
    rw [hk, Bool.and_true] at h
    have hleft : 0 < t.1 := by
      by_contra hno
      rw [if_neg (by simpa using hno)] at h
      exact hno h
    have hcan : t.2.canStep i = true := by
      rw [canStep_eq hc]
      exact hkind _ _ hk
    obtain ⟨e, he, hd⟩ := step_deed hc hcan
    refine Or.inr ⟨e, ?_, rfl, hd⟩
    rw [Bool.and_true, if_pos (by simpa using hleft), he]

theorem stage_le (i : Nat) (kind : Vault → Phase → Bool) (price : Nat) (t : Turn) :
    (stage i kind price t).1 ≤ t.1 := by
  rw [stage]
  split
  · exact Nat.sub_le t.1 price
  · exact Nat.le_refl t.1

theorem carry_le (i : Nat) (work : Work Reply) (handle : Handle) (t : Turn) :
    (carry i work handle t).1 ≤ t.1 := by
  have hafter (handle : Handle) (left : Nat) : afterStaging handle left ≤ left := by
    rw [afterStaging]
    split <;> omega
  induction work generalizing handle t with
  | done | fail => exact Nat.le_refl t.1
  | insert owner material next ih =>
    rw [carry]
    split
    · split
      · exact Nat.le_trans (ih _ _ _) (hafter handle t.1)
      · exact hafter handle t.1
    · exact Nat.le_refl t.1
  | delete owner key next ih =>
    rw [carry]
    split
    · split
      · exact Nat.le_trans (ih _ _ _) (hafter handle t.1)
      · exact hafter handle t.1
    · exact Nat.le_refl t.1
  | commit next ih | rollback next ih =>
    rw [carry]
    split
    · exact ih _ _
    · exact Nat.le_refl t.1
  | pause duration next ih =>
    rw [carry]
    split
    · exact Nat.le_trans (ih _ _) (Nat.sub_le t.1 1)
    · exact Nat.le_refl t.1

theorem proceed_le (i : Nat) (t : Turn) : (proceed i t).1 ≤ t.1 := by
  rw [proceed]
  split
  · exact carry_le i _ _ t
  · exact Nat.le_refl t.1

/-- A stage leads further on the way into the table, if it is not skipped where it is the next. -/
theorem way_stage {kind : Vault → Phase → Bool} {price n : Nat}
    (hkind : ∀ w phase, kind w phase = true → w.mayStep i phase = true)
    (hskip : ∀ phase, kind t.2 phase = false → phase.way ≠ n) (hn : n < 3)
    (hc : t.2.calls[i]? = some call) (hw : n ≤ call.phase.way)
    (h : 0 < (stage i kind price t).1) :
    ∃ call', (stage i kind price t).2.calls[i]? = some call' ∧ n + 1 ≤ call'.phase.way := by
  rcases stage_cases hkind hc h with ⟨he, hk⟩ | ⟨e, he, -, hd⟩
  · have hne := hskip call.phase hk
    exact ⟨call, by rw [he, hc], by omega⟩
  · have hway := hd.way
    refine ⟨_, by rw [he, amend_calls_self hc], ?_⟩
    dsimp only
    omega

/-- After the stage of admission nobody waits for a table that they have. -/
theorem isAdmitted_stage (hc : t.2.calls[i]? = some call) (hw : 2 ≤ call.phase.way)
    (h : 0 < (stage i (isAdmitted i) 1 t).1) :
    ∃ call', (stage i (isAdmitted i) 1 t).2.calls[i]? = some call' ∧ 2 ≤ call'.phase.way ∧
      isAdmitted i (stage i (isAdmitted i) 1 t).2 call'.phase = false := by
  rcases stage_cases (fun w p hp => by cases p <;> simp_all [isAdmitted, mayStep]) hc h with
    ⟨he, hk⟩ | ⟨e, he, hk, hd⟩
  · exact ⟨call, by rw [he, hc], hw, by rw [he, hk]⟩
  · have hp : call.phase = .waiting := by
      cases hq : call.phase <;> simp_all [isAdmitted]
    have hway := hd.way
    refine ⟨_, by rw [he, amend_calls_self hc], by dsimp only; omega, ?_⟩
    cases hq : e.phase <;> simp_all [isAdmitted, Phase.way]

/-- After the last stage whoever can take a step is at work. -/
theorem wakes_stage (hc : t.2.calls[i]? = some call) (hw : 2 ≤ call.phase.way)
    (ha : isAdmitted i t.2 call.phase = false) (h : 0 < (stage i wakes 1 t).1) :
    ∃ call', (stage i wakes 1 t).2.calls[i]? = some call' ∧
      ((∃ work handle, call'.phase = .working work handle) ∨
        (stage i wakes 1 t).2.mayStep i call'.phase = false) := by
  rcases stage_cases (fun w p hp => by cases p <;> simp_all [wakes, mayStep]) hc h with
    ⟨he, hk⟩ | ⟨e, he, hk, hd⟩
  · refine ⟨call, by rw [he, hc], ?_⟩
    rw [he]
    cases hp : call.phase <;> simp_all [wakes, isAdmitted, mayStep, Phase.way]
  · refine ⟨_, by rw [he, amend_calls_self hc], ?_⟩
    cases hp : call.phase with
    | paused wake work handle =>
      rcases hd.of_paused hp with hend | hq
      · exact Or.inr (mayStep_of_atEnd hend)
      · exact Or.inl ⟨work, handle, hq⟩
    | _ => simp [hp, wakes] at hk

/-- **Whoever has had their turn is held up or through**, unless nothing is left of the
allowance. -/
theorem canStep_drain (hc : v.calls[i]? = some call) (h : 0 < (drain i (left, v)).1) :
    (drain i (left, v)).2.canStep i = false := by
  rw [drain] at h ⊢
  -- whatever is left over in the end was there at each stage
  have h₄ := Nat.lt_of_lt_of_le h (proceed_le i _)
  have h₃ := Nat.lt_of_lt_of_le h₄ (stage_le i wakes 1 _)
  have h₂ := Nat.lt_of_lt_of_le h₃ (stage_le i (isAdmitted i) 1 _)
  have h₁ := Nat.lt_of_lt_of_le h₂ (stage_le i asks 0 _)
  obtain ⟨call₁, hc₁, hw₁⟩ := way_stage (n := 0)
    (fun w p hp => by cases p <;> simp_all [checks, mayStep])
    (fun p hp => by cases p <;> simp_all [checks, Phase.way]) (by omega) hc (Nat.zero_le _) h₁
  generalize stage i checks 1 (left, v) = t₁ at *
  obtain ⟨call₂, hc₂, hw₂⟩ := way_stage (n := 1)
    (fun w p hp => by cases p <;> simp_all [asks, mayStep])
    (fun p hp => by cases p <;> simp_all [asks, Phase.way]) (by omega) hc₁ hw₁ h₂
  generalize stage i asks 0 t₁ = t₂ at *
  obtain ⟨call₃, hc₃, hw₃, ha₃⟩ := isAdmitted_stage hc₂ hw₂ h₃
  generalize stage i (isAdmitted i) 1 t₂ = t₃ at *
  obtain ⟨call₄, hc₄, hno⟩ := wakes_stage hc₃ hw₃ ha₃ h₄
  generalize stage i wakes 1 t₃ = t₄ at *
  rw [proceed, phase?_eq hc₄] at h ⊢
  rcases hno with ⟨work, handle, hp⟩ | hno
  · rw [hp] at h ⊢
    exact canStep_carry hc₄ hp h
  · cases hp : call₄.phase with
    | working work handle => simp [hp, mayStep] at hno
    | _ =>
      rw [canStep_eq hc₄]
      exact hno

/-! ### Whoever can take a step does -/

section Induction

variable {P : Vault → Prop} (step : ∀ v, P v → P (v.step i))

include step

/-- Inside of a transaction the first thing that is done is a step, if something is left. -/
theorem carry_induction_of_pos (work : Work Reply) (handle : Handle) (hleft : 0 < left)
    (h : P (v.step i)) : P (carry i work handle (left, v)).2 := by
  have hmay : mayStage handle left = true := by simp [mayStage, hleft]
  cases work with
  | done | fail => exact h
  | insert owner material next =>
    rw [carry, if_pos hmay]
    split
    · exact carry_induction step _ _ _ h
    · exact step _ h
  | delete owner key next =>
    rw [carry, if_pos hmay]
    split
    · exact carry_induction step _ _ _ h
    · exact step _ h
  | commit next | rollback next =>
    rw [carry]
    split
    · exact carry_induction step _ _ _ h
    · exact step _ h
  | pause duration next =>
    rw [carry]
    split
    · exact carry_induction step _ _ _ (step _ h)
    · exact h

/-- **Whoever can take a step and finds something left takes one**: what is so after this step, and
kept by further ones, is so at the end of the turn. -/
theorem drain_induction_of_canStep (hcan : v.canStep i = true) (hleft : 0 < left)
    (h : P (v.step i)) : P (drain i (left, v)).2 := by
  obtain ⟨phase, hp, hmay⟩ := (Option.any_eq_true _ _).mp hcan
  have skip {kind : Vault → Phase → Bool} (hk : kind v phase = false) (price : Nat) :
      stage i kind price (left, v) = (left, v) := by
    rw [stage, hp, Option.any_some, hk, Bool.and_false, if_neg Bool.false_ne_true]
  have take {kind : Vault → Phase → Bool} (hk : kind v phase = true) (price : Nat) :
      stage i kind price (left, v) = (left - price, v.step i) := by
    rw [stage, hp, Option.any_some, hk, Bool.and_true, if_pos (by simpa using hleft)]
  rw [drain]
  cases phase with
  | checking =>
    rw [take rfl]
    refine proceed_induction step (stage_induction step wakes 1 ?_)
    exact stage_induction step (isAdmitted i) 1 (stage_induction step asks 0 h)
  | asking =>
    rw [skip rfl, take rfl]
    refine proceed_induction step (stage_induction step wakes 1 ?_)
    exact stage_induction step (isAdmitted i) 1 h
  | waiting =>
    rw [skip rfl, skip rfl, take hmay]
    exact proceed_induction step (stage_induction step wakes 1 h)
  | working work handle =>
    rw [skip rfl, skip rfl, skip rfl, skip rfl, proceed, hp]
    exact carry_induction_of_pos step work handle hleft h
  | paused wake work handle =>
    rw [skip rfl, skip rfl, skip rfl, take hmay]
    exact proceed_induction step h
  | _ => simp [mayStep] at hmay

end Induction

end Vault

end KeyLifecycle
