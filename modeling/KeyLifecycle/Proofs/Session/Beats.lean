import KeyLifecycle.Proofs.Session.Solo
import KeyLifecycle.Proofs.Store.Asking
import KeyLifecycle.Proofs.Vault.Custody
import KeyLifecycle.Proofs.Vault.Deadline
import KeyLifecycle.Proofs.Vault.Ending
import Mathlib.Logic.Function.Iterate

/-!
# Sessions beat by beat

What happens in a session, one thing after the other, in any order whatever: a request is made, a
call has another turn, a call is given up, others use the allowance, time passes. Each of these is a
`Beat`, and a sequence of beats without end is a *course* of the session (`Session.course`). Nothing
is assumed about who has a turn when, or about how much is left of the allowance then; but time
passes as it does in the vault (`Vault.advance`), which is while all wait, and no further than to
the next moment at which something happens.

The operations of the store are beats: to delete, to list, to stamp and to do a unit of work is
`Beat.ask`, and to create and to rotate is `Beat.draw` (`KeyLifecycle.Store.create_eq`,
`KeyLifecycle.Store.rotate_eq`). A call has its first turn when it is made. `Session.turn?` says of
a beat which call has a turn in it, and from what the turn begins.

What new calls, deeds, other failure plans and the passing of time keep is so all along a course
(`KeyLifecycle.Session.course_induction`).
-/

namespace KeyLifecycle

/-- Something that happens in a session. -/
inductive Beat where
  /-- A request is made, and has its first turn. -/
  | ask (request : Request) (limit : Option Span)
  /-- Key material is drawn; a request is made with it, and has its first turn. -/
  | draw (request : KeyMaterial → Request) (limit : Option Span)
  /-- A call has another turn. -/
  | turn (call : Nat)
  /-- So much is left of the allowance from now on. -/
  | allow (left : Nat)
  /-- Time passes up to a moment. -/
  | pass (moment : Nat)
  | drop (call : Nat)
  | resume (call : Nat) (work : Work Reply)
  | interrupt (call : Nat)
  | setPlan (plan : FailurePlan)

/-- Whether a beat draws key material. -/
def Beat.draws : Beat → Bool
  | draw _ _ => true
  | _ => false

namespace Session

/-- One beat. -/
def beat (s : Session) : Beat → Session
  | .ask request limit => ((Procedure.ask request limit .done).run s).2
  | .draw request limit => ((Procedure.drawing request limit).run s).2
  | .turn call => s.poll call
  | .allow left => { s with left := left }
  | .pass moment => { s with vault := s.vault.advance moment }
  | .drop call => s.drop call
  | .resume call work => { s with vault := s.vault.resume call work }
  | .interrupt call => { s with vault := s.vault.interrupt call }
  | .setPlan plan => { s with vault := s.vault.setPlan plan }

/-- A session after so many of some beats. -/
def course (s : Session) (beats : Nat → Beat) : Nat → Session
  | 0 => s
  | n + 1 => (s.course beats n).beat (beats n)

/-- The call that has a turn in a beat, and what the turn begins from. -/
def turn? (s : Session) : Beat → Option (Nat × Vault.Turn)
  | .ask request limit => some (s.vault.calls.length, s.left, s.vault.start request limit)
  | .draw request limit =>
    match s.generator.generate with
    | (.material material, _) =>
      some (s.vault.calls.length, s.left, s.vault.start (request material) limit)
    | _ => none
  | .turn call => some (call, s.left, s.vault)
  | _ => none

variable {s : Session} {beats : Nat → Beat} {b : Beat} {i n : Nat} {t : Vault.Turn}

/-- **A beat with a turn is that turn.** -/
theorem beat_of_turn? (h : s.turn? b = some (i, t)) : (s.beat b).vault = (t.2.poll i t.1).2 := by
  cases b with
  | ask request limit =>
    obtain ⟨rfl, rfl⟩ := Prod.mk.inj (Option.some.inj h)
    rw [beat, Procedure.run_ask_eq]
  | draw request limit =>
    rw [turn?] at h
    split at h
    · rename_i material next hg
      obtain ⟨rfl, rfl⟩ := Prod.mk.inj (Option.some.inj h)
      rw [beat, Procedure.run_drawing_of_material hg, Procedure.run_ask_eq]
    · simp at h
  | turn call =>
    obtain ⟨rfl, rfl⟩ := Prod.mk.inj (Option.some.inj h)
    rfl
  | _ => simp [turn?] at h

/-- A turn begins from the vault as it is, or is the first one of a new call. -/
theorem turn?_cases (h : s.turn? b = some (i, t)) :
    t.1 = s.left ∧ (t.2 = s.vault ∨
      i = s.vault.calls.length ∧ ∃ request limit, t.2 = s.vault.start request limit) := by
  cases b with
  | ask request limit =>
    obtain ⟨rfl, rfl⟩ := Prod.mk.inj (Option.some.inj h)
    exact ⟨rfl, Or.inr ⟨rfl, request, limit, rfl⟩⟩
  | draw request limit =>
    rw [turn?] at h
    split at h
    · rename_i material next hg
      obtain ⟨rfl, rfl⟩ := Prod.mk.inj (Option.some.inj h)
      exact ⟨rfl, Or.inr ⟨rfl, request material, limit, rfl⟩⟩
    · simp at h
  | turn call =>
    obtain ⟨rfl, rfl⟩ := Prod.mk.inj (Option.some.inj h)
    exact ⟨rfl, Or.inl rfl⟩
  | _ => simp [turn?] at h

/-- A beat that draws key material and finds none changes nothing in the vault. -/
theorem vault_draw_of_turn? {request : KeyMaterial → Request} {limit : Option Span}
    (h : s.turn? (.draw request limit) = none) :
    (s.beat (.draw request limit)).vault = s.vault := by
  rw [turn?] at h
  rw [beat]
  cases hg : s.generator.generate with
  | mk result next =>
    cases result with
    | material material => simp [hg] at h
    | failed cause => rw [Procedure.run_drawing_of_failed hg]
    | breakdown => rw [Procedure.run_drawing_of_breakdown hg]

/-! ### What is kept all along a course -/

section Induction

variable {P : Vault → Prop}
  (start : ∀ v request limit, P v → P (v.start request limit))
  (deed : ∀ v i call e, P v → v.calls[i]? = some call → v.Deed i call e → P (v.amend i e))

include start deed

/-- **What a course keeps beat by beat.** -/
theorem beat_induction (setPlan : ∀ v plan, b = .setPlan plan → P v → P (v.setPlan plan))
    (advance : ∀ v moment, b = .pass moment → P v → P (v.advance moment)) (h : P s.vault) :
    P (s.beat b).vault := by
  cases ht : s.turn? b with
  | some turn =>
    obtain ⟨i, t⟩ := turn
    rw [beat_of_turn? ht]
    refine Vault.poll_induction_of_deed (deed · i) t.1 ?_
    obtain ⟨-, hv | ⟨-, request, limit, hv⟩⟩ := turn?_cases ht
    · rwa [hv]
    · rw [hv]
      exact start _ _ _ h
  | none =>
    cases b with
    | ask | turn => simp [turn?] at ht
    | draw request limit => rwa [vault_draw_of_turn? ht]
    | allow left => exact h
    | pass moment => exact advance _ _ rfl h
    | drop call => exact Vault.move_induction (deed · call) (m := .drop call) rfl h
    | resume call work => exact Vault.move_induction (deed · call) (m := .resume call work) rfl h
    | interrupt call => exact Vault.move_induction (deed · call) (m := .interrupt call) rfl h
    | setPlan plan => exact setPlan _ _ rfl h

/-- **What new calls, deeds, other plans and the passing of time keep** is so all along a course. -/
theorem course_induction (setPlan : ∀ v plan, P v → P (v.setPlan plan))
    (advance : ∀ v moment, P v → P (v.advance moment)) (h : P s.vault) (n : Nat) :
    P (s.course beats n).vault := by
  induction n with
  | zero => exact h
  | succ n ih =>
    exact beat_induction start deed (fun v plan _ => setPlan v plan)
      (fun v moment _ => advance v moment) ih

end Induction

/-! ### Key material -/

/-- One beat takes key material from the generator if it draws, and leaves it alone otherwise. -/
theorem generator_beat (s : Session) (b : Beat) :
    (s.beat b).generator = (fun g => g.generate.2)^[b.draws.toNat] s.generator := by
  cases b with
  | ask request limit =>
    rw [beat, Procedure.run_ask_eq]
    rfl
  | draw request limit =>
    rw [beat]
    cases hg : s.generator.generate with
    | mk result next =>
      have hnext : (fun g => g.generate.2)^[(Beat.draw request limit).draws.toNat] s.generator =
          next := by
        change s.generator.generate.2 = next
        rw [hg]
      rw [hnext]
      cases result with
      | material material => rw [Procedure.run_drawing_of_material hg, Procedure.run_ask_eq]
      | failed cause => rw [Procedure.run_drawing_of_failed hg]
      | breakdown => rw [Procedure.run_drawing_of_breakdown hg]
  | _ => rfl

/-- **What is drawn is gone**: the generator at any moment is what the draws up to then have left of
it, whatever has become of the calls for which they were made. -/
theorem generator_course (s : Session) (beats : Nat → Beat) (n : Nat) :
    (s.course beats n).generator =
      (fun g => g.generate.2)^[((List.range n).countP fun m => (beats m).draws)] s.generator := by
  induction n with
  | zero => rfl
  | succ n ih =>
    rw [course, generator_beat, ih, ← Function.iterate_add_apply, List.range_succ,
      List.countP_append, Nat.add_comm]
    congr 2

/-! ### A course is a run -/

/-- A beat is a run of moves. -/
theorem exists_run_beat (s : Session) (b : Beat) :
    ∃ moves, (s.beat b).vault = s.vault.run moves := by
  cases ht : s.turn? b with
  | some turn =>
    obtain ⟨i, t⟩ := turn
    obtain ⟨moves, hrun, -⟩ := Vault.follows_poll t.2 i t.1
    rw [beat_of_turn? ht, hrun]
    obtain ⟨-, hv | ⟨-, request, limit, hv⟩⟩ := turn?_cases ht
    · exact ⟨moves, by rw [hv]⟩
    · exact ⟨.start request limit :: moves, by rw [hv]; rfl⟩
  | none =>
    cases b with
    | ask | turn => simp [turn?] at ht
    | draw request limit => exact ⟨[], vault_draw_of_turn? ht⟩
    | allow left => exact ⟨[], rfl⟩
    | pass moment => exact exists_run_advance s.vault moment
    | drop call => exact ⟨[.drop call], rfl⟩
    | resume call work => exact ⟨[.resume call work], rfl⟩
    | interrupt call => exact ⟨[.interrupt call], rfl⟩
    | setPlan plan => exact ⟨[.setPlan plan], rfl⟩

/-- **From one moment of a course to a later one** there is a run of moves. -/
theorem exists_run_course (s : Session) (beats : Nat → Beat) {m n : Nat} (h : m ≤ n) :
    ∃ moves, (s.course beats n).vault = (s.course beats m).vault.run moves := by
  induction n, h using Nat.le_induction with
  | base => exact ⟨[], rfl⟩
  | succ n _ ih =>
    obtain ⟨before, hb⟩ := ih
    obtain ⟨after, ha⟩ := exists_run_beat (s.course beats n) (beats n)
    exact ⟨before ++ after, by rw [course, ha, hb, Vault.run_append]⟩

/-- All along a course the table is looked after. -/
theorem attended_course (h : s.vault.Attended) (beats : Nat → Beat) (n : Nat) :
    (s.course beats n).vault.Attended := by
  obtain ⟨moves, hrun⟩ := exists_run_course s beats (Nat.zero_le n)
  rw [hrun]
  exact h.run moves

/-- No deadline is ever missed. -/
theorem onTime_course (h : s.vault.OnTime) (beats : Nat → Beat) (n : Nat) :
    (s.course beats n).vault.OnTime :=
  course_induction (fun _ request limit h => h.start request limit)
    (fun _ _ _ _ h hc hd => h.amend hc hd) (fun _ plan h => h.setPlan plan)
    (fun _ moment h => h.advance moment) h n

/-- A call that is over stays as it is. -/
theorem calls_course_of_hasEnded {m : Nat} (h : m ≤ n)
    (he : (s.course beats m).vault.hasEnded i = true) :
    (s.course beats n).vault.calls[i]? = (s.course beats m).vault.calls[i]? := by
  obtain ⟨moves, hrun⟩ := exists_run_course s beats h
  rw [hrun]
  exact Vault.calls_run_of_hasEnded he moves

/-- **A call stays the same call**: whatever happens, only its phase is another one. -/
theorem exists_phase_course {m : Nat} {call : Call} (h : m ≤ n)
    (hc : (s.course beats m).vault.calls[i]? = some call) :
    ∃ phase, (s.course beats n).vault.calls[i]? = some { call with phase := phase } := by
  induction n, h using Nat.le_induction with
  | base => exact ⟨call.phase, hc⟩
  | succ n _ ih =>
    refine beat_induction (P := fun v => ∃ phase, v.calls[i]? = some { call with phase := phase })
      ?_ ?_ (fun _ _ _ h => h) ?_ ih
    · rintro v request limit ⟨phase, hp⟩
      have hi : i < v.calls.length := (List.getElem?_eq_some_iff.mp hp).1
      exact ⟨phase, by rw [Vault.start, List.getElem?_append_left hi, hp]⟩
    · rintro v j other e ⟨phase, hp⟩ hj -
      rcases eq_or_ne i j with rfl | hne
      · obtain rfl := Option.some.inj (hp.symm.trans hj)
        exact ⟨e.phase, Vault.amend_calls_self hj e⟩
      · exact ⟨phase, by rw [Vault.amend_calls_of_ne hne, hp]⟩
    · rintro v moment - ⟨phase, hp⟩
      exact ⟨phase, by rw [Vault.calls_advance, hp]⟩

/-! ### Turns, and beats without a turn -/

/-- Nothing but the passing of time takes time. -/
theorem now_beat_of_ne_pass (h : ∀ moment, b ≠ .pass moment) :
    (s.beat b).vault.now = s.vault.now :=
  beat_induction (P := fun v => v.now = s.vault.now) (fun _ _ _ hv => hv) (fun _ _ _ _ hv _ _ => hv)
    (fun _ _ _ hv => hv) (fun _ moment hb _ => absurd hb (h moment)) rfl

/-- A turn leaves all calls as they are but its own. -/
theorem calls_beat_of_ne {j : Nat} (h : s.turn? b = some (j, t)) (hne : i ≠ j) :
    (s.beat b).vault.calls[i]? = s.vault.calls[i]? := by
  rw [beat_of_turn? h]
  refine Vault.poll_induction_of_deed (i := j) (P := fun v => v.calls[i]? = s.vault.calls[i]?)
    (fun v other e hv _ _ => by rw [Vault.amend_calls_of_ne hne, hv]) t.1 ?_
  obtain ⟨-, hv | ⟨rfl, request, limit, hv⟩⟩ := turn?_cases h
  · rw [hv]
  · rw [hv, Vault.start, List.getElem?_append]
    split
    · rfl
    · rename_i hlt
      rw [List.getElem?_eq_none (Nat.le_of_not_lt hlt), List.getElem?_singleton, if_neg (by omega)]

/-- **The turn of a call**: it is there when the turn begins, and the same call when it ends. -/
theorem exists_call_of_turn? {call : Call} (h : s.turn? b = some (i, t))
    (hc : (s.beat b).vault.calls[i]? = some call) :
    ∃ phase, t.2.calls[i]? = some { call with phase := phase } := by
  rw [beat_of_turn? h] at hc
  cases ht : t.2.calls[i]? with
  | none =>
    have hnone : (t.2.poll i t.1).2.calls[i]? = none :=
      Vault.poll_induction_of_deed (P := fun v => v.calls[i]? = none)
        (fun _ _ _ hv hc _ => by simp [hv] at hc) t.1 ht
    simp [hnone] at hc
  | some before =>
    obtain ⟨phase, hp⟩ := Vault.exists_call_poll ht t.1
    obtain rfl := Option.some.inj (hp.symm.trans hc)
    exact ⟨before.phase, rfl⟩

/-- A beat without a turn starts no call and leaves the table alone. -/
theorem beat_of_turn?_eq_none (h : s.turn? b = none) :
    (s.beat b).vault.calls.length = s.vault.calls.length ∧
      (s.beat b).vault.table = s.vault.table := by
  cases b with
  | ask | turn => simp [turn?] at h
  | draw request limit => rw [vault_draw_of_turn? h]; exact ⟨rfl, rfl⟩
  | allow left => exact ⟨rfl, rfl⟩
  | pass moment =>
    rw [beat]
    rcases s.vault.advance_cases moment with he | ⟨he, -⟩ <;> rw [he] <;> exact ⟨rfl, rfl⟩
  | drop call =>
    rw [beat, drop, Vault.drop]
    repeat' split
    all_goals simp [Vault.release, Vault.setPhase]
  | resume call work =>
    rw [beat, Vault.resume]
    repeat' split
    all_goals simp [Vault.setPhase]
  | interrupt call =>
    rw [beat, Vault.interrupt, Vault.drop]
    repeat' split
    all_goals simp [Vault.release, Vault.setPhase]
  | setPlan plan => exact ⟨rfl, rfl⟩

/-- **A new call** has its first turn in the beat that starts it. -/
theorem exists_turn?_of_new {call : Call} (hnew : s.vault.calls[i]? = none)
    (hc : (s.beat b).vault.calls[i]? = some call) :
    s.vault.calls.length = i ∧ call.started = s.vault.now ∧
      ∃ t, s.turn? b = some (i, t) := by
  cases ht : s.turn? b with
  | none =>
    have hlt := (List.getElem?_eq_some_iff.mp hc).1
    rw [(beat_of_turn?_eq_none ht).1] at hlt
    simp [hlt] at hnew
  | some turn =>
    obtain ⟨j, t⟩ := turn
    rcases eq_or_ne i j with rfl | hne
    · obtain ⟨phase, hp⟩ := exists_call_of_turn? ht hc
      obtain ⟨-, hv | ⟨rfl, request, limit, hv⟩⟩ := turn?_cases ht
      · rw [hv, hnew] at hp
        simp at hp
      · rw [hv, Vault.start, List.getElem?_concat_length] at hp
        refine ⟨rfl, ?_, t, rfl⟩
        exact (congrArg Call.started (Option.some.inj hp)).symm
    · rw [calls_beat_of_ne ht hne, hnew] at hc
      simp at hc

end Session

end KeyLifecycle
