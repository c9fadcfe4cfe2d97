import KeyLifecycle.Proofs.Session.Fairness
import KeyLifecycle.Proofs.Session.Rounds
import KeyLifecycle.Proofs.Store.Transaction
import KeyLifecycle.Proofs.Vault.InTurn

/-!
# Limits

How long a call takes that has a limit, and what becomes of it when it takes longer. The call is one
of many in a course of the session that begins empty: it is made at some moment, has turns at some
moments and with some allowance, and the others are calls of any kind. So it is with operations of
the store that run side by side (`KeyLifecycle.Session.exists_course_together`).
`KeyLifecycle.Session.limits_are_exact_and_harmless` says that it keeps to its limit
(`Session.KeepsLimit`):

| what is said | field | from |
|---|---|---|
| it comes to its end between its start and the end of the limit | `between` | `Vault.OnTime` |
| it is answered, in a fair course | `answers` | `Session.IsFair.ends` |
| it is cancelled at the end of the limit exactly, and why | `cancelled` | `Vault.RunsOut.cases` |
| who has the table and ends in time is not cancelled | `holding` | `Vault.InTime` |
| nor who finds the table free, even with no time to spare | `unhindered` | `Vault.InTime` |
| whoever fails has changed nothing | `unchanged` | `Vault.table_poll` |
| and neither holds the table nor waits for it | `released` | `Vault.Attended` |
| but what was drawn stays drawn | `consumed` | `Session.generator_course` |

All of this depends on the turn of a call being taken before its deadline is looked at, and on turns
that go as far as the call can. The second is not always so. A turn stops where nothing is left of
the allowance; and if the time of the call is used up by then, it is cancelled where it stands,
although it waits for nobody. That is the one exception in `cancelled`, `holding` and `unhindered`,
and it does happen (`KeyLifecycle.Session.cancelled_without_waiting`).
-/

namespace KeyLifecycle

/-- **The work of a request leaves the commit to the store**, if that of a unit does. -/
theorem Request.neverCommits {request : Request} {work : Work Reply}
    (hu : ∀ name work, request = .unit name work → work.NeverCommits)
    (h : request.work? = some work) : work.NeverCommits := by
  cases request with
  | unit name work' =>
    obtain rfl := Option.some.inj h
    exact hu name _ rfl
  | create owner material =>
    obtain rfl := Option.some.inj h
    exact fun _ => trivial
  | delete owner key =>
    obtain rfl := Option.some.inj h
    rintro (_ | _) <;> exact trivial
  | rotate owner key material =>
    obtain rfl := Option.some.inj h
    rintro (_ | _)
    · exact trivial
    · exact fun _ => trivial
  | _ => simp [work?] at h

namespace Vault

variable {plans : FailurePlan → Prop} {v : Vault} {i : Nat} {call : Call} {e : Effect}

/-! ### Changes of the table -/

/-- **A deed of a call that leaves the commit to the store** leaves the table alone, or answers the
call `ok`. -/
theorem Deed.table_eq_or_granted (hd : v.Deed i call e) (hv : v.Orderly plans)
    (hc : v.calls[i]? = some call) (hl : call.request ≠ .lease)
    (hu : ∀ name work, call.request = .unit name work → work.NeverCommits) :
    e.table = v.table ∨ ∃ reply, e.phase = .answered (.ok reply) := by
  cases hd with
  | look | succeed => exact Or.inr ⟨_, rfl⟩
  | commit hp ho =>
    obtain ⟨work, hwork⟩ := (hv.works hc (by rw [hp, Phase.inside?])).resolve_left hl
    have hreached := hv.copies hc hwork (by rw [hp, Phase.inside?]) ho
    have hno := hreached.neverCommits (Request.neverCommits hu hwork)
    exact False.elim hno
  | _ => exact Or.inl rfl

/-- **A turn of such a call** leaves the table alone, or the call has been answered `ok` after
it. -/
theorem table_poll (hv : v.Orderly plans)
    (hcall : ∀ call, v.calls[i]? = some call →
      call.request ≠ .lease ∧ ∀ name work, call.request = .unit name work → work.NeverCommits)
    (left : Nat) : (v.poll i left).2.table = v.table ∨ (v.poll i left).2.IsGranted i := by
  suffices h : (v.poll i left).2.Orderly plans ∧
      (∀ call, (v.poll i left).2.calls[i]? = some call →
        call.request ≠ .lease ∧ ∀ name work, call.request = .unit name work → work.NeverCommits) ∧
      ((v.poll i left).2.table = v.table ∨ (v.poll i left).2.IsGranted i) from h.2.2
  refine poll_induction_of_deed (P := fun w => w.Orderly plans ∧
    (∀ call, w.calls[i]? = some call →
      call.request ≠ .lease ∧ ∀ name work, call.request = .unit name work → work.NeverCommits) ∧
    (w.table = v.table ∨ w.IsGranted i)) ?_ left ⟨hv, hcall, Or.inl rfl⟩
  rintro w call e ⟨hw, hall, hsame⟩ hc hd
  obtain ⟨hl, hu⟩ := hall call hc
  refine ⟨hw.amend hc hd, fun other hother => ?_, ?_⟩
  · obtain rfl := Option.some.inj ((amend_calls_self hc e).symm.trans hother)
    exact ⟨hl, hu⟩
  · -- whoever has been answered does nothing any more
    have hbefore := hsame.resolve_right fun hgranted => by
      have hended := hgranted.hasEnded
      simp [hasEnded_eq hc, hd.isLive] at hended
    rcases hd.table_eq_or_granted hw hc hl hu with ht | ⟨reply, hp⟩
    · exact Or.inl (ht.trans hbefore)
    · exact Or.inr ⟨_, reply, amend_calls_self hc e, hp⟩

end Vault

namespace Session

variable {s : Session} {beats : Nat → Beat} {b : Beat} {i m n : Nat} {t : Vault.Turn} {call : Call}
  {limit : Span}

/-! ### What a limit does -/

/-- A call is made in a beat. -/
def BeginsIn (s : Session) (beats : Nat → Beat) (i m : Nat) : Prop :=
  (s.course beats m).vault.calls.length = i ∧ i < (s.course beats (m + 1)).vault.calls.length

/-- A call comes to its end in a beat. -/
def EndsIn (s : Session) (beats : Nat → Beat) (i m : Nat) : Prop :=
  (s.course beats m).vault.hasEnded i = false ∧ (s.course beats (m + 1)).vault.hasEnded i = true

/-- **A call keeps to its limit**, and is harmless if it is cancelled. -/
structure KeepsLimit (s : Session) (beats : Nat → Beat) (i : Nat) (call : Call) (limit : Span) :
    Prop where
  /-- It was made at some moment, and had its first turn then. -/
  begun : ∃ m t, s.BeginsIn beats i m ∧ (s.course beats m).turn? (beats m) = some (i, t) ∧
    (s.course beats m).vault.now = call.started
  /-- If it comes to its end, then between that moment and the end of its limit. -/
  between {m : Nat} (h : s.EndsIn beats i m) :
    call.started ≤ (s.course beats m).vault.now ∧
      (s.course beats m).vault.now ≤ call.started + limit ∧
      (s.course beats (m + 1)).vault.now = (s.course beats m).vault.now
  /-- In a fair course it is answered, if nobody gives it up. -/
  answers (hfair : s.IsFair beats) (hkept : ∀ m, beats m ≠ .drop i ∧ beats m ≠ .interrupt i) :
    ∃ m answer, s.EndsIn beats i m ∧ (s.course beats (m + 1)).vault.answer? i = some answer
  /-- If it is cancelled, this is in a turn of its own, at the end of its limit exactly, and it has
  not come into the table yet or is still inside of its work. It has gone as far as it can then: it
  waits for the table, which somebody else has, or pauses in its work until later, or the allowance
  has stopped it. Or else its work has failed so by itself. -/
  cancelled {m : Nat} {operation : String} (h : s.EndsIn beats i m)
    (ha : (s.course beats (m + 1)).vault.answer? i = some (.error (.cancelled operation))) :
    ∃ t, (s.course beats m).turn? (beats m) = some (i, t) ∧
      ((Vault.drain i t).2.answer? i = some (.error (.cancelled operation)) ∨
        (Vault.RunsOut i t ∧ (s.course beats m).vault.now = call.started + limit ∧
          ∃ phase, (Vault.drain i t).2.calls[i]? = some { call with phase := phase } ∧
            (phase.way ≤ 2 ∨ ∃ work handle, phase.inside? = some (work, handle)) ∧
            ((phase = .waiting ∧ (Vault.drain i t).2.lock.holder ≠ some i) ∨
              (∃ wake work handle,
                phase = .paused wake work handle ∧ call.started + limit < wake) ∨
              (Vault.drain i t).1 = 0)))
  /-- Once it has the table and its work ends within the limit, it does not run out of time, unless
  the allowance stops it. -/
  holding {n m : Nat} {t : Vault.Turn} {early : Call} {plans : FailurePlan → Prop}
    (hc : (s.course beats n).vault.calls[i]? = some early)
    (hh : (s.course beats n).vault.lock.holder = some i)
    (hplan : plans (s.course beats n).vault.plan)
    (hset : ∀ m plan, n ≤ m → beats m = .setPlan plan → plans plan)
    (hends : (s.course beats n).vault.EndsBy plans (call.started + limit) early) (hm : n ≤ m)
    (ht : (s.course beats m).turn? (beats m) = some (i, t)) (hout : Vault.RunsOut i t) :
    (Vault.drain i t).1 = 0
  /-- If it finds the table free and its work does not pause, it is through in its first turn before
  the limit is looked at, unless the allowance stops it. -/
  unhindered {m : Nat} {t : Vault.Turn} (hfirst : s.BeginsIn beats i m)
    (ht : (s.course beats m).turn? (beats m) = some (i, t))
    (hfree : (s.course beats m).vault.lock.holder = none)
    (hends : ∀ work, call.request.work? = some work →
      work.EndsBy (· = (s.course beats m).vault.plan) call.started
        (.opened (s.course beats m).vault.table) call.started) :
    (Vault.drain i t).2.hasEnded i = true ∨ (Vault.drain i t).1 = 0
  /-- If it is answered by a failure, and leaves the commit to the store, then whatever has changed
  the rows or the last number was a turn of somebody else. -/
  unchanged {n m : Nat} {cause : Failure}
    (hu : ∀ name work, call.request = .unit name work → work.NeverCommits)
    (ha : (s.course beats n).vault.answer? i = some (.error cause))
    (hne : (s.course beats (m + 1)).vault.table ≠ (s.course beats m).vault.table) :
    ∃ j t, j ≠ i ∧ (s.course beats m).turn? (beats m) = some (j, t)
  /-- Once it is answered it neither holds the table nor waits for it. -/
  released {n : Nat} {answer : Except Failure Reply}
    (ha : (s.course beats n).vault.answer? i = some answer) :
    (s.course beats n).vault.lock.holder ≠ some i ∧ i ∉ (s.course beats n).vault.lock.queue
  /-- What has been drawn stays drawn, for this call as for any other. -/
  consumed (n : Nat) : (s.course beats n).generator =
    (fun g => g.generate.2)^[((List.range n).countP fun m => (beats m).draws)] s.generator

/-! ### How a call comes to its end -/

/-- A call is ended by a move of its own. -/
theorem call?_eq_of_ends {v : Vault} {m : Move} (hlive : v.hasEnded i = false)
    (hended : (v.move m).hasEnded i = true) : m.call? = some i := by
  by_contra hm
  obtain ⟨call, hc, hl⟩ := Vault.exists_of_hasEnded hended
  rcases Vault.move_calls_cases hm hc with hsame | ⟨-, hfirst⟩
  · rw [Vault.hasEnded_eq hsame, hl] at hlive
    simp at hlive
  · cases hr : call.request <;> simp [Call.isLive, hfirst, hr, Request.firstPhase] at hl

/-- Whoever is asked for more work is at work then. -/
theorem hasEnded_resume {v : Vault} {work : Work Reply} (hlive : v.hasEnded i = false) :
    (v.resume i work).hasEnded i = false := by
  rw [Vault.resume]
  split
  · exact hlive
  · rename_i call hc
    split
    · rw [Vault.hasEnded_eq (Vault.setPhase_calls_self hc _)]
      rfl
    · exact hlive

/-- **A call comes to its end in a turn of its own**, or is given up. -/
theorem ends_cases (hlive : s.vault.hasEnded i = false)
    (hended : (s.beat b).vault.hasEnded i = true) :
    (∃ t, s.turn? b = some (i, t)) ∨ b = .drop i ∨ b = .interrupt i := by
  have same {v : Vault} (h : v.calls = s.vault.calls) (hv : v.hasEnded i = true) : False := by
    rw [Vault.hasEnded, h, ← Vault.hasEnded, hlive] at hv
    simp at hv
  cases ht : s.turn? b with
  | some turn =>
    obtain ⟨j, t⟩ := turn
    rcases eq_or_ne i j with rfl | hne
    · exact Or.inl ⟨t, rfl⟩
    · rw [Vault.hasEnded_of_eq (calls_beat_of_ne ht hne), hlive] at hended
      simp at hended
  | none =>
    refine Or.inr ?_
    cases b with
    | ask | turn => simp [turn?] at ht
    | draw request limit => exact (same (by rw [vault_draw_of_turn? ht]) hended).elim
    | allow left => exact (same rfl hended).elim
    | pass moment => exact (same (s.vault.calls_advance moment) hended).elim
    | setPlan plan => exact (same rfl hended).elim
    | drop call =>
      obtain rfl := Option.some.inj (call?_eq_of_ends (m := .drop call) hlive hended)
      exact Or.inl rfl
    | interrupt call =>
      obtain rfl := Option.some.inj (call?_eq_of_ends (m := .interrupt call) hlive hended)
      exact Or.inr rfl
    | resume call work =>
      obtain rfl := Option.some.inj (call?_eq_of_ends (m := .resume call work) hlive hended)
      rw [beat, hasEnded_resume hlive] at hended
      simp at hended

/-- Whoever is given up has no answer. -/
theorem answer?_of_drop {v : Vault} (hlive : v.hasEnded i = false)
    (hended : (v.drop i).hasEnded i = true) : (v.drop i).answer? i = none := by
  cases hc : v.calls[i]? with
  | none =>
    have hsame : v.drop i = v := Vault.move_of_absent (m := .drop i) rfl hc
    simp [hsame, hlive] at hended
  | some call =>
    have hcall : call.isLive = true := by simpa [Vault.hasEnded_eq hc] using hlive
    rw [Vault.drop, hc]
    dsimp only
    rw [if_pos hcall, Vault.answer?, Vault.setPhase_calls_self (v := v.release i) hc]
    rfl

/-- **Whoever is given up has no answer**, unless they are a lease. -/
theorem answer?_of_givenUp (hlive : s.vault.hasEnded i = false)
    (hended : (s.beat b).vault.hasEnded i = true) (hb : b = .drop i ∨ b = .interrupt i)
    (hl : ∀ call, s.vault.calls[i]? = some call → call.request ≠ .lease) :
    (s.beat b).vault.answer? i = none := by
  rcases hb with rfl | rfl
  · exact answer?_of_drop hlive hended
  · have hgiven : s.vault.interrupt i = s.vault.drop i := by
      rw [Vault.interrupt]
      split
      · rename_i hnone
        exact (Vault.move_of_absent (m := .drop i) rfl hnone).symm
      · rename_i call hc
        split
        · rename_i hr _
          exact absurd hr (hl call hc)
        · rename_i hr _
          exact absurd hr (hl call hc)
        · rfl
    rw [beat, hgiven] at hended ⊢
    exact answer?_of_drop hlive hended

/-- **Whoever has asked for the table and is in time** stays so from beat to beat. -/
theorem inTime_beat {plans : FailurePlan → Prop} {moment : Nat} (hl : call.request ≠ .lease)
    (hset : ∀ plan, b = .setPlan plan → plans plan)
    (h : s.vault.OnTime ∧ plans s.vault.plan ∧ ∃ phase, (phase ≠ .checking ∧ phase ≠ .asking) ∧
      s.vault.InTime plans moment i { call with phase := phase }) :
    (s.beat b).vault.OnTime ∧ plans (s.beat b).vault.plan ∧
      ∃ phase, (phase ≠ .checking ∧ phase ≠ .asking) ∧
        (s.beat b).vault.InTime plans moment i { call with phase := phase } := by
  refine beat_induction (P := fun v => v.OnTime ∧ plans v.plan ∧
    ∃ phase, (phase ≠ .checking ∧ phase ≠ .asking) ∧
      v.InTime plans moment i { call with phase := phase }) ?_ ?_ ?_ ?_ h
  · rintro v request limit ⟨hv, hp, phase, hasked, hin⟩
    exact ⟨hv.start request limit, hp, phase, hasked, hin.start request limit⟩
  · rintro v j other e ⟨hv, hp, phase, hasked, hin⟩ hj hd
    rcases eq_or_ne i j with rfl | hne
    · obtain rfl := Option.some.inj (hin.here.symm.trans hj)
      exact ⟨hv.amend hj hd, hp, e.phase, hd.past hasked, hin.amend hv hp hl hd⟩
    · exact ⟨hv.amend hj hd, hp, phase, hasked, hin.others hv hasked hj hd hne⟩
  · rintro v plan hb ⟨hv, -, phase, hasked, hin⟩
    exact ⟨hv.setPlan plan, hset plan hb, phase, hasked, hin.here, hin.admitted, hin.unrivalled,
      hin.ends⟩
  · rintro v later - ⟨hv, hp, phase, hasked, hin⟩
    refine ⟨hv.advance later, ?_, phase, hasked, hin.advance later⟩
    rcases v.advance_cases later with he | ⟨he, -⟩ <;> rw [he] <;> exact hp

/-! ### From the beginning to the end -/

/-- **A call was made in one of the beats before.** -/
theorem exists_beginsIn (hs : s.vault.calls = [])
    (hc : (s.course beats n).vault.calls[i]? = some call) :
    ∃ m, m < n ∧ s.BeginsIn beats i m ∧ (s.course beats m).vault.calls[i]? = none ∧
      ∃ phase, (s.course beats (m + 1)).vault.calls[i]? = some { call with phase := phase } := by
  induction n generalizing call with
  | zero => simp [course, hs] at hc
  | succ n ih =>
    cases hbefore : (s.course beats n).vault.calls[i]? with
    | none =>
      obtain ⟨hlength, -⟩ := exists_turn?_of_new hbefore hc
      exact ⟨n, Nat.lt_succ_self n, ⟨hlength, (List.getElem?_eq_some_iff.mp hc).1⟩, hbefore,
        call.phase, hc⟩
    | some before =>
      obtain ⟨phase, hp⟩ := exists_phase_course (Nat.le_succ n) hbefore
      obtain rfl := Option.some.inj (hp.symm.trans hc)
      obtain ⟨m, hm, hbegin, hnone, first, hfirst⟩ := ih hbefore
      exact ⟨m, by omega, hbegin, hnone, first, hfirst⟩

/-- **What is over has come to its end** in one of the beats before. -/
theorem exists_endsIn (hs : s.vault.calls = [])
    (h : (s.course beats n).vault.hasEnded i = true) : ∃ m, m < n ∧ s.EndsIn beats i m := by
  induction n with
  | zero => simp [course, Vault.hasEnded, hs] at h
  | succ n ih =>
    cases hbefore : (s.course beats n).vault.hasEnded i with
    | true =>
      obtain ⟨m, hm, hend⟩ := ih hbefore
      exact ⟨m, by omega, hend⟩
    | false => exact ⟨n, Nat.lt_succ_self n, hbefore, h⟩

/-- Two looks at a call see the same call. -/
theorem exists_phase_eq {other : Call} (hc : (s.course beats n).vault.calls[i]? = some call)
    (ho : (s.course beats m).vault.calls[i]? = some other) :
    ∃ phase, other = { call with phase := phase } := by
  rcases Nat.le_total m n with h | h
  · obtain ⟨phase, hp⟩ := exists_phase_course h ho
    obtain rfl := Option.some.inj (hp.symm.trans hc)
    exact ⟨other.phase, rfl⟩
  · obtain ⟨phase, hp⟩ := exists_phase_course h hc
    exact ⟨phase, Option.some.inj (ho.symm.trans hp)⟩

/-- No deadline has been missed when a turn begins, and no time has passed since the beat began. -/
theorem onTime_of_turn? (h : s.vault.OnTime) (ht : s.turn? b = some (i, t)) :
    t.2.OnTime ∧ t.2.now = s.vault.now ∧ t.2.hasEnded i = s.vault.hasEnded i := by
  obtain ⟨-, hv | ⟨-, request, limit, hv⟩⟩ := turn?_cases ht
  · rw [hv]
    exact ⟨h, rfl, rfl⟩
  · rw [hv]
    exact ⟨h.start request limit, rfl, Vault.hasEnded_start _ request limit i⟩

/-! ### One call of a course -/

section Call

variable (hs : s.vault.OnTime) (hnil : s.vault.calls = [])
  (hc : (s.course beats n).vault.calls[i]? = some call) (hl : call.request ≠ .lease)
  (hd : call.limit = some limit)

include hc

/-- In its turns the call is what it is at any other time. -/
theorem exists_call_in_turn (ht : (s.course beats m).turn? (beats m) = some (i, t))
    (hthere : i < (s.course beats (m + 1)).vault.calls.length) :
    ∃ phase, t.2.calls[i]? = some { call with phase := phase } := by
  have hafter := List.getElem?_eq_getElem hthere
  obtain ⟨later, hlater⟩ := exists_phase_eq hc hafter
  obtain ⟨phase, hp⟩ := exists_call_of_turn? ht hafter
  rw [hlater] at hp
  exact ⟨phase, hp⟩

include hnil in
/-- **It was made in some beat**, and had its first turn in it. -/
theorem exists_begin : ∃ m t, s.BeginsIn beats i m ∧
    (s.course beats m).turn? (beats m) = some (i, t) ∧
    (s.course beats m).vault.now = call.started := by
  obtain ⟨m, -, hbegin, hnone, phase, hp⟩ := exists_beginsIn hnil hc
  obtain ⟨-, hstarted, t, ht⟩ := exists_turn?_of_new hnone hp
  exact ⟨m, t, hbegin, ht, hstarted.symm⟩

include hs hl hd in
/-- **It comes to its end between its start and its deadline.** -/
theorem EndsIn.between (h : s.EndsIn beats i m) :
    call.started ≤ (s.course beats m).vault.now ∧
      (s.course beats m).vault.now ≤ call.started + limit ∧
      (s.course beats (m + 1)).vault.now = (s.course beats m).vault.now := by
  obtain ⟨hlive, hended⟩ := h
  have hnow : (s.course beats (m + 1)).vault.now = (s.course beats m).vault.now := by
    refine now_beat_of_ne_pass fun moment hb => ?_
    rcases ends_cases hlive hended with ⟨t, ht⟩ | hdrop | hdrop
    · simp [hb, turn?] at ht
    · simp [hb] at hdrop
    · simp [hb] at hdrop
  obtain ⟨final, hfinal, -⟩ := Vault.exists_of_hasEnded hended
  obtain ⟨phase, hphase⟩ := exists_phase_eq hc hfinal
  rw [hphase] at hfinal
  cases hbefore : (s.course beats m).vault.calls[i]? with
  | none =>
    obtain ⟨-, hstarted, -⟩ := exists_turn?_of_new hbefore hfinal
    dsimp only at hstarted
    omega
  | some before =>
    obtain ⟨early, rfl⟩ := exists_phase_eq hc hbefore
    have hontime := onTime_course hs beats m
    have hbegun := hontime.begun hbefore
    have hdue := hontime.due hbefore hl (by simpa [Vault.hasEnded_eq hbefore] using hlive) hd
    exact ⟨hbegun, hdue, hnow⟩

include hs hl hd in
/-- **If it is cancelled**, it has run out of time in a turn of its own, or its work has failed so
by itself. -/
theorem EndsIn.cancelled {operation : String} (h : s.EndsIn beats i m)
    (ha : (s.course beats (m + 1)).vault.answer? i = some (.error (.cancelled operation))) :
    ∃ t, (s.course beats m).turn? (beats m) = some (i, t) ∧
      ((Vault.drain i t).2.answer? i = some (.error (.cancelled operation)) ∨
        (Vault.RunsOut i t ∧ (s.course beats m).vault.now = call.started + limit ∧
          ∃ phase, (Vault.drain i t).2.calls[i]? = some { call with phase := phase } ∧
            (phase.way ≤ 2 ∨ ∃ work handle, phase.inside? = some (work, handle)) ∧
            ((phase = .waiting ∧ (Vault.drain i t).2.lock.holder ≠ some i) ∨
              (∃ wake work handle,
                phase = .paused wake work handle ∧ call.started + limit < wake) ∨
              (Vault.drain i t).1 = 0))) := by
  obtain ⟨hlive, hended⟩ := h
  rcases ends_cases hlive hended with ⟨⟨left, v⟩, ht⟩ | hdrop | hdrop
  · refine ⟨_, ht, ?_⟩
    obtain ⟨final, hfinal, -⟩ := Vault.exists_of_hasEnded hended
    obtain ⟨phase, hp⟩ := exists_call_in_turn hc ht (List.getElem?_eq_some_iff.mp hfinal).1
    obtain ⟨hontime, hnow, -⟩ := onTime_of_turn? (onTime_course hs beats m) ht
    by_cases hout : Vault.RunsOut i (left, v)
    · obtain ⟨hdeadline, later, hlater, hheld⟩ := hout.cases hontime hp hl hd
      exact Or.inr ⟨hout, hnow.symm.trans hdeadline, later, hlater, hheld⟩
    · refine Or.inl ?_
      rw [course, Vault.answer?, beat_of_turn? ht, Vault.poll_eq_drain hout] at ha
      exact ha
  all_goals
    have hnone := answer?_of_givenUp hlive hended (by simp [hdrop]) fun before hbefore => by
      obtain ⟨early, rfl⟩ := exists_phase_eq hc hbefore
      exact hl
    exact absurd (hnone.symm.trans ha) (by simp)

include hs hl hd in
/-- **Once it has the table**, and its work ends within the limit, it does not run out of time. -/
theorem drain_of_holding {k : Nat} {early : Call} {plans : FailurePlan → Prop}
    (hattended : (s.course beats k).vault.Attended)
    (hearly : (s.course beats k).vault.calls[i]? = some early)
    (hh : (s.course beats k).vault.lock.holder = some i)
    (hplan : plans (s.course beats k).vault.plan)
    (hset : ∀ m plan, k ≤ m → beats m = .setPlan plan → plans plan)
    (hends : (s.course beats k).vault.EndsBy plans (call.started + limit) early) (hm : k ≤ m)
    (ht : (s.course beats m).turn? (beats m) = some (i, t)) (hout : Vault.RunsOut i t) :
    (Vault.drain i t).1 = 0 := by
  obtain ⟨phase, rfl⟩ := exists_phase_eq hc hearly
  -- whoever has the table has asked for it
  have hasked : phase ≠ .checking ∧ phase ≠ .asking := by
    have hclaims := (hattended.mem_line i).mp (Lock.mem_line.mpr (Or.inl hh))
    rw [Vault.claims_eq hearly] at hclaims
    constructor <;> rintro rfl <;> simp [Phase.claims, Phase.handle?] at hclaims
  obtain ⟨hontime, hnow, later, -, hin⟩ : (s.course beats m).vault.OnTime ∧
      plans (s.course beats m).vault.plan ∧ ∃ phase, (phase ≠ .checking ∧ phase ≠ .asking) ∧
        (s.course beats m).vault.InTime plans (call.started + limit) i
          { call with phase := phase } := by
    clear ht hout
    induction m, hm using Nat.le_induction with
    | base =>
      exact ⟨onTime_course hs beats k, hplan, phase, hasked, hearly, fun _ => hh,
        fun hp => by simp_all, hends⟩
    | succ m hm ih => exact inTime_beat hl (fun plan hb => hset m plan hm hb) ih
  obtain ⟨left, v⟩ := t
  obtain ⟨-, hv | ⟨rfl, -⟩⟩ := turn?_cases ht
  · obtain rfl : v = (s.course beats m).vault := hv
    exact hin.drain_eq_zero rfl hontime hnow hl hd hout
  · have hlt := (List.getElem?_eq_some_iff.mp hin.here).1
    exact absurd hlt (Nat.lt_irrefl _)

include hs hnil hl hd in
/-- **In a fair course it is answered**, if nobody gives it up. -/
theorem IsFair.exists_answer (h : s.IsFair beats)
    (hkept : ∀ m, beats m ≠ .drop i ∧ beats m ≠ .interrupt i) :
    ∃ m answer, s.EndsIn beats i m ∧ (s.course beats (m + 1)).vault.answer? i = some answer := by
  obtain ⟨last, hlast⟩ := h.ends hs hc hl hd
  obtain ⟨m, -, hlive, hended⟩ := exists_endsIn hnil hlast
  rcases ends_cases hlive hended with ⟨t, ht⟩ | hdrop | hdrop
  · obtain ⟨-, -, hbefore⟩ := onTime_of_turn? (onTime_course hs beats m) ht
    -- whoever has not been dropped before their turn is not dropped in it
    have hkept : t.2.phase? i ≠ some .dropped := fun hp => by
      obtain ⟨other, hother, hdropped⟩ := Vault.exists_of_phase? hp
      rw [hlive, Vault.hasEnded_eq hother, Call.isLive, hdropped] at hbefore
      simp at hbefore
    have hafter : (s.course beats (m + 1)).vault.phase? i ≠ some .dropped := by
      rw [course, beat_of_turn? ht]
      exact Vault.phase?_poll_ne hkept t.1
    obtain ⟨final, hfinal, hend⟩ := Vault.exists_of_hasEnded hended
    cases hp : final.phase with
    | answered answer =>
      refine ⟨m, answer, ⟨hlive, hended⟩, ?_⟩
      rw [Vault.answer?, hfinal, Option.bind_some, Call.answer?, hp]
    | dropped => exact absurd (by rw [Vault.phase?_eq hfinal, hp]) hafter
    | _ => simp [Call.isLive, hp] at hend
  · exact absurd hdrop (hkept m).1
  · exact absurd hdrop (hkept m).2

include hs hl in
/-- **If it finds the table free and its work does not pause**, it is through in its first turn. -/
theorem BeginsIn.hasEnded_drain (h : s.BeginsIn beats i m)
    (ht : (s.course beats m).turn? (beats m) = some (i, t))
    (hfree : (s.course beats m).vault.lock.holder = none)
    (hends : ∀ work, call.request.work? = some work →
      work.EndsBy (· = (s.course beats m).vault.plan) call.started
        (.opened (s.course beats m).vault.table) call.started) :
    (Vault.drain i t).2.hasEnded i = true ∨ (Vault.drain i t).1 = 0 := by
  obtain ⟨hlength, hthere⟩ := h
  obtain ⟨hontime, hnow, -⟩ := onTime_of_turn? (onTime_course hs beats m) ht
  obtain ⟨phase, hp⟩ := exists_call_in_turn hc ht hthere
  obtain ⟨left, v⟩ := t
  obtain ⟨-, hv | ⟨-, request, limit', hv⟩⟩ := turn?_cases ht
  · -- it was not there before
    dsimp only at hv hp
    rw [hv, List.getElem?_eq_none (Nat.le_of_eq hlength)] at hp
    simp at hp
  dsimp only at hv hp hontime hnow
  have hfirst : ({ call with phase := phase } : Call) =
      ⟨request, (s.course beats m).vault.now, limit', request.firstPhase⟩ := by
    rw [hv, Vault.start, ← hlength, List.getElem?_concat_length] at hp
    exact (Option.some.inj hp).symm
  obtain ⟨hrequest, hstarted, -, hphase⟩ := Call.mk.inj hfirst
  have hasks : phase = .checking ∨ phase = .asking := by
    rw [hphase]
    cases request <;> simp [Request.firstPhase]
  have hin : v.InTime (· = (s.course beats m).vault.plan) call.started i
      { call with phase := phase } := by
    refine ⟨hp, fun hwaits => ?_, fun _ => by rw [hv]; exact hfree, ?_⟩
    · dsimp only at hwaits
      simp [hwaits] at hasks
    · rw [Vault.EndsBy]
      have htable : v.table = (s.course beats m).vault.table := by rw [hv]; rfl
      rcases hasks with rfl | rfl <;> (dsimp only; rw [htable, hnow, ← hstarted]; exact hends)
  refine Classical.or_iff_not_imp_right.mpr fun hrest => ?_
  refine hin.hasEnded_drain hontime (by rw [hv]; rfl) hl ?_ (Nat.pos_of_ne_zero hrest)
  rw [hnow, hstarted]

include hs hl in
/-- **A turn of it** leaves the table alone, or it has been answered `ok` after it. -/
theorem table_of_turn? (hu : ∀ name work, call.request = .unit name work → work.NeverCommits)
    (ht : (s.course beats m).turn? (beats m) = some (i, t)) :
    (s.course beats (m + 1)).vault.table = (s.course beats m).vault.table ∨
      (s.course beats (m + 1)).vault.IsGranted i := by
  have hcall (other : Call) (hother : t.2.calls[i]? = some other) :
      other.request ≠ .lease ∧
        ∀ name work, other.request = .unit name work → work.NeverCommits := by
    obtain ⟨phase, hp⟩ := Vault.exists_call_poll hother t.1
    rw [← beat_of_turn? ht] at hp
    obtain ⟨later, hlater⟩ := exists_phase_eq (m := m + 1) hc hp
    have hrequest : other.request = call.request := (Call.mk.inj hlater).1
    rw [hrequest]
    exact ⟨hl, hu⟩
  obtain ⟨hontime, -, -⟩ := onTime_of_turn? (onTime_course hs beats m) ht
  have hafter := Vault.table_poll hontime.orderly hcall t.1
  have htable : t.2.table = (s.course beats m).vault.table := by
    obtain ⟨-, hv | ⟨-, request, limit, hv⟩⟩ := turn?_cases ht <;> rw [hv]
    rfl
  rwa [← beat_of_turn? ht, htable] at hafter

include hs hl in
/-- If it is answered by a failure at some moment, it is not answered `ok` at any. -/
theorem not_isGranted_of_answer? {k : Nat} {cause : Failure}
    (ha : (s.course beats k).vault.answer? i = some (.error cause)) (m : Nat) :
    ¬(s.course beats m).vault.IsGranted i := by
  intro hgranted
  cases hk : (s.course beats k).vault.calls[i]? with
  | none => simp [Vault.answer?, hk] at ha
  | some other =>
    obtain ⟨phase, rfl⟩ := exists_phase_eq hc hk
    have hfailed : phase = .answered (.error cause) :=
      ((onTime_course hs beats k).orderly.answer?_eq_some hk hl).mp ha
    have hboth : (s.course beats k).vault.IsGranted i := by
      rcases Nat.le_total m k with hle | hle
      · rwa [Vault.isGranted_of_eq (calls_course_of_hasEnded hle hgranted.hasEnded)]
      · refine (Vault.isGranted_of_eq (calls_course_of_hasEnded hle ?_)).mp hgranted
        rw [Vault.hasEnded_eq hk, hfailed]
        rfl
    obtain ⟨final, reply, hfinal, hok⟩ := hboth
    obtain rfl := Option.some.inj (hk.symm.trans hfinal)
    simp [hfailed] at hok

include hs hl in
/-- **If it is answered by a failure**, whatever has changed the table was a turn of somebody
else. -/
theorem exists_turn_of_table_ne {cause : Failure}
    (hu : ∀ name work, call.request = .unit name work → work.NeverCommits)
    {k : Nat} (ha : (s.course beats k).vault.answer? i = some (.error cause))
    (hne : (s.course beats (m + 1)).vault.table ≠ (s.course beats m).vault.table) :
    ∃ j t, j ≠ i ∧ (s.course beats m).turn? (beats m) = some (j, t) := by
  cases ht : (s.course beats m).turn? (beats m) with
  | none => exact absurd (beat_of_turn?_eq_none ht).2 hne
  | some turn =>
    obtain ⟨j, t⟩ := turn
    refine ⟨j, t, ?_, rfl⟩
    rintro rfl
    have hgranted := (table_of_turn? hs hc hl hu ht).resolve_left hne
    exact not_isGranted_of_answer? hs hc hl ha (m + 1) hgranted

include hs hl in
/-- **Once it is answered** it neither holds the table nor waits for it. -/
theorem holder_ne_of_answer? (hattended : s.vault.Attended) {answer : Except Failure Reply}
    (ha : (s.course beats m).vault.answer? i = some answer) :
    (s.course beats m).vault.lock.holder ≠ some i ∧ i ∉ (s.course beats m).vault.lock.queue := by
  cases hm : (s.course beats m).vault.calls[i]? with
  | none => simp [Vault.answer?, hm] at ha
  | some other =>
    obtain ⟨phase, rfl⟩ := exists_phase_eq hc hm
    have hp := ((onTime_course hs beats m).orderly.answer?_eq_some hm hl).mp ha
    have hno : i ∉ (s.course beats m).vault.lock.line := by
      rw [(attended_course hattended beats m).mem_line, Vault.claims_eq hm, hp]
      simp [Phase.claims, Phase.handle?]
    rw [Lock.mem_line, not_or] at hno
    exact hno

end Call

/-- **Limits are exact and harmless.** In whatever course a session takes from its beginning, every
call that has a limit keeps to it. -/
theorem limits_are_exact_and_harmless (directory : Directory) (generator : Generator)
    (beats : Nat → Beat)
    (hc : ((start directory generator).course beats n).vault.calls[i]? = some call)
    (hl : call.request ≠ .lease) (hd : call.limit = some limit) :
    (start directory generator).KeepsLimit beats i call limit where
  begun := exists_begin rfl hc
  between h := h.between Vault.OnTime.empty hc hl hd
  answers h hkept := h.exists_answer Vault.OnTime.empty rfl hc hl hd hkept
  cancelled h ha := h.cancelled Vault.OnTime.empty hc hl hd ha
  holding hearly hh hplan hset hends hm ht hout :=
    drain_of_holding Vault.OnTime.empty hc hl hd
      (attended_course Vault.attended_empty beats _) hearly hh hplan hset hends hm ht hout
  unhindered h ht hfree hends := h.hasEnded_drain Vault.OnTime.empty hc hl ht hfree hends
  unchanged hu ha hne := exists_turn_of_table_ne Vault.OnTime.empty hc hl hu ha hne
  released ha := holder_ne_of_answer? Vault.OnTime.empty hc hl Vault.attended_empty ha
  consumed := generator_course _ beats

/-- A unit of work has the table for 50 ms, and a key is to be created within 20 ms meanwhile. -/
def heldUp : Nat → Beat
  | 0 => .ask (.unit "hold" (.pause 50 (.done .done))) none
  | 1 => .draw (.create ⟨1⟩) (some 20)
  | 2 => .pass 20
  | 3 => .turn 1
  | _ => .allow allowance

/-- A generator that has one key. -/
def oneKey : Generator := .scripted [.ok ⟨⟨"a", by decide⟩, ⟨[1]⟩⟩]

/-- A key that is created while the table is held for longer than its limit is cancelled at the end
of the limit. -/
theorem limits_are_exact_and_harmless_create :
    ∃ call, ((start .empty oneKey).course heldUp 4).vault.calls[1]? = some call ∧
      call.request ≠ .lease ∧ call.limit = some 20 ∧
      (start .empty oneKey).KeepsLimit heldUp 1 call 20 ∧
      (((start .empty oneKey).course heldUp 4).vault.answer? 1).map (Except.map fun _ => ()) =
        some (.error (.cancelled "create api key")) ∧
      ((start .empty oneKey).course heldUp 4).vault.now = 20 := by
  have h : ((start .empty oneKey).course heldUp 4).vault.calls[1]?.any (fun call =>
      call.request.work?.isSome && call.limit = some 20) = true := by
    decide +kernel
  obtain ⟨call, hc, hcall⟩ := (Option.any_eq_true _ _).mp h
  rw [Bool.and_eq_true, decide_eq_true_eq] at hcall
  obtain ⟨hr, hd⟩ := hcall
  have hl : call.request ≠ .lease := by
    intro hlease
    simp [hlease, Request.work?] at hr
  exact ⟨call, hc, hl, hd, limits_are_exact_and_harmless .empty oneKey heldUp hc hl hd,
    by decide +kernel, by decide +kernel⟩

/-! ### Stopped by the allowance -/

/-- Work that deletes a key so many times. -/
def deletes (owner : UserId) (key : AccessKey) : Nat → Work Reply
  | 0 => .done .done
  | n + 1 => .delete owner key fun _ => deletes owner key n

/-- To delete takes no time. -/
theorem endsBy_deletes (plans : FailurePlan → Prop) (owner : UserId) (key : AccessKey) (n now : Nat)
    (handle : Handle) : (deletes owner key n).EndsBy plans now handle now := by
  induction n generalizing handle with
  | zero => exact Nat.le_refl now
  | succ n ih =>
    intro plan _
    split
    · exact ih _
    · exact Nat.le_refl now

/-- **Who never waits may be cancelled all the same.** The table is free, and to delete a key that
is not there two hundred times takes no time; but it takes more than the allowance, and who has no
time to spare is not given another turn. -/
theorem cancelled_without_waiting :
    let work := deletes ⟨1⟩ ⟨"k", by decide⟩ 200
    let s := start .empty (.scripted [])
    let s' := s.beat (.ask (.unit "a" work) (some 0))
    s.vault.lock.holder = none ∧
    work.EndsBy (fun _ => True) 0 (.opened s.vault.table) 0 ∧
    (Vault.drain 0 (s.left, s.vault.start (.unit "a" work) (some 0))).2.lock.holder = some 0 ∧
    s'.vault.now = 0 ∧
    (s'.vault.answer? 0).map (Except.map fun _ => ()) = some (.error (.cancelled "a")) := by
  refine ⟨rfl, endsBy_deletes _ _ _ 200 0 _, ?_, ?_, ?_⟩ <;> decide +kernel

end Session

end KeyLifecycle
