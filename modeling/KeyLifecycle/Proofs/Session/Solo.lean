import KeyLifecycle.Proofs.Vault.Poll
import KeyLifecycle.Session

/-!
# One procedure by itself

`Session.perform` gives one procedure its turns, in rounds, until it has come to its end or patience
has. All that happens in between is turns of the procedure, the passing of time and new allowances,
and perhaps that it is given up in the end; `KeyLifecycle.Session.perform_induction` is induction
along these. Its first use is `KeyLifecycle.Session.exists_run_perform`: whatever a procedure asks
for, what becomes of the vault is a run of moves. Where a procedure is by itself, there is mostly an
end to it in the first turn (`KeyLifecycle.Session.perform_of_run`) or in the second
(`KeyLifecycle.Session.perform_of_second_turn`).

Some procedures ask for little before they come to what matters. Up to its last stage
(`Procedure.IsLastOf`) a procedure reports and looks users up, and leaves everything else as it was
(`Session.OnlyReports`). If nothing more than the news of that comes out of it, it does not wait for
anybody: `KeyLifecycle.Session.perform_told`.
-/

namespace KeyLifecycle

variable {α : Type} {p : Progress α} {s : Session}

theorem Progress.poll_ready (rest : Procedure α) (s : Session) :
    (Progress.ready rest).poll s = rest.run s := rfl

namespace Session

/-- Doing the same with each of one. -/
theorem each_one (turn : Progress α → Session → Progress α × Session) (p : Progress α)
    (s : Session) : each turn [p] s = ([(turn p s).1], (turn p s).2) := rfl

/-- **A round of one procedure** is its turn, and then the end or the next round. -/
theorem rounds_one (last fuel : Nat) (p : Progress α) (s : Session) :
    rounds last (fuel + 1) none [p] s =
      if (p.poll s).1.isUnfinished = false then ([(p.poll s).1], (p.poll s).2)
      else if last ≤ (p.poll s).2.vault.now ∧ 0 < s.left then
        each Progress.giveUp [(p.poll s).1] { (p.poll s).2 with left := (p.poll s).2.left - 1 }
      else
        rounds last fuel none [(p.poll s).1] (recover last none [(p.poll s).1] (p.poll s).2) := by
  rw [rounds, each_one]
  dsimp only [letGo]
  cases h : (p.poll s).1.isUnfinished <;> simp [h]

/-- **What turns, time, allowances and the end of patience keep** is so when a procedure has been
performed. -/
theorem perform_induction {P : Progress α → Session → Prop}
    (poll : ∀ p s, P p s → P (p.poll s).1 (p.poll s).2)
    (giveUp : ∀ p s, P p s → P (p.giveUp s).1 (p.giveUp s).2)
    (allow : ∀ p s left, P p s → P p { s with left := left })
    (time : ∀ p s moment, P p s → P p { s with vault := s.vault.advance moment })
    {procedure : Procedure α} (h : P (.ready procedure) s) (patience : Span) :
    P (s.perform procedure patience).1 (s.perform procedure patience).2 := by
  -- by induction on the rounds that are left; the session is another one after each
  have hrounds (last fuel : Nat) {p : Progress α} {s : Session} (h : P p s) :
      ∃ p' s', rounds last fuel none [p] s = ([p'], s') ∧ P p' s' := by
    induction fuel generalizing p s with
    | zero => exact ⟨_, _, rfl, giveUp p s h⟩
    | succ fuel ih =>
      have hp := poll p s h
      rw [rounds_one]
      split
      · exact ⟨_, _, rfl, hp⟩
      · split
        · exact ⟨_, _, rfl, giveUp _ _ (allow _ _ _ hp)⟩
        · refine ih ?_
          rw [recover]
          split
          · exact allow _ _ _ hp
          · exact allow _ _ _ (time _ _ _ hp)
  obtain ⟨p', s', hr, hp⟩ := hrounds (s.vault.now + patience) (roundsAtRest + patience) h
  have hperform : s.perform procedure patience = (p', s') := by
    rw [perform, settleOne, settle, hr]
  rw [hperform]
  exact hp

/-! ### The first two turns -/

/-- There are two rounds in any case. -/
theorem exists_fuel (patience : Span) : ∃ fuel, roundsAtRest + patience = fuel + 1 + 1 := by
  refine ⟨roundsAtRest + patience - 2, ?_⟩
  rw [roundsAtRest]
  omega

theorem perform_of_rounds {procedure : Procedure α} {s' : Session} {patience : Span}
    (h : rounds (s.vault.now + patience) (roundsAtRest + patience) none [.ready procedure] s =
      ([p], s')) : s.perform procedure patience = (p, s') := by
  rw [perform, settleOne, settle, h]

/-- What a procedure comes to depends on its first turn alone, and on what there was before it. -/
theorem perform_congr {procedure procedure' : Procedure α} {s' : Session}
    (h : procedure.run s = procedure'.run s') (hnow : s.vault.now = s'.vault.now)
    (hleft : s.left = s'.left) (patience : Span) :
    s.perform procedure patience = s'.perform procedure' patience := by
  obtain ⟨fuel, hfuel⟩ := exists_fuel patience
  rw [perform, perform, settleOne, settleOne, settle, settle, hfuel,
    rounds_one _ (fuel + 1) (.ready procedure), rounds_one _ (fuel + 1) (.ready procedure'),
    Progress.poll_ready, Progress.poll_ready, h, hnow, hleft]

/-- **A procedure that is through in its first turn** is through. -/
theorem perform_of_run {procedure : Procedure α} {s' : Session} (h : procedure.run s = (p, s'))
    (hp : p.isUnfinished = false) (patience : Span) : s.perform procedure patience = (p, s') := by
  obtain ⟨fuel, hfuel⟩ := exists_fuel patience
  refine perform_of_rounds ?_
  rw [hfuel, rounds_one, Progress.poll_ready, h, if_pos hp]

/-- **A procedure that is through in its second turn** is through. -/
theorem perform_of_second_turn {procedure : Procedure α} {p' : Progress α} {s' s'' : Session}
    {patience : Span} (h : procedure.run s = (p, s')) (hp : p.isUnfinished = true)
    (hlast : s.left = 0 ∨ s'.vault.now < s.vault.now + patience)
    (hpoll : p.poll (recover (s.vault.now + patience) none [p] s') = (p', s''))
    (hp' : p'.isUnfinished = false) : s.perform procedure patience = (p', s'') := by
  obtain ⟨fuel, hfuel⟩ := exists_fuel patience
  refine perform_of_rounds ?_
  rw [hfuel, rounds_one, Progress.poll_ready, h, if_neg (by simp [hp]),
    if_neg (by dsimp only; omega), rounds_one, hpoll, if_pos hp']

/-- **A procedure that had nothing left of the allowance** goes on in the next round, and time does
not pass before it. -/
theorem perform_of_run_ready {procedure rest : Procedure α} {s' s'' : Session} (hs : s.left = 0)
    (h : procedure.run s = (.ready rest, s'))
    (hrest : rest.run { s' with left := allowance } = (p, s'')) (hp : p.isUnfinished = false)
    (patience : Span) : s.perform procedure patience = (p, s'') := by
  have hrecover : recover (s.vault.now + patience) none [.ready rest] s' =
      { s' with left := allowance } := by
    simp [recover, Progress.isReady]
  refine perform_of_second_turn h rfl (Or.inl hs) ?_ hp
  rw [hrecover, Progress.poll_ready, hrest]

/-- **A procedure without patience** is given up after its first turn. -/
theorem perform_of_no_patience {procedure : Procedure α} {s' : Session}
    (h : procedure.run s = (p, s')) (hp : p.isUnfinished = true) (hleft : 0 < s.left)
    (hnow : s.vault.now ≤ s'.vault.now) :
    s.perform procedure 0 = p.giveUp { s' with left := s'.left - 1 } := by
  obtain ⟨fuel, hfuel⟩ := exists_fuel 0
  refine perform_of_rounds ?_
  rw [hfuel, rounds_one, Progress.poll_ready, h, if_neg (by simp [hp]),
    if_pos ⟨by simpa using hnow, hleft⟩]
  rfl

/-! ### What becomes of the vault -/

/-- Whatever a procedure asks for, a turn of it makes moves of the vault. -/
theorem exists_run_procedure (procedure : Procedure α) (s : Session) :
    ∃ moves, (procedure.run s).2.vault = s.vault.run moves := by
  induction procedure generalizing s with
  | done value => exact ⟨[], rfl⟩
  | report event next ih =>
    obtain ⟨moves, hm⟩ := ih { s with vault := s.vault.note event }
    exact ⟨.report [event] :: moves, hm⟩
  | userById id next ih =>
    rw [Procedure.run]
    split
    · exact ⟨[], rfl⟩
    · exact ih _ _
  | userBySlug slug next ih =>
    rw [Procedure.run]
    split
    · exact ⟨[], rfl⟩
    · exact ih _ _
  | addUser slug role next ih =>
    rw [Procedure.run]
    split
    · exact ⟨[], rfl⟩
    · split
      · exact ih _ _
      · exact ih _ _
  | generate next ih =>
    rw [Procedure.run]
    split
    · exact ih _ _
    · exact ih _ _
    · exact ⟨[], rfl⟩
  | ask request limit next ih =>
    obtain ⟨turn, ht, -⟩ :=
      Vault.follows_poll (s.vault.start request limit) s.vault.calls.length s.left
    have hcall : (s.call request limit).2.vault = s.vault.run (.start request limit :: turn) := by
      rw [Session.call]
      exact ht
    rw [Procedure.run]
    generalize s.call request limit = x at hcall ⊢
    obtain ⟨call, t⟩ := x
    dsimp only at hcall ⊢
    split
    · rename_i answer _
      obtain ⟨moves, hm⟩ := ih answer t
      exact ⟨.start request limit :: (turn ++ moves), by rw [hm, hcall]; simp⟩
    · exact ⟨_, hcall⟩

theorem exists_run_poll (p : Progress α) (s : Session) :
    ∃ moves, (p.poll s).2.vault = s.vault.run moves := by
  cases p with
  | ready rest => exact exists_run_procedure rest s
  | pending call next =>
    obtain ⟨turn, ht, -⟩ := Vault.follows_poll s.vault call s.left
    unfold Progress.poll
    dsimp only
    split
    · obtain ⟨moves, hm⟩ := exists_run_procedure (next _) (s.poll call)
      refine ⟨turn ++ moves, ?_⟩
      rw [hm, Vault.run_append, ← ht]
      rfl
    · exact ⟨turn, ht⟩
  | _ => exact ⟨[], rfl⟩

theorem exists_run_giveUp (p : Progress α) (s : Session) :
    ∃ moves, (p.giveUp s).2.vault = s.vault.run moves := by
  cases p with
  | pending call next => exact ⟨[.interrupt call], rfl⟩
  | _ => exact ⟨[], rfl⟩

theorem exists_run_advance (v : Vault) (moment : Nat) :
    ∃ moves, v.advance moment = v.run moves := by
  rw [Vault.advance]
  split
  · exact ⟨[.clock moment], rfl⟩
  · exact ⟨[], rfl⟩

/-- **Whatever becomes of a procedure, what becomes of the vault is a run of moves.** -/
theorem exists_run_perform (s : Session) (procedure : Procedure α) (patience : Span) :
    ∃ moves, (s.perform procedure patience).2.vault = s.vault.run moves := by
  -- one run of moves after the other is a run of moves
  have trans {v w : Vault} (h : ∃ moves, v = s.vault.run moves) (hw : ∃ moves, w = v.run moves) :
      ∃ moves, w = s.vault.run moves := by
    obtain ⟨before, rfl⟩ := h
    obtain ⟨after, rfl⟩ := hw
    exact ⟨before ++ after, (Vault.run_append s.vault before after).symm⟩
  refine perform_induction (P := fun _ t => ∃ moves, t.vault = s.vault.run moves) ?_ ?_ ?_ ?_
    ⟨[], rfl⟩ patience
  · exact fun p t h => trans h (exists_run_poll p t)
  · exact fun p t h => trans h (exists_run_giveUp p t)
  · exact fun _ _ _ h => h
  · exact fun p t moment h => trans h (exists_run_advance t.vault moment)

/-! ### What only reports -/

/-- **Two sessions that differ in reports and in the allowance at most.** -/
structure OnlyReports (s s' : Session) : Prop where
  directory : s'.directory = s.directory
  generator : s'.generator = s.generator
  vault : ∃ events, s'.vault = s.vault.notes events

theorem onlyReports_note (s : Session) (event : Event) :
    s.OnlyReports { s with vault := s.vault.note event } := ⟨rfl, rfl, ⟨[event], rfl⟩⟩

theorem onlyReports_allow (s : Session) (left : Nat) : s.OnlyReports { s with left := left } :=
  ⟨rfl, rfl, [], by simp [Vault.notes]⟩

theorem OnlyReports.trans {t u : Session} (hst : s.OnlyReports t) (htu : t.OnlyReports u) :
    s.OnlyReports u := by
  obtain ⟨hd, hg, first, hv⟩ := hst
  obtain ⟨hd', hg', second, hv'⟩ := htu
  refine ⟨hd'.trans hd, hg'.trans hg, first ++ second, ?_⟩
  rw [hv', hv]
  simp [Vault.notes]

end Session

/-! ### Up to the last stage -/

/-- **The last stage of a procedure**, which is reached by reports and look-ups of slugs, where
certain users are known. -/
inductive Procedure.IsLastOf (last : Procedure α) (users : Directory) : Procedure α → Prop
  | here : IsLastOf last users last
  | report (event : Event) {next : Procedure α} (h : last.IsLastOf users next) :
    IsLastOf last users (.report event next)
  | userBySlug (slug : String) {next : Except Failure (Option User) → Procedure α}
      (h : last.IsLastOf users (next (.ok (users.bySlug slug)))) :
    IsLastOf last users (.userBySlug slug next)

/-- To look a slug up takes one unit of the allowance. -/
theorem Procedure.run_userBySlug (slug : String)
    (next : Except Failure (Option User) → Procedure α) (s : Session) :
    (Procedure.userBySlug slug next).run s =
      if s.left = 0 then (.ready (.userBySlug slug next), s)
      else (next (.ok (s.directory.bySlug slug))).run { s with left := s.left - 1 } := by
  rw [Procedure.run]

/-- **On the way to the last stage** nothing is done but to report: the procedure goes on from
there, or it stops before it because the allowance is used up. -/
theorem Procedure.IsLastOf.run {users : Directory} {last procedure : Procedure α}
    (h : last.IsLastOf users procedure) (hs : s.directory = users) :
    ∃ t, s.OnlyReports t ∧ (procedure.run s = last.run t ∨
      ∃ rest, procedure.run s = (.ready rest, t) ∧ last.IsLastOf users rest) := by
  induction h generalizing s with
  | here => exact ⟨s, s.onlyReports_allow s.left, Or.inl rfl⟩
  | report event h ih =>
    obtain ⟨t, ht, hrun⟩ := ih (s := { s with vault := s.vault.note event }) hs
    refine ⟨t, (s.onlyReports_note event).trans ht, ?_⟩
    rwa [Procedure.run]
  | userBySlug slug h ih =>
    subst hs
    rw [Procedure.run_userBySlug]
    split
    · exact ⟨s, s.onlyReports_allow s.left, Or.inr ⟨_, rfl, .userBySlug slug h⟩⟩
    · obtain ⟨t, ht, hrun⟩ := ih (s := { s with left := s.left - 1 }) rfl
      exact ⟨t, (s.onlyReports_allow (s.left - 1)).trans ht, hrun⟩

/-- **A procedure that is told all at its first look-up** comes to its end without a wait, even if
the allowance is used up when it begins. -/
theorem Session.perform_told {slug : String} {first second : Event}
    {next : Except Failure (Option User) → Procedure α} {value : α}
    (h : next (.ok (s.directory.bySlug slug)) = .report second (.done value)) (patience : Span) :
    ∃ t, s.OnlyReports t ∧
      s.perform (.report first (.userBySlug slug next)) patience = (.finished value, t) := by
  have hfirst := s.onlyReports_note first
  -- the turn in which there is something left of the allowance is the last one
  have htold {t : Session} (ht : s.OnlyReports t) (hleft : t.left ≠ 0) :
      ∃ t', s.OnlyReports t' ∧ (Procedure.userBySlug slug next).run t = (.finished value, t') := by
    refine ⟨_, (ht.trans (t.onlyReports_allow (t.left - 1))).trans (onlyReports_note _ second), ?_⟩
    rw [Procedure.run_userBySlug, if_neg hleft, ht.directory, h, Procedure.run, Procedure.run]
  by_cases hleft : s.left = 0
  · have hallowed := hfirst.trans (onlyReports_allow _ allowance)
    obtain ⟨t, ht, hrun⟩ := htold hallowed (by simp [allowance])
    refine ⟨t, ht, perform_of_run_ready hleft ?_ hrun rfl patience⟩
    rw [Procedure.run, Procedure.run_userBySlug, if_pos hleft]
  · obtain ⟨t, ht, hrun⟩ := htold hfirst hleft
    refine ⟨t, ht, perform_of_run ?_ rfl patience⟩
    rw [Procedure.run, hrun]

end KeyLifecycle
