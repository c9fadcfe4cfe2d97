import KeyLifecycle.Proofs.Vault.Serial
import Mathlib.Algebra.BigOperators.Group.Finset.Piecewise
import Mathlib.Algebra.Ring.Int.Defs

/-!
# How calls come to their end

Three things about the end of a call that hold however it is interleaved with others.

* It comes to its end by one deed of its own, and before that deed it was on its way
  (`KeyLifecycle.Vault.exists_last_deed`); after it, nothing happens to the call any more. So of two
  moments of a run the one at which a call is still on its way is the earlier one, or comes before
  its end (`KeyLifecycle.Vault.exists_between`).
* Whoever has been given the table comes to an end in a limited number of steps of their own,
  whatever others do in between (`KeyLifecycle.Vault.hasEnded_of_holds`): nobody takes the table
  away from them, and none of these steps is one of waiting.
* What a table counts for at the end of a run is what it counted for at the beginning, and what each
  of the calls has added by its changes (`KeyLifecycle.Vault.balance`).
-/

namespace KeyLifecycle

/-- Whether a move is a step of a call. -/
def Move.isStep (i : Nat) : Move → Bool
  | step j => j = i
  | _ => false

/-! ### Work that ends -/

/-- **Work that comes to the end of its transaction within so many steps**, whatever it is answered.
A step that is refused is followed by the one that gives up. -/
def Work.EndsWithin : Work Reply → Nat → Prop
  | .done _, n => 0 < n
  | .fail _, n => 0 < n
  | .insert _ _ next, n => 1 < n ∧ ∀ credential, (next credential).EndsWithin (n - 1)
  | .delete _ _ next, n => 1 < n ∧ ∀ yes, (next yes).EndsWithin (n - 1)
  | _, _ => False

theorem Work.EndsWithin.mono {work : Work Reply} {n k : Nat} (h : work.EndsWithin n) (hle : n ≤ k) :
    work.EndsWithin k := by
  induction work generalizing n k with
  | done | fail => exact Nat.lt_of_lt_of_le h hle
  | insert owner material next ih =>
    exact ⟨Nat.lt_of_lt_of_le h.1 hle, fun c => ih c (h.2 c) (Nat.sub_le_sub_right hle 1)⟩
  | delete owner key next ih =>
    exact ⟨Nat.lt_of_lt_of_le h.1 hle, fun yes => ih yes (h.2 yes) (Nat.sub_le_sub_right hle 1)⟩
  | _ => exact False.elim h

/-- A call for some work that ends within so many steps, counted from its phase: it is about to
enter the table, or at work, or over. -/
def Phase.EndsWithin (work : Work Reply) (n : Nat) : Phase → Prop
  | waiting => 0 < n ∧ work.EndsWithin (n - 1)
  | working rest _ => rest.EndsWithin n
  | answered _ => True
  | dropped => True
  | _ => False

theorem Phase.EndsWithin.mono {phase : Phase} {work : Work Reply} {n k : Nat}
    (h : phase.EndsWithin work n) (hle : n ≤ k) : phase.EndsWithin work k := by
  cases phase with
  | waiting => exact ⟨Nat.lt_of_lt_of_le h.1 hle, h.2.mono (Nat.sub_le_sub_right hle 1)⟩
  | working rest handle => exact Work.EndsWithin.mono h hle
  | answered | dropped => trivial
  | _ => exact False.elim h

namespace Vault

variable {plans : FailurePlan → Prop} {v : Vault} {i j n : Nat} {call : Call} {e : Effect}
  {moves before after seen rest : List Move} {m : Move} {work : Work Reply}

/-! ### The last deed -/

/-- **The deed that ended a call**: it was the call's own, and the call has been like that since. -/
theorem exists_last_deed (hn : v.hasEnded i = false) (he : (v.run moves).hasEnded i = true) :
    ∃ before m after call e, moves = before ++ m :: after ∧ m.call? = some i ∧
      (v.run before).calls[i]? = some call ∧ (v.run before).Deed i call e ∧
      (v.run before).move m = (v.run before).amend i e ∧
      (v.run moves).calls[i]? = some { call with phase := e.phase } := by
  induction moves using List.reverseRecOn with
  | nil => simp [hn] at he
  | append_singleton moves m ih =>
    have hrun : v.run (moves ++ [m]) = (v.run moves).move m := by rw [run_append, run_cons, run_nil]
    rw [hrun] at he ⊢
    cases hended : (v.run moves).hasEnded i with
    | true =>
      obtain ⟨before, m', after, call, e, hs, hm', hc, hd, hmove, hlast⟩ := ih hended
      refine ⟨before, m', after ++ [m], call, e, ?_, hm', hc, hd, hmove, ?_⟩
      · rw [hs, List.append_assoc, List.cons_append]
      · rw [calls_move_of_hasEnded hended, hlast]
    | false =>
      by_cases hm : m.call? = some i
      · cases hc : (v.run moves).calls[i]? with
        | none =>
          rw [move_of_absent hm hc] at he
          simp [hended] at he
        | some call =>
          rcases move_eq_or_deed hm hc with hmove | ⟨e, hmove, hd⟩
          · rw [hmove] at he
            simp [hended] at he
          · exact ⟨moves, m, [], call, e, rfl, hm, hc, hd, hmove,
              by rw [hmove, amend_calls_self hc]⟩
      -- nobody else ends a call, and none is over when it is started
      · obtain ⟨call, hc, hl⟩ := exists_of_hasEnded he
        rcases move_calls_cases hm hc with hc₀ | ⟨-, hfirst⟩
        · simp [hasEnded_eq hc₀, hl] at hended
        · cases hr : call.request <;> simp [Call.isLive, hfirst, hr, Request.firstPhase] at hl

theorem calls_run_of_hasEnded (h : v.hasEnded i = true) (moves : List Move) :
    (v.run moves).calls[i]? = v.calls[i]? := by
  induction moves generalizing v with
  | nil => rfl
  | cons m moves ih =>
    have hone := calls_move_of_hasEnded h m
    rw [run_cons, ih (by rwa [hasEnded_of_eq hone]), hone]

/-- **A moment at which a call is on its way comes before its end.** -/
theorem exists_between (hs : before ++ m :: after = seen ++ rest)
    (hlive : (v.run seen).hasEnded i = false)
    (hended : ((v.run before).move m).hasEnded i = true) : ∃ between, before = seen ++ between := by
  rcases List.append_eq_append_iff.mp hs with ⟨between, hseen, hrest⟩ | ⟨between, hbefore, -⟩
  · cases between with
    | nil =>
      rw [List.append_nil] at hseen
      exact ⟨[], by rw [hseen, List.append_nil]⟩
    | cons m' between =>
      obtain ⟨rfl, -⟩ := List.cons.inj hrest
      rw [hseen, run_append, run_cons, hasEnded_run hended] at hlive
      simp at hlive
  · exact ⟨between, hbefore⟩

/-- A call has been answered `ok`. -/
def IsGranted (v : Vault) (i : Nat) : Prop :=
  ∃ call reply, v.calls[i]? = some call ∧ call.phase = .answered (.ok reply)

theorem IsGranted.hasEnded (h : v.IsGranted i) : v.hasEnded i = true := by
  obtain ⟨call, reply, hc, hp⟩ := h
  simp [hasEnded_eq hc, Call.isLive, hp]

theorem isGranted_of_eq {w : Vault} (h : w.calls[i]? = v.calls[i]?) :
    w.IsGranted i ↔ v.IsGranted i := by
  rw [IsGranted, IsGranted, h]

/-- What is over has been answered `ok` for good, or never will be. -/
theorem isGranted_run (h : v.hasEnded i = true) (moves : List Move) :
    (v.run moves).IsGranted i ↔ v.IsGranted i :=
  isGranted_of_eq (calls_run_of_hasEnded h moves)

theorem IsGranted.run (h : v.IsGranted i) (moves : List Move) : (v.run moves).IsGranted i :=
  (isGranted_run h.hasEnded moves).mpr h

/-- **Only a call's own move** lets it be answered `ok`. -/
theorem isGranted_move_of_ne (hm : m.call? ≠ some i) : (v.move m).IsGranted i ↔ v.IsGranted i := by
  constructor
  · rintro ⟨call, reply, hc, hp⟩
    rcases move_calls_cases hm hc with hc₀ | ⟨-, hfirst⟩
    · exact ⟨call, reply, hc₀, hp⟩
    · exact absurd (hfirst.symm.trans hp) (firstPhase_ne_answered _ _)
  · intro h
    exact (isGranted_of_eq (calls_move_of_hasEnded h.hasEnded m)).mpr h

/-- The calls that have been answered `ok`, unless they are leases. -/
theorem Orderly.isGranted_iff (hv : v.Orderly plans) (hc : v.calls[i]? = some call)
    (hl : call.request ≠ .lease) : v.IsGranted i ↔ ∃ reply, v.answer? i = some (.ok reply) := by
  constructor
  · rintro ⟨call', reply, hc', hp⟩
    obtain rfl := Option.some.inj (hc.symm.trans hc')
    exact ⟨reply, (hv.answer?_eq_some hc hl).mpr hp⟩
  · rintro ⟨reply, ha⟩
    exact ⟨call, reply, hc, (hv.answer?_eq_some hc hl).mp ha⟩

/-! ### Whoever has the table -/

/-- **Nobody takes the table away** from whoever has it. -/
theorem Orderly.holder_move (hv : v.Orderly plans) (hl : v.lock.holder = some i)
    (hm : m.call? ≠ some i) : (v.move m).lock.holder = some i := by
  cases hj : m.call? with
  | some j =>
    have hne : i ≠ j := fun hij => hm (hij ▸ hj)
    cases hc : v.calls[j]? with
    | none => rwa [move_of_absent hj hc]
    | some call =>
      rcases move_eq_or_deed hj hc with he | ⟨e, he, hd⟩
      · rwa [he]
      · rw [he]
        exact (hv.others hc hd hl hne).1
  | none =>
    cases m with
    | start | setPlan | clock | report => exact hl
    | _ => simp [Move.call?] at hj

/-- A call for some work that is over within so many steps of its own: it is over, or has been given
the table. -/
structure Nears (v : Vault) (i : Nat) (work : Work Reply) (n : Nat) (call : Call) : Prop where
  here : v.calls[i]? = some call
  does : call.request.work? = some work
  holds : call.isLive = true → v.lock.holder = some i
  ends : call.phase.EndsWithin work n

/-- **A deed of the call brings it nearer to its end.** -/
theorem Nears.amend (h : v.Nears i work n call) (hd : v.Deed i call e) :
    (v.amend i e).Nears i work (n - 1) { call with phase := e.phase } := by
  have hl := h.holds hd.isLive
  have hn := h.ends
  refine ⟨amend_calls_self h.here e, h.does, ?_, ?_⟩
  · cases hd with
    | ask hp => simp [hp, Phase.EndsWithin] at hn
    | insert | delete | fault | begin | pause | wake | refuse | pass | grant => exact fun _ => hl
    | rest hp hr | interrupt hr hp =>
      have hw := h.does
      simp [hr, Request.work?] at hw
    | commit hp | rollback hp => simp [hp, Phase.EndsWithin, Work.EndsWithin] at hn
    | resume hp => simp [hp, Phase.EndsWithin] at hn
    | _ => simp [Call.isLive]
  · cases hd with
    | begin hp hl hw =>
      rw [hp] at hn
      obtain rfl := Option.some.inj (h.does.symm.trans hw)
      exact hn.2
    | insert hp hi =>
      rw [hp] at hn
      exact hn.2 _
    | delete hp hi =>
      rw [hp] at hn
      exact hn.2 _
    | @fault rest handle cause hp hf =>
      rw [hp] at hn
      have hroom : 1 < n := by
        cases rest with
        | insert | delete => exact hn.1
        | _ => simp [Work.fault?, Phase.EndsWithin, Work.EndsWithin] at hf hn
      exact Nat.sub_pos_of_lt hroom
    | grant hp _ hr | rest hp hr | interrupt hr hp =>
      have hw := h.does
      simp [hr, Request.work?] at hw
    | ask hp | pause hp | wake hp | resume hp | refuse hp | pass hp | commit hp | rollback hp =>
      simp [hp, Phase.EndsWithin, Work.EndsWithin] at hn
    | _ => trivial

/-- **Each step counts**: whoever has the table and is not through does something. -/
theorem Nears.step_deed (h : v.Nears i work n call) (hlive : call.isLive = true) :
    ∃ e, v.step i = v.amend i e ∧ v.Deed i call e := by
  have hn := h.ends
  rw [step, h.here]
  dsimp only
  cases hp : call.phase with
  | waiting =>
    dsimp only
    rw [if_pos (h.holds hlive)]
    exact enter_deed hp (h.holds hlive)
  | working rest handle => exact workStep_deed hp
  | answered | dropped => simp [Call.isLive, hp] at hlive
  | _ => simp [hp, Phase.EndsWithin] at hn

/-- **One move**: a step of the call brings it nearer to its end, and nothing takes it further
away. -/
theorem Nears.move (h : v.Nears i work n call) (hv : v.Orderly plans) (m : Move) :
    ∃ call', (v.move m).Nears i work (n - (m.isStep i).toNat) call' := by
  cases hlive : call.isLive with
  | false =>
    have hended : v.hasEnded i = true := by rw [hasEnded_eq h.here, hlive, Bool.not_false]
    refine ⟨call, (calls_move_of_hasEnded hended m).trans h.here, h.does, by simp [hlive], ?_⟩
    cases hp : call.phase with
    | answered | dropped => trivial
    | _ => simp [Call.isLive, hp] at hlive
  | true =>
    by_cases hm : m.call? = some i
    · by_cases hs : m.isStep i = true
      · obtain rfl : m = .step i := by
          cases m with
          | step j => rw [of_decide_eq_true hs]
          | _ => simp [Move.isStep] at hs
        obtain ⟨e, he, hd⟩ := h.step_deed hlive
        rw [hs, Vault.move, he]
        exact ⟨_, h.amend hd⟩
      · rw [Bool.not_eq_true] at hs
        rw [hs]
        rcases move_eq_or_deed hm h.here with he | ⟨e, he, hd⟩
        · rw [he]
          exact ⟨call, h⟩
        · rw [he]
          have hnear := h.amend hd
          exact ⟨_, hnear.here, hnear.does, hnear.holds, hnear.ends.mono (Nat.sub_le n 1)⟩
    -- a move of somebody else, who does not have the table
    · have hs : m.isStep i = false := by
        cases m with
        | step j => simpa [Move.isStep, Move.call?] using hm
        | _ => rfl
      rw [hs]
      have hl := h.holds hlive
      obtain ⟨call', hc', -⟩ := exists_call_move h.here m
      have hcall : call' = call := by
        rcases move_calls_cases hm hc' with hc | ⟨hc, -⟩
        · exact Option.some.inj (hc.symm.trans h.here)
        · simp [h.here] at hc
      exact ⟨call, hcall ▸ hc', h.does, fun _ => hv.holder_move hl hm, h.ends⟩

/-- **Many moves.** -/
theorem Nears.run (h : v.Nears i work n call) (hv : v.Orderly plans)
    (hm : ∀ plan, .setPlan plan ∈ moves → plans plan) :
    ∃ call', (v.run moves).Nears i work (n - moves.countP (Move.isStep i)) call' := by
  induction moves generalizing v n call with
  | nil => exact ⟨call, h⟩
  | cons m moves ih =>
    obtain ⟨next, hnext⟩ := h.move hv m
    have hv' : (v.run [m]).Orderly plans := by
      refine hv.run fun plan hp => hm plan ?_
      obtain rfl := List.mem_singleton.mp hp
      exact List.mem_cons_self
    obtain ⟨last, hlast⟩ := ih hnext hv' fun plan hp => hm plan (List.mem_cons_of_mem m hp)
    refine ⟨last, ?_⟩
    have hcount : n - (m :: moves).countP (Move.isStep i) =
        n - (m.isStep i).toNat - moves.countP (Move.isStep i) := by
      rw [List.countP_cons]
      cases m.isStep i with
      | true => simp only [Bool.toNat_true, if_true]; omega
      | false => simp
    rw [hcount, run_cons]
    exact hlast

/-- **Whoever has the table comes to an end**: a call for some work that has been given the table is
over after as many steps of its own as the work takes, whatever else has happened. -/
theorem hasEnded_of_holds (h : v.Nears i work n call) (hv : v.Orderly plans)
    (hm : ∀ plan, .setPlan plan ∈ moves → plans plan) (hn : n ≤ moves.countP (Move.isStep i)) :
    (v.run moves).hasEnded i = true := by
  obtain ⟨last, hlast⟩ := h.run hv hm
  rw [Nat.sub_eq_zero_of_le hn] at hlast
  have hends := hlast.ends
  rw [hasEnded_eq hlast.here]
  cases hp : last.phase with
  | answered | dropped => simp [Call.isLive, hp]
  | waiting =>
    rw [hp] at hends
    exact absurd hends.1 (Nat.lt_irrefl 0)
  | working rest handle =>
    rw [hp] at hends
    cases rest <;> simp [Phase.EndsWithin, Work.EndsWithin] at hends
  | _ => simp [hp, Phase.EndsWithin] at hends

/-! ### What all calls have added -/

/-- **What a call has added** to what a table counts for, by all its changes in a run. -/
def gain (count : Table → Int) (i : Nat) (v : Vault) (moves : List Move) : Int :=
  ((v.changesBy i moves).map fun change => count change.2 - count change.1).sum

variable {count : Table → Int}

theorem gain_of_changesBy_eq_nil (h : v.changesBy i moves = []) : v.gain count i moves = 0 := by
  rw [gain, h, List.map_nil, List.sum_nil]

/-- What a call adds by one move. -/
theorem sum_changeBy (count : Table → Int) (i : Nat) (v : Vault) (m : Move) :
    ((v.changeBy i m).map fun change => count change.2 - count change.1).sum =
      if m.call? = some i then count (v.move m).table - count v.table else 0 := by
  rw [changeBy]
  split
  · rename_i h
    rw [if_pos h.1, List.map_singleton, List.sum_singleton]
  · rename_i h
    split
    · rename_i hm
      -- a move that leaves the table alone adds nothing
      have ht : (v.move m).table = v.table := by
        by_contra hne
        exact h ⟨hm, hne⟩
      rw [ht, Int.sub_self, List.map_nil, List.sum_nil]
    · rfl

theorem gain_concat (count : Table → Int) (i : Nat) (v : Vault) (moves : List Move) (m : Move) :
    v.gain count i (moves ++ [m]) = v.gain count i moves +
      if m.call? = some i then count ((v.run moves).move m).table - count (v.run moves).table
      else 0 := by
  rw [gain, changesBy_concat, List.map_append, List.sum_append, ← gain, sum_changeBy]

/-- A move of no call, or of one that is not there, leaves the table alone. -/
theorem table_move_of_absent (h : ∀ i, m.call? = some i → v.calls[i]? = none) :
    (v.move m).table = v.table := by
  cases hm : m.call? with
  | some i => rw [move_of_absent hm (h i hm)]
  | none =>
    cases m with
    | start | setPlan | clock | report => rfl
    | _ => simp [Move.call?] at hm

/-- **The balance of a run.** -/
theorem balance (count : Table → Int) (v : Vault) (moves : List Move) {n : Nat}
    (hn : (v.run moves).calls.length ≤ n) :
    count (v.run moves).table = count v.table + ∑ i ∈ Finset.range n, v.gain count i moves := by
  induction moves using List.reverseRecOn with
  | nil => simp [gain, changesBy]
  | append_singleton moves m ih =>
    rw [run_append, run_cons, run_nil] at hn ⊢
    have hlen := Nat.le_trans (calls_length_le_move (v.run moves) m) hn
    simp only [gain_concat, Finset.sum_add_distrib]
    rw [← Int.add_assoc, ← ih hlen]
    -- of all calls, only the one whose move it is has added something now
    cases hm : m.call? with
    | none =>
      have ht : ((v.run moves).move m).table = (v.run moves).table :=
        table_move_of_absent fun i hi => by simp [hm] at hi
      simp [ht]
    | some j =>
      by_cases hj : j < n
      · simp [hj]
      · have ht : ((v.run moves).move m).table = (v.run moves).table := by
          refine table_move_of_absent fun i hi => ?_
          obtain rfl := Option.some.inj (hm.symm.trans hi)
          exact List.getElem?_eq_none (by omega)
        simp [ht]

end Vault

end KeyLifecycle
