import KeyLifecycle.Proofs.Vault.Exclusion
import Mathlib.Data.List.Induction

/-!
# What a call changes in the table

`Vault.changesBy` lists the changes of the table that one call makes in a run, each as the table
before and the table after. The account of a plain call, whatever the others do in between and
whenever the call runs out of time or is given up, is short
(`KeyLifecycle.Vault.accounts`):

* a call that has not been answered `ok` has changed nothing;
* a call that has been answered `ok` has changed the table in one move at most, the move that
  answered it, and the change and the answer are those of `Request.Grants`: of the work of the
  request, done on the table as it stood at that moment, or of a look at that table.
-/

namespace KeyLifecycle

/-! ### Answers and the tables they leave -/

/-- **What a request may be answered, and the table that it leaves**: the outcome of its work, done
from beginning to end on a table, or of a look at the table. -/
inductive Request.Grants (plans : FailurePlan → Prop) (request : Request) (t : Table) :
    Reply → Table → Prop
  | work {work : Work Reply} {reply : Reply} {handle : Handle} (hw : request.work? = some work)
      (h : Work.Reached plans work t (.done reply) handle) :
    Grants plans request t reply handle.staged
  | look {reply : Reply} (h : request.view? t = some reply) :
    Grants plans request t reply (request.stamped t)

/-- An answer to a request that only looks at the table is a view of that table. -/
theorem Request.Grants.view {plans : FailurePlan → Prop} {request : Request} {t t' : Table}
    {reply : Reply} (h : request.Grants plans t reply t') (hw : request.work? = none) :
    request.view? t = some reply := by
  cases h with
  | work hw' _ => simp [hw] at hw'
  | look h => exact h

namespace Vault

variable {plans : FailurePlan → Prop} {v : Vault} {i : Nat} {call : Call} {e : Effect}
  {moves : List Move}

/-- **A deed of a plain call** answers it and leaves the table of that answer, or leaves the table
alone. -/
theorem Deed.grants (hd : v.Deed i call e) (hv : v.Orderly plans) (hc : v.calls[i]? = some call)
    (hr : call.request.IsPlain) :
    (∃ reply, e.phase = .answered (.ok reply) ∧ call.request.Grants plans v.table reply e.table) ∨
      ((∀ reply, e.phase ≠ .answered (.ok reply)) ∧ e.table = v.table) := by
  cases hd with
  | look hp hl h => exact Or.inl ⟨_, rfl, .look h⟩
  | succeed hp hl ho =>
    obtain ⟨-, -, work, hw, h⟩ := hv.inside hc hr (by rw [hp, Phase.inside?])
    exact Or.inl ⟨_, rfl, .work hw h⟩
  | commit hp ho =>
    have h := (hv.inside hc hr (by rw [hp, Phase.inside?])).2.1
    exact False.elim h
  | _ => exact Or.inr ⟨by simp, rfl⟩

/-- A call at the beginning of its way has no answer yet. -/
theorem firstPhase_ne_answered (request : Request) (answer : Except Failure Reply) :
    request.firstPhase ≠ .answered answer := by
  cases request <;> simp [Request.firstPhase]

/-! ### The changes of a call -/

/-- The change of the table that a move is, if it is a move of a call and changes the table. -/
def changeBy (i : Nat) (v : Vault) (m : Move) : List (Table × Table) :=
  if m.call? = some i ∧ (v.move m).table ≠ v.table then [(v.table, (v.move m).table)] else []

/-- The changes of the table that a call makes in a run, each with the table before and after. -/
def changesBy (i : Nat) (v : Vault) : List Move → List (Table × Table)
  | [] => []
  | m :: moves => v.changeBy i m ++ (v.move m).changesBy i moves

theorem changesBy_append (i : Nat) (v : Vault) (before after : List Move) :
    v.changesBy i (before ++ after) = v.changesBy i before ++ (v.run before).changesBy i after := by
  induction before generalizing v with
  | nil => rfl
  | cons m before ih => simp [changesBy, ih]

theorem changesBy_concat (i : Nat) (v : Vault) (moves : List Move) (m : Move) :
    v.changesBy i (moves ++ [m]) = v.changesBy i moves ++ (v.run moves).changeBy i m := by
  simp [changesBy_append, changesBy]

theorem changeBy_of_table_eq {m : Move} (h : (v.move m).table = v.table) : v.changeBy i m = [] := by
  simp [changeBy, h]

theorem changeBy_of_ne {m : Move} (h : m.call? ≠ some i) : v.changeBy i m = [] := by
  simp [changeBy, h]

theorem mem_changeBy {m : Move} {t t' : Table} (h : (t, t') ∈ v.changeBy i m) :
    t = v.table ∧ t' = (v.move m).table := by
  rw [changeBy] at h
  split at h
  · exact Prod.mk.inj (List.mem_singleton.mp h)
  · simp at h

/-- A call that is not there at the end of a run has changed nothing in it. -/
theorem changesBy_of_absent (h : (v.run moves).calls[i]? = none) : v.changesBy i moves = [] := by
  induction moves using List.reverseRecOn with
  | nil => rfl
  | append_singleton moves m ih =>
    rw [run_append, run_cons, run_nil] at h
    have h' : (v.run moves).calls[i]? = none := by
      rw [List.getElem?_eq_none_iff] at h ⊢
      exact Nat.le_trans (calls_length_le_move _ m) h
    rw [changesBy_concat, ih h', List.nil_append]
    by_cases hm : m.call? = some i
    · exact changeBy_of_table_eq (by rw [move_of_absent hm h'])
    · exact changeBy_of_ne hm

/-- **What a call has done to the table in a run**: all that it has changed is what one move of its
own did, which granted it its answer on the table as it stood; or it has not been answered `ok` and
has changed nothing. -/
inductive Accounts (plans : FailurePlan → Prop) (i : Nat) (v : Vault) (moves : List Move)
    (call : Call) : Prop
  | granted {reply : Reply} {before after : List Move} {m : Move}
      (hp : call.phase = .answered (.ok reply)) (hs : moves = before ++ m :: after)
      (hi : m.call? = some i)
      (hg : call.request.Grants plans (v.run before).table reply (v.run (before ++ [m])).table)
      (he : v.changesBy i moves = (v.run before).changeBy i m)
  | idle (hp : ∀ reply, call.phase ≠ .answered (.ok reply)) (he : v.changesBy i moves = [])

/-- A move that changes nothing for the call leaves its account as it was. -/
theorem Accounts.concat {m : Move} (h : v.Accounts plans i moves call)
    (hm : (v.run moves).changeBy i m = []) : v.Accounts plans i (moves ++ [m]) call := by
  have he : v.changesBy i (moves ++ [m]) = v.changesBy i moves := by
    rw [changesBy_concat, hm, List.append_nil]
  cases h with
  | @granted reply before after m' hp hs hi hg he' =>
    have hs' : moves ++ [m] = before ++ m' :: (after ++ [m]) := by
      rw [hs, List.append_assoc, List.cons_append]
    exact .granted hp hs' hi hg (he.trans he')
  | idle hp he' => exact .idle hp (he.trans he')

/-- **The account of a plain call**, at the end of a run that began while it was on its way. -/
theorem accounts_of_isLive (hv : v.Orderly plans)
    (hm : ∀ plan, .setPlan plan ∈ moves → plans plan)
    (hn : ∀ early, v.calls[i]? = some early → early.isLive = true)
    (hc : (v.run moves).calls[i]? = some call) (hr : call.request.IsPlain) :
    v.Accounts plans i moves call := by
  induction moves using List.reverseRecOn generalizing call with
  | nil =>
    have hlive := hn call hc
    exact .idle (fun reply hp => by simp [Call.isLive, hp] at hlive) rfl
  | append_singleton moves m ih =>
    have hm' : ∀ plan, .setPlan plan ∈ moves → plans plan :=
      fun plan h => hm plan (List.mem_append_left _ h)
    have hw : (v.run moves).Orderly plans := hv.run hm'
    have hrun : v.run (moves ++ [m]) = (v.run moves).move m := by rw [run_append, run_cons, run_nil]
    rw [hrun] at hc
    by_cases hi : m.call? = some i
    · cases hc₀ : (v.run moves).calls[i]? with
      | none =>
        rw [move_of_absent hi hc₀, hc₀] at hc
        simp at hc
      | some call₀ =>
        rcases move_eq_or_deed hi hc₀ with he | ⟨e, he, hd⟩
        · rw [he, hc₀] at hc
          obtain rfl := Option.some.inj hc
          exact (ih hm' hc₀ hr).concat (changeBy_of_table_eq (by rw [he]))
        · rw [he, amend_calls_self hc₀] at hc
          obtain rfl := Option.some.inj hc
          -- the call was on its way, so it had not been answered and had changed nothing
          have hlive := hd.isLive
          have hnil : v.changesBy i moves = [] := by
            cases ih hm' hc₀ hr with
            | granted hp => simp [Call.isLive, hp] at hlive
            | idle _ hno => exact hno
          have hlast : v.changesBy i (moves ++ [m]) = (v.run moves).changeBy i m := by
            rw [changesBy_concat, hnil, List.nil_append]
          rcases hd.grants hw hc₀ hr with ⟨reply, hp, hg⟩ | ⟨hp, ht⟩
          · refine .granted hp rfl hi ?_ hlast
            rw [hrun, he]
            exact hg
          · refine .idle hp (hlast.trans (changeBy_of_table_eq ?_))
            rw [he]
            exact ht
    · -- a move of somebody else, or the one that starts the call
      have hnil := changeBy_of_ne (v := v.run moves) hi
      rcases move_calls_cases hi hc with hc₀ | ⟨hc₀, hp⟩
      · exact (ih hm' hc₀ hr).concat hnil
      · refine .idle (fun reply h => firstPhase_ne_answered _ _ (hp.symm.trans h)) ?_
        rw [changesBy_concat, changesBy_of_absent hc₀, hnil, List.append_nil]

/-- The account of a plain call, at the end of a run that began without it. -/
theorem accounts (hv : v.Orderly plans) (hm : ∀ plan, .setPlan plan ∈ moves → plans plan)
    (hn : v.calls[i]? = none) (hc : (v.run moves).calls[i]? = some call)
    (hr : call.request.IsPlain) : v.Accounts plans i moves call :=
  accounts_of_isLive hv hm (fun early he => by simp [hn] at he) hc hr

end Vault

end KeyLifecycle
