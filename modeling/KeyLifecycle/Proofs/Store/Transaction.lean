import KeyLifecycle.Proofs.Store.Asking
import KeyLifecycle.Proofs.Vault.Changes
import KeyLifecycle.Proofs.Vault.Sequential

/-!
# Units of work, and how much of them stays

A unit of work is any work inside a transaction: it may issue and revoke, pause, fail, and also
commit or roll back by itself. The store commits it if it succeeds and rolls it back if it fails. So
what is to be expected is all or nothing, and for the most part it is so:

* a unit that has been answered `ok` has changed the table once, and the table is then what its
  inserts and deletes, one after the other, make of the table on which its transaction had begun;
* a unit that has failed, has run out of time or has been dropped has changed nothing, as long as it
  leaves the commit to the store (`Work.NeverCommits`).

There is one way out. A unit that *has come to a commit of its own* (`Work.Publishes`) has published
what it had done by then, and nothing that follows can take it back: not its failure, not the
commit of the store, which now fails itself, and not the end of its time. This is the only way
(`KeyLifecycle.unit_of_work_is_all_or_nothing_unless_published`), and it is one
(`KeyLifecycle.failed_unit_of_work_leaves_a_row`).
-/

namespace KeyLifecycle

/-! ### Work that ends its transaction itself -/

namespace Work

variable {plans : FailurePlan → Prop} {work rest : Work Reply} {t t' : Table} {handle : Handle}

/-- **Work that leaves the commit to the store**, whatever it is answered. It may roll back. -/
def NeverCommits {α : Type} : Work α → Prop
  | done _ => True
  | fail _ => True
  | insert _ _ next => ∀ credential, (next credential).NeverCommits
  | delete _ _ next => ∀ yes, (next yes).NeverCommits
  | commit _ => False
  | rollback next => next.NeverCommits
  | pause _ next => next.NeverCommits

/-- **Work that comes to a commit of its own** in a transaction that was opened on a table, and the
table that it publishes. -/
def Publishes (work : Work Reply) (t t' : Table) : Prop :=
  ∃ next, Reached (fun _ => True) work t (.commit next) ⟨true, t'⟩

theorem Reached.neverCommits (h : Reached plans work t rest handle) (hw : work.NeverCommits) :
    rest.NeverCommits := by
  induction h with
  | opened => exact hw
  | insert _ _ _ ih => exact ih _
  | delete _ _ _ ih => exact ih _
  | fault => exact trivial
  | pause _ ih => exact ih

theorem NeverCommits.not_publishes (hw : work.NeverCommits) : ¬work.Publishes t t' := by
  rintro ⟨next, h⟩
  exact h.neverCommits hw

end Work

namespace Vault

variable {plans : FailurePlan → Prop} {v : Vault} {i j : Nat} {call : Call} {e : Effect}
  {moves : List Move} {m : Move} {t t' : Table} {name : String} {work : Work Reply}

/-! ### The table on which a transaction began -/

/-- **A call has begun its transaction on a table**: at some moment of the run it was about to enter
the table, which was then that one. -/
def BeganOn (v : Vault) (moves : List Move) (i : Nat) (t : Table) : Prop :=
  ∃ early late call, moves = early ++ late ∧ (v.run early).calls[i]? = some call ∧
    call.phase = .waiting ∧ (v.run early).lock.holder = some i ∧ (v.run early).table = t

theorem BeganOn.concat (h : v.BeganOn moves i t) (m : Move) : v.BeganOn (moves ++ [m]) i t := by
  obtain ⟨early, late, call, hs, h⟩ := h
  exact ⟨early, late ++ [m], call, by rw [hs, List.append_assoc], h⟩

/-- A deed after which a transaction is open has opened it, or has found it open. -/
theorem Deed.opened_or_open (hd : v.Deed i call e) {handle : Handle}
    (hh : e.phase.handle? = some handle) (ho : handle.isOpen = true) :
    (call.phase = .waiting ∧ v.lock.holder = some i) ∨
      ∃ before, call.phase.handle? = some before ∧ before.isOpen = true := by
  cases hd with
  | begin hp hl _ | grant hp hl _ => exact Or.inl ⟨hp, hl⟩
  | insert hp hi => exact Or.inr ⟨_, by rw [hp, Phase.handle?], (Handle.isOpen_of_insert hi).1⟩
  | delete hp hd => exact Or.inr ⟨_, by rw [hp, Phase.handle?], (Handle.isOpen_of_delete hd).1⟩
  | fault hp _ | pause hp | wake hp _ | rest hp _ _ | resume hp =>
    obtain rfl := Option.some.inj hh
    exact Or.inr ⟨_, by rw [hp, Phase.handle?], ho⟩
  | interrupt _ hp =>
    obtain rfl := Option.some.inj hh
    exact Or.inr ⟨_, Orderly.handle?_of_inside? hp, ho⟩
  | commit | rollback =>
    obtain rfl := Option.some.inj hh
    exact absurd ho (by simp [Handle.finished])
  | _ => simp [Phase.handle?] at hh

/-- Nobody but the holder changes the table. -/
theorem Orderly.table_move (hv : v.Orderly plans) (hl : v.lock.holder = some i)
    (hm : m.call? ≠ some i) : (v.move m).table = v.table := by
  rcases move_cases v m with ⟨request, limit, rfl⟩ | ⟨-, ht⟩ | ⟨j, call, e, hj, hc, he, hd⟩
  · rfl
  · exact ht
  · have hne : i ≠ j := fun hij => hm (hij ▸ hj)
    rw [he]
    exact (hv.others hc hd hl hne).2

/-- **A transaction has the table to itself**: as long as it is open, the table is the one on which
it began. -/
theorem Orderly.beganOn (hv : v.Orderly plans) (hm : ∀ plan, .setPlan plan ∈ moves → plans plan)
    (hn : v.calls[i]? = none) (hc : (v.run moves).calls[i]? = some call) {handle : Handle}
    (hh : call.phase.handle? = some handle) (ho : handle.isOpen = true) :
    v.BeganOn moves i (v.run moves).table := by
  induction moves using List.reverseRecOn generalizing call handle with
  | nil => simp [hn] at hc
  | append_singleton moves m ih =>
    have hm' : ∀ plan, .setPlan plan ∈ moves → plans plan :=
      fun plan h => hm plan (List.mem_append_left _ h)
    have hw : (v.run moves).Orderly plans := hv.run hm'
    have hrun : v.run (moves ++ [m]) = (v.run moves).move m := by rw [run_append, run_cons, run_nil]
    rw [hrun] at hc ⊢
    by_cases hi : m.call? = some i
    · cases hc₀ : (v.run moves).calls[i]? with
      | none =>
        rw [move_of_absent hi hc₀, hc₀] at hc
        simp at hc
      | some call₀ =>
        rcases move_eq_or_deed hi hc₀ with he | ⟨e, he, hd⟩
        · rw [he, hc₀] at hc
          obtain rfl := Option.some.inj hc
          rw [he]
          exact (ih hm' hc₀ hh ho).concat m
        · rw [he, amend_calls_self hc₀] at hc
          obtain rfl := Option.some.inj hc
          rw [he, amend_table, (hw.holds_deed hc₀ hd hh ho).2.1]
          rcases hd.opened_or_open hh ho with ⟨hp, hl⟩ | ⟨before, hb, hbo⟩
          · exact ⟨moves, [m], call₀, rfl, hc₀, hp, hl, rfl⟩
          · exact (ih hm' hc₀ hb hbo).concat m
    · -- a move of somebody else, or the one that starts the call
      rcases move_calls_cases hi hc with hc₀ | ⟨-, hp⟩
      · rw [hw.table_move (hw.holds hc₀ hh ho) hi]
        exact (ih hm' hc₀ hh ho).concat m
      · rw [hp, Orderly.handle?_firstPhase] at hh
        simp at hh

/-! ### What a deed of a unit does to the table -/

/-- A unit that has ended its transaction, or has come to its own end. -/
def IsOver (phase : Phase) : Prop :=
  (∃ rest handle, phase.inside? = some (rest, handle) ∧ handle.isOpen = false) ∨
    (∃ answer, phase = .answered answer) ∨ phase = .dropped

/-- **A deed of a unit** answers it and leaves the table of its whole work, or publishes what it has
done so far, after which it is over, or leaves the table alone. -/
theorem Deed.unit_cases (hd : v.Deed i call e) (hv : v.Orderly fun _ => True)
    (hc : v.calls[i]? = some call) (hr : call.request = .unit name work) :
    (∃ handle, call.phase.handle? = some handle ∧ handle.isOpen = true ∧
        ((∃ reply, e.phase = .answered (.ok reply) ∧
            work.perform {} v.table = (.ok reply, e.table)) ∨
          (IsOver e.phase ∧ (∀ reply, e.phase ≠ .answered (.ok reply)) ∧
            work.Publishes v.table e.table))) ∨
      ((∀ reply, e.phase ≠ .answered (.ok reply)) ∧ e.table = v.table) := by
  have hw : call.request.work? = some work := by rw [hr, Request.work?]
  cases hd with
  | succeed hp hl ho =>
    have h := hv.copies hc hw (by rw [hp, Phase.inside?]) ho
    exact Or.inl ⟨_, by rw [hp, Phase.handle?], ho, Or.inl ⟨_, rfl, h.perform_of_done⟩⟩
  | @commit next handle hp ho =>
    have h := hv.copies hc hw (by rw [hp, Phase.inside?]) ho
    obtain ⟨isOpen, staged⟩ := handle
    obtain rfl : isOpen = true := ho
    exact Or.inl ⟨_, by rw [hp, Phase.handle?], rfl,
      Or.inr ⟨Or.inl ⟨next, .finished, rfl, rfl⟩, by simp, next, h⟩⟩
  | look hp hl h =>
    rw [hr] at h
    simp [Request.view?] at h
  | _ => exact Or.inr ⟨by simp, rfl⟩

/-- **What is over stays over**: no deed of such a unit changes the table or is answered `ok`. -/
theorem Deed.over (hd : v.Deed i call e) (hv : v.Orderly fun _ => True)
    (hc : v.calls[i]? = some call) (hr : call.request = .unit name work)
    (ho : IsOver call.phase) :
    IsOver e.phase ∧ (∀ reply, e.phase ≠ .answered (.ok reply)) ∧ e.table = v.table := by
  -- whatever is over and still does something is inside a transaction that is finished
  have hlive := hd.isLive
  obtain ⟨rest, handle, hi, hclosed⟩ : ∃ rest handle,
      call.phase.inside? = some (rest, handle) ∧ handle.isOpen = false := by
    rcases ho with h | ⟨answer, hp⟩ | hp
    · exact h
    · simp [Call.isLive, hp] at hlive
    · simp [Call.isLive, hp] at hlive
  -- a deed that works on an open transaction is none of such a unit
  have closed {rest' : Work Reply} {handle' : Handle}
      (h : call.phase.inside? = some (rest', handle')) : handle'.isOpen = false := by
    obtain ⟨-, rfl⟩ := Prod.mk.inj (Option.some.inj (h.symm.trans hi))
    exact hclosed
  cases hd with
  | succeed hp _ ho =>
    have h := closed (by rw [hp, Phase.inside?])
    simp [ho] at h
  | commit hp ho | rollback hp ho =>
    have h := closed (by rw [hp, Phase.inside?])
    simp [ho] at h
  | insert hp h =>
    have hclosed := closed (by rw [hp, Phase.inside?])
    simp [(Handle.isOpen_of_insert h).1] at hclosed
  | delete hp h =>
    have hclosed := closed (by rw [hp, Phase.inside?])
    simp [(Handle.isOpen_of_delete h).1] at hclosed
  | fault hp _ | pause hp | wake hp _ =>
    exact ⟨Or.inl ⟨_, _, rfl, closed (by rw [hp, Phase.inside?])⟩, by simp, rfl⟩
  | rest _ hl _ | interrupt hl _ =>
    rw [hr] at hl
    simp at hl
  | resume hp =>
    have hl := hv.rests hc hp
    rw [hr] at hl
    simp at hl
  | late | giveUp | expire => exact ⟨Or.inr (Or.inl ⟨_, rfl⟩), by simp, rfl⟩
  | drop => exact ⟨Or.inr (Or.inr rfl), by simp, rfl⟩
  | _ => simp_all [Phase.inside?]

/-! ### The account of a unit -/

/-- **All that a call has changed in a run** is what one move of its own has made of the table on
which its transaction had begun. -/
def ChangesOnce (v : Vault) (i : Nat) (moves : List Move) (t t' : Table) : Prop :=
  ∃ before m after, moves = before ++ m :: after ∧ m.call? = some i ∧
    (v.run before).table = t ∧ (v.run (before ++ [m])).table = t' ∧ v.BeganOn before i t ∧
    v.changesBy i moves = (v.run before).changeBy i m

/-- A move that changes nothing for the call. -/
theorem ChangesOnce.concat (h : v.ChangesOnce i moves t t')
    (hm : (v.run moves).changeBy i m = []) : v.ChangesOnce i (moves ++ [m]) t t' := by
  obtain ⟨before, m', after, hs, hi, ht, ht', hb, he⟩ := h
  refine ⟨before, m', after ++ [m], ?_, hi, ht, ht', hb, ?_⟩
  · rw [hs, List.append_assoc, List.cons_append]
  · rw [changesBy_concat, hm, List.append_nil, he]

/-- **What a unit of work has done to the table in a run**: all of its work, or nothing, or what it
has published itself. -/
inductive Undertakes (i : Nat) (v : Vault) (moves : List Move) (work : Work Reply) (call : Call) :
    Prop
  | granted {reply : Reply} {t t' : Table} (hp : call.phase = .answered (.ok reply))
      (hs : v.ChangesOnce i moves t t') (hw : work.perform {} t = (.ok reply, t'))
  | idle (hp : ∀ reply, call.phase ≠ .answered (.ok reply)) (he : v.changesBy i moves = [])
  | published {t t' : Table} (hp : ∀ reply, call.phase ≠ .answered (.ok reply))
      (ho : IsOver call.phase) (hs : v.ChangesOnce i moves t t') (hw : work.Publishes t t')

theorem Undertakes.concat (h : v.Undertakes i moves work call)
    (hm : (v.run moves).changeBy i m = []) : v.Undertakes i (moves ++ [m]) work call := by
  cases h with
  | granted hp hs hw => exact .granted hp (hs.concat hm) hw
  | idle hp he =>
    refine .idle hp ?_
    rw [changesBy_concat, hm, List.append_nil, he]
  | published hp ho hs hw => exact .published hp ho (hs.concat hm) hw

/-- **The account of a unit of work**, at the end of a run that began without it. -/
theorem undertakes (hv : v.Orderly fun _ => True) (hn : v.calls[i]? = none)
    (hc : (v.run moves).calls[i]? = some call) (hr : call.request = .unit name work) :
    v.Undertakes i moves work call := by
  induction moves using List.reverseRecOn generalizing call with
  | nil => simp [hn] at hc
  | append_singleton moves m ih =>
    have hw : (v.run moves).Orderly fun _ => True := hv.run fun _ _ => trivial
    have hrun : v.run (moves ++ [m]) = (v.run moves).move m := by rw [run_append, run_cons, run_nil]
    rw [hrun] at hc
    by_cases hi : m.call? = some i
    · cases hc₀ : (v.run moves).calls[i]? with
      | none =>
        rw [move_of_absent hi hc₀, hc₀] at hc
        simp at hc
      | some call₀ =>
        rcases move_eq_or_deed hi hc₀ with he | ⟨e, he, hd⟩
        · rw [he, hc₀] at hc
          obtain rfl := Option.some.inj hc
          exact (ih hc₀ hr).concat (changeBy_of_table_eq (by rw [he]))
        · rw [he, amend_calls_self hc₀] at hc
          obtain rfl := Option.some.inj hc
          have htable : (v.run (moves ++ [m])).table = e.table := by rw [hrun, he, amend_table]
          -- a unit that has changed something before is over, or has been answered
          cases ih hc₀ hr with
          | granted hp =>
            have hlive := hd.isLive
            simp [Call.isLive, hp] at hlive
          | published _ ho hs hpub =>
            obtain ⟨ho', hno, ht⟩ := hd.over hw hc₀ hr ho
            refine .published hno ho' (hs.concat (changeBy_of_table_eq ?_)) hpub
            rw [he, amend_table, ht]
          | idle _ hnil =>
            have hlast : v.changesBy i (moves ++ [m]) = (v.run moves).changeBy i m := by
              rw [changesBy_concat, hnil, List.nil_append]
            rcases hd.unit_cases hw hc₀ hr with ⟨handle, hh, hopen, h⟩ | ⟨hno, ht⟩
            · have hs : v.ChangesOnce i (moves ++ [m]) (v.run moves).table e.table :=
                ⟨moves, m, [], rfl, hi, rfl, htable,
                  hv.beganOn (fun _ _ => trivial) hn hc₀ hh hopen, hlast⟩
              rcases h with ⟨reply, hp, hperf⟩ | ⟨ho, hno, hpub⟩
              · exact .granted hp hs hperf
              · exact .published hno ho hs hpub
            · refine .idle hno (hlast.trans (changeBy_of_table_eq ?_))
              rw [he, amend_table, ht]
    · -- a move of somebody else, or the one that starts the call
      have hnil := changeBy_of_ne (v := v.run moves) hi
      rcases move_calls_cases hi hc with hc₀ | ⟨hc₀, hp⟩
      · exact (ih hc₀ hr).concat hnil
      · refine .idle (fun reply h => firstPhase_ne_answered _ _ (hp.symm.trans h)) ?_
        rw [changesBy_concat, changesBy_of_absent hc₀, hnil, List.append_nil]

end Vault

/-- **How much of a unit of work stays.** A session in which anything may have happened does a unit
of work, any whatsoever, inside one transaction: there is one call. Whatever happens after that –
turns of that call and of others, the passing of time, a drop, other failures to come – the account
is this.

If the call has been answered `ok`, all that it has changed is what one move has made of the table
on which its transaction had begun, namely what the inserts and deletes of the work make of it, in
order. If it has not been answered `ok`, it has changed nothing, unless the work had come to a
commit of its own: then the change is what it published with this commit. In particular a unit that
leaves the commit to the store has changed nothing. -/
theorem unit_of_work_is_all_or_nothing_unless_published (store : Store) (name : String)
    (work : Work Reply) (users : Directory) (generator : Generator) (left : Nat)
    (trail : List Move) :
    let s : Session := ⟨users, generator, Vault.empty.run trail, left⟩
    let i := s.vault.calls.length
    ∃ turn left', (∀ m ∈ turn, m.call? = some i) ∧
      let trail' := trail ++ .start (.unit name work) (some store.limit) :: turn
      Procedure.run (store.transact name work) s =
          (.awaiting (Vault.empty.run trail') i,
            ⟨users, generator, Vault.empty.run trail', left'⟩) ∧
        ∀ future,
          let moves := trail' ++ future
          match (Vault.empty.run moves).answer? i with
          | some (.ok reply) => ∃ t t', Vault.empty.ChangesOnce i moves t t' ∧
              work.perform {} t = (.ok reply, t')
          | _ => (Vault.empty.changesBy i moves = [] ∨
                ∃ t t', Vault.empty.ChangesOnce i moves t t' ∧ work.Publishes t t') ∧
              (work.NeverCommits → Vault.empty.changesBy i moves = []) := by
  intro s i
  obtain ⟨turn, left', hturn, hrun⟩ :=
    Procedure.run_ask (.unit name work) (some store.limit) s
  refine ⟨turn, left', hturn, ?_⟩
  intro trail'
  have htrail : Vault.empty.run trail' =
      (Vault.empty.run trail).run (.start (.unit name work) (some store.limit) :: turn) :=
    Vault.run_append ..
  refine ⟨?_, ?_⟩
  · rw [htrail]
    exact hrun
  · intro future moves
    have hv := Vault.orderly_empty
    obtain ⟨call, hc, hr⟩ : ∃ call, (Vault.empty.run moves).calls[i]? = some call ∧
        call.request = .unit name work := by
      have hstart : (s.vault.start (.unit name work) (some store.limit)).calls[i]? =
          some ⟨.unit name work, s.vault.now, some store.limit, .asking⟩ := by
        rw [Vault.start, List.getElem?_concat_length]
        rfl
      obtain ⟨call, hc, hr⟩ := Vault.exists_call_run hstart (turn ++ future)
      refine ⟨call, ?_, hr⟩
      rw [← hc]
      simp [moves, trail', s, Vault.move]
    have horderly : (Vault.empty.run moves).Orderly fun _ => True := hv.run fun _ _ => trivial
    have hanswer (answer : Except Failure Reply) :
        (Vault.empty.run moves).answer? i = some answer ↔ call.phase = .answered answer :=
      horderly.answer?_eq_some hc (by simp [hr])
    cases Vault.undertakes hv rfl hc hr with
    | granted hp hs hw =>
      rw [(hanswer _).mpr hp]
      exact ⟨_, _, hs, hw⟩
    | idle hp he =>
      split
      · rename_i reply ha
        exact absurd ((hanswer _).mp ha) (hp reply)
      · exact ⟨Or.inl he, fun _ => he⟩
    | published hp _ hs hw =>
      split
      · rename_i reply ha
        exact absurd ((hanswer _).mp ha) (hp reply)
      · exact ⟨Or.inr ⟨_, _, hs, hw⟩, fun hno => absurd hw hno.not_publishes⟩

/-- **A unit of work that fails may leave a row**: it issues a credential, commits by itself, and
fails. It is answered its failure, and there is a row where there was none. -/
theorem failed_unit_of_work_leaves_a_row :
    let work : Work Reply :=
      .insert ⟨1⟩ ⟨⟨"c", by decide⟩, ⟨[10]⟩⟩ fun _ => .commit (.fail .credentialNotFound)
    let s : Session := .start .empty (.scripted [])
    let r := s.perform (Store.transact ⟨30000⟩ "unit" work) 9
    r.1 = .finished (.error .credentialNotFound) ∧ s.vault.table.rows.length = 0 ∧
      r.2.vault.table.rows.length = 1 := by
  refine ⟨?_, rfl, ?_⟩
  · with_unfolding_all rfl
  · decide +kernel

end KeyLifecycle
