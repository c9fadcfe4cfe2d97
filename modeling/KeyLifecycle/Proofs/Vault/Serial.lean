import KeyLifecycle.Proofs.Vault.Changes
import KeyLifecycle.Proofs.Vault.Sequential
import Mathlib.Data.List.Perm.Basic

/-!
# All calls might have come one at a time

However calls are interleaved, whenever they run out of time and whichever are dropped, there is an
order in which they might have been made one at a time, on a plain table, with the same answers and
the same table in the end (`KeyLifecycle.Vault.exists_serialization`). The order is that in which
the calls come to their end; those that never do may come last.

It works because of two things.

* A call comes to its end in one move, and this is the only one that changes the table. What it
  changes, and what it is answered, is what its request comes to on the table as it stands at that
  moment (`KeyLifecycle.Vault.Deed.settles`).
* That moment is between the start of the call and its answer, so a call that was over before
  another one was started comes before it (`KeyLifecycle.Vault.Settled.step`).

`Vault.Serializes` is what an order is to satisfy, `Vault.Settled` what holds of it all along the
run.
-/

namespace KeyLifecycle

/-- A move of plain calls: whatever is started is plain, and the failure plan stays. -/
def Move.IsPlain : Move → Prop
  | start request _ => request.IsPlain
  | setPlan _ => False
  | _ => True

/-- The request and the answer of a call that has been answered, other than by running out of
time. -/
def Call.served? (call : Call) : Option (Request × Except Failure Reply) :=
  match call.phase with
  | .answered (.error (.cancelled _)) => none
  | .answered answer => some (call.request, answer)
  | _ => none

/-- A call that is still on its way has not been served. -/
theorem Call.served?_of_isLive {call : Call} (h : call.isLive = true) : call.served? = none := by
  obtain ⟨request, started, limit, phase⟩ := call
  cases phase <;> simp_all [isLive, served?]

/-- A call that has been answered what its request comes to has been served that, or has failed. -/
theorem Call.settles_answered {plan : FailurePlan} {call : Call} {answer : Except Failure Reply}
    {t t' : Table} (hp : call.phase = .answered answer)
    (h : call.request.perform plan t = (answer, t')) :
    (∀ served, call.served? = some served →
        served.1 = call.request ∧ served.1.perform plan t = (served.2, t')) ∧
      (call.served? = none → t' = t) := by
  rw [served?, hp]
  split
  · rename_i operation ha
    obtain rfl := Phase.answered.inj ha
    exact ⟨by simp, fun _ => Request.table_eq_of_perform_error h⟩
  · rename_i answer' _ ha
    obtain rfl := Phase.answered.inj ha
    refine ⟨?_, by simp⟩
    rintro served hs
    obtain rfl := Option.some.inj hs
    exact ⟨rfl, h⟩
  · rename_i hno
    exact absurd rfl (hno answer)

/-- **Work that is granted its answer leaves all rows as they are** but for those that it takes
out. -/
theorem Request.Grants.mem_rows {plan : FailurePlan} {request : Request} {work : Work Reply}
    {reply : Reply} {t t' : Table} {row : Row} (h : request.Grants (· = plan) t reply t')
    (hw : request.work? = some work) (hrow : row ∈ t.rows)
    (hno : (row.owner, row.key) ∉ work.revoked plan t) : row ∈ t'.rows := by
  cases h with
  | work hw' h =>
    obtain rfl := Option.some.inj (hw.symm.trans hw')
    have hrow' := Work.mem_perform hrow hno
    rwa [h.perform_eq] at hrow'
  | look h => cases request <;> simp [view?, work?] at h hw

namespace Vault

variable {plan : FailurePlan} {v : Vault} {i j : Nat} {call : Call} {e : Effect}
  {moves : List Move} {m : Move} {order : List Nat}

/-! ### The end of a call -/

/-- **Whatever a call is answered** is what its request comes to on the table as it stands, and it
leaves that table; or its time is used up, and it leaves the table alone. -/
theorem Deed.performs (hd : v.Deed i call e) (hv : v.Orderly (· = plan))
    (hc : v.calls[i]? = some call) (hr : call.request.IsPlain) {answer : Except Failure Reply}
    (ha : e.phase = .answered answer) :
    call.request.perform plan v.table = (answer, e.table) ∨
      (answer = .error (.cancelled call.request.operation) ∧ e.table = v.table ∧
        ∃ limit, .timedOut call.request.operation limit ∈ e.news) := by
  cases hd with
  | refuse hp h =>
    obtain rfl := Phase.answered.inj ha
    obtain ⟨owner, ho⟩ := hv.checks hc hp
    rw [hv.plan] at h
    exact Or.inl (by simp [ho, Request.perform, Request.work?, h])
  | look hp hl h =>
    obtain rfl := Phase.answered.inj ha
    refine Or.inl (Request.perform_of_view ?_ h)
    intro owner ho
    obtain ⟨_, rfl, hf⟩ := hv.passes hc ho (Or.inr hp)
    exact hf
  | succeed hp hr' ho =>
    obtain rfl := Phase.answered.inj ha
    obtain ⟨-, -, work, hw, h⟩ := hv.inside hc hr (by rw [hp, Phase.inside?])
    exact Or.inl (Request.perform_of_work hw h.perform_eq)
  | giveUp hp hr' =>
    obtain rfl := Phase.answered.inj ha
    obtain ⟨-, -, work, hw, h⟩ := hv.inside hc hr (by rw [hp, Phase.inside?])
    exact Or.inl (Request.perform_of_failing hw h.perform_eq)
  | late hp hr' ho =>
    have ho' := (hv.inside hc hr (by rw [hp, Phase.inside?])).1
    exact absurd ho' (by simp [ho])
  | expire =>
    obtain rfl := Phase.answered.inj ha
    exact Or.inr ⟨rfl, rfl, _, List.mem_singleton.mpr rfl⟩
  | _ => simp at ha

/-- **A call that is not answered yet** leaves the table alone. -/
theorem Deed.keeps (hd : v.Deed i call e) (hv : v.Orderly (· = plan))
    (hc : v.calls[i]? = some call) (hr : call.request.IsPlain)
    (ha : ∀ answer, e.phase ≠ .answered answer) : e.table = v.table := by
  cases hd with
  | look | succeed => exact absurd rfl (ha _)
  | commit hp ho =>
    have h := (hv.inside hc hr (by rw [hp, Phase.inside?])).2.1
    exact False.elim h
  | _ => rfl

/-- **What a call comes to at its end** is what its request comes to on the table as it stands: it
is given that answer, and leaves that table. A call that is not served leaves the table alone. -/
theorem Deed.settles (hd : v.Deed i call e) (hv : v.Orderly (· = plan))
    (hc : v.calls[i]? = some call) (hr : call.request.IsPlain) :
    (∀ served, Call.served? { call with phase := e.phase } = some served →
        served.1 = call.request ∧ served.1.perform plan v.table = (served.2, e.table)) ∧
      (Call.served? { call with phase := e.phase } = none → e.table = v.table) := by
  by_cases ha : ∃ answer, e.phase = .answered answer
  · obtain ⟨answer, ha⟩ := ha
    rcases hd.performs hv hc hr ha with h | ⟨rfl, ht, -⟩
    · exact Call.settles_answered ha h
    · exact ⟨by simp [Call.served?, ha], fun _ => ht⟩
  · have hno : ∀ answer, e.phase ≠ .answered answer := fun answer he => ha ⟨answer, he⟩
    refine ⟨?_, fun _ => hd.keeps hv hc hr hno⟩
    intro served hs
    unfold Call.served? at hs
    split at hs
    · simp at hs
    · exact absurd ‹_› (hno _)
    · simp at hs

/-- Whether there is such a call and it has come to its end. -/
def hasEnded (v : Vault) (i : Nat) : Bool := v.calls[i]?.any fun call => !call.isLive

theorem hasEnded_eq (hc : v.calls[i]? = some call) : v.hasEnded i = !call.isLive := by
  rw [hasEnded, hc, Option.any_some]

theorem hasEnded_of_eq {w : Vault} (h : w.calls[i]? = v.calls[i]?) :
    w.hasEnded i = v.hasEnded i := by
  rw [hasEnded, hasEnded, h]

theorem exists_of_hasEnded (h : v.hasEnded i = true) :
    ∃ call, v.calls[i]? = some call ∧ call.isLive = false := by
  cases hc : v.calls[i]? with
  | none => simp [hasEnded, hc] at h
  | some call => exact ⟨call, rfl, by simpa [hasEnded_eq hc] using h⟩

theorem lt_of_hasEnded (h : v.hasEnded i = true) : i < v.calls.length := by
  obtain ⟨call, hc, -⟩ := exists_of_hasEnded h
  exact (List.getElem?_eq_some_iff.mp hc).1

/-- **Nothing happens to a call after its end.** -/
theorem calls_move_of_hasEnded (h : v.hasEnded i = true) (m : Move) :
    (v.move m).calls[i]? = v.calls[i]? := by
  obtain ⟨call, hc, hl⟩ := exists_of_hasEnded h
  by_cases hm : m.call? = some i
  · rcases move_eq_or_deed hm hc with he | ⟨e, -, hd⟩
    · rw [he]
    · exact absurd hd.isLive (by simp [hl])
  · obtain ⟨call', hc', -⟩ := exists_call_move hc m
    rcases move_calls_cases hm hc' with h' | ⟨h', -⟩
    · rw [hc', h']
    · simp [hc] at h'

theorem hasEnded_run (h : v.hasEnded i = true) (moves : List Move) :
    (v.run moves).hasEnded i = true := by
  induction moves generalizing v with
  | nil => exact h
  | cons m moves ih =>
    refine ih ?_
    rwa [hasEnded_of_eq (calls_move_of_hasEnded h m)]

/-- A call that has just been started has not come to its end. -/
theorem hasEnded_start (v : Vault) (request : Request) (limit : Option Span) (i : Nat) :
    (v.start request limit).hasEnded i = v.hasEnded i := by
  rcases Nat.lt_or_ge i v.calls.length with hi | hi
  · refine hasEnded_of_eq ?_
    rw [start, List.getElem?_append_left hi]
  · have hv : v.hasEnded i = false := by simp [hasEnded, hi]
    cases hc : (v.start request limit).calls[i]? with
    | none => rw [hv, hasEnded, hc, Option.any_none]
    | some call =>
      rw [hv, hasEnded_eq hc]
      rcases start_calls_cases hc with ⟨-, rfl⟩ | hc'
      · cases request <;> rfl
      · simp [hi] at hc'

/-- All calls of a vault are plain. -/
def HasPlainCalls (v : Vault) : Prop :=
  ∀ (i : Nat) (call : Call), v.calls[i]? = some call → call.request.IsPlain

/-- **At most one call comes to its end in a move.** Either none does, and the table stays, or one
does, and leaves the table that its request comes to. -/
theorem move_settles (hv : v.Orderly (· = plan))
    (hplain : v.HasPlainCalls) (m : Move) :
    ((v.move m).table = v.table ∧ ∀ i, (v.move m).hasEnded i = v.hasEnded i) ∨
      ∃ i call, v.hasEnded i = false ∧ (v.move m).calls[i]? = some call ∧ call.isLive = false ∧
        (∀ j, j ≠ i → (v.move m).calls[j]? = v.calls[j]?) ∧
        (∀ served, call.served? = some served →
          served.1.perform plan v.table = (served.2, (v.move m).table)) ∧
        (call.served? = none → (v.move m).table = v.table) := by
  rcases move_cases v m with ⟨request, limit, rfl⟩ | ⟨hcalls, ht⟩ | ⟨i, call, e, -, hc, he, hd⟩
  · exact Or.inl ⟨rfl, hasEnded_start v request limit⟩
  · exact Or.inl ⟨ht, fun i => hasEnded_of_eq (by rw [hcalls])⟩
  · obtain ⟨hserved, hidle⟩ := hd.settles hv hc (hplain i call hc)
    have hself := amend_calls_self hc e
    have hothers : ∀ j, j ≠ i → (v.amend i e).calls[j]? = v.calls[j]? :=
      fun j hj => amend_calls_of_ne hj v e
    have hlive : v.hasEnded i = false := by simp [hasEnded_eq hc, hd.isLive]
    rw [he]
    cases hl : Call.isLive { call with phase := e.phase } with
    | true =>
      refine Or.inl ⟨hidle (Call.served?_of_isLive hl), fun j => ?_⟩
      rcases eq_or_ne j i with rfl | hj
      · rw [hlive, hasEnded_eq hself, hl]
        rfl
      · exact hasEnded_of_eq (hothers j hj)
    | false =>
      exact Or.inr ⟨i, _, hlive, hself, hl, hothers, fun s hs => (hserved s hs).2, hidle⟩

/-- In a run of plain moves all calls are plain. -/
theorem HasPlainCalls.move (h : v.HasPlainCalls) (hm : m.IsPlain) : (v.move m).HasPlainCalls := by
  intro i call hc
  cases hv : v.calls[i]? with
  | some call' =>
    obtain ⟨call'', hc', hr⟩ := exists_call_move hv m
    obtain rfl := Option.some.inj (hc.symm.trans hc')
    rw [hr]
    exact h i call' hv
  | none =>
    obtain ⟨limit, rfl⟩ := exists_start_of_new hv hc
    exact hm

/-! ### The order of the ends -/

/-- One call was over before another one was started. -/
def Precedes (v : Vault) (moves : List Move) (i j : Nat) : Prop :=
  ∃ seen rest, moves = seen ++ rest ∧ (v.run seen).hasEnded i = true ∧
    (v.run seen).calls.length ≤ j

/-- The last move does not make a call precede one that has ended before it. -/
theorem Precedes.of_concat (h : v.Precedes (moves ++ [m]) i j)
    (hj : (v.run moves).hasEnded j = true) : v.Precedes moves i j := by
  obtain ⟨seen, rest, hs, he, hlen⟩ := h
  rcases List.eq_nil_or_concat rest with rfl | ⟨rest, m', rfl⟩
  · rw [List.append_nil] at hs
    subst hs
    have hlt := lt_of_hasEnded hj
    have hle := calls_length_le_move (v.run moves) m
    rw [run_append, run_cons, run_nil] at hlen
    omega
  · rw [List.concat_eq_append, ← List.append_assoc] at hs
    exact ⟨seen, rest, (List.append_inj' hs rfl).1, he, hlen⟩

/-- The requests and answers of the calls of an order that have been served. -/
def served (v : Vault) (order : List Nat) : List (Request × Except Failure Reply) :=
  order.filterMap fun i => v.calls[i]?.bind Call.served?

theorem served_congr {w : Vault} (h : ∀ i ∈ order, w.calls[i]? = v.calls[i]?) :
    w.served order = v.served order :=
  List.filterMap_congr fun i hi => by rw [h i hi]

/-- **The calls that have come to their end in a run**, in the order in which they did: made one at
a time in this order, they come to the same. -/
structure Settled (v : Vault) (moves : List Move) (order : List Nat) : Prop where
  nodup : order.Nodup
  mem_iff (i : Nat) : i ∈ order ↔ (v.run moves).hasEnded i = true
  /-- Nothing comes before what preceded it. -/
  inTime : order.Pairwise fun i j => ¬v.Precedes moves j i
  serve : Table.serve v.plan (((v.run moves).served order).map (·.1)) v.table =
    (((v.run moves).served order).map (·.2), (v.run moves).table)

theorem settled_nil (hc : v.calls = []) : v.Settled [] [] where
  nodup := List.nodup_nil
  mem_iff i := by simp [hasEnded, hc]
  inTime := List.Pairwise.nil
  serve := rfl

/-- **One more move.** A call that comes to its end in it is the last one so far; no other has ended
before which it would have to come, and it has found the table that those before it have left. -/
theorem Settled.step (h : v.Settled moves order) (hv : (v.run moves).Orderly (· = v.plan))
    (hplain : (v.run moves).HasPlainCalls) (m : Move) :
    ∃ order', v.Settled (moves ++ [m]) order' := by
  have hrun : v.run (moves ++ [m]) = (v.run moves).move m := by rw [run_append, run_cons, run_nil]
  -- the calls that ended before stay in their order
  have hkeep : order.Pairwise fun i j => ¬v.Precedes (moves ++ [m]) j i := by
    refine h.inTime.imp_of_mem ?_
    intro i j hi _ hno hp
    exact hno (hp.of_concat ((h.mem_iff i).mp hi))
  have hsame : (v.run (moves ++ [m])).served order = (v.run moves).served order := by
    refine served_congr fun i hi => ?_
    rw [hrun]
    exact calls_move_of_hasEnded ((h.mem_iff i).mp hi) m
  rcases move_settles hv hplain m with ⟨ht, hends⟩ | ⟨i, call, hlive, hc, hl, hothers, hs, hidle⟩
  · refine ⟨order, h.nodup, fun j => ?_, hkeep, ?_⟩
    · rw [hrun, hends]
      exact h.mem_iff j
    · rw [hsame, hrun, ht]
      exact h.serve
  · have hi : i ∉ order := by
      rw [h.mem_iff, hlive]
      simp
    refine ⟨order ++ [i], ?_, ?_, ?_, ?_⟩
    · exact h.nodup.append (List.nodup_singleton i) (by simpa using hi)
    · intro j
      rw [hrun, List.mem_append, List.mem_singleton]
      rcases eq_or_ne j i with rfl | hj
      · simp [hasEnded_eq hc, hl]
      · rw [hasEnded_of_eq (hothers j hj), ← h.mem_iff]
        simp [hj]
    -- the call was on its way until now, so it has preceded none of those that ended before
    · refine List.pairwise_append.mpr ⟨hkeep, List.pairwise_singleton _ _, ?_⟩
      intro a ha b hb hp
      rw [List.mem_singleton] at hb
      subst hb
      obtain ⟨seen, rest, rfl, he, -⟩ := hp.of_concat ((h.mem_iff a).mp ha)
      rw [run_append, hasEnded_run he] at hlive
      exact absurd hlive (by simp)
    · have hlast : (v.run (moves ++ [m])).served (order ++ [i]) =
          (v.run moves).served order ++ call.served?.toList := by
        rw [← hsame, served, served, List.filterMap_append, hrun, List.filterMap_cons, hc,
          Option.bind_some, List.filterMap_nil]
        cases call.served? <;> rfl
      rw [hlast, hrun]
      cases hsv : call.served? with
      | none =>
        rw [hidle hsv, Option.toList_none, List.append_nil]
        exact h.serve
      | some last =>
        rw [Option.toList_some, List.map_append, List.map_append, List.map_singleton,
          List.map_singleton, Table.serve_concat, h.serve, hs last hsv]

/-- **A run of plain moves** has its order of ends. -/
theorem exists_settled (hv : v.Orderly (· = v.plan)) (hc : v.calls = [])
    (hm : ∀ m ∈ moves, m.IsPlain) :
    (v.run moves).HasPlainCalls ∧ ∃ order, v.Settled moves order := by
  induction moves using List.reverseRecOn with
  | nil => exact ⟨fun i call h => by simp [hc] at h, [], settled_nil hc⟩
  | append_singleton moves m ih =>
    have hm' : ∀ m ∈ moves, m.IsPlain := fun m h => hm m (List.mem_append_left _ h)
    have hlast : m.IsPlain := hm m (by simp)
    obtain ⟨hplain, order, hs⟩ := ih hm'
    have hrun : (v.run moves).Orderly (· = v.plan) :=
      hv.run fun plan h => False.elim (hm' _ h)
    refine ⟨?_, hs.step hrun hplain m⟩
    rw [run_append, run_cons, run_nil]
    exact hplain.move hlast

/-! ### Serializability -/

/-- **An order in which the calls of a run might have been made one at a time.** -/
structure Serializes (v : Vault) (moves : List Move) (order : List Nat) : Prop where
  /-- Every call has its place. -/
  all : order.Perm (List.range (v.run moves).calls.length)
  /-- No call comes before one that was over when it was started. -/
  inTime : order.Pairwise fun i j => ¬v.Precedes moves j i
  /-- On a plain table, and one at a time, the calls that have been served are given the answers
  that they have been given, and leave the table that there is. -/
  serve : Table.serve v.plan (((v.run moves).served order).map (·.1)) v.table =
    (((v.run moves).served order).map (·.2), (v.run moves).table)
  /-- Whoever has not been answered `ok` has changed nothing. -/
  idle {i : Nat} {call : Call} (hc : (v.run moves).calls[i]? = some call)
    (hp : ∀ reply, call.phase ≠ .answered (.ok reply)) : v.changesBy i moves = []
  /-- What a work has changed was the table of that moment, and its rows have stayed as they were,
  with their moments of use, but for those that the work itself has taken out. -/
  keeps {i : Nat} {call : Call} {work : Work Reply} {t t' : Table}
    (hc : (v.run moves).calls[i]? = some call) (hw : call.request.work? = some work)
    (ht : (t, t') ∈ v.changesBy i moves) :
    ∀ row ∈ t.rows, (row.owner, row.key) ∉ work.revoked v.plan t → row ∈ t'.rows

/-- The calls that have not come to their end may come last. -/
theorem Settled.serializes (h : v.Settled moves order) (hv : v.Orderly (· = v.plan))
    (hc : v.calls = []) (hm : ∀ m ∈ moves, m.IsPlain) (hplain : (v.run moves).HasPlainCalls) :
    v.Serializes moves
      (order ++ (List.range (v.run moves).calls.length).filter
        fun i => !(v.run moves).hasEnded i) where
  all := by
    refine (List.perm_ext_iff_of_nodup ?_ List.nodup_range).mpr fun i => ?_
    · refine h.nodup.append (List.nodup_range.filter _) ?_
      intro i hi hi'
      have hended := (h.mem_iff i).mp hi
      simp [hended] at hi'
    · rw [List.mem_append, h.mem_iff, List.mem_filter, List.mem_range]
      refine ⟨fun hi => hi.elim lt_of_hasEnded And.left, fun hi => ?_⟩
      cases hended : (v.run moves).hasEnded i with
      | true => exact Or.inl rfl
      | false => exact Or.inr ⟨hi, rfl⟩
  inTime := by
    -- what has not ended by now precedes nothing
    have hlive {i j : Nat} (hj : j ∈ (List.range (v.run moves).calls.length).filter
        fun i => !(v.run moves).hasEnded i) : ¬v.Precedes moves j i := by
      rintro ⟨seen, rest, rfl, he, -⟩
      have hended := hasEnded_run he rest
      rw [← run_append] at hended
      rw [List.mem_filter, hended] at hj
      simp at hj
    refine List.pairwise_append.mpr ⟨h.inTime, ?_, fun i _ j hj => hlive hj⟩
    exact List.pairwise_of_forall_mem_list fun i _ j hj => hlive hj
  serve := by
    have hrest : (v.run moves).served ((List.range (v.run moves).calls.length).filter
        fun i => !(v.run moves).hasEnded i) = [] := by
      refine List.filterMap_eq_nil_iff.mpr fun i hi => ?_
      have hlive := (List.mem_filter.mp hi).2
      cases hc : (v.run moves).calls[i]? with
      | none => rfl
      | some call => exact Call.served?_of_isLive (by simpa [hasEnded_eq hc] using hlive)
    rw [served, List.filterMap_append, ← served, ← served, hrest, List.append_nil]
    exact h.serve
  idle hc' hp := by
    cases accounts hv (fun plan hp => False.elim (hm _ hp)) (by simp [hc]) hc' (hplain _ _ hc') with
    | granted hp' => exact absurd hp' (hp _)
    | idle _ he => exact he
  keeps hc' hw ht row hrow hno := by
    cases accounts hv (fun plan hp => False.elim (hm _ hp)) (by simp [hc]) hc' (hplain _ _ hc') with
    | granted _ _ _ hg he =>
      rw [he] at ht
      obtain ⟨rfl, rfl⟩ := mem_changeBy ht
      rw [run_append, run_cons, run_nil] at hg
      exact hg.mem_rows hw hrow hno
    | idle _ he => simp [he] at ht

/-- The table with nobody at it any more, where some operations are going to fail. -/
def vacated (v : Vault) (plan : FailurePlan) : Vault :=
  { v with plan := plan, lock := .free, calls := [] }

/-- **The calls of a table are serializable.** Whatever has happened to a table so far, let any
plain calls be started on it, at any moments and with any limits, while the same operations are to
fail throughout, and let anything happen to them, in any order: their steps, the passing of time,
the end of a limit, a drop. There is an order in which they might have been made one at a time. -/
theorem exists_serialization (before : List Move) (plan : FailurePlan) {trail : List Move}
    (hm : ∀ m ∈ trail, m.IsPlain) :
    ∃ order, ((Vault.empty.run before).vacated plan).Serializes trail order := by
  have hbefore : (Vault.empty.run before).Orderly fun _ => True :=
    orderly_empty.run fun _ _ => trivial
  have hv : ((Vault.empty.run before).vacated plan).Orderly (· = plan) :=
    orderly_of_calls_nil rfl hbefore.distinct rfl
  have hcalls : ((Vault.empty.run before).vacated plan).calls = [] := rfl
  obtain ⟨hplain, order, hs⟩ := exists_settled hv hcalls hm
  exact ⟨_, hs.serializes hv rfl hm hplain⟩

/-- A rotation and a list side by side, on a table with one row, where nothing can be issued: the
list asks for the table while the rotation is at work. -/
theorem exists_serialization_rotate_list :
    ∃ order, ((Vault.empty.run [.start (.create ⟨1⟩ ⟨⟨"k", by decide⟩, ⟨[7]⟩⟩) none, .step 0,
        .step 0, .step 0, .step 0]).vacated { insert := true }).Serializes
      [.start (.rotate ⟨1⟩ ⟨"k", by decide⟩ ⟨⟨"m", by decide⟩, ⟨[8]⟩⟩) (some 5),
        .start (.list ⟨1⟩) none, .step 0, .step 1, .step 0, .step 1, .step 0, .step 0, .step 0,
        .step 1] order := by
  refine exists_serialization _ { insert := true } ?_
  simp [Move.IsPlain, Request.isPlain_of_ne]

end Vault

end KeyLifecycle
