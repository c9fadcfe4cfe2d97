import KeyLifecycle.Proofs.Vault.Custody

/-!
# First come, first served

In which order the calls of a table are given it. A run is read as two records: who began to wait
for the table (`Vault.asked`), and who was given it (`Vault.given`), each in the order in which it
happened. Whoever finds the table free begins to wait and is given it in the same move.

The records are compared through the queue. Whoever has been given the table, followed by whoever
still waits for it, is at all times a part of those who have asked, *in the order in which they
asked* (`KeyLifecycle.Vault.InTurn.order`); and who is missing has been cancelled or dropped while
waiting (`KeyLifecycle.Vault.InTurn.skipped`). So nobody overtakes anybody, and who gives up leaves
no gap.

The step of the proof is what one move adds to the two records and the queue together: whoever asks
is put at the end, whoever gives up is taken out, and to be given the table is to pass from the
queue to the record.
-/

namespace KeyLifecycle

/-! ### Passing the lock on -/

namespace Lock

variable {l : Lock} {i : Nat}

/-- The call to which a lock passes when it changes. -/
def heir? (before after : Lock) : Option Nat := after.holder.filter (before.holder ≠ some ·)

/-- A lock that does not change passes to nobody. -/
theorem heir?_self (l : Lock) : l.heir? l = none := by
  obtain ⟨holder, queue⟩ := l
  cases holder <;> simp [heir?]

/-- Whoever asks is given the lock, or comes last in the queue. -/
theorem IsSound.heir?_request (h : l.IsSound) (i : Nat) :
    (l.heir? (l.request i)).toList ++ (l.request i).queue = l.queue ++ [i] := by
  obtain ⟨holder, queue⟩ := l
  cases holder with
  | none =>
    obtain rfl : queue = [] := h.idle rfl
    rfl
  | some j => simp [heir?, Lock.request]

/-- **Whoever lets go passes the lock to the first of the queue**, and whoever gives up is taken out
of the queue: those that are left keep their order. -/
theorem IsSound.heir?_leave (h : l.IsSound) (i : Nat) :
    (l.heir? (l.leave i)).toList ++ (l.leave i).queue = l.queue.filter (· ≠ i) := by
  obtain ⟨holder, queue⟩ := l
  by_cases hi : holder = some i
  · subst hi
    have hno : i ∉ queue := h.notMem_queue rfl
    have hkeep : queue.filter (· ≠ i) = queue := h.filter_queue rfl
    rw [hkeep, Lock.leave, if_pos rfl, handOver]
    cases queue with
    | nil => rfl
    | cons next rest =>
      have hne : some i ≠ some next := fun h' => hno (Option.some.inj h' ▸ List.mem_cons_self)
      dsimp only [heir?]
      rw [Option.filter_some_pos (by simpa using hne)]
      rfl
  · cases holder <;> simp [Lock.leave, heir?, hi]

end Lock

/-- Whether a call waits for the table, or is about to enter it. -/
def Phase.isWaiting : Phase → Bool
  | .waiting => true
  | _ => false

theorem Phase.isWaiting_eq_true {phase : Phase} : phase.isWaiting = true ↔ phase = .waiting := by
  cases phase <;> simp [isWaiting]

namespace Vault

variable {v : Vault} {i : Nat} {call : Call} {e : Effect} {m : Move} {moves : List Move}

/-! ### The records of a run -/

/-- What the moves of a run leave on record. -/
def chronicle {α : Type} (item? : Vault → Move → Option α) (v : Vault) : List Move → List α
  | [] => []
  | m :: moves => (item? v m).toList ++ (v.move m).chronicle item? moves

theorem chronicle_concat {α : Type} (item? : Vault → Move → Option α) (v : Vault)
    (moves : List Move) (m : Move) :
    v.chronicle item? (moves ++ [m]) =
      v.chronicle item? moves ++ (item? (v.run moves) m).toList := by
  induction moves generalizing v with
  | nil => simp [chronicle]
  | cons first moves ih => simp [chronicle, ih]

/-- Whether there is such a call and it waits. -/
def isWaiting (v : Vault) (i : Nat) : Bool := v.calls[i]?.any (·.phase.isWaiting)

/-- The call that begins to wait by a move. -/
def arrival? (v : Vault) (m : Move) : Option Nat :=
  m.call?.filter fun i => !v.isWaiting i && (v.move m).isWaiting i

/-- **Who has begun to wait for the table**, in this order. -/
def asked (moves : List Move) : List Nat := Vault.empty.chronicle arrival? moves

/-- **Who has been given the table**, in this order. -/
def given (moves : List Move) : List Nat :=
  Vault.empty.chronicle (fun v m => v.lock.heir? (v.move m).lock) moves

/-- **First come, first served.** -/
structure InTurn (moves : List Move) : Prop where
  /-- Nobody begins to wait twice. -/
  once : (asked moves).Nodup
  /-- Those that have been given the table, and behind them those that wait, stand in the order in
  which they began to wait. -/
  order : (given moves ++ (Vault.empty.run moves).lock.queue).Sublist (asked moves)
  /-- Who has been left out was cancelled or dropped. -/
  skipped {i : Nat} (ha : i ∈ asked moves)
    (hno : i ∉ given moves ++ (Vault.empty.run moves).lock.queue) :
    ∃ call, (Vault.empty.run moves).calls[i]? = some call ∧ (call.phase = .dropped ∨
      call.phase = .answered (.error (.cancelled call.request.operation)))

/-! ### What a move adds -/

/-- There is such a call, and it is no longer about to ask for the table. -/
def HasAsked (v : Vault) (i : Nat) : Prop :=
  ∃ call, v.calls[i]? = some call ∧ call.phase ≠ .checking ∧ call.phase ≠ .asking

/-- A call has been cancelled or dropped. -/
def HasGivenUp (v : Vault) (i : Nat) : Prop :=
  ∃ call, v.calls[i]? = some call ∧ (call.phase = .dropped ∨
    call.phase = .answered (.error (.cancelled call.request.operation)))

/-- No deed leads back to where a call is about to ask. -/
theorem Deed.past (hd : v.Deed i call e) (hp : call.phase ≠ .checking ∧ call.phase ≠ .asking) :
    e.phase ≠ .checking ∧ e.phase ≠ .asking := by
  cases hd with
  | pass hp' => exact absurd hp' hp.1
  | _ => simp

theorem HasAsked.move (h : v.HasAsked i) (m : Move) : (v.move m).HasAsked i := by
  obtain ⟨call, hc, hp⟩ := h
  by_cases hm : m.call? = some i
  · rcases move_eq_or_deed hm hc with he | ⟨e, he, hd⟩
    · exact ⟨call, by rw [he, hc], hp⟩
    · exact ⟨_, by rw [he, amend_calls_self hc], hd.past hp⟩
  · obtain ⟨call', hc', -⟩ := exists_call_move hc m
    rcases move_calls_cases hm hc' with hsame | ⟨hnone, -⟩
    · exact ⟨call, by rw [hc', ← hsame, hc], hp⟩
    · simp [hc] at hnone

theorem HasGivenUp.move (h : v.HasGivenUp i) (m : Move) : (v.move m).HasGivenUp i := by
  obtain ⟨call, hc, hp⟩ := h
  have hended : v.hasEnded i = true := by
    rw [hasEnded_eq hc]
    rcases hp with hp | hp <;> simp [Call.isLive, hp]
  exact ⟨call, by rw [calls_move_of_hasEnded hended, hc], hp⟩

/-- A move does nothing to the lock, and nobody begins to wait by it; or it is a deed. -/
theorem quiet_or_deed (v : Vault) (m : Move) :
    (v.arrival? m = none ∧ (v.move m).lock = v.lock) ∨
      ∃ j call e, m.call? = some j ∧ v.calls[j]? = some call ∧ v.move m = v.amend j e ∧
        v.Deed j call e := by
  have still (he : v.move m = v) : v.arrival? m = none ∧ (v.move m).lock = v.lock := by
    rw [arrival?, he]
    exact ⟨by simp, rfl⟩
  cases hm : m.call? with
  | some i =>
    cases hc : v.calls[i]? with
    | none => exact Or.inl (still (move_of_absent hm hc))
    | some call =>
      rcases move_eq_or_deed hm hc with he | ⟨e, he, hd⟩
      · exact Or.inl (still he)
      · exact Or.inr ⟨i, call, e, rfl, hc, he, hd⟩
  | none =>
    refine Or.inl ⟨by rw [arrival?, hm, Option.filter_none], ?_⟩
    cases m with
    | start | setPlan | clock | report => rfl
    | _ => simp [Move.call?] at hm

/-- Whether a deed is an arrival is to be seen from its phases. -/
theorem arrival?_of_deed (hm : m.call? = some i) (hc : v.calls[i]? = some call)
    (he : v.move m = v.amend i e) :
    v.arrival? m = if !call.phase.isWaiting && e.phase.isWaiting then some i else none := by
  have hself : (v.amend i e).isWaiting i = e.phase.isWaiting := by
    rw [isWaiting, amend_calls_self hc, Option.any_some]
  have hbefore : v.isWaiting i = call.phase.isWaiting := by rw [isWaiting, hc, Option.any_some]
  rw [arrival?, hm, he, Option.filter_some, hself, hbefore]

/-- A deed of a call that waits for a table that somebody else has is the end of its patience. -/
theorem Deed.of_waiting (hd : v.Deed i call e) (hp : call.phase = .waiting)
    (hl : v.lock.holder ≠ some i) : e.phase = .dropped ∨
      e.phase = .answered (.error (.cancelled call.request.operation)) := by
  cases hd with
  | begin _ hl' | grant _ hl' | look _ hl' => exact absurd hl' hl
  | expire => exact Or.inr rfl
  | drop => exact Or.inl rfl
  | interrupt hr hp' => simp [hp, Phase.inside?] at hp'
  | _ => simp_all

/-- **What a move adds to the records and the queue together**: one call that asks, at the end; or
nobody, and who is missing in the queue from then on without having been given the table has given
up. -/
theorem Attended.passage (h : v.Attended) (hv : v.Custody) (m : Move) :
    (∃ i, v.arrival? m = some i ∧ ¬v.HasAsked i ∧ (v.move m).HasAsked i ∧
        (v.lock.heir? (v.move m).lock).toList ++ (v.move m).lock.queue = v.lock.queue ++ [i]) ∨
      (v.arrival? m = none ∧
        ((v.lock.heir? (v.move m).lock).toList ++ (v.move m).lock.queue).Sublist v.lock.queue ∧
        ∀ i ∈ v.lock.queue, i ∉ (v.lock.heir? (v.move m).lock).toList ++ (v.move m).lock.queue →
          (v.move m).HasGivenUp i) := by
  rcases quiet_or_deed v m with ⟨ha, hl⟩ | ⟨i, call, e, hm, hc, he, hd⟩
  · rw [hl, Lock.heir?_self]
    exact Or.inr ⟨ha, List.Sublist.refl _, fun i hi hno => absurd hi hno⟩
  have harrival := arrival?_of_deed hm hc he
  have hlock : (v.move m).lock = e.lock := by rw [he]; rfl
  have hself : (v.move m).calls[i]? = some { call with phase := e.phase } := by
    rw [he, amend_calls_self hc]
  rw [hlock]
  rcases hd.lock_cases with ⟨hl, hclaims⟩ | ⟨hl, hasks, hwaits⟩ | ⟨hl, hclaims⟩
  · have ha : v.arrival? m = none := by
      rw [harrival, if_neg]
      rw [Bool.and_eq_true, Phase.isWaiting_eq_true]
      rintro ⟨-, hwaits⟩
      -- a call about to ask has no claim, and one that waits has
      refine hd.phase_ne_waiting (fun hasks => ?_) hwaits
      simp [hwaits, hasks, Phase.claims, Phase.handle?] at hclaims
    rw [hl, Lock.heir?_self]
    exact Or.inr ⟨ha, List.Sublist.refl _, fun j hj hno => absurd hj hno⟩
  · refine Or.inl ⟨i, ?_, ?_, ⟨_, hself, by simp [hwaits]⟩, ?_⟩
    · rw [harrival, hasks, hwaits]
      rfl
    · rintro ⟨call', hc', -, hno⟩
      obtain rfl := Option.some.inj (hc.symm.trans hc')
      exact hno hasks
    · rw [hl, h.sound.heir?_request]
  · refine Or.inr ⟨?_, ?_, ?_⟩
    · rw [harrival, if_neg]
      rw [Bool.and_eq_true, Phase.isWaiting_eq_true]
      rintro ⟨-, hwaits⟩
      simp [hwaits, Phase.claims] at hclaims
    · rw [hl, h.sound.heir?_leave]
      exact List.filter_sublist
    · intro j hj hno
      rw [hl, h.sound.heir?_leave, List.mem_filter, decide_eq_true_eq, not_and, not_not] at hno
      obtain rfl := hno hj
      -- it stood in the queue, so it waited, and somebody else had the table
      have hp := (hv.queued hc).1 hj
      exact ⟨_, hself, hd.of_waiting hp fun hl' => (hv.goes hl' hc).1 hj⟩

/-! ### All along a run -/

/-- **The records of a run**, and that nobody on them is still about to ask. -/
structure Recorded (moves : List Move) : Prop extends InTurn moves where
  past {i : Nat} (ha : i ∈ asked moves) : (Vault.empty.run moves).HasAsked i

theorem recorded_nil : Recorded [] where
  once := List.nodup_nil
  order := List.nil_sublist _
  skipped ha := by simp [asked, chronicle] at ha
  past ha := by simp [asked, chronicle] at ha

/-- **One more move.** -/
theorem Recorded.concat (h : Recorded moves) (m : Move) : Recorded (moves ++ [m]) := by
  have hattended : (Vault.empty.run moves).Attended := attended_empty.run moves
  have hcustody : (Vault.empty.run moves).Custody :=
    hattended.custody (orderly_empty.run fun _ _ => trivial)
  have hrun : Vault.empty.run (moves ++ [m]) = (Vault.empty.run moves).move m := by
    rw [run_append, run_cons, run_nil]
  have hasked : asked (moves ++ [m]) =
      asked moves ++ ((Vault.empty.run moves).arrival? m).toList := chronicle_concat ..
  have hgiven : given (moves ++ [m]) ++ (Vault.empty.run (moves ++ [m])).lock.queue =
      given moves ++ (((Vault.empty.run moves).lock.heir?
        ((Vault.empty.run moves).move m).lock).toList ++
        ((Vault.empty.run moves).move m).lock.queue) := by
    rw [given, chronicle_concat, hrun, List.append_assoc, given]
  have hpast : ∀ i ∈ asked moves, (Vault.empty.run (moves ++ [m])).HasAsked i := by
    rw [hrun]
    exact fun i hi => (h.past hi).move m
  rcases hattended.passage hcustody m with ⟨i, ha, hno, hnow, hqueue⟩ | ⟨ha, hsub, hgone⟩
  · rw [ha, Option.toList_some] at hasked
    rw [hqueue, ← List.append_assoc] at hgiven
    have hnew : i ∉ asked moves := fun hi => hno (h.past hi)
    constructor
    · constructor
      · rw [hasked]
        refine List.nodup_append'.mpr ⟨h.once, List.nodup_singleton i, ?_⟩
        rw [List.disjoint_singleton]
        exact hnew
      · rw [hgiven, hasked]
        exact h.order.append (List.Sublist.refl [i])
      · intro j hj hno'
        rw [hasked, List.mem_append] at hj
        rw [hgiven, List.mem_append, not_or] at hno'
        rw [hrun]
        exact HasGivenUp.move (h.skipped (hj.resolve_right hno'.2) hno'.1) m
    · intro j hj
      rw [hasked, List.mem_append, List.mem_singleton] at hj
      rcases hj with hj | rfl
      · exact hpast j hj
      · rwa [hrun]
  · rw [ha, Option.toList_none, List.append_nil] at hasked
    constructor
    · constructor
      · rw [hasked]
        exact h.once
      · rw [hgiven, hasked]
        exact ((List.Sublist.refl _).append hsub).trans h.order
      · intro j hj hno'
        rw [hasked] at hj
        rw [hgiven, List.mem_append, not_or] at hno'
        rw [hrun]
        -- whoever is newly missing stood in the queue
        by_cases hq : j ∈ (Vault.empty.run moves).lock.queue
        · exact hgone j hq hno'.2
        · refine HasGivenUp.move (h.skipped hj ?_) m
          rw [List.mem_append, not_or]
          exact ⟨hno'.1, hq⟩
    · intro j hj
      rw [hasked] at hj
      exact hpast j hj

theorem recorded (moves : List Move) : Recorded moves := by
  induction moves using List.reverseRecOn with
  | nil => exact recorded_nil
  | append_singleton moves m ih => exact ih.concat m

/-- **The table is never leaked, shared or deadlocked, and is given in turn.** Whatever calls there
are, and whatever happens to them in whatever order – steps, pauses, the end of a limit, a drop,
work that ends its transaction early and goes on, other failure plans –, at any moment the table is
in the custody of one call or free, and it has been given to those who asked for it in the order in
which they asked. -/
theorem table_in_custody_and_in_turn (moves : List Move) :
    (Vault.empty.run moves).Custody ∧ InTurn moves :=
  ⟨(attended_empty.run moves).custody (orderly_empty.run fun _ _ => trivial),
    (recorded moves).toInTurn⟩

end Vault

end KeyLifecycle
