import KeyLifecycle.Proofs.Vault.Serial

/-!
# Who has the table

The lock of a table has a *line* (`Lock.line`): whoever holds it, and behind them those who wait. A
call that asks for the lock goes to the end of the line, and a call that lets go or gives up is
taken out of it, wherever it stands. All that a call can do to the lock is one of these two
(`KeyLifecycle.Vault.Deed.lock_cases`), and so the line always consists of the calls that have a
claim to the table: those that wait for it, and those whose transaction is open
(`KeyLifecycle.Vault.Attended.mem_line`). Everything else about the lock follows from that.

`Vault.Custody` says what there is to say about a single state:

| what is said | field |
|---|---|
| no two transactions are open | `one` |
| the table is held by an open transaction, or by a call about to enter it | `locked` |
| whoever holds it can take a step, unless they pause or rest by their own will | `goes` |
| nobody waits for a table that is not held | `idle` |
| a finished transaction never touches the table again | `finished` |
| when all calls are over the table is free | `free` |

The failure plan has a lock, too, but nobody keeps that one beyond the step in which it is taken, so
it is no part of the state; that the holder of the table need not wait for it, or for anything else,
is what `goes` says.
-/

namespace KeyLifecycle

/-! ### The line of a lock -/

namespace Lock

variable {l : Lock} {i : Nat}

/-- **The line of a lock**: who holds it, and behind them those who wait for it. -/
def line (l : Lock) : List Nat := l.holder.toList ++ l.queue

/-- **A sound lock**: nobody waits for it while nobody holds it, and nobody is in its line twice. -/
structure IsSound (l : Lock) : Prop where
  idle : l.holder = none → l.queue = []
  nodup : l.line.Nodup

theorem mem_line : i ∈ l.line ↔ l.holder = some i ∨ i ∈ l.queue := by
  rw [line, List.mem_append, Option.mem_toList]

/-- Whoever is not in the line of a lock leaves nothing behind. -/
theorem leave_of_notMem (h : i ∉ l.line) : l.leave i = l := by
  rw [mem_line, not_or] at h
  have hq : l.queue.filter (· ≠ i) = l.queue := by
    refine List.filter_eq_self.mpr fun j hj => ?_
    rw [decide_eq_true_eq]
    rintro rfl
    exact h.2 hj
  rw [leave, if_neg h.1, hq]

theorem isSound_free : free.IsSound := ⟨fun _ => rfl, List.nodup_nil⟩

/-- Whoever holds a lock does not wait for it. -/
theorem IsSound.notMem_queue (h : l.IsSound) (hi : l.holder = some i) : i ∉ l.queue := by
  have hnodup := h.nodup
  rw [line, hi] at hnodup
  exact (List.nodup_cons.mp hnodup).1

/-- When the holder leaves, nobody in the queue does. -/
theorem IsSound.filter_queue (h : l.IsSound) (hi : l.holder = some i) :
    l.queue.filter (· ≠ i) = l.queue := by
  refine List.filter_eq_self.mpr fun j hj => ?_
  rw [decide_eq_true_eq]
  rintro rfl
  exact h.notMem_queue hi hj

/-- Whoever asks goes to the end of the line. -/
theorem IsSound.line_request (h : l.IsSound) (i : Nat) : (l.request i).line = l.line ++ [i] := by
  obtain ⟨holder, queue⟩ := l
  cases holder with
  | none =>
    obtain rfl : queue = [] := h.idle rfl
    rfl
  | some j => rfl

/-- Whoever leaves is taken out of the line. -/
theorem IsSound.line_leave (h : l.IsSound) (i : Nat) :
    (l.leave i).line = l.line.filter (· ≠ i) := by
  obtain ⟨holder, queue⟩ := l
  cases holder with
  | none =>
    obtain rfl : queue = [] := h.idle rfl
    rfl
  | some j =>
    rcases eq_or_ne j i with rfl | hne
    · have hkeep : queue.filter (· ≠ j) = queue := h.filter_queue rfl
      have hline : line ⟨some j, queue⟩ = j :: queue := rfl
      rw [hline, List.filter_cons_of_neg (by simp), hkeep, leave, if_pos rfl, handOver]
      cases queue <;> rfl
    · simp [leave, line, hne]

/-- Somebody who is not in the line yet may ask. -/
theorem IsSound.request (h : l.IsSound) (hi : i ∉ l.line) : (l.request i).IsSound where
  idle hn := by
    obtain ⟨holder, queue⟩ := l
    cases holder <;> simp [Lock.request] at hn
  nodup := by
    rw [h.line_request]
    refine List.nodup_append'.mpr ⟨h.nodup, List.nodup_singleton i, ?_⟩
    rw [List.disjoint_singleton]
    exact hi

/-- Anybody may leave. -/
theorem IsSound.leave (h : l.IsSound) (i : Nat) : (l.leave i).IsSound where
  idle hn := by
    obtain ⟨holder, queue⟩ := l
    rw [Lock.leave] at hn ⊢
    split at hn
    · rw [if_pos ‹_›]
      cases queue with
      | nil => rfl
      | cons next rest => simp [handOver] at hn
    · rw [if_neg ‹_›]
      have hq : queue = [] := h.idle hn
      simp [hq]
  nodup := by
    rw [h.line_leave]
    exact h.nodup.filter _

/-- A lock in whose line there is nobody is free. -/
theorem eq_free_of_line (h : l.line = []) : l = .free := by
  obtain ⟨holder, queue⟩ := l
  cases holder with
  | none =>
    obtain rfl : queue = [] := h
    rfl
  | some j => simp [line] at h

end Lock

/-! ### Claims -/

/-- **A claim to the table**: a call waits for it, or has its transaction open. -/
def Phase.claims : Phase → Bool
  | .waiting => true
  | phase => phase.handle?.any (·.isOpen)

/-- A call is through with the table: it has waited for it, and has no claim to it any more. -/
def Phase.isThrough : Phase → Bool
  | .checking => false
  | .asking => false
  | phase => !phase.claims

/-- A claim to the table is a wait or an open transaction. -/
theorem Phase.claims_eq_true {phase : Phase} (h : phase.claims = true) :
    phase = .waiting ∨ ∃ handle, phase.handle? = some handle ∧ handle.isOpen = true := by
  cases phase with
  | waiting => exact Or.inl rfl
  | working work handle | paused wake work handle | resting answer handle =>
    exact Or.inr ⟨handle, rfl, h⟩
  | _ => simp [claims, handle?] at h

theorem Phase.claims_of_handle {phase : Phase} {handle : Handle}
    (h : phase.handle? = some handle) : phase.claims = handle.isOpen := by
  cases phase <;> simp_all [claims, handle?]

theorem Request.claims_firstPhase (request : Request) : request.firstPhase.claims = false := by
  cases request <;> rfl

/-- Whatever is over has no claim. -/
theorem Call.claims_eq_false {call : Call} (h : call.isLive = false) :
    call.phase.claims = false := by
  obtain ⟨request, started, limit, phase⟩ := call
  cases phase <;> simp_all [isLive, Phase.claims, Phase.handle?]

namespace Vault

variable {plans : FailurePlan → Prop} {v : Vault} {i j : Nat} {call : Call} {e : Effect}
  {m : Move}

/-- **All that a deed does to the lock**: nothing, with the claim as it was; or the call asks for
it; or the call lets go of it, and has no claim from then on. -/
theorem Deed.lock_cases (hd : v.Deed i call e) :
    (e.lock = v.lock ∧ e.phase.claims = call.phase.claims) ∨
      (e.lock = v.lock.request i ∧ call.phase = .asking ∧ e.phase = .waiting) ∨
      (e.lock = v.lock.leave i ∧ e.phase.claims = false) := by
  cases hd with
  | ask hp => exact Or.inr (Or.inl ⟨rfl, hp, rfl⟩)
  | look | succeed | late | giveUp | expire | drop | commit | rollback =>
    exact Or.inr (Or.inr ⟨rfl, rfl⟩)
  | insert hp h =>
    obtain ⟨ho, ho'⟩ := Handle.isOpen_of_insert h
    exact Or.inl ⟨rfl, by rw [hp]; simp [Phase.claims, Phase.handle?, ho, ho']⟩
  | delete hp h =>
    obtain ⟨ho, ho'⟩ := Handle.isOpen_of_delete h
    exact Or.inl ⟨rfl, by rw [hp]; simp [Phase.claims, Phase.handle?, ho, ho']⟩
  | interrupt hr hp =>
    refine Or.inl ⟨rfl, ?_⟩
    rw [Phase.claims_of_handle (Orderly.handle?_of_inside? hp)]
    rfl
  | refuse hp | pass hp | begin hp | grant hp | fault hp | pause hp | wake hp | rest hp
  | resume hp =>
    exact Or.inl ⟨rfl, by rw [hp]; rfl⟩

/-- Whether there is such a call and it has a claim to the table. -/
def claims (v : Vault) (i : Nat) : Bool := v.calls[i]?.any (·.phase.claims)

theorem claims_eq (hc : v.calls[i]? = some call) : v.claims i = call.phase.claims := by
  rw [claims, hc, Option.any_some]

theorem claims_of_eq {w : Vault} (h : w.calls[i]? = v.calls[i]?) : w.claims i = v.claims i := by
  rw [claims, claims, h]

theorem claims_start (v : Vault) (request : Request) (limit : Option Span) (i : Nat) :
    (v.start request limit).claims i = v.claims i := by
  rcases Nat.lt_or_ge i v.calls.length with hi | hi
  · refine claims_of_eq ?_
    rw [start, List.getElem?_append_left hi]
  · have hv : v.claims i = false := by simp [claims, hi]
    cases hc : (v.start request limit).calls[i]? with
    | none => rw [hv, claims, hc, Option.any_none]
    | some call =>
      rw [hv, claims_eq hc]
      rcases start_calls_cases hc with ⟨-, rfl⟩ | hc'
      · exact request.claims_firstPhase
      · simp [hi] at hc'

/-! ### The line consists of the claims -/

/-- **A table that is looked after**: its lock is sound, and in the line of its lock are the calls
that have a claim to the table. -/
structure Attended (v : Vault) : Prop where
  sound : v.lock.IsSound
  mem_line (i : Nat) : i ∈ v.lock.line ↔ v.claims i = true

/-- **A deed leaves the table looked after**: what it does to the line is what it does to the claim
of its call. -/
theorem Attended.amend (h : v.Attended) (hc : v.calls[i]? = some call) (hd : v.Deed i call e) :
    (v.amend i e).Attended := by
  have hself : (v.amend i e).claims i = e.phase.claims := claims_eq (amend_calls_self hc e)
  have hother {j : Nat} (hne : j ≠ i) : (v.amend i e).claims j = v.claims j :=
    claims_of_eq (amend_calls_of_ne hne v e)
  have hlock : (v.amend i e).lock = e.lock := rfl
  rcases hd.lock_cases with ⟨hl, hp⟩ | ⟨hl, hasks, hp⟩ | ⟨hl, hp⟩
  · refine ⟨by rw [hlock, hl]; exact h.sound, fun j => ?_⟩
    rw [hlock, hl, h.mem_line]
    rcases eq_or_ne j i with rfl | hne
    · rw [hself, hp, claims_eq hc]
    · rw [hother hne]
  · -- whoever is about to ask has no claim yet, so they are not in the line
    have hno : i ∉ v.lock.line := by
      rw [h.mem_line, claims_eq hc, hasks]
      simp [Phase.claims, Phase.handle?]
    refine ⟨by rw [hlock, hl]; exact h.sound.request hno, fun j => ?_⟩
    rw [hlock, hl, h.sound.line_request, List.mem_append, List.mem_singleton, h.mem_line]
    rcases eq_or_ne j i with rfl | hne
    · rw [hself, hp]
      exact ⟨fun _ => rfl, fun _ => Or.inr rfl⟩
    · rw [hother hne]
      exact ⟨fun hj => hj.resolve_right hne, Or.inl⟩
  · refine ⟨by rw [hlock, hl]; exact h.sound.leave i, fun j => ?_⟩
    rw [hlock, hl, h.sound.line_leave, List.mem_filter, h.mem_line, decide_eq_true_eq]
    rcases eq_or_ne j i with rfl | hne
    · rw [hself, hp]
      exact ⟨fun hj => absurd rfl hj.2, fun hj => absurd hj (by simp)⟩
    · rw [hother hne]
      exact ⟨And.left, fun hj => ⟨hj, hne⟩⟩

theorem attended_empty : Vault.empty.Attended :=
  ⟨Lock.isSound_free, fun i => by simp [empty, Lock.free, Lock.line, claims]⟩

/-- **The table is always looked after.** -/
theorem Attended.run (h : v.Attended) (moves : List Move) : (v.run moves).Attended := by
  have plans : ∀ plan, .setPlan plan ∈ moves → (fun _ => True) plan := fun _ _ => trivial
  refine run_induction (P := Attended) ?_ ?_ ?_ ?_ ?_ h plans
  · intro v request limit h
    refine ⟨h.sound, fun i => ?_⟩
    rw [claims_start]
    exact h.mem_line i
  · exact fun v i call e h hc hd => h.amend hc hd
  · exact fun v plan _ h => ⟨h.sound, h.mem_line⟩
  · exact fun v moment h => ⟨h.sound, h.mem_line⟩
  · exact fun v events h => ⟨h.sound, h.mem_line⟩

/-! ### What is finished stays finished -/

/-- Whether there is such a call, and it is through with the table. -/
def isThrough (v : Vault) (i : Nat) : Bool := v.calls[i]?.any (·.phase.isThrough)

/-- **A deed of a call that is through with the table** leaves the table alone, and the call is
through with it as before. -/
theorem Deed.of_isThrough (hd : v.Deed i call e) (h : call.phase.isThrough = true) :
    e.table = v.table ∧ e.phase.isThrough = true := by
  cases hd with
  | commit hp ho | rollback hp ho | succeed hp _ ho =>
    rw [hp] at h
    simp [Phase.isThrough, Phase.claims, Phase.handle?, ho] at h
  | insert hp hi =>
    rw [hp] at h
    simp [Phase.isThrough, Phase.claims, Phase.handle?, (Handle.isOpen_of_insert hi).1] at h
  | delete hp hi =>
    rw [hp] at h
    simp [Phase.isThrough, Phase.claims, Phase.handle?, (Handle.isOpen_of_delete hi).1] at h
  | refuse hp | pass hp | ask hp | begin hp | grant hp | look hp =>
    simp [hp, Phase.isThrough, Phase.claims] at h
  | interrupt hr hp =>
    refine ⟨rfl, ?_⟩
    cases hq : call.phase <;>
      simp_all [Phase.inside?, Phase.isThrough, Phase.claims, Phase.handle?]
  | fault hp | pause hp | wake hp | rest hp | resume hp =>
    rw [hp] at h
    exact ⟨rfl, h⟩
  | late | giveUp | expire | drop => exact ⟨rfl, rfl⟩

/-- **Who is through with the table** stays so, and changes nothing any more. -/
theorem isThrough_move (h : v.isThrough i = true) (m : Move) :
    (v.move m).isThrough i = true ∧ v.changeBy i m = [] := by
  obtain ⟨call, hc, hp⟩ := (Option.any_eq_true _ _).mp h
  by_cases hm : m.call? = some i
  · rcases move_eq_or_deed hm hc with he | ⟨e, he, hd⟩
    · exact ⟨by rwa [he], changeBy_of_table_eq (by rw [he])⟩
    · obtain ⟨ht, hp'⟩ := hd.of_isThrough hp
      refine ⟨?_, changeBy_of_table_eq (by rw [he]; exact ht)⟩
      rw [isThrough, he, amend_calls_self hc, Option.any_some]
      exact hp'
  · refine ⟨?_, changeBy_of_ne hm⟩
    obtain ⟨call', hc', -⟩ := exists_call_move hc m
    rcases move_calls_cases hm hc' with hsame | ⟨hnone, -⟩
    · rw [isThrough, hc']
      obtain rfl := Option.some.inj (hc.symm.trans hsame)
      exact hp
    · simp [hc] at hnone

theorem isThrough_run (h : v.isThrough i = true) (moves : List Move) :
    (v.run moves).isThrough i = true ∧ v.changesBy i moves = [] := by
  induction moves generalizing v with
  | nil => exact ⟨h, rfl⟩
  | cons m moves ih =>
    obtain ⟨hm, hone⟩ := isThrough_move h m
    obtain ⟨hrun, hrest⟩ := ih hm
    exact ⟨hrun, by rw [changesBy, hone, hrest, List.append_nil]⟩

/-! ### The state of the table -/

/-- **The table is in somebody's custody, or free.** -/
structure Custody (v : Vault) : Prop where
  /-- At most one transaction is unfinished. -/
  one {i j : Nat} {first second : Call} {mine yours : Handle}
    (hi : v.calls[i]? = some first) (hmine : first.phase.handle? = some mine)
    (ho : mine.isOpen = true) (hj : v.calls[j]? = some second)
    (hyours : second.phase.handle? = some yours) (ho' : yours.isOpen = true) : i = j
  /-- The table is held by an unfinished transaction, or by a waiting call to which it has been
  given. -/
  locked {i : Nat} (hl : v.lock.holder = some i) :
    ∃ call, v.calls[i]? = some call ∧ (call.phase = .waiting ∨
      ∃ handle, call.phase.handle? = some handle ∧ handle.isOpen = true)
  /-- An unfinished transaction holds the table. -/
  holds {i : Nat} {call : Call} {handle : Handle} (hc : v.calls[i]? = some call)
    (hh : call.phase.handle? = some handle) (ho : handle.isOpen = true) : v.lock.holder = some i
  /-- Whoever holds the table is not among those who wait for it. The next step that they take does
  something, and it is not that of waiting; unless they are in a pause of their own that is not
  over, or are a lease of which nothing has been asked. -/
  goes {i : Nat} {call : Call} (hl : v.lock.holder = some i) (hc : v.calls[i]? = some call) :
    i ∉ v.lock.queue ∧
      ((∃ e, v.step i = v.amend i e ∧ v.Deed i call e ∧ e.phase ≠ .waiting) ∨
        (∃ wake work handle, call.phase = .paused wake work handle ∧ v.now < wake) ∨
        ∃ answer handle, call.phase = .resting answer handle)
  /-- Nobody waits for a table that nobody holds. -/
  idle (hl : v.lock.holder = none) : v.lock.queue = []
  /-- Those in the queue wait, and everybody who waits is in the queue or has been given the
  table. -/
  queued {i : Nat} {call : Call} (hc : v.calls[i]? = some call) :
    (i ∈ v.lock.queue → call.phase = .waiting) ∧
      (call.phase = .waiting → v.lock.holder = some i ∨ i ∈ v.lock.queue)
  /-- A finished transaction changes nothing in the table any more, and is never given it again. -/
  finished {i : Nat} {call : Call} {handle : Handle} (hc : v.calls[i]? = some call)
    (hh : call.phase.handle? = some handle) (ho : handle.isOpen = false) (later : List Move) :
    v.changesBy i later = [] ∧ (v.run later).lock.holder ≠ some i
  /-- Once all calls are over the table is free. -/
  free (h : ∀ call ∈ v.calls, call.isLive = false) : v.lock = .free

/-- After no deed of a call that has been given the table does the call wait for it. -/
theorem Deed.phase_ne_waiting (hd : v.Deed i call e) (hp : call.phase ≠ .asking) :
    e.phase ≠ .waiting := by
  cases hd with
  | ask hp' => exact absurd hp' hp
  | _ => simp

/-- **Whoever has a claim and holds the table can go on**, unless they pause or rest. -/
theorem step_of_holder (hc : v.calls[i]? = some call) (hl : v.lock.holder = some i)
    (hp : call.phase.claims = true) :
    (∃ e, v.step i = v.amend i e ∧ v.Deed i call e ∧ e.phase ≠ .waiting) ∨
      (∃ wake work handle, call.phase = .paused wake work handle ∧ v.now < wake) ∨
      ∃ answer handle, call.phase = .resting answer handle := by
  have hstep : (∃ e, v.step i = v.amend i e ∧ v.Deed i call e) →
      ∃ e, v.step i = v.amend i e ∧ v.Deed i call e ∧ e.phase ≠ .waiting := by
    rintro ⟨e, he, hd⟩
    refine ⟨e, he, hd, hd.phase_ne_waiting ?_⟩
    intro hasking
    simp [hasking, Phase.claims, Phase.handle?] at hp
  rw [step, hc] at hstep ⊢
  dsimp only at hstep ⊢
  cases hq : call.phase with
  | waiting =>
    rw [hq] at hstep
    dsimp only at hstep ⊢
    rw [if_pos hl] at hstep ⊢
    exact Or.inl (hstep (enter_deed hq hl))
  | working work handle =>
    rw [hq] at hstep
    exact Or.inl (hstep (workStep_deed hq))
  | paused wake work handle =>
    rcases Nat.lt_or_ge v.now wake with hlt | hge
    · exact Or.inr (Or.inl ⟨wake, work, handle, rfl, hlt⟩)
    · rw [hq] at hstep
      dsimp only at hstep ⊢
      rw [if_pos hge] at hstep ⊢
      exact Or.inl (hstep ⟨_, setPhase_eq_amend v i _, .wake hq hge⟩)
  | resting answer handle => exact Or.inr (Or.inr ⟨answer, handle, rfl⟩)
  | _ => simp [hq, Phase.claims, Phase.handle?] at hp

/-- **A table that is looked after, in a vault in order, is in custody.** -/
theorem Attended.custody (h : v.Attended) (hv : v.Orderly plans) : v.Custody where
  one hi hmine ho hj hyours ho' := by
    have hl := hv.holds hi hmine ho
    rw [hv.holds hj hyours ho'] at hl
    exact (Option.some.inj hl).symm
  locked hl := by
    obtain ⟨call, hc, hp⟩ := (Option.any_eq_true _ _).mp
      ((h.mem_line _).mp (Lock.mem_line.mpr (Or.inl hl)))
    exact ⟨call, hc, Phase.claims_eq_true hp⟩
  holds := hv.holds
  goes {i call} hl hc := by
    have hclaims := (h.mem_line i).mp (Lock.mem_line.mpr (Or.inl hl))
    rw [claims_eq hc] at hclaims
    exact ⟨h.sound.notMem_queue hl, step_of_holder hc hl hclaims⟩
  idle := h.sound.idle
  queued {i call} hc := by
    constructor
    · intro hq
      have hclaims := (h.mem_line i).mp (Lock.mem_line.mpr (Or.inr hq))
      rw [claims_eq hc] at hclaims
      refine (Phase.claims_eq_true hclaims).resolve_right ?_
      -- an open transaction holds the lock, and the holder does not stand in the queue
      rintro ⟨handle, hh, ho⟩
      exact h.sound.notMem_queue (hv.holds hc hh ho) hq
    · intro hp
      refine Lock.mem_line.mp ((h.mem_line i).mpr ?_)
      rw [claims_eq hc, hp]
      rfl
  finished {i call handle} hc hh ho later := by
    have hthrough : v.isThrough i = true := by
      rw [isThrough, hc, Option.any_some]
      cases hp : call.phase <;>
        simp_all [Phase.handle?, Phase.isThrough, Phase.claims]
    obtain ⟨hlater, hnone⟩ := isThrough_run hthrough later
    refine ⟨hnone, fun hl => ?_⟩
    have hclaims := ((h.run later).mem_line i).mp (Lock.mem_line.mpr (Or.inl hl))
    obtain ⟨call', hc', hp'⟩ := (Option.any_eq_true _ _).mp hlater
    rw [claims_eq hc'] at hclaims
    cases hq : call'.phase <;> simp_all [Phase.isThrough, Phase.claims, Phase.handle?]
  free hover := by
    refine Lock.eq_free_of_line (List.eq_nil_iff_forall_not_mem.mpr fun i hi => ?_)
    obtain ⟨call, hc, hp⟩ := (Option.any_eq_true _ _).mp ((h.mem_line i).mp hi)
    have hno := Call.claims_eq_false (hover call (List.mem_of_getElem? hc))
    simp [hno] at hp

end Vault

end KeyLifecycle
