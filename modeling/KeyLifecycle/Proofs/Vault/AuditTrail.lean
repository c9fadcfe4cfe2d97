import KeyLifecycle.Proofs.Int64
import KeyLifecycle.Proofs.Store.Task
import KeyLifecycle.Proofs.Vault.Ending
import KeyLifecycle.Proofs.Vault.InTurn

/-!
# The log as an audit trail

Whoever reads nothing but the loud part of the log knows at any moment who holds which key, and in
which order: the reader begins with nothing and does what each event says (`Event.replay`). That the
reader is never wrong (`KeyLifecycle.Vault.log_is_audit_trail`) has two parts.

* **Nothing is said without a cause.** A deed that reports something loud is the one that commits
  the work of its call, and what it reports is the one event that belongs to the request
  (`Request.record?`), whichever the answer.
* **Nothing happens in silence.** A deed that changes who holds which key is such a commit: a stamp
  writes to the table too, but changes nothing that the trail is about.

Both are read off one deed (`KeyLifecycle.Vault.Deed.recorded`), since the table changes, the call
is answered and the event is reported in the same move. So the events stand in the order of the
commits, although they are reported when the lock of the table has been passed on.
-/

namespace KeyLifecycle

/-! ### Reading the trail -/

/-- Who holds which access key, in the order of the rows. -/
def Table.holdings (t : Table) : List (UserId × AccessKey) :=
  t.rows.map fun row => (row.owner, row.key)

/-- What a reader of the log makes of an event, who has kept a list of keys and their owners. -/
def Event.replay (held : List (UserId × AccessKey)) : Event → List (UserId × AccessKey)
  | keyCreated owner key => held ++ [(owner, key)]
  | keyDeleted owner key => held.erase (owner, key)
  | keyRotated owner old new => held.erase (owner, old) ++ [(owner, new)]
  | _ => held

/-- The event that belongs to a request, if it is one that changes who holds which key. -/
def Request.record? : Request → Option Event
  | create owner material => some (.keyCreated owner material.key)
  | delete owner key => some (.keyDeleted owner key)
  | rotate owner key material => some (.keyRotated owner key material.key)
  | _ => none

/-- A request that a store makes in one of its own operations. -/
def Request.IsOfStore (request : Request) : Prop :=
  request ≠ .lease ∧ ∀ name work, request ≠ .unit name work

/-- A move of the operations of a store: no other request is made, and whatever else is reported is
not loud. -/
def Move.IsOfStore : Move → Prop
  | start request _ => request.IsOfStore
  | report events => ∀ event ∈ events, event.level ≠ .info
  | _ => True

instance : DecidablePred Request.IsOfStore
  | .lease => isFalse fun h => h.1 rfl
  | .unit name work => isFalse fun h => h.2 name work rfl
  | .create _ _ | .delete _ _ | .rotate _ _ _ | .list _ | .stamp _ _ | .count =>
    isTrue ⟨by simp, by simp⟩

instance : DecidablePred Move.IsOfStore
  | .start request _ => inferInstanceAs (Decidable request.IsOfStore)
  | .report events => inferInstanceAs (Decidable (∀ event ∈ events, event.level ≠ .info))
  | .step _ | .expire _ | .drop _ | .resume _ _ | .interrupt _ | .setPlan _ | .clock _ =>
    isTrue trivial

theorem Request.IsOfStore.isPlain {request : Request} (h : request.IsOfStore) : request.IsPlain :=
  isPlain_of_ne h.1 h.2

namespace Table

variable {t t' : Table} {owner : UserId} {key : AccessKey} {material : KeyMaterial} {row : Row}

theorem holdings_insert {c : Credential} (h : t.insert owner material = .ok (c, t')) :
    t'.holdings = t.holdings ++ [(owner, material.key)] := by
  obtain ⟨-, -, rfl⟩ := insert_eq_ok.mp h
  simp [holdings, fresh]

/-- To take a row out is to strike its key off the list, where keys are distinct. -/
theorem holdings_remove? (hk : t.HasDistinctKeys) (h : t.remove? owner key = some (row, t')) :
    t'.holdings = t.holdings.erase (owner, key) := by
  obtain ⟨before, after, hrows, hrows', -, rfl, rfl⟩ := remove?_eq_some h
  have hno : (row.owner, row.key) ∉ before.map fun row => (row.owner, row.key) := by
    intro hmem
    obtain ⟨other, ho, he⟩ := List.mem_map.mp hmem
    exact key_ne_of_remove? hk hrows other (List.mem_append_left _ ho) (Prod.mk.inj he).2
  rw [holdings, holdings, hrows, hrows', List.map_append, List.map_append, List.map_cons,
    List.erase_append_right _ hno, List.erase_cons_head]

theorem holdings_stamped (t : Table) (request : Request) :
    (request.stamped t).holdings = t.holdings := by
  cases request with
  | stamp key moment =>
    rw [Request.stamped, stamp?]
    split
    · exact map_stampRows _ (fun _ _ => rfl) key moment t.rows
    · rfl
  | _ => rfl

/-- A number that is given out is another one than the last. -/
theorem ne_of_insert {c : Credential} (h : t.insert owner material = .ok (c, t')) :
    t'.lastId ≠ t.lastId := by
  obtain ⟨-, -, rfl⟩ := insert_eq_ok.mp h
  exact Int64.add_one_ne _

end Table

namespace Request

variable {plans : FailurePlan → Prop} {request : Request} {t t' : Table} {reply : Reply}
  {event : Event}

/-- **What a request is granted is what its event says**: the table is another one, and who holds
which key in it is what a reader of the event would make of the list before. The event is reported,
and it is a loud one. -/
theorem Grants.recorded (h : request.Grants plans t reply t') (hk : t.HasDistinctKeys)
    (he : request.record? = some event) :
    t' ≠ t ∧ t'.holdings = event.replay t.holdings ∧ request.audit reply = [event] ∧
      event.level = .info := by
  have hperform := h.perform_eq
  cases request with
  | create owner material =>
    obtain rfl := Option.some.inj he
    rw [perform_create, if_neg (by simp)] at hperform
    cases hi : t.insert owner material with
    | error cause => simp [hi] at hperform
    | ok result =>
      obtain ⟨c, table⟩ := result
      simp only [hi, Prod.mk.injEq, Except.ok.injEq] at hperform
      obtain ⟨rfl, rfl⟩ := hperform
      have hc : c.key = material.key := by
        obtain ⟨-, rfl, -⟩ := Table.insert_eq_ok.mp hi
        rfl
      exact ⟨fun hsame => Table.ne_of_insert hi (congrArg _ hsame), Table.holdings_insert hi,
        by rw [audit, hc], rfl⟩
  | delete owner key =>
    obtain rfl := Option.some.inj he
    rw [perform_delete, if_neg (by simp)] at hperform
    cases hr : t.remove? owner key with
    | none => simp [hr] at hperform
    | some result =>
      obtain ⟨row, table⟩ := result
      simp only [hr, Prod.mk.injEq, Except.ok.injEq] at hperform
      obtain ⟨rfl, rfl⟩ := hperform
      refine ⟨fun hsame => ?_, Table.holdings_remove? hk hr, rfl, rfl⟩
      obtain ⟨before, after, hrows, hrows', -⟩ := Table.remove?_eq_some hr
      have hlen :=
        congrArg List.length (hrows'.symm.trans ((congrArg Table.rows hsame).trans hrows))
      simp at hlen
  | rotate owner key material =>
    obtain rfl := Option.some.inj he
    rw [perform_rotate, if_neg (by simp)] at hperform
    cases hr : t.remove? owner key with
    | none => simp [hr] at hperform
    | some result =>
      obtain ⟨row, rest⟩ := result
      simp only [hr, perform_create, if_neg (by simp : ¬(({} : FailurePlan).insert = true))]
        at hperform
      cases hi : rest.insert owner material with
      | error cause => simp [hi] at hperform
      | ok result =>
        obtain ⟨c, table⟩ := result
        simp only [hi, Prod.mk.injEq, Except.ok.injEq] at hperform
        obtain ⟨rfl, rfl⟩ := hperform
        have hc : c.key = material.key := by
          obtain ⟨-, rfl, -⟩ := Table.insert_eq_ok.mp hi
          rfl
        have hlast : rest.lastId = t.lastId := by
          obtain ⟨_, _, _, _, hlast, -⟩ := Table.remove?_eq_some hr
          exact hlast
        refine ⟨fun hsame => Table.ne_of_insert hi ?_, ?_, by rw [audit, hc], rfl⟩
        · rw [hsame, hlast]
        · rw [Table.holdings_insert hi, Table.holdings_remove? hk hr, Event.replay]
  | _ => simp [record?] at he

/-- A request of a store that has no event changes nothing that the trail is about. -/
theorem Grants.unrecorded (h : request.Grants plans t reply t') (hr : request.IsOfStore)
    (he : request.record? = none) : t'.holdings = t.holdings ∧ request.audit reply = [] := by
  cases h with
  | work hw _ =>
    cases request with
    | unit name work => exact absurd rfl (hr.2 name work)
    | lease => exact absurd rfl hr.1
    | _ => simp [record?, work?] at he hw
  | look hv =>
    refine ⟨Table.holdings_stamped t request, ?_⟩
    cases request <;> simp [view?, audit] at hv ⊢

end Request

namespace Vault

variable {plans : FailurePlan → Prop} {v : Vault} {i j : Nat} {call : Call} {e : Effect}
  {m : Move} {moves : List Move}

/-! ### The trail of a run -/

/-- What is loud among some events. -/
def loud (events : List Event) : List Event := events.filter (·.level = .info)

/-- The loud part of the log. -/
def trail (v : Vault) : List Event := loud v.log

/-- The event that belongs to the request of a call. -/
def record? (v : Vault) (i : Nat) : Option Event := v.calls[i]?.bind (·.request.record?)

/-- The call that changes the table by a move. -/
def changer? (v : Vault) (m : Move) : Option Nat :=
  m.call?.filter fun _ => (v.move m).table ≠ v.table

/-- **The calls that have changed the table**, one for each change, in the order of the changes. -/
def changers (moves : List Move) : List Nat := Vault.empty.chronicle changer? moves

/-- **The loud part of the log is an audit trail.** -/
structure Audited (moves : List Move) : Prop where
  /-- Whoever does what the events say, from nothing on, has the keys of the table and their owners,
  in the order of the rows. -/
  replay : (Vault.empty.run moves).trail.foldl Event.replay [] =
    (Vault.empty.run moves).table.holdings
  /-- It consists of the events of those that have changed the table, in the order in which they
  have changed it. -/
  complete : (Vault.empty.run moves).trail =
    (changers moves).filterMap (Vault.empty.run moves).record?
  /-- Nobody changes the table twice. -/
  once : (changers moves).Nodup
  /-- Whoever has an event has changed the table if it has been answered `ok`, and in no other
  case. -/
  exact {i : Nat} {call : Call} {event : Event}
    (hc : (Vault.empty.run moves).calls[i]? = some call) (he : call.request.record? = some event) :
    i ∈ changers moves ↔ ∃ reply, call.phase = .answered (.ok reply)

theorem loud_append (before after : List Event) :
    loud (before ++ after) = loud before ++ loud after := List.filter_append ..

/-- What is not loud leaves no trace. -/
theorem loud_eq_nil {events : List Event} (h : ∀ event ∈ events, event.level ≠ .info) :
    loud events = [] := by
  rw [loud, List.filter_eq_nil_iff]
  exact fun event he => by simpa using h event he

/-! ### One deed -/

/-- **What a deed does to the trail**: it commits, and adds the event of its request; or it adds
nothing, and leaves the list of keys and their owners as it is. A table is only changed by a call
that is answered `ok`. -/
theorem Deed.recorded (hd : v.Deed i call e) (hv : v.Orderly plans) (hc : v.calls[i]? = some call)
    (hr : call.request.IsOfStore) :
    (e.table ≠ v.table → ∃ reply, e.phase = .answered (.ok reply)) ∧
      ((∃ event reply, call.request.record? = some event ∧ e.phase = .answered (.ok reply) ∧
          e.table ≠ v.table ∧ loud e.news = [event] ∧
          e.table.holdings = event.replay v.table.holdings) ∨
        ((call.request.record? = none ∨ ∀ reply, e.phase ≠ .answered (.ok reply)) ∧
          loud e.news = [] ∧ e.table.holdings = v.table.holdings)) := by
  -- a deed that neither answers `ok` nor reports anything loud
  have quiet (hp : ∀ reply, e.phase ≠ .answered (.ok reply)) (hn : loud e.news = []) :
      (e.table ≠ v.table → ∃ reply, e.phase = .answered (.ok reply)) ∧
        ((∃ event reply, call.request.record? = some event ∧ e.phase = .answered (.ok reply) ∧
            e.table ≠ v.table ∧ loud e.news = [event] ∧
            e.table.holdings = event.replay v.table.holdings) ∨
          ((call.request.record? = none ∨ ∀ reply, e.phase ≠ .answered (.ok reply)) ∧
            loud e.news = [] ∧ e.table.holdings = v.table.holdings)) := by
    rcases hd.grants hv hc hr.isPlain with ⟨reply, hok, -⟩ | ⟨-, ht⟩
    · exact absurd hok (hp reply)
    · exact ⟨fun hne => absurd ht hne, Or.inr ⟨Or.inr hp, hn, by rw [ht]⟩⟩
  cases hd with
  | look hp hl h =>
    refine ⟨fun _ => ⟨_, rfl⟩, Or.inr ⟨Or.inl ?_, rfl, Table.holdings_stamped _ _⟩⟩
    cases hq : call.request <;> simp [hq, Request.view?, Request.record?] at h ⊢
  | succeed hp hl ho =>
    obtain ⟨-, -, work, hw, hreached⟩ := hv.inside hc hr.isPlain (by rw [hp, Phase.inside?])
    have hg := Request.Grants.work hw hreached
    refine ⟨fun _ => ⟨_, rfl⟩, ?_⟩
    have hnews {operation : String} {events : List Event} :
        loud (.transactionCommitted operation :: events) = loud events := rfl
    cases he : call.request.record? with
    | some event =>
      obtain ⟨hne, hheld, haudit, hloud⟩ := hg.recorded hv.distinct he
      refine Or.inl ⟨event, _, rfl, rfl, hne, ?_, hheld⟩
      rw [hnews, haudit]
      simp [loud, hloud]
    | none =>
      obtain ⟨hheld, haudit⟩ := hg.unrecorded hr he
      exact Or.inr ⟨Or.inl rfl, by rw [hnews, haudit]; rfl, hheld⟩
  | @delete _ _ _ _ _ row _ _ => exact quiet (by simp) (by cases row <;> rfl)
  | @giveUp _ handle _ _ => exact quiet (by simp) (by cases h : handle.isOpen <;> rfl)
  | _ => exact quiet (by simp) rfl

/-- All calls are those of a store. -/
def IsOfStore (v : Vault) : Prop :=
  ∀ (i : Nat) (call : Call), v.calls[i]? = some call → call.request.IsOfStore

theorem IsOfStore.move (h : v.IsOfStore) (hm : m.IsOfStore) : (v.move m).IsOfStore := by
  intro i call hc
  cases hc₀ : v.calls[i]? with
  | none =>
    obtain ⟨limit, rfl⟩ := exists_start_of_new hc₀ hc
    exact hm
  | some call₀ =>
    obtain ⟨call', hc', hr⟩ := exists_call_move hc₀ m
    obtain rfl := Option.some.inj (hc.symm.trans hc')
    rw [hr]
    exact h i call₀ hc₀

/-- **What a move adds to the trail**: the event of the call that changes the table by it; or
nothing. -/
inductive Passage (v : Vault) (m : Move) : Prop
  | recorded {i : Nat} {event : Event} (hi : v.changer? m = some i)
      (he : v.record? i = some event) (hn : ¬v.IsGranted i) (hg : (v.move m).IsGranted i)
      (others : ∀ j ≠ i, (v.move m).IsGranted j → v.IsGranted j)
      (htrail : (v.move m).trail = v.trail ++ [event])
      (hheld : (v.move m).table.holdings = event.replay v.table.holdings)
  | quiet (hi : ∀ i, v.changer? m = some i →
        v.record? i = none ∧ ¬v.IsGranted i ∧ (v.move m).IsGranted i)
      (others : ∀ i event, v.record? i = some event → (v.move m).IsGranted i → v.IsGranted i)
      (htrail : (v.move m).trail = v.trail)
      (hheld : (v.move m).table.holdings = v.table.holdings)

/-- **Every move of a store is such a passage.** -/
theorem Orderly.passage (hv : v.Orderly plans) (hr : v.IsOfStore) (hm : m.IsOfStore) :
    v.Passage m := by
  -- a move that changes no table, by which nobody is answered, and which reports nothing loud
  have still (ht : (v.move m).table = v.table) (hl : (v.move m).trail = v.trail)
      (hg : ∀ i, (v.move m).IsGranted i → v.IsGranted i) : v.Passage m :=
    .quiet (by simp [changer?, ht]) (fun i _ _ => hg i) hl (by rw [ht])
  cases hj : m.call? with
  | none =>
    have hg (i : Nat) : (v.move m).IsGranted i → v.IsGranted i :=
      (isGranted_move_of_ne (by simp [hj])).mp
    cases m with
    | start | setPlan | clock => exact still rfl rfl hg
    | report events =>
      refine still rfl ?_ hg
      exact (loud_append v.log events).trans (by rw [loud_eq_nil hm, List.append_nil]; rfl)
    | _ => simp [Move.call?] at hj
  | some i =>
    cases hc : v.calls[i]? with
    | none =>
      have he := move_of_absent hj hc
      exact still (by rw [he]) (by rw [he]) (by rw [he]; exact fun _ h => h)
    | some call =>
      rcases move_eq_or_deed hj hc with he | ⟨e, he, hd⟩
      · exact still (by rw [he]) (by rw [he]) (by rw [he]; exact fun _ h => h)
      have hn : ¬v.IsGranted i := by
        rintro ⟨call', reply, hc', hp⟩
        obtain rfl := Option.some.inj (hc.symm.trans hc')
        simpa [Call.isLive, hp] using hd.isLive
      have hg : (v.move m).IsGranted i ↔ ∃ reply, e.phase = .answered (.ok reply) := by
        rw [he, IsGranted, amend_calls_self hc]
        simp
      have others : ∀ j ≠ i, (v.move m).IsGranted j → v.IsGranted j := fun j hne =>
        (isGranted_move_of_ne (by rw [hj]; simpa using hne.symm)).mp
      have hrecord : v.record? i = call.request.record? := by rw [record?, hc, Option.bind_some]
      have htable : (v.move m).table = e.table := by rw [he, amend_table]
      have htrail : (v.move m).trail = v.trail ++ loud e.news := by
        rw [he]
        exact loud_append v.log e.news
      have hchanger (j : Nat) : v.changer? m = some j ↔ j = i ∧ e.table ≠ v.table := by
        rw [changer?, hj, htable]
        by_cases hsame : e.table = v.table <;> simp [hsame, Option.filter_some, eq_comm]
      obtain ⟨hok, ⟨event, reply, hevent, hp, hne, hnews, hheld⟩ | ⟨hp, hnews, hheld⟩⟩ :=
        hd.recorded hv hc (hr i call hc)
      · refine .recorded ((hchanger i).mpr ⟨rfl, hne⟩) (hrecord.trans hevent) hn (hg.mpr ⟨_, hp⟩)
          others ?_ ?_
        · rw [htrail, hnews]
        · rw [htable, hheld]
      · refine .quiet ?_ ?_ ?_ ?_
        · intro j hj'
          obtain ⟨rfl, hne⟩ := (hchanger j).mp hj'
          obtain ⟨reply, hok⟩ := hok hne
          refine ⟨?_, hn, hg.mpr ⟨reply, hok⟩⟩
          rw [hrecord]
          exact hp.resolve_right fun hno => hno reply hok
        · intro j event hevent hj'
          rcases eq_or_ne j i with rfl | hne
          · obtain ⟨reply, hok⟩ := hg.mp hj'
            rw [hrecord] at hevent
            rcases hp with hp | hno
            · simp [hp] at hevent
            · exact absurd hok (hno reply)
          · exact others j hne hj'
        · rw [htrail, hnews, List.append_nil]
        · rw [htable, hheld]

/-! ### All along a run -/

/-- The event of a call stays its event. -/
theorem record?_move (hc : v.calls[i]? = some call) (m : Move) :
    (v.move m).record? i = v.record? i := by
  obtain ⟨call', hc', hr⟩ := exists_call_move hc m
  rw [record?, record?, hc, hc', Option.bind_some, Option.bind_some, hr]

/-- Nobody is answered by the move that starts the call. -/
theorem exists_call_of_isGranted_move (h : (v.move m).IsGranted i) :
    ∃ call, v.calls[i]? = some call := by
  by_cases hm : m.call? = some i
  · cases hc : v.calls[i]? with
    | none =>
      obtain ⟨call, reply, hc', -⟩ := h
      rw [move_of_absent hm hc, hc] at hc'
      simp at hc'
    | some call => exact ⟨call, rfl⟩
  · obtain ⟨call, reply, hc, -⟩ := (isGranted_move_of_ne hm).mp h
    exact ⟨call, hc⟩

/-- **The trail of a run so far**, in a vault with calls of a store. -/
structure Tracked (moves : List Move) : Prop where
  ofStore : (Vault.empty.run moves).IsOfStore
  replay : (Vault.empty.run moves).trail.foldl Event.replay [] =
    (Vault.empty.run moves).table.holdings
  complete : (Vault.empty.run moves).trail =
    (changers moves).filterMap (Vault.empty.run moves).record?
  once : (changers moves).Nodup
  /-- Whoever has changed the table has been answered `ok`. -/
  granted {i : Nat} (hi : i ∈ changers moves) : (Vault.empty.run moves).IsGranted i
  /-- Whoever has an event and has been answered `ok` has changed the table. -/
  changed {i : Nat} {event : Event} (he : (Vault.empty.run moves).record? i = some event)
    (hg : (Vault.empty.run moves).IsGranted i) : i ∈ changers moves

theorem tracked_nil : Tracked [] where
  ofStore i call hc := by simp [empty] at hc
  replay := rfl
  complete := rfl
  once := List.nodup_nil
  granted hi := by simp [changers, chronicle] at hi
  changed he := by simp [record?, empty] at he

/-- **One more move.** -/
theorem Tracked.concat (h : Tracked moves) (hm : m.IsOfStore) : Tracked (moves ++ [m]) := by
  have hv : (Vault.empty.run moves).Orderly fun _ => True := orderly_empty.run fun _ _ => trivial
  have hrun : Vault.empty.run (moves ++ [m]) = (Vault.empty.run moves).move m := by
    rw [run_append, run_cons, run_nil]
  have hchangers : changers (moves ++ [m]) =
      changers moves ++ ((Vault.empty.run moves).changer? m).toList := chronicle_concat ..
  -- what has been said of those that have changed the table still holds of them
  have hsame : (changers moves).filterMap ((Vault.empty.run moves).move m).record? =
      (Vault.empty.run moves).trail := by
    rw [h.complete]
    refine List.filterMap_congr fun i hi => ?_
    obtain ⟨call, _, hc, -⟩ := h.granted hi
    exact record?_move hc m
  have hpassage := hv.passage h.ofStore hm
  have hnew {i : Nat} (hi : (Vault.empty.run moves).changer? m = some i) :
      ¬(Vault.empty.run moves).IsGranted i ∧ ((Vault.empty.run moves).move m).IsGranted i := by
    cases hpassage with
    | recorded hi' _ hn hg =>
      obtain rfl := Option.some.inj (hi'.symm.trans hi)
      exact ⟨hn, hg⟩
    | quiet hi' => exact (hi' i hi).2
  constructor
  case ofStore =>
    rw [hrun]
    exact h.ofStore.move hm
  case replay =>
    rw [hrun]
    cases hpassage with
    | recorded _ _ _ _ _ htrail hheld =>
      rw [htrail, hheld, List.foldl_append, h.replay, List.foldl_cons, List.foldl_nil]
    | quiet _ _ htrail hheld => rw [htrail, hheld, h.replay]
  case complete =>
    rw [hrun, hchangers, List.filterMap_append, hsame]
    cases hpassage with
    | recorded hi he _ _ _ htrail _ =>
      obtain ⟨call, hc⟩ := exists_call_of_isGranted_move (hnew hi).2
      rw [htrail, hi, Option.toList_some, List.filterMap_cons, record?_move hc, he,
        List.filterMap_nil]
    | quiet hi _ htrail _ =>
      have hnone : (((Vault.empty.run moves).changer? m).toList).filterMap
          ((Vault.empty.run moves).move m).record? = [] := by
        refine List.filterMap_eq_nil_iff.mpr fun i hmem => ?_
        have hi' := Option.mem_toList.mp hmem
        obtain ⟨call, hc⟩ := exists_call_of_isGranted_move (hnew hi').2
        rw [record?_move hc, (hi i hi').1]
      rw [htrail, hnone, List.append_nil]
  case once =>
    rw [hchangers]
    refine h.once.append (by cases (Vault.empty.run moves).changer? m <;> simp) ?_
    intro i hi hi'
    exact (hnew (Option.mem_toList.mp hi')).1 (h.granted hi)
  case granted =>
    intro i hi
    rw [hchangers, List.mem_append] at hi
    rw [hrun]
    rcases hi with hi | hi
    · exact (h.granted hi).run [m]
    · exact (hnew (Option.mem_toList.mp hi)).2
  case changed =>
    intro i event he hg
    rw [hrun] at he hg
    obtain ⟨call, hc⟩ := exists_call_of_isGranted_move hg
    rw [record?_move hc] at he
    rw [hchangers, List.mem_append]
    cases hpassage with
    | @recorded j _ hj _ _ _ others _ _ =>
      rcases eq_or_ne i j with rfl | hne
      · exact Or.inr (Option.mem_toList.mpr hj)
      · exact Or.inl (h.changed he (others i hne hg))
    | quiet _ others _ _ => exact Or.inl (h.changed he (others i event he hg))

theorem tracked (hm : ∀ m ∈ moves, m.IsOfStore) : Tracked moves := by
  induction moves using List.reverseRecOn with
  | nil => exact tracked_nil
  | append_singleton moves m ih =>
    exact (ih fun m h => hm m (List.mem_append_left _ h)).concat (hm m (by simp))

theorem Tracked.audited (h : Tracked moves) : Audited moves where
  replay := h.replay
  complete := h.complete
  once := h.once
  exact hc he := by
    rename_i i call event
    have hgranted : (Vault.empty.run moves).IsGranted i ↔
        ∃ reply, call.phase = .answered (.ok reply) := by
      simp [IsGranted, hc]
    rw [← hgranted]
    exact ⟨h.granted, h.changed (by rw [record?, hc, Option.bind_some, he])⟩

/-- **The loud part of the log is a complete and exact audit trail.** Let any calls of a store be
started on a table without rows, at any moments and with any limits, and let anything happen to them
in any order: their steps, refusals and conflicts, the end of a limit, a drop, other failure plans,
the passing of time. At every moment the trail replays to the keys of the table and their owners,
and it consists of one event for each call that has changed who holds which key, in the order of the
changes. A creation or a rotation that is not given key material leaves the vault as it is. -/
theorem log_is_audit_trail (moves : List Move) (hm : ∀ m ∈ moves, m.IsOfStore) :
    Audited moves ∧
      ∀ (store : Store) (s : Session) (task : StoreTask), task.draws = true →
        (∀ material, s.generator.generate.1 ≠ .material material) →
          ((task.procedure store).run s).2.vault = s.vault := by
  refine ⟨(tracked hm).audited, fun store s task hd hg => ?_⟩
  rw [StoreTask.procedure_of_draws hd]
  cases h : s.generator.generate with
  | mk result next =>
    cases result with
    | material material => exact absurd (congrArg Prod.fst h) (hg material)
    | failed cause => rw [Procedure.run_drawing_of_failed h]
    | breakdown => rw [Procedure.run_drawing_of_breakdown h]

/-- The first of two keys is replaced while a removal of the second is under way, which runs out of
time, and a stamp waits; a second creation of the same key is refused. -/
theorem log_is_audit_trail_rotate_first :
    let a : AccessKey := ⟨"a", by decide⟩
    let b : AccessKey := ⟨"b", by decide⟩
    let c : AccessKey := ⟨"c", by decide⟩
    let moves : List Move := [.start (.create ⟨1⟩ ⟨a, ⟨[1]⟩⟩) none, .step 0, .step 0, .step 0,
      .step 0, .start (.create ⟨2⟩ ⟨b, ⟨[2]⟩⟩) none, .step 1, .step 1, .step 1, .step 1,
      .start (.delete ⟨2⟩ b) (some 5), .start (.rotate ⟨1⟩ a ⟨c, ⟨[3]⟩⟩) none,
      .start (.stamp b ⟨9, 0⟩) none, .start (.create ⟨1⟩ ⟨b, ⟨[4]⟩⟩) none, .step 2, .step 3,
      .step 4, .step 5, .step 2, .step 2, .clock 9, .expire 2, .step 3, .step 3, .step 3, .step 3,
      .step 4, .step 5, .step 5, .step 5]
    (∀ m ∈ moves, m.IsOfStore) ∧ Audited moves ∧
      (Vault.empty.run moves).table.holdings = [(⟨2⟩, b), (⟨1⟩, c)] ∧
      (Vault.empty.run moves).trail =
        [.keyCreated ⟨1⟩ a, .keyCreated ⟨2⟩ b, .keyRotated ⟨1⟩ a c] := by
  intro a b c moves
  have hm : ∀ m ∈ moves, m.IsOfStore := by decide
  exact ⟨hm, (log_is_audit_trail moves hm).1, by decide +kernel, by decide +kernel⟩

end Vault

end KeyLifecycle
