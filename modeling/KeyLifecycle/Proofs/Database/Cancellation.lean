import KeyLifecycle.Proofs.Database.Backend
import KeyLifecycle.Proofs.Database.Protocol

/-!
# What a cancelled change leaves behind

A change that has run out of time is answered that it has been cancelled. Whether the database has
kept it is a question of where time ran out. As long as no `COMMIT` has been sent, everything that
the transaction has done is given up with it, however late the answers of the server were. But
`COMMIT` is sent like any other statement, and its answer may come too late like any other: then the
change has been kept, and the caller is told the same as if it had not
(`KeyLifecycle.cancelled_change_may_be_kept`).

That this is the only way is `KeyLifecycle.cancelled_change_is_undone_unless_committing`. It holds
of all servers that know transactions, whatever they answer, and however they delay their answers;
a `Backend` is one of them.
-/

namespace KeyLifecycle

open Database

namespace Database

/-- Whether a connection is inside a transaction, be it spoilt or not. -/
def Shelf.IsInside (s : Shelf) : Prop := s.mode ≠ .idle

namespace Backend

variable {b : Backend} {s : Shelf}

/-- A query inside a transaction changes nothing but the copy of the transaction. -/
theorem execute_keeps (b : Backend) (q : Query) (binds : List Bind) (hi : s.IsInside) :
    (b.execute q binds s).2.IsInside ∧ (b.execute q binds s).2.records = s.records := by
  obtain ⟨records, drawn, mode⟩ := s
  cases mode with
  | idle => exact absurd rfl hi
  | spoilt => exact ⟨hi, rfl⟩
  | inside copy =>
    simp only [execute]
    split <;> exact ⟨by simp [Shelf.IsInside], rfl⟩

theorem answerByText_keeps (b : Backend) (statement : Statement) (hi : s.IsInside) :
    (b.answerByText statement s).2.IsInside ∧
      (b.answerByText statement s).2.records = s.records := by
  rw [answerByText]
  split
  · exact b.execute_keeps _ _ hi
  · exact ⟨hi, rfl⟩

theorem answer_begin_keeps (b : Backend) (s : Shelf) :
    (b.answer .begin s).2.IsInside ∧ (b.answer .begin s).2.records = s.records := by
  obtain ⟨records, drawn, mode⟩ := s
  cases mode <;> exact ⟨by simp [answer, Shelf.IsInside], rfl⟩

/-- **A server that does what it is told knows transactions.** -/
theorem isTransactional (b : Backend) :
    b.server.IsTransactional Shelf.records Shelf.IsInside where
  begin s := (b.answer_begin_keeps s).2
  opens {s _ _} _ := (b.answer_begin_keeps s).1
  within {s statement} hi hc hr := by
    cases statement with
    | begin => exact b.answer_begin_keeps s
    | commit => exact absurd rfl hc
    | rollback => exact absurd rfl hr
    | _ => exact b.answerByText_keeps _ hi
  rollback s := rfl
  elapse duration s := ⟨rfl, id⟩

end Backend

/-- **Out of time, before or after `COMMIT` has been sent**: it is the last statement then, and
nothing has been heard of it. -/
theorem Protocol.of_commit {work : Work Reply} {sent : List Sending} (h : Protocol work sent none)
    (hc : ∃ sending ∈ sent, sending.1 = .commit) : ∃ front, sent = front ++ [(.commit, none)] := by
  obtain ⟨sending, hs, hcommit⟩ := hc
  generalize ha : none = answer? at h
  cases h with
  | refused | unheard => simp_all
  | late h =>
    rcases List.mem_cons.mp hs with rfl | hs
    · simp at hcommit
    · exact absurd hcommit (h.ne_closing sending hs).1
  | @closed rows affected body outcome heard h =>
    cases heard with
    | some reception => simp at ha
    | none =>
      cases outcome with
      | ok reply => exact ⟨(.begin, some (.answer rows affected)) :: body, rfl⟩
      | error cause =>
        -- a work that has failed is not committed
        rcases List.mem_cons.mp hs with rfl | hs
        · simp at hcommit
        · rcases List.mem_append.mp hs with hs | hs
          · exact absurd hcommit (h.ne_closing sending hs).1
          · obtain rfl := List.mem_singleton.mp hs
            simp [closing] at hcommit

end Database

/-- **A change that has run out of time is undone**, unless it has been asked for its commit and
nothing has been heard of that. -/
theorem cancelled_change_is_undone_unless_committing {σ κ : Type} {server : Server σ}
    {kept : σ → κ} {inside : σ → Prop} (hs : server.IsTransactional kept inside) (s : σ)
    (store : Store) {m : Mutation} (g : Generator) (hplain : m.IsPlain)
    (htime : timesOut (((m.procedure store).exchange g).run server s).2.2 = true) :
    let e := (m.procedure store).exchange g
    (∃ operation, (e.run server s).1.1 = some (.error (.cancelled operation))) ∧
      (kept (e.run server s).2.1 = kept s ∨
        ∃ front, e.sendings server s = front ++ [(.commit, none)]) := by
  intro e
  by_cases hm : ∃ request work g', m.Prepares g request work g'
  · obtain ⟨request, work, g', hm⟩ := hm
    obtain ⟨transaction, answer?, hc, hsent, hrun⟩ := hm.concludes hplain server store s
    rw [hrun] at htime
    rw [hrun, hsent]
    obtain rfl : answer? = none := by
      have htimedOut := hc.timedOut
      rw [htime] at htimedOut
      exact Option.isNone_iff_eq_none.mp htimedOut.symm
    refine ⟨⟨request.operation, congrArg some hc.answer⟩, ?_⟩
    by_cases hcommit : ∃ sending ∈ transaction.sendings server s, sending.1 = .commit
    · exact Or.inr (hc.protocol.of_commit hcommit)
    · refine Or.inl (hc.keeps hs fun sending hm' he => hcommit ⟨sending, hm', he⟩)
  · -- without key material nothing has been sent, and nothing takes any time
    obtain ⟨answer, g', -, he⟩ := Mutation.exchange_of_not_prepares (m := m) (g := g) store
      fun request work g' h => hm ⟨request, work, g', h⟩
    rw [he] at htime
    simp [Exchange.run, timesOut] at htime

/-- A credential is issued by a server that takes too long for the insert: the row that the
transaction has inserted is given up. -/
theorem cancelled_change_is_undone_unless_committing_create :
    let rules : Rules := ⟨(· = 1), fun k => 7 * Int64.ofNat k + 5, fun _ => "refused"⟩
    let b : Backend := ⟨rules, "current transaction is aborted", fun
      | .insertCredential _ _ => 90
      | _ => 3, fun _ => .answer [] 0⟩
    let material : KeyMaterial := ⟨⟨"a", by decide⟩, ⟨[1]⟩⟩
    let e := ((Mutation.create ⟨1⟩).procedure ⟨20⟩).exchange (.scripted [.ok material])
    (∃ operation, (e.run b.server ⟨[], 0, .idle⟩).1.1 = some (.error (.cancelled operation))) ∧
      (e.run b.server ⟨[], 0, .idle⟩).2.1.records = [] := by
  intro rules b material e
  obtain ⟨hcancelled, hkept⟩ := cancelled_change_is_undone_unless_committing b.isTransactional
    ⟨[], 0, .idle⟩ ⟨20⟩ (.scripted [.ok material]) (m := .create ⟨1⟩) trivial (by decide +kernel)
  refine ⟨hcancelled, hkept.resolve_right ?_⟩
  rintro ⟨front, hfront⟩
  -- no commit has been sent
  have hno : (e.sendings b.server ⟨[], 0, .idle⟩).all (·.1 ≠ .commit) = true := by
    decide +kernel
  rw [hfront, List.all_append] at hno
  simp at hno

/-- **A change that has been cancelled may have been kept**: the server takes too long to
acknowledge the commit. -/
theorem cancelled_change_may_be_kept :
    let rules : Rules := ⟨(· = 1), fun k => 7 * Int64.ofNat k + 5, fun _ => "refused"⟩
    let b : Backend := ⟨rules, "current transaction is aborted", fun
      | .commit => 90
      | _ => 3, fun _ => .answer [] 0⟩
    let material : KeyMaterial := ⟨⟨"a", by decide⟩, ⟨[1]⟩⟩
    let e := ((Mutation.create ⟨1⟩).procedure ⟨20⟩).exchange (.scripted [.ok material])
    let last := e.run b.server ⟨[], 0, .idle⟩
    b.server.IsTransactional Shelf.records Shelf.IsInside ∧
      last.1.1.map (Except.map fun _ => ()) = some (.error (.cancelled "create api key")) ∧
      timesOut last.2.2 = true ∧
      last.2.1.records.map (fun record => record .key) = [some (.text "a")] := by
  intro rules b material e last
  refine ⟨b.isTransactional, ?_, ?_, ?_⟩ <;> decide +kernel

end KeyLifecycle
