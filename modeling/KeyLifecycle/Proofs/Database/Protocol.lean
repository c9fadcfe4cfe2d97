import KeyLifecycle.Database.Procedure
import KeyLifecycle.Proofs.Database.Course
import KeyLifecycle.Proofs.Store.Asking

/-!
# Every change follows the protocol

Whatever a store changes over a database, it changes in one transaction: `BEGIN`, the statements of
the work up to the one that fails, and then `COMMIT` if and only if the work has succeeded, or
`ROLLBACK`. Nothing is sent after that, nor after a `BEGIN` that is refused. The caller is answered
`ok` if and only if the commit has been acknowledged; otherwise the first failure is the answer,
even if the rollback fails as well (`KeyLifecycle.mutation_follows_protocol`).

All of this holds of every server, which may answer anything to any statement. It is read off the
courses that a transaction can take (`Database.Protocol`), of which there is one for each case; what
is left to be said here is what is done before the transaction, namely to draw key material, without
which nothing is sent at all.
-/

namespace KeyLifecycle

open Database

/-- **What may be asked of a store that changes something.** -/
inductive Mutation where
  | create (owner : UserId)
  | delete (owner : UserId) (key : AccessKey)
  | rotate (owner : UserId) (key : AccessKey)
  /-- A unit of work under a name of its own. -/
  | transact (name : String) (work : Work Reply)

namespace Mutation

/-- How a change is made. -/
def procedure (store : Store) : Mutation → Procedure (Except Failure Reply)
  | create owner => store.create owner
  | delete owner key => store.delete owner key
  | rotate owner key => store.rotate owner key
  | transact name work => store.transact name work

/-- A change whose work leaves the end of its transaction to the store. -/
def IsPlain : Mutation → Prop
  | transact _ work => work.IsPlain
  | _ => True

/-- **What a change comes to before anything is sent**: a request with some work, and the generator
after the key material for it has been drawn. -/
inductive Prepares : Mutation → Generator → Request → Work Reply → Generator → Prop
  | create {owner : UserId} {material : KeyMaterial} {g g' : Generator}
      (h : g.generate = (.material material, g')) :
    Prepares (.create owner) g (.create owner material) (.issue owner material) g'
  | delete {owner : UserId} {key : AccessKey} {g : Generator} :
    Prepares (.delete owner key) g (.delete owner key) (.revoke owner key (.done .done)) g
  | rotate {owner : UserId} {key : AccessKey} {material : KeyMaterial} {g g' : Generator}
      (h : g.generate = (.material material, g')) :
    Prepares (.rotate owner key) g (.rotate owner key material)
      (.revoke owner key (.issue owner material)) g'
  | transact {name : String} {work : Work Reply} {g : Generator} :
    Prepares (.transact name work) g (.unit name work) work g

variable {m : Mutation} {g g' : Generator} {request : Request} {work : Work Reply}

/-- The work of a plain change is plain. -/
theorem Prepares.isPlain (h : m.Prepares g request work g') (hplain : m.IsPlain) :
    work.IsPlain := by
  cases h with
  | create => exact Work.isPlain_issue _ _
  | delete => exact Work.isPlain_revoke _ _ trivial
  | rotate => exact Work.isPlain_revoke _ _ (Work.isPlain_issue _ _)
  | transact => exact hplain

/-- The conversation of a change: what has been made of its transaction. -/
def conversation (store : Store) (request : Request) (work : Work Reply) (g' : Generator) :
    Exchange (Option (Except Failure Reply) × Generator) :=
  (request.transaction work (some store.limit)).bind fun answer => .done (some answer, g')

/-- **A change is one transaction.** -/
theorem Prepares.exchange_eq (h : m.Prepares g request work g') (store : Store) :
    (m.procedure store).exchange g = conversation store request work g' := by
  cases h with
  | create hg =>
    rw [procedure, Store.create_eq, Procedure.drawing, Procedure.exchange, hg]
    rfl
  | rotate hg =>
    rw [procedure, Store.rotate_eq, Procedure.drawing, Procedure.exchange, hg]
    rfl
  | delete | transact => rfl

/-- To draw key material in vain is to do nothing. -/
theorem exchange_drawing (request : KeyMaterial → Request) (limit : Option Span)
    (h : ∀ material g', g.generate ≠ (.material material, g')) :
    ∃ answer g', (∀ reply, answer ≠ some (.ok reply)) ∧
      (Procedure.drawing request limit).exchange g = .done (answer, g') := by
  rw [Procedure.drawing, Procedure.exchange]
  rcases hg : g.generate with ⟨material | cause | -, g'⟩
  · exact absurd hg (h material g')
  · exact ⟨some (.error cause), g', by simp, rfl⟩
  · exact ⟨none, g', by simp, rfl⟩

/-- **Without key material nothing is done.** -/
theorem exchange_of_not_prepares (store : Store)
    (h : ∀ request work g', ¬m.Prepares g request work g') :
    ∃ answer g', (∀ reply, answer ≠ some (.ok reply)) ∧
      (m.procedure store).exchange g = .done (answer, g') := by
  cases m with
  | create owner =>
    rw [procedure, Store.create_eq]
    exact exchange_drawing _ _ fun material g' hg => h _ _ g' (.create hg)
  | rotate owner key =>
    rw [procedure, Store.rotate_eq]
    exact exchange_drawing _ _ fun material g' hg => h _ _ g' (.rotate hg)
  | delete owner key => exact absurd .delete (h _ _ g)
  | transact name work => exact absurd .transact (h _ _ g)

/-- **What comes of a change over a database** is what comes of its transaction. -/
theorem Prepares.concludes (h : m.Prepares g request work g') (hplain : m.IsPlain) {σ : Type}
    (server : Server σ) (store : Store) (s : σ) :
    ∃ transaction answer?, Concludes server request.operation work transaction s answer? ∧
      ((m.procedure store).exchange g).sendings server s = transaction.sendings server s ∧
      ((m.procedure store).exchange g).run server s =
        ((some (transaction.run server s).1, g'), (transaction.run server s).2) := by
  obtain ⟨answer?, hc⟩ := request.concludes (h.isPlain hplain) (some store.limit) server s
  rw [h.exchange_eq store, conversation]
  exact ⟨_, answer?, hc, Exchange.sendings_bind_done .., Exchange.run_bind_done ..⟩

end Mutation

/-! ### The protocol -/

/-- **The protocol of a transaction**, as it is followed by somebody who is not interrupted. -/
structure FollowsProtocol (request : Request) (work : Work Reply) (sent : List Sending)
    (answer : Except Failure Reply) : Prop where
  /-- What is sent and what is answered is one of the courses that a transaction can take to its
  end. -/
  course : Protocol work sent (some answer)
  /-- Between the first and the last statement there are only those of the work. -/
  inner : ∀ sending ∈ sent.tail.dropLast,
    (∃ owner material, sending.1 = .insertCredential owner material) ∨
      ∃ owner key, sending.1 = .deleteCredential owner key
  /-- The answer is `ok` if and only if the commit has been acknowledged. -/
  granted : (∃ reply, answer = .ok reply) ↔
    ∃ rows affected, (.commit, some (.answer rows affected)) ∈ sent
  /-- Whoever revokes or replaces what is not there is told so. -/
  missing {owner : UserId} {key : AccessKey} {rows : List Cells}
    (hr : request = .delete owner key ∨ ∃ material, request = .rotate owner key material)
    (hs : (.deleteCredential owner key, some (.answer rows 0)) ∈ sent) :
    answer = .error .credentialNotFound

namespace Database.Protocol

variable {work : Work Reply} {sent : List Sending} {answer : Except Failure Reply}

/-- Between `BEGIN` and the closing statement there are only those of the work. -/
theorem inner (h : Protocol work sent (some answer)) : ∀ sending ∈ sent.tail.dropLast,
    (∃ owner material, sending.1 = .insertCredential owner material) ∨
      ∃ owner key, sending.1 = .deleteCredential owner key := by
  generalize ha : some answer = answer? at h
  cases h with
  | closed h =>
    rw [List.tail_cons, List.dropLast_concat]
    exact h.isInsertOrDelete
  | refused | unheard => simp
  | late => simp at ha

/-- **Only an acknowledged commit makes an `ok`**, and it always does. -/
theorem granted (h : Protocol work sent (some answer)) : (∃ reply, answer = .ok reply) ↔
    ∃ rows affected, (.commit, some (.answer rows affected)) ∈ sent := by
  generalize ha : some answer = answer? at h
  cases h with
  | refused fault =>
    obtain rfl := Option.some.inj ha
    simp
  | unheard | late => simp at ha
  | @closed rows affected body outcome heard h =>
    cases heard with
    | none => simp at ha
    | some reception =>
      obtain rfl := Option.some.inj ha
      -- no commit is sent inside the work, so it is a matter of the closing statement
      have hbody : ∀ heard, (Statement.commit, heard) ∉ body :=
        fun heard hm => (h.ne_closing _ hm).1 rfl
      cases outcome <;> cases reception <;> simp [closing, conclusion, hbody]

end Database.Protocol

/-- **A revoked row that is not there is the end of a work.** -/
theorem Work.Says.of_missing {owner : UserId} {key : AccessKey} {next : Work Reply}
    {body : List Sending} {outcome : Except Failure Reply} {rows : List Cells}
    (h : (Work.revoke owner key next).Says body (some outcome))
    (hnext : ∀ sent outcome, next.Says sent outcome →
      (Statement.deleteCredential owner key, some (Reception.answer rows 0)) ∉ sent)
    (hs : (.deleteCredential owner key, some (.answer rows 0)) ∈ body) :
    outcome = .error .credentialNotFound := by
  cases h with
  | @delete _ _ _ reception found sent _ hr h =>
    cases found with
    | false =>
      cases h with
      | fail => rfl
    | true =>
      rcases List.mem_cons.mp hs with he | hs
      · obtain rfl := Option.some.inj (congrArg Prod.snd he)
        simp [Reception.hasEffect] at hr
      · exact absurd hs (hnext _ _ h)
  | deleteFault hr =>
    have he := congrArg Prod.snd (List.mem_singleton.mp hs)
    obtain rfl := Option.some.inj he
    simp [Reception.hasEffect] at hr

/-- **Every course of a transaction follows the protocol.** -/
theorem followsProtocol {m : Mutation} {g g' : Generator} {request : Request} {work : Work Reply}
    {sent : List Sending} {answer : Except Failure Reply} (hm : m.Prepares g request work g')
    (h : Protocol work sent (some answer)) : FollowsProtocol request work sent answer where
  course := h
  inner := h.inner
  granted := h.granted
  missing {owner key rows} hr hs := by
    have hno : ∀ (material : KeyMaterial) (sent : List Sending)
        (outcome : Option (Except Failure Reply)), (Work.issue owner material).Says sent outcome →
        (Statement.deleteCredential owner key, some (Reception.answer rows 0)) ∉ sent := by
      rintro material sent outcome h hs
      cases h with
      | insert hr h =>
        cases h with
        | done => simp at hs
      | insertFault | insertLate => simp at hs
    -- the row is missed in the body, since the statements around it are others
    generalize ha : some answer = answer? at h
    cases h with
    | refused | unheard | late => simp_all
    | @closed _ _ body outcome heard hsays =>
      have hs' : (.deleteCredential owner key, some (.answer rows 0)) ∈ body := by
        rcases List.mem_cons.mp hs with he | hs
        · simp at he
        · rcases List.mem_append.mp hs with hs | hs
          · exact hs
          · cases outcome <;> simp [closing] at hs
      have hcause : outcome = .error .credentialNotFound := by
        rcases hr with rfl | ⟨material, rfl⟩
        · cases hm with
          | delete =>
            refine hsays.of_missing (fun sent outcome h => ?_) hs'
            cases h with
            | done => simp
        · cases hm with
          | rotate hg => exact hsays.of_missing (hno material) hs'
      cases heard with
      | none => simp at ha
      | some reception =>
        obtain rfl := Option.some.inj ha
        rw [hcause]
        rfl

/-- **Every change follows the protocol**, whatever the server answers, unless its time runs out:
it sends `BEGIN`, the statements of its work, and one closing statement, and is answered by what has
come of them. If it needs key material and does not get any, nothing is sent. -/
theorem mutation_follows_protocol {σ : Type} (server : Server σ) (s : σ) (store : Store)
    (m : Mutation) (g : Generator) (hplain : m.IsPlain)
    (htime : timesOut (((m.procedure store).exchange g).run server s).2.2 = false) :
    (∀ request work g', m.Prepares g request work g' → ∃ answer,
        (((m.procedure store).exchange g).run server s).1 = (some answer, g') ∧
        FollowsProtocol request work (((m.procedure store).exchange g).sendings server s)
          answer) ∧
      ((∀ request work g', ¬m.Prepares g request work g') →
        ((m.procedure store).exchange g).sendings server s = [] ∧
        ∀ reply, (((m.procedure store).exchange g).run server s).1.1 ≠ some (.ok reply)) := by
  constructor
  · intro request work g' hm
    obtain ⟨transaction, answer?, hc, hsent, hrun⟩ := hm.concludes hplain server store s
    rw [hrun] at htime ⊢
    rw [hsent]
    cases answer? with
    | none =>
      have htimedOut : timesOut (transaction.run server s).2.2 = true := hc.timedOut
      rw [htimedOut] at htime
      exact absurd htime (by simp)
    | some answer =>
      refine ⟨answer, ?_, followsProtocol hm hc.protocol⟩
      rw [hc.answer]
      rfl
  · intro hno
    obtain ⟨answer, g', hanswer, he⟩ := Mutation.exchange_of_not_prepares store hno
    rw [he]
    exact ⟨rfl, hanswer⟩

/-- A rotation whose insert is refused, as is the rollback that follows: both statements of the work
are sent, and the first failure is the answer. -/
theorem mutation_follows_protocol_rotate_conflict :
    let server : Server Unit := ⟨fun statement _ => (⟨match statement with
      | .insertCredential _ _ => .fault (.refused "duplicate key value")
      | .rollback => .fault (.refused "the connection is gone")
      | _ => .answer [] 1, 3⟩, ()), fun _ _ => ()⟩
    let m : Mutation := .rotate ⟨1⟩ ⟨"a", by decide⟩
    let material : KeyMaterial := ⟨⟨"b", by decide⟩, ⟨[7]⟩⟩
    let e := (m.procedure ⟨30⟩).exchange (.scripted [.ok material])
    (e.run server ()).1 = (some (.error Table.taken), .scripted []) ∧
      FollowsProtocol (.rotate ⟨1⟩ ⟨"a", by decide⟩ material)
        (.revoke ⟨1⟩ ⟨"a", by decide⟩ (.issue ⟨1⟩ material)) (e.sendings server ())
        (.error Table.taken) := by
  intro server m material e
  obtain ⟨answer, hrun, hfollows⟩ := (mutation_follows_protocol server () ⟨30⟩ m
    (.scripted [.ok material]) trivial (by decide +kernel)).1 _ _ (.scripted []) (.rotate rfl)
  have hanswer : (e.run server ()).1.1.map (Except.map fun _ => ()) =
      some (.error Table.taken) := by decide +kernel
  rw [hrun] at hanswer
  obtain rfl : answer = .error Table.taken := by
    cases answer with
    | ok reply => simp [Except.map] at hanswer
    | error cause => simpa [Except.map] using hanswer
  exact ⟨hrun, hfollows⟩

end KeyLifecycle
