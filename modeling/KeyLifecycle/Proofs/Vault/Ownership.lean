import KeyLifecycle.Proofs.Vault.Changes
import KeyLifecycle.Proofs.Vault.Poll

/-!
# What is done for an owner stays with the owner

A request that is made for an owner (`Request.IsOf`) issues, lists, revokes or replaces credentials
of that owner. Its work deals with rows of the owner alone and fails for reasons of the store alone
(`Work.Serves`), whatever fails and whenever it does. So, while nobody else does anything, the rows
of all others stay as they are, and the answer shows nothing of them
(`KeyLifecycle.Vault.Attends.follows`).
-/

namespace KeyLifecycle

/-! ### Rows of others -/

namespace Table

variable {t t' : Table} {u : UserId}

/-- The rows of everybody but one owner. -/
def others (t : Table) (u : UserId) : List Row := t.rows.filter (·.owner ≠ u)

theorem others_insert {m : KeyMaterial} {c : Credential} (h : t.insert u m = .ok (c, t')) :
    t'.others u = t.others u ∧ c.owner = u := by
  obtain ⟨-, rfl, rfl⟩ := insert_eq_ok.mp h
  refine ⟨?_, rfl⟩
  rw [others, others, List.filter_append]
  simp [fresh]

theorem others_remove? {key : AccessKey} {row : Row} (h : t.remove? u key = some (row, t')) :
    t'.others u = t.others u := by
  obtain ⟨before, after, hrows, hrows', -, ho, -⟩ := remove?_eq_some h
  rw [others, others, hrows, hrows', List.filter_append, List.filter_append, List.filter_cons]
  simp [ho]

end Table

namespace Handle

variable {h : Handle} {plan : FailurePlan} {owner : UserId} {cause : Failure}

/-- An insert fails because of the transaction, the plan or the access key. -/
theorem isAuthorization_of_insert {m : KeyMaterial} (he : h.insert plan owner m = .error cause) :
    cause.isAuthorization = false := by
  rw [insert] at he
  split at he
  · obtain rfl := Except.error.inj he
    rfl
  · split at he
    · obtain rfl := Except.error.inj he
      rfl
    · split at he
      · simp at he
      · rename_i hi
        obtain rfl := Except.error.inj he
        obtain ⟨-, rfl⟩ := Table.insert_eq_error.mp hi
        rfl

/-- A delete fails because of the transaction or the plan. -/
theorem isAuthorization_of_delete {key : AccessKey} (he : h.delete plan owner key = .error cause) :
    cause.isAuthorization = false := by
  rw [delete] at he
  split at he
  · obtain rfl := Except.error.inj he
    rfl
  · split at he
    · obtain rfl := Except.error.inj he
      rfl
    · split at he <;> simp at he

end Handle

/-! ### Work for an owner -/

/-- An answer that shows of a table what an owner may see: that something is done, a credential of
the owner, or the list of all that the owner has. -/
inductive Reply.Discloses (u : UserId) (t : Table) : Reply → Prop
  | done : Discloses u t .done
  | issued {c : Credential} (h : c.owner = u) : Discloses u t (.issued c)
  | summaries : Discloses u t (.summaries (t.summaries u))

namespace Work

variable {plans : FailurePlan → Prop} {work rest : Work Reply} {t : Table} {handle : Handle}
  {u : UserId}

/-- **Work that serves an owner** inserts and deletes rows of that owner only, answers with nothing
but a credential of theirs, and never fails for want of a right. -/
def Serves (u : UserId) : Work Reply → Prop
  | done reply => ∀ t, reply.Discloses u t
  | fail cause => cause.isAuthorization = false
  | insert owner _ next => owner = u ∧ ∀ c : Credential, c.owner = u → (next c).Serves u
  | delete owner _ next => owner = u ∧ ∀ yes, (next yes).Serves u
  | commit next => next.Serves u
  | rollback next => next.Serves u
  | pause _ next => next.Serves u

theorem serves_issue (u : UserId) (material : KeyMaterial) : (issue u material).Serves u :=
  ⟨rfl, fun _ hc _ => .issued hc⟩

theorem serves_revoke (u : UserId) (key : AccessKey) {next : Work Reply} (h : next.Serves u) :
    (revoke u key next).Serves u := by
  refine ⟨rfl, ?_⟩
  rintro (_ | _)
  · exact rfl
  · exact h

/-- The store fails for reasons of its own. -/
theorem isAuthorization_of_fault? {plan : FailurePlan} {cause : Failure}
    (h : rest.fault? plan handle = some cause) : cause.isAuthorization = false := by
  cases rest with
  | insert owner material next =>
    rw [fault?] at h
    split at h
    · rename_i he
      obtain rfl := Option.some.inj h
      exact Handle.isAuthorization_of_insert he
    · simp at h
  | delete owner key next =>
    rw [fault?] at h
    split at h
    · rename_i he
      obtain rfl := Option.some.inj h
      exact Handle.isAuthorization_of_delete he
    · simp at h
  | commit next | rollback next =>
    rw [fault?] at h
    split at h
    · simp at h
    · obtain rfl := Option.some.inj h
      rfl
  | _ => simp [fault?] at h

/-- **What is left of work for an owner is work for that owner**, and the rows of all others are in
the copy as they were in the table. -/
theorem Reached.serves (h : Reached plans work t rest handle) (hw : work.Serves u) :
    rest.Serves u ∧ handle.staged.others u = t.others u := by
  induction h with
  | opened => exact ⟨hw, rfl⟩
  | insert _ _ hi ih =>
    obtain ⟨⟨rfl, hn⟩, ht⟩ := ih
    obtain ⟨-, -, t', hs, rfl⟩ := Handle.insert_eq_ok.mp hi
    obtain ⟨ho, hc⟩ := Table.others_insert hs
    exact ⟨hn _ hc, ho.trans ht⟩
  | delete _ _ hd ih =>
    obtain ⟨⟨rfl, hn⟩, ht⟩ := ih
    obtain ⟨-, -, ⟨-, -, rfl⟩ | ⟨found, t', -, hr, rfl⟩⟩ := Handle.delete_eq_ok.mp hd
    · exact ⟨hn _, ht⟩
    · exact ⟨hn _, (Table.others_remove? hr).trans ht⟩
  | fault _ _ hf ih => exact ⟨isAuthorization_of_fault? hf, ih.2⟩
  | pause _ ih => exact ih

end Work

/-! ### Requests for an owner -/

/-- **A request that is made for an owner.** -/
inductive Request.IsOf (u : UserId) : Request → Prop
  | create (material : KeyMaterial) : IsOf u (.create u material)
  | list : IsOf u (.list u)
  | delete (key : AccessKey) : IsOf u (.delete u key)
  | rotate (key : AccessKey) (material : KeyMaterial) : IsOf u (.rotate u key material)

namespace Request

variable {plans : FailurePlan → Prop} {request : Request} {u : UserId} {t t' : Table}
  {reply : Reply}

theorem IsOf.isPlain (h : request.IsOf u) : request.IsPlain := by
  cases h <;> exact isPlain_of_ne (by simp) (by simp)

theorem IsOf.serves (h : request.IsOf u) {work : Work Reply} (hw : request.work? = some work) :
    work.Serves u := by
  cases h with
  | create material =>
    obtain rfl := Option.some.inj hw
    exact Work.serves_issue u material
  | list => simp [work?] at hw
  | delete key =>
    obtain rfl := Option.some.inj hw
    exact Work.serves_revoke u key fun _ => .done
  | rotate key material =>
    obtain rfl := Option.some.inj hw
    exact Work.serves_revoke u key (Work.serves_issue u material)

/-- **What a request for an owner is granted** concerns that owner and nobody else. -/
theorem Grants.ofOwner (h : request.Grants plans t reply t') (hu : request.IsOf u) :
    reply.Discloses u t ∧ t'.others u = t.others u := by
  cases h with
  | work hw h =>
    obtain ⟨hs, ho⟩ := h.serves (hu.serves hw)
    exact ⟨hs t, ho⟩
  | look h =>
    cases hu with
    | list =>
      obtain rfl := Option.some.inj h
      exact ⟨.summaries, rfl⟩
    | _ => simp [view?] at h

end Request

/-! ### A call for an owner, while nobody else does anything -/

namespace Vault

variable {plans : FailurePlan → Prop} {v : Vault} {i : Nat} {call : Call} {e : Effect} {u : UserId}
  {t : Table}

/-- A call for an owner never fails for want of a right. -/
theorem Deed.isAuthorization_eq_false (hd : v.Deed i call e) (hv : v.Orderly plans)
    (hc : v.calls[i]? = some call) (hu : call.request.IsOf u) {cause : Failure}
    (he : e.phase = .answered (.error cause)) : cause.isAuthorization = false := by
  cases hd with
  | refuse hp h =>
    obtain rfl := Except.error.inj (Phase.answered.inj he)
    rfl
  | late hp hr h =>
    obtain rfl := Except.error.inj (Phase.answered.inj he)
    rfl
  | giveUp hp hr =>
    obtain rfl := Except.error.inj (Phase.answered.inj he)
    obtain ⟨-, -, work, hw, h⟩ := hv.inside hc hu.isPlain (by rw [hp, Phase.inside?])
    exact (h.serves (hu.serves hw)).1
  | expire hl hr h =>
    obtain rfl := Except.error.inj (Phase.answered.inj he)
    rfl
  | _ => simp at he

/-- **How far a call for an owner has come**, which began when there was some table: the table is
still the same, or the call has been answered `ok` and the rows of all others are the same. -/
structure Attends (u : UserId) (t : Table) (i : Nat) (v : Vault) : Prop where
  orderly : v.Orderly fun _ => True
  others : v.table.others u = t.others u
  call : ∃ call, v.calls[i]? = some call ∧ call.request.IsOf u ∧
    (∀ reply, call.phase = .answered (.ok reply) → reply.Discloses u t) ∧
    (∀ cause, call.phase = .answered (.error cause) → cause.isAuthorization = false) ∧
    ((∀ reply, call.phase ≠ .answered (.ok reply)) → v.table = t)

/-- The call has just been started. -/
theorem attends_start (hv : v.Orderly fun _ => True) {request : Request} (hu : request.IsOf u)
    (limit : Option Span) : (v.start request limit).Attends u v.table v.calls.length where
  orderly := hv.start request limit
  others := rfl
  call := by
    refine ⟨⟨request, v.now, limit, request.firstPhase⟩, ?_, hu, ?_, ?_, fun _ => rfl⟩
    · rw [start, List.getElem?_concat_length]
    · exact fun reply h => absurd h (firstPhase_ne_answered request _)
    · exact fun cause h => absurd h (firstPhase_ne_answered request _)

/-- **A deed of the call** is what it does for its owner. -/
theorem Attends.amend (h : v.Attends u t i) (hc : v.calls[i]? = some call)
    (hd : v.Deed i call e) : (v.amend i e).Attends u t i := by
  obtain ⟨call', hc', hu, -, -, ht⟩ := h.call
  obtain rfl := Option.some.inj (hc.symm.trans hc')
  -- the call was on its way, so it has changed nothing so far
  have hlive := hd.isLive
  have htable : v.table = t := by
    refine ht fun reply hp => ?_
    simp [Call.isLive, hp] at hlive
  refine ⟨h.orderly.amend hc hd, ?_, _, amend_calls_self hc e, hu, ?_, ?_, ?_⟩
  · rcases hd.grants h.orderly hc hu.isPlain with ⟨reply, -, hg⟩ | ⟨-, he⟩
    · rw [amend_table, (hg.ofOwner hu).2, htable]
    · rw [amend_table, he, htable]
  · intro reply hp
    rcases hd.grants h.orderly hc hu.isPlain with ⟨reply', hp', hg⟩ | ⟨hno, -⟩
    · obtain rfl := Except.ok.inj (Phase.answered.inj (hp'.symm.trans hp))
      rw [← htable]
      exact (hg.ofOwner hu).1
    · exact absurd hp (hno reply)
  · intro cause hp
    exact hd.isAuthorization_eq_false h.orderly hc hu hp
  · intro hno
    rcases hd.grants h.orderly hc hu.isPlain with ⟨reply, hp, -⟩ | ⟨-, he⟩
    · exact absurd hp (hno reply)
    · rw [amend_table, he, htable]

theorem Attends.move (h : v.Attends u t i) {m : Move} (hm : m.call? = some i) :
    (v.move m).Attends u t i := by
  obtain ⟨call, hc, -⟩ := h.call
  rcases move_eq_or_deed hm hc with he | ⟨e, he, hd⟩
  · rwa [he]
  · rw [he]
    exact h.amend hc hd

/-- **While nobody else does anything**, the call does what it does for its owner. -/
theorem Attends.follows {w : Vault} (h : v.Attends u t i) (hw : v.Follows i w) :
    w.Attends u t i := by
  obtain ⟨moves, rfl, hm⟩ := hw
  induction moves generalizing v with
  | nil => exact h
  | cons m moves ih =>
    exact ih (h.move (hm m List.mem_cons_self)) fun m' hm' => hm m' (List.mem_cons_of_mem m hm')

/-- Time may pass. -/
theorem Attends.advance (h : v.Attends u t i) (moment : Nat) :
    (v.advance moment).Attends u t i := by
  rw [Vault.advance]
  split
  · have ho : (v.run [.clock moment]).Orderly fun _ => True := h.orderly.run fun _ _ => trivial
    exact ⟨ho, h.others, h.call⟩
  · exact h

/-- **The answer of the call** shows nothing of others, and is never that a right is wanting. -/
theorem Attends.answer (h : v.Attends u t i) {answer : Except Failure Reply}
    (ha : v.answer? i = some answer) :
    (∀ reply, answer = .ok reply → reply.Discloses u t) ∧
      ∀ cause, answer = .error cause → cause.isAuthorization = false := by
  obtain ⟨call, hc, hu, hok, herr, -⟩ := h.call
  have hp := (h.orderly.answer?_eq_some hc hu.isPlain.1).mp ha
  refine ⟨?_, ?_⟩
  · rintro reply rfl
    exact hok reply hp
  · rintro cause rfl
    exact herr cause hp

end Vault

end KeyLifecycle
