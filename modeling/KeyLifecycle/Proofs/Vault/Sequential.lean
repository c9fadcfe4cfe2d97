import KeyLifecycle.Proofs.Vault.Staging

/-!
# One request at a time

What requests come to on a plain table that is used by one of them after the other, with nobody else
around: no lock, no copy, no clock. `Table.serve` answers a list of requests in this way, and is
what a run of a vault is measured by.

The work of a transaction and the same work done at once on the table agree at every point:
`KeyLifecycle.Work.Reached.perform_eq` says that whatever a work has come to on its copy, what is
left of it will end on the copy as the whole of it ends on the table.
-/

namespace KeyLifecycle

/-! ### Work done at once -/

namespace Work

variable {plan : FailurePlan} {work rest : Work Reply} {t : Table} {handle : Handle}

/-- What comes of a work that is done at once on a table, and the table then. Pauses take no time,
and plain work does not come to the end of its transaction by itself. -/
def perform (plan : FailurePlan) : Work Reply → Table → Except Failure Reply × Table
  | done reply, t => (.ok reply, t)
  | fail cause, t => (.error cause, t)
  | insert owner material next, t =>
    if plan.insert then (.error (FailurePlan.failure "insert api key"), t)
    else
      match t.insert owner material with
      | .ok (credential, table) => (next credential).perform plan table
      | .error cause => (.error cause, t)
  | delete owner key next, t =>
    if plan.delete then (.error (FailurePlan.failure "delete api key"), t)
    else
      match t.remove? owner key with
      | some (_, table) => (next true).perform plan table
      | none => (next false).perform plan t
  | commit next, t => next.perform plan t
  | rollback next, t => next.perform plan t
  | pause _ next, t => next.perform plan t

/-- The owners and access keys of the rows that a work takes out when it is done at once. -/
def revoked (plan : FailurePlan) : Work Reply → Table → List (UserId × AccessKey)
  | done _, _ => []
  | fail _, _ => []
  | insert owner material next, t =>
    if plan.insert then []
    else
      match t.insert owner material with
      | .ok (credential, table) => (next credential).revoked plan table
      | .error _ => []
  | delete owner key next, t =>
    if plan.delete then []
    else
      match t.remove? owner key with
      | some (_, table) => (owner, key) :: (next true).revoked plan table
      | none => (next false).revoked plan t
  | commit next, t => next.revoked plan t
  | rollback next, t => next.revoked plan t
  | pause _ next, t => next.revoked plan t

/-- **A row stays as it is**, with its moment of use, unless the work takes it out. -/
theorem mem_perform {row : Row} (hrow : row ∈ t.rows)
    (hno : (row.owner, row.key) ∉ work.revoked plan t) : row ∈ (work.perform plan t).2.rows := by
  induction work generalizing t with
  | done reply => exact hrow
  | fail cause => exact hrow
  | insert owner material next ih =>
    rw [perform]
    rw [revoked] at hno
    by_cases hp : plan.insert = true
    · rw [if_pos hp]
      exact hrow
    · rw [if_neg hp] at hno ⊢
      cases hi : t.insert owner material with
      | error cause => exact hrow
      | ok result =>
        obtain ⟨c, table⟩ := result
        obtain ⟨-, -, rfl⟩ := Table.insert_eq_ok.mp hi
        rw [hi] at hno
        exact ih _ (List.mem_append_left _ hrow) hno
  | delete owner key next ih =>
    rw [perform]
    rw [revoked] at hno
    by_cases hp : plan.delete = true
    · rw [if_pos hp]
      exact hrow
    · rw [if_neg hp] at hno ⊢
      cases hr : t.remove? owner key with
      | none =>
        rw [hr] at hno
        exact ih _ hrow hno
      | some result =>
        obtain ⟨found, table⟩ := result
        obtain ⟨before, after, hrows, hrows', -, ho, hk⟩ := Table.remove?_eq_some hr
        rw [hr, List.mem_cons, not_or] at hno
        refine ih _ ?_ hno.2
        -- the row is not the one that is taken out, so it is before it or after it
        rw [hrows, List.mem_append, List.mem_cons] at hrow
        rw [hrows', List.mem_append]
        rcases hrow with h | rfl | h
        · exact Or.inl h
        · exact absurd (Prod.ext ho hk) hno.1
        · exact Or.inr h
  | commit next ih => exact ih hrow hno
  | rollback next ih => exact ih hrow hno
  | pause duration next ih => exact ih hrow hno

/-- What is refused in an open transaction fails on its copy in the same way. -/
theorem perform_of_fault? {cause : Failure} (ho : handle.isOpen = true)
    (hf : rest.fault? plan handle = some cause) :
    rest.perform plan handle.staged = (.error cause, handle.staged) := by
  obtain ⟨isOpen, staged⟩ := handle
  obtain rfl : isOpen = true := ho
  cases rest with
  | insert owner material next =>
    rw [fault?, Handle.insert] at hf
    rw [perform]
    cases hp : plan.insert with
    | true => simp_all
    | false => cases hi : staged.insert owner material <;> simp_all
  | delete owner key next =>
    rw [fault?, Handle.delete] at hf
    rw [perform]
    cases hp : plan.delete with
    | true => simp_all
    | false => cases hr : staged.remove? owner key <;> simp_all
  | _ => simp [fault?] at hf

/-- **The copy does for the table.** What is left of a work ends on its copy as the whole of it ends
on the table, if failures are the same throughout. -/
theorem Reached.perform_eq (h : Reached (· = plan) work t rest handle) :
    work.perform plan t = rest.perform plan handle.staged := by
  induction h with
  | opened => rfl
  | insert h hp hi ih =>
    subst hp
    obtain ⟨-, hf, table, ht, rfl⟩ := Handle.insert_eq_ok.mp hi
    rw [ih, perform, hf, if_neg (by simp), ht]
  | delete h hp hd ih =>
    subst hp
    obtain ⟨-, hf, ⟨rfl, ht, rfl⟩ | ⟨found, table, rfl, ht, rfl⟩⟩ := Handle.delete_eq_ok.mp hd
    · rw [ih, perform, hf, if_neg (by simp), ht]
      rfl
    · rw [ih, perform, hf, if_neg (by simp), ht]
      rfl
  | @fault rest handle plan cause h hp hf ih =>
    subst hp
    rw [ih, perform_of_fault? h.isOpen hf, perform]
  | pause h ih => exact ih

/-- **Work that has got through** has come to what it comes to at once where nothing is to fail,
whatever was to fail on its way. -/
theorem Reached.perform_of_done {plans : FailurePlan → Prop} {reply : Reply}
    (h : Reached plans work t (.done reply) handle) :
    work.perform {} t = (.ok reply, handle.staged) := by
  -- by induction on the way; a work that was refused something is failing ever since
  have onward {rest : Work Reply} {handle : Handle} (h : Reached plans work t rest handle) :
      (∃ cause, rest = .fail cause) ∨ work.perform {} t = rest.perform {} handle.staged := by
    induction h with
    | opened => exact Or.inr rfl
    | insert h _ hi ih =>
      obtain ⟨-, -, table, ht, rfl⟩ := Handle.insert_eq_ok.mp hi
      have he := ih.resolve_left (by simp)
      rw [perform, if_neg (by simp), ht] at he
      exact Or.inr he
    | delete h _ hd ih =>
      have he := ih.resolve_left (by simp)
      rw [perform, if_neg (by simp)] at he
      obtain ⟨-, -, ⟨rfl, ht, rfl⟩ | ⟨found, table, rfl, ht, rfl⟩⟩ := Handle.delete_eq_ok.mp hd
      · rw [ht] at he
        exact Or.inr he
      · rw [ht] at he
        exact Or.inr he
    | fault => exact Or.inl ⟨_, rfl⟩
    | pause h ih => exact Or.inr (ih.resolve_left (by simp))
  exact (onward h).resolve_left (by simp)

end Work

/-! ### Requests, one after the other -/

/-- The answer to a request that nothing else comes between, and the table then. Work that fails
leaves the table as it was. -/
def Request.perform (plan : FailurePlan) (request : Request) (t : Table) :
    Except Failure Reply × Table :=
  match request.work? with
  | some work =>
    match work.perform plan t with
    | (.ok reply, table) => (.ok reply, table)
    | (.error cause, _) => (.error cause, t)
  | none =>
    match request with
    | .list owner =>
      if plan.list then (.error (FailurePlan.failure "list api keys"), t)
      else (.ok (.summaries (t.summaries owner)), t)
    | .stamp key moment =>
      match t.stamp? key moment with
      | some table => (.ok (.found true), table)
      | none => (.ok (.found false), t)
    | .count => (.ok (.count t.rows.length), t)
    | _ => (.ok .done, t)

/-- **A plain table**, which answers requests one at a time. -/
def Table.serve (plan : FailurePlan) : List Request → Table → List (Except Failure Reply) × Table
  | [], t => ([], t)
  | request :: rest, t =>
    let (answer, t) := request.perform plan t
    let (answers, t) := serve plan rest t
    (answer :: answers, t)

/-- One more request is answered on the table that the others have left. -/
theorem Table.serve_concat (plan : FailurePlan) (requests : List Request) (request : Request)
    (t : Table) :
    serve plan (requests ++ [request]) t =
      ((serve plan requests t).1 ++ [(request.perform plan (serve plan requests t).2).1],
        (request.perform plan (serve plan requests t).2).2) := by
  induction requests generalizing t with
  | nil => rfl
  | cons first requests ih => simp [serve, ih]

namespace Request

variable {plan : FailurePlan} {request : Request} {t : Table}

theorem perform_of_work {work : Work Reply} {reply : Reply} {t' : Table}
    (hw : request.work? = some work) (h : work.perform plan t = (.ok reply, t')) :
    request.perform plan t = (.ok reply, t') := by
  unfold perform
  rw [hw]
  dsimp only
  rw [h]

theorem perform_of_failing {work : Work Reply} {cause : Failure} {t' : Table}
    (hw : request.work? = some work) (h : work.perform plan t = (.error cause, t')) :
    request.perform plan t = (.error cause, t) := by
  unfold perform
  rw [hw]
  dsimp only
  rw [h]

/-- **A request that fails changes nothing.** -/
theorem table_eq_of_perform_error {cause : Failure} {t' : Table}
    (h : request.perform plan t = (.error cause, t')) : t' = t := by
  unfold perform at h
  split at h
  · split at h <;> simp_all
  · split at h
    · split at h <;> simp_all
    · split at h <;> simp at h
    · simp at h
    · simp at h

/-- A look at the table that is not to fail. -/
theorem perform_of_view {reply : Reply} (hl : ∀ owner, request = .list owner → plan.list = false)
    (h : request.view? t = some reply) :
    request.perform plan t = (.ok reply, request.stamped t) := by
  cases request with
  | list owner =>
    obtain rfl := Option.some.inj h
    simp [perform, work?, hl owner rfl, stamped]
  | stamp key moment =>
    obtain rfl := Option.some.inj h
    cases hk : t.hasKey key <;> simp [perform, work?, stamped, Table.stamp?, hk]
  | count =>
    obtain rfl := Option.some.inj h
    rfl
  | _ => simp [view?] at h

end Request

end KeyLifecycle
