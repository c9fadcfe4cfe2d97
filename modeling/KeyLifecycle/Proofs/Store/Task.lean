import KeyLifecycle.Proofs.Service.Stages
import KeyLifecycle.Proofs.Vault.Changes
import KeyLifecycle.Proofs.Vault.Sequential

/-!
# What may be asked of a store

A `StoreTask` is one of the operations of a store: to issue, to list, to revoke, to replace, to note
a use; to count the rows is asked of the table itself. A store does a task by one request, for which
it may draw key material (`KeyLifecycle.StoreTask.procedure_of_draws`,
`KeyLifecycle.StoreTask.procedure_of_not_draws`), and a service does the same for whoever is meant
(`ServiceCall.task?`).

On a plain table these requests come to little: an insert, or a row that is taken out, or both. What
a request may be granted is what it comes to where nothing is to fail
(`KeyLifecycle.Request.Grants.perform_eq`).
-/

namespace KeyLifecycle

/-- What may be asked of a store, apart from units of work, and of its table. -/
inductive StoreTask where
  | create (owner : UserId)
  | list (owner : UserId)
  | delete (owner : UserId) (key : AccessKey)
  | rotate (owner : UserId) (key : AccessKey)
  | stamp (key : AccessKey) (moment : Instant)
  | count

namespace StoreTask

/-- How a task is done. -/
def procedure (store : Store) : StoreTask → Procedure (Except Failure Reply)
  | create owner => store.create owner
  | list owner => store.list owner
  | delete owner key => store.delete owner key
  | rotate owner key => store.rotate owner key
  | stamp key moment => store.recordAuth key moment
  | count => Operation.ask .count none

/-- Whose task it is; stamps and counts are nobody's. -/
def owner? : StoreTask → Option UserId
  | create owner => some owner
  | list owner => some owner
  | delete owner _ => some owner
  | rotate owner _ => some owner
  | _ => none

/-- Whether a task draws key material. -/
def draws : StoreTask → Bool
  | create _ => true
  | rotate _ _ => true
  | _ => false

/-- The request that a task comes to with some key material, if it is one that draws. -/
def request (task : StoreTask) (material : KeyMaterial) : Request :=
  match task with
  | create owner => .create owner material
  | list owner => .list owner
  | delete owner key => .delete owner key
  | rotate owner key => .rotate owner key material
  | stamp key moment => .stamp key moment
  | count => .count

/-- How long a task may take in a store. -/
def limit? (store : Store) : StoreTask → Option Span
  | count => none
  | _ => some store.limit

variable {task : StoreTask}

/-- **A task that issues a credential** draws key material and makes one request. -/
theorem procedure_of_draws (h : task.draws = true) (store : Store) :
    task.procedure store = Procedure.drawing task.request (some store.limit) := by
  cases task with
  | create owner => exact store.create_eq owner
  | rotate owner key => exact store.rotate_eq owner key
  | _ => simp [draws] at h

/-- **Any other task** makes one request. -/
theorem procedure_of_not_draws (h : task.draws = false) (store : Store) (material : KeyMaterial) :
    task.procedure store = .ask (task.request material) (task.limit? store) .done := by
  cases task with
  | create owner | rotate owner key => simp [draws] at h
  | _ => rfl

end StoreTask

/-! ### On a plain table -/

/-- To revoke is to take a row out that has to be there, and to go on. -/
theorem Work.perform_revoke (plan : FailurePlan) (u : UserId) (key : AccessKey)
    (next : Work Reply) (t : Table) :
    (revoke u key next).perform plan t =
      if plan.delete then (.error (FailurePlan.failure "delete api key"), t)
      else
        match t.remove? u key with
        | some (_, rest) => next.perform plan rest
        | none => (.error .credentialNotFound, t) := by
  rw [revoke, perform]
  cases plan.delete with
  | true => rfl
  | false => cases t.remove? u key <;> rfl

namespace Request

variable {plan : FailurePlan} {request : Request} {t t' : Table} {u : UserId} {m : KeyMaterial}
  {key : AccessKey} {reply : Reply}

theorem perform_create :
    (create u m).perform plan t =
      if plan.insert then (.error (FailurePlan.failure "insert api key"), t)
      else
        match t.insert u m with
        | .ok (c, t') => (.ok (.issued c), t')
        | .error cause => (.error cause, t) := by
  unfold perform
  simp only [work?, Work.issue, Work.perform]
  cases plan.insert with
  | true => rfl
  | false => cases t.insert u m <;> rfl

theorem perform_delete :
    (delete u key).perform plan t =
      if plan.delete then (.error (FailurePlan.failure "delete api key"), t)
      else
        match t.remove? u key with
        | some (_, t') => (.ok .done, t')
        | none => (.error .credentialNotFound, t) := by
  unfold perform
  simp only [work?, Work.perform_revoke, Work.perform]
  cases plan.delete with
  | true => rfl
  | false => cases t.remove? u key <;> rfl

/-- To replace is to take out and then to issue; if either is refused, nothing has changed. -/
theorem perform_rotate :
    (rotate u key m).perform plan t =
      if plan.delete then (.error (FailurePlan.failure "delete api key"), t)
      else
        match t.remove? u key with
        | some (_, rest) =>
          match (create u m).perform plan rest with
          | (.ok reply, t') => (.ok reply, t')
          | (.error cause, _) => (.error cause, t)
        | none => (.error .credentialNotFound, t) := by
  unfold perform
  simp only [work?, Work.perform_revoke]
  cases plan.delete with
  | true => rfl
  | false =>
    rcases t.remove? u key with _ | ⟨row, rest⟩
    · rfl
    · simp only [Work.issue, Work.perform]
      cases plan.insert with
      | true => rfl
      | false => cases rest.insert u m <;> rfl

/-- **What a request is granted** is what it comes to on a plain table where nothing is to fail. -/
theorem Grants.perform_eq {plans : FailurePlan → Prop} (h : request.Grants plans t reply t') :
    request.perform {} t = (.ok reply, t') := by
  cases h with
  | work hw h => exact perform_of_work hw h.perform_of_done
  | look h => exact perform_of_view (fun _ _ => rfl) h

end Request

/-! ### What is asked of a store by way of a service -/

namespace ServiceCall

/-- What is asked of the store for an owner, if the given key has a valid form. -/
def taskFor? (owner : UserId) : ServiceCall → Option StoreTask
  | create => some (.create owner)
  | list => some (.list owner)
  | delete key => (AccessKey.ofText key).toOption.map (.delete owner)
  | rotate key => (AccessKey.ofText key).toOption.map (.rotate owner)

/-- Who is meant: the caller, unless a slug is given, and then whoever has that slug. -/
def owner? (users : Directory) (caller : Caller) (target : Option String) : Option UserId :=
  match named? target with
  | none => some caller.id
  | some slug => (users.bySlug slug).map (·.id)

/-- **What a call of the service comes to**, if its target is found and its key has a valid form. -/
def task? (users : Directory) (caller : Caller) (target : Option String) (call : ServiceCall) :
    Option StoreTask :=
  (owner? users caller target).bind (taskFor? · call)

end ServiceCall

end KeyLifecycle
