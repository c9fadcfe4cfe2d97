import KeyLifecycle.Proofs.Store.Asking
import KeyLifecycle.Service

/-!
# The stages of a service call

Every operation of the service is one and the same procedure up to its last stage: it looks up who
is meant, unless nobody is named, it asks the policy, and then it does for the target what the store
does for an owner. `ServiceCall` is what can be asked, and `ServiceCall.procedure_eq` writes the
stages out, one question to the surroundings after the other.
-/

namespace KeyLifecycle

/-- What can be asked of the service; access keys are texts that nobody has looked at yet. -/
inductive ServiceCall where
  | create
  | list
  | delete (key : String)
  | rotate (key : String)

namespace ServiceCall

/-- The operation of the service. -/
def procedure (call : ServiceCall) (service : Service) (caller : Caller) (target : Option String) :
    Procedure (Except Failure Reply) :=
  match call with
  | create => service.create caller target
  | list => service.list caller target
  | delete key => service.delete caller target key
  | rotate key => service.rotate caller target key

/-- The action that the policy is asked about. -/
def action : ServiceCall → Action
  | list => .listCredentials
  | _ => .modifyCredentials

/-- **The last stage**: what is done for an owner. -/
def forOwner (call : ServiceCall) (store : Store) (owner : UserId) :
    Procedure (Except Failure Reply) :=
  match call with
  | create => Procedure.drawing (.create owner) (some store.limit)
  | list => .ask (.list owner) (some store.limit) .done
  | delete key =>
    match AccessKey.ofText key with
    | .ok key => .ask (.delete owner key) (some store.limit) .done
    | .error cause => .done (.error cause)
  | rotate key =>
    match AccessKey.ofText key with
    | .ok key => Procedure.drawing (.rotate owner key) (some store.limit)
    | .error cause => .done (.error cause)

/-- **The stage before it**: the policy is asked about the target. -/
def judged (call : ServiceCall) (service : Service) (caller : Caller) (target : UserId) :
    Procedure (Except Failure Reply) :=
  match service.policy.require caller target call.action with
  | .ok () => .report (.policyAllowed caller.id target call.action)
      (call.forOwner service.store target)
  | .error cause => .report (.policyDenied caller.id target call.action) (.done (.error cause))

/-- The slug by which a target is looked up, if there is one to look up. -/
def named? : Option String → Option String
  | none => none
  | some slug => if slug.isEmpty then none else some slug

theorem named?_eq_some {target : Option String} {slug : String} :
    named? target = some slug ↔ target = some slug ∧ slug ≠ "" := by
  cases target with
  | none => simp [named?]
  | some text =>
    rw [named?]
    split <;> rename_i h
    · simp at h
      simp only [reduceCtorEq, Option.some.injEq, false_iff]
      rintro ⟨rfl, hne⟩
      exact hne h
    · simp at h
      simp only [Option.some.injEq]
      constructor
      · rintro rfl
        exact ⟨rfl, h⟩
      · exact And.left

/-- What follows on the look-up of a target: nobody is found, or the policy is asked. -/
def found (call : ServiceCall) (service : Service) (caller : Caller) (slug : String) :
    Except Failure (Option User) → Procedure (Except Failure Reply)
  | .ok (some user) => call.judged service caller user.id
  | .ok none =>
    .report (.resolutionFailed caller.id call.action) (.done (.error (.targetNotFound slug)))
  | .error cause =>
    if cause.isAuthorization then
      .report (.resolutionFailed caller.id call.action) (.done (.error cause))
    else .done (.error cause)

/-- Every operation asks for leave, and goes on to the last stage with the owner that it is given.
-/
theorem procedure_eq_bind (call : ServiceCall) (service : Service) (caller : Caller)
    (target : Option String) :
    call.procedure service caller target =
      (service.authorize caller target call.action >>=
        fun owner => (call.forOwner service.store owner : Operation Reply)) := by
  -- where a key is given, it is looked at after the policy
  have keyed {rest : UserId → AccessKey → Operation Reply} {last : UserId → Operation Reply}
      {key : String}
      (h : ∀ owner, (Operation.ofExcept (AccessKey.ofText key) >>= rest owner) = last owner) :
      (do
        let owner ← service.authorize caller target .modifyCredentials
        let key ← Operation.ofExcept (AccessKey.ofText key)
        rest owner key) = service.authorize caller target .modifyCredentials >>= last :=
    congrArg _ (funext h)
  cases call with
  | create =>
    have hlast : (fun owner => service.store.create owner) = create.forOwner service.store :=
      funext fun owner => Store.create_eq service.store owner
    exact congrArg (service.authorize caller target .modifyCredentials >>= ·) hlast
  | list => rfl
  | delete key =>
    refine keyed fun owner => ?_
    rw [forOwner]
    cases AccessKey.ofText key <;> rfl
  | rotate key =>
    refine keyed fun owner => ?_
    rw [forOwner]
    cases AccessKey.ofText key with
    | error cause => rfl
    | ok key => exact Store.rotate_eq service.store owner key

/-- What the policy allows goes on to the last stage. -/
theorem judged_eq (call : ServiceCall) (service : Service) (caller : Caller) (target : UserId) :
    Procedure.bind
        (match service.policy.require caller target call.action with
          | .ok () => (do
            Operation.report (.policyAllowed caller.id target call.action)
            return target : Operation UserId)
          | .error cause => (do
            Operation.report (.policyDenied caller.id target call.action)
            throw cause : Operation UserId))
        (ExceptT.bindCont fun owner => (call.forOwner service.store owner : Operation Reply)) =
      call.judged service caller target := by
  rw [judged]
  cases service.policy.require caller target call.action <;> rfl

/-- **All stages.** -/
theorem procedure_eq (call : ServiceCall) (service : Service) (caller : Caller)
    (target : Option String) :
    call.procedure service caller target =
      match named? target with
      | none => call.judged service caller caller.id
      | some slug =>
        .report (.resolvingTarget caller.id slug)
          (.userBySlug slug (call.found service caller slug)) := by
  rw [procedure_eq_bind]
  cases target with
  | none => exact judged_eq call service caller caller.id
  | some slug =>
    rw [named?]
    cases h : slug.isEmpty with
    | true =>
      simp only [Service.authorize, Caller.resolve, h]
      exact judged_eq call service caller caller.id
    | false =>
      simp only [Service.authorize, Caller.resolve, h]
      refine congrArg (Procedure.report _) (congrArg (Procedure.userBySlug slug) ?_)
      funext answer
      rcases answer with cause | _ | user
      · rw [found]
        cases cause <;> rfl
      · rfl
      · exact judged_eq call service caller user.id

end ServiceCall

end KeyLifecycle
