import KeyLifecycle.Proofs.Session.Solo
import KeyLifecycle.Proofs.Store.Task
import KeyLifecycle.Proofs.Vault.Served

/-!
# What an operation ought to come to

The operations of the service are to go through their stages in a fixed order (`ServiceCall.stages`)
and to end with the first one that fails. A `Demand` is one operation, with whoever asks for it and
on whom. A `Demand.Scene` is all that the stages look at: the users, the key material that the
generator would deliver, what is to fail, the table of credentials, and whether the time runs out.

`Demand.setback?` says of each stage *by itself* whether it fails in a scene, and with what; it does
not know which stages there are before it. So what an operation ought to come to is read off the
list: the first setback, or the fruit of the operation if there is none (`Demand.progress`), and the
table that it leaves (`Demand.after`). A stage takes place if all stages before it have passed
(`Demand.ran`).

The rest of the module compares this with the procedure of the operation, in two parts. What is in
front of the store is a part of the procedure itself, and happens in one turn, before which the
procedure can only be stopped at the look-up (`KeyLifecycle.Demand.AtLookUp.run`). What is behind it
is one request to the store, which comes to the same on a plain table as the stages that remain
(`KeyLifecycle.Demand.perform_request`).
-/

namespace KeyLifecycle

namespace ServiceCall

/-! ### Stages -/

/-- Something that an operation goes through, and that may fail. -/
inductive Stage where
  /-- The target is looked up by slug. -/
  | lookUp
  /-- The policy is asked about the target. -/
  | policy
  /-- The text that is given for an access key is looked at. -/
  | form
  /-- Key material is drawn. -/
  | drawing
  /-- It is looked at whether lists are to fail. -/
  | listPlan
  /-- The table is waited for. -/
  | table
  /-- It is looked at whether deletes are to fail. -/
  | deletePlan
  /-- The row of the owner and the access key is looked for. -/
  | matching
  /-- It is looked at whether inserts are to fail. -/
  | insertPlan
  /-- It is looked at whether somebody has the new access key. -/
  | uniqueness
  /-- What has been done becomes the table. -/
  | commit
  deriving DecidableEq

/-- The stages in front of the store. -/
def front : ServiceCall → List Stage
  | create => [.lookUp, .policy, .drawing]
  | list => [.lookUp, .policy]
  | delete _ => [.lookUp, .policy, .form]
  | rotate _ => [.lookUp, .policy, .form, .drawing]

/-- The stages in the store. -/
def back : ServiceCall → List Stage
  | create => [.table, .insertPlan, .uniqueness, .commit]
  | list => [.listPlan, .table]
  | delete _ => [.table, .deletePlan, .matching, .commit]
  | rotate _ => [.table, .deletePlan, .matching, .insertPlan, .uniqueness, .commit]

/-- **The stages of an operation**, in the order in which they come. -/
def stages (call : ServiceCall) : List Stage := call.front ++ call.back

/-- The name under which the store reports an operation. -/
def operation : ServiceCall → String
  | create => "create api key"
  | list => "list api keys"
  | delete _ => "delete api key"
  | rotate _ => "rotate api key"

/-- The text that is given for an access key. -/
def keyText? : ServiceCall → Option String
  | delete text => some text
  | rotate text => some text
  | _ => none

/-- The access key that is given, if the text is one. -/
def key? (call : ServiceCall) : Option AccessKey :=
  call.keyText?.bind fun text => (AccessKey.ofText text).toOption

end ServiceCall

open ServiceCall (Stage)

/-- How a stage fails: with a failure, or because the source of key material breaks down. -/
inductive Setback where
  | failure (cause : Failure)
  | breakdown
  deriving DecidableEq

/-- The failure of something that may fail. -/
def Setback.of? {α : Type} : Except Failure α → Option Setback
  | .ok _ => none
  | .error cause => some (.failure cause)

/-- How far an operation comes that has a setback. -/
def Setback.progress : Setback → Progress (Except Failure Reply)
  | failure cause => .finished (.error cause)
  | breakdown => .crashed

/-- **What is asked of a service**: an operation, by somebody, on somebody. -/
structure Demand where
  service : Service
  caller : Caller
  target : Option String
  call : ServiceCall

namespace Demand

/-- The procedure of the operation. -/
def procedure (q : Demand) : Procedure (Except Failure Reply) :=
  q.call.procedure q.service q.caller q.target

/-- **What the stages of an operation look at.** -/
structure Scene where
  users : Directory
  /-- What the generator would deliver. -/
  drawn : Generated
  plan : FailurePlan
  table : Table
  /-- Whether the time runs out before the operation is through with the table. -/
  late : Bool

/-- The key material, if there is any. -/
def Scene.material? (x : Scene) : Option KeyMaterial :=
  match x.drawn with
  | .material material => some material
  | _ => none

variable (q : Demand) (x : Scene)

/-- Who is meant, if anybody is. -/
def owner? : Option UserId := ServiceCall.owner? x.users q.caller q.target

/-- The table without the row that is to be revoked, if there is one. -/
def cleared : Table :=
  match q.owner? x, q.call.key? with
  | some owner, some key => ((x.table.remove? owner key).map (·.2)).getD x.table
  | _, _ => x.table

/-- **How a stage fails**, if it does, whatever becomes of the stages before it. -/
def setback? : Stage → Option Setback
  | .lookUp =>
    match ServiceCall.named? q.target with
    | none => none
    | some slug =>
      if (x.users.bySlug slug).isSome then none else some (.failure (.targetNotFound slug))
  | .policy =>
    (q.owner? x).bind fun owner =>
      Setback.of? (q.service.policy.require q.caller owner q.call.action)
  | .form => q.call.keyText?.bind fun text => Setback.of? (AccessKey.ofText text)
  | .drawing =>
    match x.drawn with
    | .material _ => none
    | .failed cause => some (.failure cause)
    | .breakdown => some .breakdown
  | .listPlan =>
    if x.plan.list then some (.failure (FailurePlan.failure "list api keys")) else none
  | .table => if x.late then some (.failure (.cancelled q.call.operation)) else none
  | .deletePlan =>
    if x.plan.delete then some (.failure (FailurePlan.failure "delete api key")) else none
  | .matching =>
    match q.owner? x, q.call.key? with
    | some owner, some key =>
      if (x.table.remove? owner key).isSome then none else some (.failure .credentialNotFound)
    | _, _ => none
  | .insertPlan =>
    if x.plan.insert then some (.failure (FailurePlan.failure "insert api key")) else none
  | .uniqueness =>
    x.material?.bind fun material =>
      if (q.cleared x).hasKey material.key then some (.failure Table.taken) else none
  | .commit => none

/-- Those of some stages that take place: each of them, as long as those before it pass. -/
def ranOf : List Stage → List Stage
  | [] => []
  | stage :: rest => stage :: if (q.setback? x stage).isNone then ranOf rest else []

/-- **The stages that take place.** -/
def ran : List Stage := q.ranOf x q.call.stages

/-- The first setback, if there is one. -/
def failing? : Option Setback := q.call.stages.findSome? (q.setback? x)

/-- What an operation without any setback is answered, and the table that it leaves. -/
def fruit : Reply × Table :=
  match q.call, q.owner? x, x.material? with
  | .list, some owner, _ => (.summaries (x.table.summaries owner), x.table)
  | .delete _, _, _ => (.done, q.cleared x)
  | _, some owner, some material =>
    let row := (q.cleared x).fresh owner material
    (.issued row.credential, ⟨(q.cleared x).rows ++ [row], row.id.value⟩)
  | _, _, _ => (.done, x.table)

/-- **How far the operation ought to come.** -/
def progress : Progress (Except Failure Reply) :=
  match q.failing? x with
  | none => .finished (.ok (q.fruit x).1)
  | some setback => setback.progress

/-- **The table that it ought to leave.** -/
def after : Table :=
  match q.failing? x with
  | none => (q.fruit x).2
  | some _ => x.table

/-- The generator that it ought to leave. -/
def spent (g : Generator) : Generator := if .drawing ∈ q.ran x then g.generate.2 else g

/-- The request to which the operation comes in the store, if it comes there. -/
def request? : Option Request :=
  (q.owner? x).bind fun owner =>
    match q.call with
    | .create => x.material?.map (.create owner)
    | .list => some (.list owner)
    | .delete _ => q.call.key?.map (.delete owner)
    | .rotate _ => q.call.key?.bind fun key => x.material?.map (.rotate owner key)

variable {q x}

/-! ### The first setback -/

theorem ranOf_subset (stages : List Stage) : q.ranOf x stages ⊆ stages := by
  induction stages with
  | nil => exact List.Subset.refl []
  | cons stage rest ih =>
    rw [ranOf]
    refine List.cons_subset_cons stage ?_
    split
    · exact ih
    · exact List.nil_subset rest

/-- Where some stages pass, those behind them take place as if they were the first ones. -/
theorem ranOf_append {first : List Stage} (h : first.findSome? (q.setback? x) = none)
    (second : List Stage) : q.ranOf x (first ++ second) = first ++ q.ranOf x second := by
  induction first with
  | nil => rfl
  | cons stage rest ih =>
    rw [List.findSome?_cons] at h
    split at h
    · simp at h
    · rename_i hs
      rw [List.cons_append, ranOf, hs, ih h]
      rfl

/-- Where one of some stages fails, nothing takes place behind them. -/
theorem ranOf_append_of_some {first : List Stage} {setback : Setback}
    (h : first.findSome? (q.setback? x) = some setback) (second : List Stage) :
    q.ranOf x (first ++ second) = q.ranOf x first := by
  induction first with
  | nil => simp at h
  | cons stage rest ih =>
    rw [List.findSome?_cons] at h
    rw [List.cons_append, ranOf, ranOf]
    split at h
    · rename_i hs
      rw [hs]
      rfl
    · rename_i hs
      rw [hs, ih h]

theorem failing?_of_front {setback : Setback}
    (h : q.call.front.findSome? (q.setback? x) = some setback) : q.failing? x = some setback := by
  rw [failing?, ServiceCall.stages, List.findSome?_append, h, Option.some_or]

theorem failing?_of_back (h : q.call.front.findSome? (q.setback? x) = none) :
    q.failing? x = q.call.back.findSome? (q.setback? x) := by
  rw [failing?, ServiceCall.stages, List.findSome?_append, h, Option.none_or]

/-! ### In front of the store -/

variable {s t : Session} {g : Generator} {owner : UserId} {rest : Procedure (Except Failure Reply)}

theorem spent_of_passed (h : q.call.front.findSome? (q.setback? x) = none) :
    q.spent x g = if .drawing ∈ q.call.front then g.generate.2 else g := by
  have hback : .drawing ∉ q.call.back := by cases q.call <;> simp [ServiceCall.back]
  have hran : .drawing ∈ q.ran x ↔ .drawing ∈ q.call.front := by
    rw [ran, ServiceCall.stages, ranOf_append h, List.mem_append]
    exact ⟨fun hd => hd.resolve_right fun hd => hback (ranOf_subset _ hd), Or.inl⟩
  simp only [spent, hran]

theorem spent_of_failed {setback : Setback}
    (h : q.call.front.findSome? (q.setback? x) = some setback) :
    q.spent x g = if .drawing ∈ q.ranOf x q.call.front then g.generate.2 else g := by
  rw [spent, ran, ServiceCall.stages, ranOf_append_of_some h]

/-- **A procedure does what the stages in front of the store come to**: it ends with the first
setback, or goes on with a request to the store; and it has drawn key material if the stage of that
has taken place. -/
def Fronts (q : Demand) (x : Scene) (procedure : Procedure (Except Failure Reply)) (t : Session) :
    Prop :=
  match q.call.front.findSome? (q.setback? x) with
  | some setback =>
    procedure.run t = (setback.progress, { t with generator := q.spent x t.generator })
  | none => ∃ request, q.request? x = some request ∧
    procedure.run t = (Procedure.ask request (some q.service.store.limit) .done).run
      { t with generator := q.spent x t.generator }

theorem fronts_done {cause : Failure}
    (h : q.call.front.findSome? (q.setback? x) = some (.failure cause))
    (hno : .drawing ∉ q.ranOf x q.call.front) : q.Fronts x (.done (.error cause)) t := by
  rw [Fronts, h, spent_of_failed h, if_neg hno]
  rfl

theorem fronts_ask {request : Request} (h : q.call.front.findSome? (q.setback? x) = none)
    (hno : .drawing ∉ q.call.front) (hr : q.request? x = some request) :
    q.Fronts x (.ask request (some q.service.store.limit) .done) t := by
  rw [Fronts, h, spent_of_passed h, if_neg hno]
  exact ⟨request, hr, rfl⟩

/-- Key material is drawn in the last one of the stages in front of the store. -/
theorem fronts_drawing {request : KeyMaterial → Request} (before : List Stage)
    (hf : q.call.front = before ++ [.drawing]) (h : before.findSome? (q.setback? x) = none)
    (hd : x.drawn = t.generator.generate.1)
    (hr : ∀ material, x.material? = some material → q.request? x = some (request material)) :
    q.Fronts x (Procedure.drawing request (some q.service.store.limit)) t := by
  have hmem : .drawing ∈ q.call.front := by simp [hf]
  have hran : .drawing ∈ q.ranOf x q.call.front := by
    rw [hf, ranOf_append h]
    simp [ranOf]
  have hfirst : q.call.front.findSome? (q.setback? x) = q.setback? x .drawing := by
    rw [hf, List.findSome?_append, h, Option.none_or]
    cases hs : q.setback? x .drawing <;> simp [hs]
  have hset : q.setback? x .drawing =
      match x.drawn with
      | .material _ => none
      | .failed cause => some (.failure cause)
      | .breakdown => some .breakdown := rfl
  rcases hg : t.generator.generate with ⟨material | cause | _, next⟩
  · rw [hg] at hd
    rw [hd] at hset
    have hnone := hfirst.trans hset
    rw [Fronts, hnone, spent_of_passed hnone, if_pos hmem, hg]
    refine ⟨request material, hr material (by rw [Scene.material?, hd]), ?_⟩
    exact Procedure.run_drawing_of_material hg
  · rw [hg] at hd
    rw [hd] at hset
    have hsome := hfirst.trans hset
    rw [Fronts, hsome, spent_of_failed hsome, if_pos hran, hg]
    exact Procedure.run_drawing_of_failed hg
  · rw [hg] at hd
    rw [hd] at hset
    have hsome := hfirst.trans hset
    rw [Fronts, hsome, spent_of_failed hsome, if_pos hran, hg]
    exact Procedure.run_drawing_of_breakdown hg

/-- **From the last stage of the procedure on.** -/
theorem fronts_forOwner (ho : q.owner? x = some owner) (hl : q.setback? x .lookUp = none)
    (hp : q.setback? x .policy = none) (hd : x.drawn = t.generator.generate.1) :
    q.Fronts x (q.call.forOwner q.service.store owner) t := by
  obtain ⟨service, caller, target, call⟩ := q
  cases call with
  | create =>
    refine fronts_drawing [.lookUp, .policy] rfl (by simp [hl, hp]) hd fun material hm => ?_
    simp [request?, ho, hm]
  | list =>
    refine fronts_ask ?_ ?_ ?_
    · simp [ServiceCall.front, hl, hp]
    · simp [ServiceCall.front]
    · simp [request?, ho]
  | delete text =>
    have hform : setback? ⟨service, caller, target, .delete text⟩ x .form =
        Setback.of? (AccessKey.ofText text) := rfl
    rw [ServiceCall.forOwner]
    split
    · rename_i key hk
      rw [hk] at hform
      refine fronts_ask ?_ ?_ ?_
      · simp [ServiceCall.front, hl, hp, hform, Setback.of?]
      · simp [ServiceCall.front]
      · simp [request?, ho, ServiceCall.key?, ServiceCall.keyText?, hk, Except.toOption]
    · rename_i cause hk
      rw [hk] at hform
      refine fronts_done ?_ ?_
      · simp [ServiceCall.front, hl, hp, hform, Setback.of?]
      · simp [ServiceCall.front, ranOf, hl, hp, hform, Setback.of?]
  | rotate text =>
    have hform : setback? ⟨service, caller, target, .rotate text⟩ x .form =
        Setback.of? (AccessKey.ofText text) := rfl
    rw [ServiceCall.forOwner]
    split
    · rename_i key hk
      rw [hk] at hform
      refine fronts_drawing [.lookUp, .policy, .form] rfl ?_ hd fun material hm => ?_
      · simp [hl, hp, hform, Setback.of?]
      · simp [request?, ho, hm, ServiceCall.key?, ServiceCall.keyText?, hk, Except.toOption]
    · rename_i cause hk
      rw [hk] at hform
      refine fronts_done ?_ ?_
      · simp [ServiceCall.front, hl, hp, hform, Setback.of?]
      · simp [ServiceCall.front, ranOf, hl, hp, hform, Setback.of?]

/-- From the policy on. -/
theorem exists_fronts_judged (ho : q.owner? x = some owner) (hl : q.setback? x .lookUp = none)
    (hd : x.drawn = t.generator.generate.1) :
    ∃ t' next, (t.OnlyReports t' ∧ t'.left = t.left) ∧
      (q.call.judged q.service q.caller owner).run t = next.run t' ∧ q.Fronts x next t' := by
  have hpolicy : q.setback? x .policy =
      Setback.of? (q.service.policy.require q.caller owner q.call.action) := by
    rw [setback?, ho]
    rfl
  rw [ServiceCall.judged]
  cases hr : q.service.policy.require q.caller owner q.call.action with
  | ok =>
    rw [hr] at hpolicy
    exact ⟨_, _, ⟨t.onlyReports_note _, rfl⟩, rfl, fronts_forOwner ho hl hpolicy hd⟩
  | error cause =>
    rw [hr] at hpolicy
    refine ⟨_, _, ⟨t.onlyReports_note _, rfl⟩, rfl, fronts_done ?_ ?_⟩
    · cases q.call <;> simp [ServiceCall.front, hl, hpolicy, Setback.of?]
    · cases q.call <;> simp [ServiceCall.front, ranOf, hl, hpolicy, Setback.of?]

/-- What follows on the look-up, where certain users are known. -/
def behind (q : Demand) (users : Directory) : Procedure (Except Failure Reply) :=
  match ServiceCall.named? q.target with
  | none => q.call.judged q.service q.caller q.caller.id
  | some slug => q.call.found q.service q.caller slug (.ok (users.bySlug slug))

/-- From the look-up on. -/
theorem exists_fronts_behind (hu : x.users = t.directory) (hd : x.drawn = t.generator.generate.1) :
    ∃ t' next, (t.OnlyReports t' ∧ t'.left = t.left) ∧
      (q.behind t.directory).run t = next.run t' ∧ q.Fronts x next t' := by
  rw [behind]
  cases hn : ServiceCall.named? q.target with
  | none =>
    have ho : q.owner? x = some q.caller.id := by rw [owner?, ServiceCall.owner?, hn]
    exact exists_fronts_judged ho (by rw [setback?, hn]) hd
  | some slug =>
    have hlook : q.setback? x .lookUp =
        if (t.directory.bySlug slug).isSome then none
        else some (.failure (.targetNotFound slug)) := by
      rw [setback?, hn, hu]
    dsimp only
    cases hb : t.directory.bySlug slug with
    | some user =>
      rw [ServiceCall.found]
      have ho : q.owner? x = some user.id := by
        rw [owner?, ServiceCall.owner?, hn, hu]
        dsimp only
        rw [hb]
        rfl
      rw [hb] at hlook
      exact exists_fronts_judged ho hlook hd
    | none =>
      rw [ServiceCall.found]
      rw [hb] at hlook
      refine ⟨_, _, ⟨t.onlyReports_note _, rfl⟩, rfl, fronts_done ?_ ?_⟩
      · cases q.call <;> simp [ServiceCall.front, hlook]
      · cases q.call <;> simp [ServiceCall.front, ranOf, hlook]

/-- **A procedure that is still at the look-up.** -/
inductive AtLookUp (q : Demand) : Procedure (Except Failure Reply) → Prop
  | whole : AtLookUp q q.procedure
  | named {slug : String} (h : ServiceCall.named? q.target = some slug) :
    AtLookUp q (.userBySlug slug (q.call.found q.service q.caller slug))

/-- **A turn at the look-up** stays there for want of an allowance, or does what the stages in front
of the store come to, for one unit at most. -/
theorem AtLookUp.run (h : q.AtLookUp rest) (hu : x.users = s.directory)
    (hd : x.drawn = s.generator.generate.1) :
    (s.left = 0 ∧ ∃ rest' t, q.AtLookUp rest' ∧ s.OnlyReports t ∧ rest.run s = (.ready rest', t)) ∨
      ∃ next t, (s.OnlyReports t ∧ s.left ≤ t.left + 1) ∧ rest.run s = next.run t ∧
        q.Fronts x next t := by
  -- whatever is done from the look-up on, what has been reported before goes with it
  have onward {t : Session} (ht : s.OnlyReports t) (hleft : s.left ≤ t.left + 1)
      (hrun : rest.run s = (q.behind t.directory).run t) :
      ∃ next t, (s.OnlyReports t ∧ s.left ≤ t.left + 1) ∧ rest.run s = next.run t ∧
        q.Fronts x next t := by
    obtain ⟨t', next, ⟨ht', hsame⟩, hbehind, hfronts⟩ := exists_fronts_behind (q := q) (x := x)
      (t := t) (hu.trans ht.directory.symm) (by rw [ht.generator, hd])
    exact ⟨next, t', ⟨ht.trans ht', by omega⟩, hrun.trans hbehind, hfronts⟩
  have named {t : Session} {slug : String} (hn : ServiceCall.named? q.target = some slug) :
      (Procedure.userBySlug slug (q.call.found q.service q.caller slug)).run t =
        if t.left = 0 then (.ready (.userBySlug slug (q.call.found q.service q.caller slug)), t)
        else (q.behind t.directory).run { t with left := t.left - 1 } := by
    rw [Procedure.run_userBySlug, behind, hn]
  cases h with
  | named hn =>
    have hrun := named (t := s) hn
    split at hrun
    · exact Or.inl ⟨‹_›, _, s, .named hn, s.onlyReports_allow s.left, hrun⟩
    · exact Or.inr (onward (s.onlyReports_allow (s.left - 1)) (by dsimp only; omega) hrun)
  | whole =>
    cases hn : ServiceCall.named? q.target with
    | none =>
      refine Or.inr (onward (s.onlyReports_allow s.left) (Nat.le_succ s.left) ?_)
      rw [procedure, ServiceCall.procedure_eq, hn, behind, hn]
    | some slug =>
      have hnote := s.onlyReports_note (.resolvingTarget q.caller.id slug)
      have hrun : q.procedure.run s =
          (Procedure.userBySlug slug (q.call.found q.service q.caller slug)).run
            { s with vault := s.vault.note (.resolvingTarget q.caller.id slug) } := by
        rw [procedure, ServiceCall.procedure_eq, hn]
        rfl
      rw [named hn] at hrun
      split at hrun
      · exact Or.inl ⟨‹_›, _, _, .named hn, hnote, hrun⟩
      · exact Or.inr (onward (hnote.trans (Session.onlyReports_allow _ (s.left - 1)))
          (by dsimp only; omega) hrun)

/-! ### In the store -/

variable {request : Request} {material : KeyMaterial} {key : AccessKey}

/-- Key material is issued to somebody, on the table without the row that is to be revoked: it comes
to its end, or a stage of it fails. -/
theorem issue_cases (hm : x.material? = some material) (owner : UserId) :
    ([.insertPlan, .uniqueness, .commit].findSome? (q.setback? x) = none ∧
      (Request.create owner material).perform x.plan (q.cleared x) =
        (.ok (.issued ((q.cleared x).fresh owner material).credential),
          ⟨(q.cleared x).rows ++ [(q.cleared x).fresh owner material],
            ((q.cleared x).fresh owner material).id.value⟩)) ∨
    ∃ cause, [.insertPlan, .uniqueness, .commit].findSome? (q.setback? x) = some (.failure cause) ∧
      (Request.create owner material).perform x.plan (q.cleared x) =
        (.error cause, q.cleared x) := by
  rw [Request.perform_create]
  by_cases hp : x.plan.insert = true
  · refine Or.inr ⟨FailurePlan.failure "insert api key", ?_, ?_⟩
    · simp [setback?, hp]
    · simp [hp]
  · cases hk : (q.cleared x).hasKey material.key with
    | true =>
      refine Or.inr ⟨Table.taken, ?_, ?_⟩
      · simp [setback?, hp, hm, hk]
      · simp [hp, Table.insert, hk]
    | false =>
      refine Or.inl ⟨?_, ?_⟩
      · simp [setback?, hp, hm, hk]
      · simp [hp, Table.insert, hk, Table.fresh, Row.credential]

/-- The row of an owner and an access key is taken out, if there is one and that is not to fail. -/
theorem revoke_cases (ho : q.owner? x = some owner) (hk : q.call.key? = some key) :
    (∃ row, [.deletePlan, .matching].findSome? (q.setback? x) = none ∧ x.plan.delete = false ∧
      x.table.remove? owner key = some (row, q.cleared x)) ∨
    ∃ cause, [.deletePlan, .matching].findSome? (q.setback? x) = some (.failure cause) ∧
      ∀ next : Work Reply,
        (Work.revoke owner key next).perform x.plan x.table = (.error cause, x.table) := by
  by_cases hp : x.plan.delete = true
  · refine Or.inr ⟨FailurePlan.failure "delete api key", ?_, fun next => ?_⟩
    · simp [setback?, hp]
    · rw [Work.perform_revoke, if_pos hp]
  · cases hr : x.table.remove? owner key with
    | none =>
      refine Or.inr ⟨.credentialNotFound, ?_, fun next => ?_⟩
      · simp [setback?, hp, ho, hk, hr]
      · rw [Work.perform_revoke, if_neg hp, hr]
    | some found =>
      obtain ⟨row, rest⟩ := found
      have hcleared : q.cleared x = rest := by simp [cleared, ho, hk, hr]
      refine Or.inl ⟨row, ?_, by simpa using hp, by rw [hcleared]⟩
      simp [setback?, hp, ho, hk, hr]

/-- **What a request comes to** is what the stages in the store come to, if there is time. -/
theorem perform_request (hf : q.call.front.findSome? (q.setback? x) = none)
    (hr : q.request? x = some request) (hlate : x.late = false) :
    (q.failing? x = none ∧
      request.perform x.plan x.table = (.ok (q.fruit x).1, (q.fruit x).2)) ∨
    ∃ cause, q.failing? x = some (.failure cause) ∧
      request.perform x.plan x.table = (.error cause, x.table) := by
  obtain ⟨service, caller, target, call⟩ := q
  obtain ⟨owner, ho, hr⟩ := Option.bind_eq_some_iff.mp hr
  have htable : setback? ⟨service, caller, target, call⟩ x .table = none := by
    simp [setback?, hlate]
  rw [failing?_of_back hf]
  cases call with
  | create =>
    obtain ⟨material, hm, rfl⟩ := Option.map_eq_some_iff.mp hr
    have hcleared : cleared ⟨service, caller, target, .create⟩ x = x.table := by
      simp [cleared, ServiceCall.key?, ServiceCall.keyText?]
    rw [ServiceCall.back, List.findSome?_cons, htable]
    rcases issue_cases (q := ⟨service, caller, target, .create⟩) hm owner with
      ⟨hs, hp⟩ | ⟨cause, hs, hp⟩
    · rw [hcleared] at hp
      exact Or.inl ⟨hs, by simp [hp, fruit, ho, hm, hcleared]⟩
    · rw [hcleared] at hp
      exact Or.inr ⟨cause, hs, hp⟩
  | list =>
    obtain rfl := Option.some.inj hr
    by_cases hp : x.plan.list = true
    · refine Or.inr ⟨FailurePlan.failure "list api keys", ?_, ?_⟩
      · simp [ServiceCall.back, setback?, hp]
      · simp [Request.perform, Request.work?, hp]
    · refine Or.inl ⟨?_, ?_⟩
      · simp [ServiceCall.back, setback?, hp, hlate]
      · simp [Request.perform, Request.work?, hp, fruit, ho]
  | delete text =>
    obtain ⟨key, hk, rfl⟩ := Option.map_eq_some_iff.mp hr
    have hback : ServiceCall.back (.delete text) =
        [.table] ++ ([.deletePlan, .matching] ++ [.commit]) := rfl
    rw [hback, List.findSome?_append, List.findSome?_singleton, htable, Option.none_or,
      List.findSome?_append]
    rcases revoke_cases (q := ⟨service, caller, target, .delete text⟩) ho hk with
      ⟨row, hs, hp, hrow⟩ | ⟨cause, hs, hp⟩
    · refine Or.inl ⟨by rw [hs]; rfl, ?_⟩
      rw [Request.perform_delete, hrow, hp]
      simp [fruit]
    · exact Or.inr ⟨cause, by rw [hs]; rfl, Request.perform_of_failing rfl (hp _)⟩
  | rotate text =>
    obtain ⟨key, hk, hr⟩ := Option.bind_eq_some_iff.mp hr
    obtain ⟨material, hm, rfl⟩ := Option.map_eq_some_iff.mp hr
    have hback : ServiceCall.back (.rotate text) =
        [.table] ++ ([.deletePlan, .matching] ++ [.insertPlan, .uniqueness, .commit]) := rfl
    rw [hback, List.findSome?_append, List.findSome?_singleton, htable, Option.none_or,
      List.findSome?_append]
    rcases revoke_cases (q := ⟨service, caller, target, .rotate text⟩) ho hk with
      ⟨row, hs, hp, hrow⟩ | ⟨cause, hs, hp⟩
    · rw [hs, Option.none_or, Request.perform_rotate, hrow, hp, if_neg Bool.false_ne_true]
      dsimp only
      rcases issue_cases (q := ⟨service, caller, target, .rotate text⟩) hm owner with
        ⟨hs', hp'⟩ | ⟨cause, hs', hp'⟩
      · exact Or.inl ⟨hs', by rw [hp']; simp [fruit, ho, hm]⟩
      · exact Or.inr ⟨cause, hs', by rw [hp']⟩
    · exact Or.inr ⟨cause, by rw [hs]; rfl, Request.perform_of_failing rfl (hp _)⟩

/-- The request of an operation is brisk, takes little of an allowance, has the name of the
operation, and is a list if that is one. -/
theorem request_of_request? (hr : q.request? x = some request) :
    request.IsBrisk ∧ (∀ work, request.work? = some work → work.IsWithin 2) ∧
      request.operation = q.call.operation ∧
        ((∃ owner, request = .list owner) ↔ q.call = .list) := by
  obtain ⟨service, caller, target, call⟩ := q
  obtain ⟨owner, -, hr⟩ := Option.bind_eq_some_iff.mp hr
  have issues (owner : UserId) (material : KeyMaterial) :
      (Work.issue owner material).IsWithin 1 := ⟨Nat.one_pos, fun _ => trivial⟩
  have revokes (key : AccessKey) {next : Work Reply} (h : next.IsWithin 1) :
      (Work.revoke owner key next).IsWithin 2 := by
    refine ⟨Nat.two_pos, ?_⟩
    rintro (_ | _)
    · exact trivial
    · exact h
  cases call with
  | create =>
    obtain ⟨material, -, rfl⟩ := Option.map_eq_some_iff.mp hr
    refine ⟨⟨by simp, ?_⟩, ?_, rfl, by simp⟩
    · rintro work ⟨rfl⟩
      exact Work.isBrisk_issue owner material
    · rintro work ⟨rfl⟩
      exact (issues owner material).mono (Nat.le_succ 1)
  | list =>
    obtain rfl := Option.some.inj hr
    exact ⟨⟨by simp, by simp [Request.work?]⟩, by simp [Request.work?], rfl, by simp⟩
  | delete text =>
    obtain ⟨key, -, rfl⟩ := Option.map_eq_some_iff.mp hr
    refine ⟨⟨by simp, ?_⟩, ?_, rfl, by simp⟩
    · rintro work ⟨rfl⟩
      exact Work.isBrisk_revoke owner key trivial
    · rintro work ⟨rfl⟩
      exact revokes key trivial
  | rotate text =>
    obtain ⟨key, -, hr⟩ := Option.bind_eq_some_iff.mp hr
    obtain ⟨material, -, rfl⟩ := Option.map_eq_some_iff.mp hr
    refine ⟨⟨by simp, ?_⟩, ?_, rfl, by simp⟩
    · rintro work ⟨rfl⟩
      exact Work.isBrisk_revoke owner key (Work.isBrisk_issue owner material)
    · rintro work ⟨rfl⟩
      exact revokes key (issues owner material)

/-- An operation that runs out of time is cancelled, unless it is a list that is to fail. -/
theorem failing?_of_late (hf : q.call.front.findSome? (q.setback? x) = none) (hlate : x.late = true)
    (hl : q.call = .list → x.plan.list = false) :
    q.failing? x = some (.failure (.cancelled q.call.operation)) := by
  obtain ⟨service, caller, target, call⟩ := q
  rw [failing?_of_back hf]
  cases call with
  | list =>
    have hp := hl rfl
    simp [ServiceCall.back, setback?, hp, hlate]
  | _ => simp [ServiceCall.back, setback?, hlate]

/-! ### Which stages take place -/

/-- What is decided in front of the store does not depend on what there is in it. -/
theorem findSome?_front (table : Table) (late : Bool) :
    q.call.front.findSome? (q.setback? { x with table := table, late := late }) =
      q.call.front.findSome? (q.setback? x) := by
  obtain ⟨service, caller, target, call⟩ := q
  cases call <;> rfl

theorem ranOf_front (table : Table) (late : Bool) :
    q.ranOf { x with table := table, late := late } q.call.front = q.ranOf x q.call.front := by
  obtain ⟨service, caller, target, call⟩ := q
  cases call <;> rfl

/-- **Where the stages in front of the store pass**, the store is asked, and the table is waited for
unless it is a list that is to fail. -/
theorem mem_ran_of_passed (hf : q.call.front.findSome? (q.setback? x) = none) :
    (.listPlan ∈ q.ran x ↔ q.call = .list) ∧
      (.table ∈ q.ran x ↔ ¬(q.call = .list ∧ x.plan.list = true)) := by
  rw [ran, ServiceCall.stages, ranOf_append hf]
  cases hc : q.call with
  | list =>
    cases hp : x.plan.list <;> simp [ServiceCall.front, ServiceCall.back, ranOf, setback?, hp]
  | create | delete text | rotate text =>
    have hno : .listPlan ∉ q.ranOf x q.call.back := fun hmem => by
      have hback := ranOf_subset _ hmem
      simp [hc, ServiceCall.back] at hback
    rw [hc] at hno
    refine ⟨by simp [ServiceCall.front, hno], ?_⟩
    rw [ServiceCall.back, ranOf]
    simp

/-- **Where one of them fails**, neither takes place. -/
theorem mem_ran_of_failed {setback : Setback}
    (hf : q.call.front.findSome? (q.setback? x) = some setback) :
    .listPlan ∉ q.ran x ∧ .table ∉ q.ran x := by
  rw [ran, ServiceCall.stages, ranOf_append_of_some hf]
  constructor <;> intro hmem <;> have hfront := ranOf_subset _ hmem <;>
    cases hc : q.call <;> simp [hc, ServiceCall.front] at hfront

/-- **What takes place in front of the store** does not depend on what there is in it, nor does it
depend on that whether the store is asked and the table is waited for. -/
theorem ran_of_store (table : Table) (late : Bool) :
    q.spent { x with table := table, late := late } g = q.spent x g ∧
      (.listPlan ∈ q.ran { x with table := table, late := late } ↔ .listPlan ∈ q.ran x) ∧
        (.table ∈ q.ran { x with table := table, late := late } ↔ .table ∈ q.ran x) := by
  have hf := findSome?_front (q := q) (x := x) table late
  cases h : q.call.front.findSome? (q.setback? x) with
  | none =>
    rw [h] at hf
    obtain ⟨hlist, htable⟩ := mem_ran_of_passed h
    obtain ⟨hlist', htable'⟩ := mem_ran_of_passed hf
    refine ⟨?_, hlist'.trans hlist.symm, htable'.trans htable.symm⟩
    rw [spent_of_passed h, spent_of_passed hf]
  | some setback =>
    rw [h] at hf
    obtain ⟨hlist, htable⟩ := mem_ran_of_failed h
    obtain ⟨hlist', htable'⟩ := mem_ran_of_failed hf
    refine ⟨?_, iff_of_false hlist' hlist, iff_of_false htable' htable⟩
    rw [spent_of_failed h, spent_of_failed hf, ranOf_front]

end Demand

end KeyLifecycle
