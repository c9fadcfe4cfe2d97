import KeyLifecycle.Proofs.Session.Solo
import KeyLifecycle.Proofs.Store.Task

/-!
# A procedure that makes one request

Every operation of a store, and every call of a service, makes one request at most, after it has
reported, looked slugs up and drawn key material (`Procedure.Seeks`). While it is the only one that
has a turn, there are two outcomes, and `KeyLifecycle.Session.perform_seeks` says which: it has been
answered `ok`, and then the table is what the request makes of it where nothing is to fail; or
anything else has become of it – a failure, a breakdown, the end of its time or of patience – and
then the table is what it was.

`Vault.Pursues` is what one deed of the call keeps of this, and `Session.Pursues` what a turn of the
procedure does.
-/

namespace KeyLifecycle

/-! ### A call, while nobody else does anything -/

namespace Vault

variable {v w : Vault} {i : Nat} {call : Call} {e : Effect} {request : Request} {t : Table}

/-- **How far a call has come**, which began when there was some table: it has been answered `ok`
and the table is what it was granted, or the table is still the same. -/
structure Pursues (request : Request) (t : Table) (i : Nat) (v : Vault) : Prop where
  orderly : v.Orderly fun _ => True
  plain : request.IsPlain
  call : ∃ call, v.calls[i]? = some call ∧ call.request = request ∧
    (∀ reply, call.phase = .answered (.ok reply) →
      request.Grants (fun _ => True) t reply v.table) ∧
    ((∀ reply, call.phase ≠ .answered (.ok reply)) → v.table = t)

/-- The call has just been started. -/
theorem pursues_start (hv : v.Orderly fun _ => True) (hr : request.IsPlain) (limit : Option Span) :
    (v.start request limit).Pursues request v.table v.calls.length where
  orderly := hv.start request limit
  plain := hr
  call := by
    refine ⟨⟨request, v.now, limit, request.firstPhase⟩, ?_, rfl, ?_, fun _ => rfl⟩
    · rw [start, List.getElem?_concat_length]
    · exact fun reply h => absurd h (firstPhase_ne_answered request _)

/-- **A deed of the call** grants it its answer, or leaves the table alone. -/
theorem Pursues.amend (h : v.Pursues request t i) (hc : v.calls[i]? = some call)
    (hd : v.Deed i call e) : (v.amend i e).Pursues request t i := by
  obtain ⟨call', hc', rfl, -, ht⟩ := h.call
  obtain rfl := Option.some.inj (hc.symm.trans hc')
  -- the call was on its way, so it has changed nothing so far
  have hlive := hd.isLive
  have htable : v.table = t := by
    refine ht fun reply hp => ?_
    simp [Call.isLive, hp] at hlive
  refine ⟨h.orderly.amend hc hd, h.plain, _, amend_calls_self hc e, rfl, ?_⟩
  rcases hd.grants h.orderly hc h.plain with ⟨reply, hp, hg⟩ | ⟨hno, he⟩
  · refine ⟨fun reply' hp' => ?_, fun hno => absurd hp (hno reply)⟩
    obtain rfl := Except.ok.inj (Phase.answered.inj (hp.symm.trans hp'))
    rw [← htable]
    exact hg
  · exact ⟨fun reply hp => absurd hp (hno reply), fun _ => he.trans htable⟩

/-- **While nobody else does anything**, the call comes on its way. -/
theorem Pursues.follows (h : v.Pursues request t i) (hw : v.Follows i w) :
    w.Pursues request t i := by
  obtain ⟨moves, rfl, hm⟩ := hw
  induction moves generalizing v with
  | nil => exact h
  | cons m moves ih =>
    refine ih ?_ fun m' hm' => hm m' (List.mem_cons_of_mem m hm')
    obtain ⟨call, hc, -⟩ := h.call
    rcases move_eq_or_deed (hm m List.mem_cons_self) hc with he | ⟨e, he, hd⟩
    · rwa [he]
    · rw [he]
      exact h.amend hc hd

/-- Time may pass. -/
theorem Pursues.advance (h : v.Pursues request t i) (moment : Nat) :
    (v.advance moment).Pursues request t i := by
  rw [Vault.advance]
  split
  · have ho : (v.run [.clock moment]).Orderly fun _ => True := h.orderly.run fun _ _ => trivial
    exact ⟨ho, h.plain, h.call⟩
  · exact h

/-- **The answer of the call**, if it has one, and the table. -/
theorem Pursues.answer (h : v.Pursues request t i) :
    (∃ reply, v.answer? i = some (.ok reply) ∧ request.Grants (fun _ => True) t reply v.table) ∨
      ((∀ reply, v.answer? i ≠ some (.ok reply)) ∧ v.table = t) := by
  obtain ⟨call, hc, rfl, hg, ht⟩ := h.call
  have ha (reply : Reply) : v.answer? i = some (.ok reply) ↔ call.phase = .answered (.ok reply) :=
    h.orderly.answer?_eq_some hc h.plain.1
  by_cases hp : ∃ reply, call.phase = .answered (.ok reply)
  · obtain ⟨reply, hp⟩ := hp
    exact Or.inl ⟨reply, (ha reply).mpr hp, hg reply hp⟩
  · rw [not_exists] at hp
    exact Or.inr ⟨fun reply hr => hp reply ((ha reply).mp hr), ht hp⟩

/-- To interrupt a call leaves the table alone. -/
theorem table_interrupt (v : Vault) (i : Nat) : (v.interrupt i).table = v.table := by
  have hdrop : (v.drop i).table = v.table := by
    rw [drop]
    split
    · rfl
    · split <;> rfl
  rw [interrupt]
  split
  · rfl
  · split
    · rfl
    · rfl
    · exact hdrop

theorem table_advance (v : Vault) (moment : Nat) : (v.advance moment).table = v.table := by
  rw [advance]
  split <;> rfl

theorem answer?_advance (v : Vault) (moment i : Nat) :
    (v.advance moment).answer? i = v.answer? i := by
  rw [advance]
  split <;> rfl

theorem Orderly.advance (h : v.Orderly fun _ => True) (moment : Nat) :
    (v.advance moment).Orderly fun _ => True := by
  obtain ⟨moves, hm⟩ := Session.exists_run_advance v moment
  rw [hm]
  exact h.run fun _ _ => trivial

end Vault

/-! ### A procedure, turn by turn -/

/-- **A procedure that makes one request at most**, of some kind, where certain users are known. -/
inductive Procedure.Seeks (kind : Request → Prop) (users : Directory) :
    Procedure (Except Failure Reply) → Prop
  | fail (cause : Failure) : Seeks kind users (.done (.error cause))
  | report (event : Event) {next : Procedure (Except Failure Reply)} (h : Seeks kind users next) :
    Seeks kind users (.report event next)
  | userBySlug (slug : String)
      {next : Except Failure (Option User) → Procedure (Except Failure Reply)}
      (h : Seeks kind users (next (.ok (users.bySlug slug)))) :
    Seeks kind users (.userBySlug slug next)
  | generate {next : Except Failure KeyMaterial → Procedure (Except Failure Reply)}
      (h : ∀ answer, Seeks kind users (next answer)) : Seeks kind users (.generate next)
  | ask {request : Request} (h : kind request) (limit : Option Span) :
    Seeks kind users (.ask request limit .done)

namespace Session

/-- **How far a procedure has come** that makes one request at most, since there was some table. -/
inductive Pursues (kind : Request → Prop) (users : Directory) (t : Table) :
    Progress (Except Failure Reply) → Session → Prop
  | ready {rest : Procedure (Except Failure Reply)} {s : Session} (hd : s.directory = users)
      (hv : s.vault.Orderly fun _ => True) (ht : s.vault.table = t) (h : rest.Seeks kind users) :
    Pursues kind users t (.ready rest) s
  | pending {i : Nat} {s : Session} {request : Request} (hd : s.directory = users)
      (hk : kind request) (h : s.vault.Pursues request t i) (ha : s.vault.answer? i = none) :
    Pursues kind users t (.pending i .done) s
  | granted {reply : Reply} {s : Session} {request : Request} (hd : s.directory = users)
      (hv : s.vault.Orderly fun _ => True) (hk : kind request)
      (hg : request.Grants (fun _ => True) t reply s.vault.table) :
    Pursues kind users t (.finished (.ok reply)) s
  | idle {p : Progress (Except Failure Reply)} {s : Session} (hd : s.directory = users)
      (hv : s.vault.Orderly fun _ => True) (ht : s.vault.table = t)
      (hp : p.isUnfinished = false) (hno : ∀ reply, p ≠ .finished (.ok reply)) :
    Pursues kind users t p s

variable {kind : Request → Prop} {users : Directory} {t : Table} {s : Session} {i : Nat}
  {request : Request} {p : Progress (Except Failure Reply)}
  {procedure : Procedure (Except Failure Reply)}

/-- **Whoever waits for the request** comes to its answer once there is one. -/
theorem pursues_awaiting (hd : s.directory = users) (hk : kind request)
    (h : s.vault.Pursues request t i) :
    Pursues kind users t (.awaiting s.vault i) s := by
  rw [Progress.awaiting]
  rcases h.answer with ⟨reply, ha, hg⟩ | ⟨hno, ht⟩
  · rw [ha]
    exact .granted hd h.orderly hk hg
  · rcases ha : s.vault.answer? i with _ | cause | reply
    · exact .pending hd hk h ha
    · exact .idle hd h.orderly ht rfl (by simp)
    · exact absurd ha (hno reply)

/-- **The first turn.** -/
theorem pursues_run (hk : ∀ request, kind request → request.IsPlain)
    (h : procedure.Seeks kind users) (hd : s.directory = users)
    (hv : s.vault.Orderly fun _ => True) :
    Pursues kind users s.vault.table (procedure.run s).1 (procedure.run s).2 := by
  induction h generalizing s with
  | fail cause =>
    rw [Procedure.run]
    exact .idle hd hv rfl rfl (by simp)
  | report event h ih =>
    have hv' : (s.vault.run [.report [event]]).Orderly fun _ => True := hv.run fun _ _ => trivial
    rw [Procedure.run]
    exact ih (s := { s with vault := s.vault.note event }) hd hv'
  | userBySlug slug h ih =>
    rw [Procedure.run_userBySlug]
    split
    · exact .ready hd hv rfl (.userBySlug slug h)
    · have hs := ih (s := { s with left := s.left - 1 }) hd hv
      rwa [← hd] at hs ⊢
  | @generate next h ih =>
    rw [Procedure.run]
    rcases s.generator.generate with ⟨material | cause | _, g⟩
    · exact ih _ (s := { s with generator := g }) hd hv
    · exact ih _ (s := { s with generator := g }) hd hv
    · exact .idle hd hv rfl rfl (by simp)
  | @ask request hr limit =>
    obtain ⟨turn, left, hturn, hrun⟩ := Procedure.run_ask request limit s
    rw [hrun]
    have hstart := Vault.pursues_start hv (hk request hr) limit
    exact pursues_awaiting
      (s := { s with vault := (s.vault.start request limit).run turn, left := left }) hd hr
      (hstart.follows ⟨turn, rfl, hturn⟩)

/-- **A turn.** -/
theorem Pursues.poll (hk : ∀ request, kind request → request.IsPlain)
    (h : Pursues kind users t p s) : Pursues kind users t (p.poll s).1 (p.poll s).2 := by
  cases h with
  | ready hd hv ht h =>
    subst ht
    exact pursues_run hk h hd hv
  | @pending i _ request hd hr h ha =>
    rw [Progress.poll_pending]
    exact pursues_awaiting (s := s.poll i) hd hr (h.follows (Vault.follows_poll s.vault i s.left))
  | granted hd hv hr hg => exact .granted hd hv hr hg
  | idle hd hv ht hp hno =>
    cases p with
    | ready | pending => simp [Progress.isUnfinished] at hp
    | _ => exact .idle hd hv ht hp hno

/-- The end of patience: a call that has not been answered is dropped, and has done nothing. -/
theorem Pursues.giveUp (h : Pursues kind users t p s) :
    Pursues kind users t (p.giveUp s).1 (p.giveUp s).2 := by
  cases h with
  | ready hd hv ht h => exact .idle hd hv ht rfl (by nofun)
  | @pending i _ request hd hr h ha =>
    have hv := (h.follows (Vault.follows_refl i s.vault).interrupt).orderly
    refine .idle hd hv ?_ rfl (by nofun)
    rcases h.answer with ⟨reply, ha', -⟩ | ⟨-, ht⟩
    · simp [ha] at ha'
    · exact (Vault.table_interrupt s.vault i).trans ht
  | granted hd hv hr hg => exact .granted hd hv hr hg
  | idle hd hv ht hp hno =>
    cases p with
    | ready | pending => simp [Progress.isUnfinished] at hp
    | _ => exact .idle hd hv ht hp hno

/-- The passing of time. -/
theorem Pursues.advance (h : Pursues kind users t p s) (moment : Nat) :
    Pursues kind users t p { s with vault := s.vault.advance moment } := by
  have htable := Vault.table_advance s.vault moment
  cases h with
  | ready hd hv ht h => exact .ready hd (hv.advance moment) (htable.trans ht) h
  | pending hd hr h ha =>
    exact .pending hd hr (h.advance moment) ((Vault.answer?_advance s.vault moment _).trans ha)
  | granted hd hv hr hg =>
    refine .granted hd (hv.advance moment) hr ?_
    rwa [htable]
  | idle hd hv ht hp hno => exact .idle hd (hv.advance moment) (htable.trans ht) hp hno

/-- A new allowance. -/
theorem Pursues.allow (h : Pursues kind users t p s) (left : Nat) :
    Pursues kind users t p { s with left := left } := by
  cases h with
  | ready hd hv ht h => exact .ready hd hv ht h
  | pending hd hr h ha => exact .pending hd hr h ha
  | granted hd hv hr hg => exact .granted hd hv hr hg
  | idle hd hv ht hp hno => exact .idle hd hv ht hp hno

/-- **Whatever becomes of a procedure that makes one request at most**: it has been answered `ok`,
and the table is what a request of that kind makes of it where nothing is to fail; or it has not,
and the table is what it was. -/
theorem perform_seeks (hk : ∀ request, kind request → request.IsPlain)
    (h : procedure.Seeks kind s.directory) (hv : s.vault.Orderly fun _ => True)
    (patience : Span) :
    let p := (s.perform procedure patience).1
    let s' := (s.perform procedure patience).2
    s'.directory = s.directory ∧ (s'.vault.Orderly fun _ => True) ∧
      ((∃ reply request, p = .finished (.ok reply) ∧ kind request ∧
          request.perform {} s.vault.table = (.ok reply, s'.vault.table)) ∨
        ((∀ reply, p ≠ .finished (.ok reply)) ∧ s'.vault.table = s.vault.table)) := by
  intro p s'
  have hp : Pursues kind s.directory s.vault.table p s' :=
    perform_induction (P := Pursues kind s.directory s.vault.table) (fun _ _ hp => hp.poll hk)
      (fun _ _ hp => hp.giveUp) (fun _ _ left hp => hp.allow left)
      (fun _ _ moment hp => hp.advance moment) (.ready rfl hv rfl h) patience
  generalize p = p, s' = s' at hp
  cases hp with
  | ready hd hv ht h => exact ⟨hd, hv, Or.inr ⟨by nofun, ht⟩⟩
  | pending hd hr h ha =>
    refine ⟨hd, h.orderly, Or.inr ⟨by nofun, ?_⟩⟩
    rcases h.answer with ⟨reply, ha', -⟩ | ⟨-, ht⟩
    · simp [ha] at ha'
    · exact ht
  | granted hd hv hr hg => exact ⟨hd, hv, Or.inl ⟨_, _, rfl, hr, hg.perform_eq⟩⟩
  | idle hd hv ht hp hno => exact ⟨hd, hv, Or.inr ⟨hno, ht⟩⟩

end Session

/-! ### Tasks and calls of a service -/

namespace Procedure

variable {kind kind' : Request → Prop} {users : Directory}

theorem Seeks.mono {procedure : Procedure (Except Failure Reply)} (h : procedure.Seeks kind users)
    (hk : ∀ request, kind request → kind' request) : procedure.Seeks kind' users := by
  induction h with
  | fail cause => exact .fail cause
  | report event _ ih => exact .report event ih
  | userBySlug slug _ ih => exact .userBySlug slug ih
  | generate _ ih => exact .generate ih
  | ask hr limit => exact .ask (hk _ hr) limit

theorem seeks_drawing {request : KeyMaterial → Request} (h : ∀ material, kind (request material))
    (limit : Option Span) : (drawing request limit).Seeks kind users := by
  refine .generate fun answer => ?_
  cases answer with
  | error cause => exact .fail cause
  | ok material => exact .ask (h material) limit

end Procedure

namespace StoreTask

/-- The requests that a task may come to. -/
def Makes (task : StoreTask) (request : Request) : Prop :=
  ∃ material, request = task.request material

theorem Makes.isPlain {task : StoreTask} {request : Request} (h : task.Makes request) :
    request.IsPlain := by
  obtain ⟨material, rfl⟩ := h
  refine Request.isPlain_of_ne ?_ ?_
  · cases task <;> simp [StoreTask.request]
  · cases task <;> simp [StoreTask.request]

/-- **A task makes its request.** -/
theorem seeks (task : StoreTask) (store : Store) (users : Directory) :
    (task.procedure store).Seeks task.Makes users := by
  cases h : task.draws with
  | true =>
    rw [procedure_of_draws h]
    exact Procedure.seeks_drawing (fun material => ⟨material, rfl⟩) _
  | false =>
    -- the key material does not matter
    have hmaterial : KeyMaterial := ⟨⟨"k", by decide⟩, ⟨[]⟩⟩
    rw [procedure_of_not_draws h store hmaterial]
    exact .ask ⟨hmaterial, rfl⟩ _

end StoreTask

namespace ServiceCall

variable {users : Directory} {caller : Caller} {target : Option String}

theorem seeks_forOwner (call : ServiceCall) (store : Store) (owner : UserId) :
    (call.forOwner store owner).Seeks
      (fun request => ∃ task, call.taskFor? owner = some task ∧ task.Makes request) users := by
  -- a call with a task does what the store does
  have htask {task : StoreTask} (h : call.taskFor? owner = some task)
      (hp : call.forOwner store owner = task.procedure store) :
      (call.forOwner store owner).Seeks
        (fun request => ∃ task, call.taskFor? owner = some task ∧ task.Makes request) users := by
    rw [hp]
    exact (task.seeks store users).mono fun request hr => ⟨task, h, hr⟩
  cases call with
  | create => exact htask rfl (store.create_eq owner).symm
  | list => exact htask rfl rfl
  | delete text =>
    cases hk : AccessKey.ofText text with
    | error cause =>
      rw [forOwner, hk]
      exact .fail cause
    | ok key => exact htask (by rw [taskFor?, hk]; rfl) (by rw [forOwner, hk]; rfl)
  | rotate text =>
    cases hk : AccessKey.ofText text with
    | error cause =>
      rw [forOwner, hk]
      exact .fail cause
    | ok key =>
      refine htask (by rw [taskFor?, hk]; rfl) ?_
      rw [forOwner, hk]
      exact (store.rotate_eq owner key).symm

theorem seeks_judged (call : ServiceCall) (service : Service) (caller : Caller) (owner : UserId) :
    (call.judged service caller owner).Seeks
      (fun request => ∃ task, call.taskFor? owner = some task ∧ task.Makes request) users := by
  rw [judged]
  split
  · exact .report _ (call.seeks_forOwner service.store owner)
  · exact .report _ (.fail _)

/-- **A call of a service makes the request of its task**, whatever the policy is. -/
theorem seeks (call : ServiceCall) (service : Service) (caller : Caller) (target : Option String)
    (users : Directory) :
    (call.procedure service caller target).Seeks
      (fun request => ∃ task, call.task? users caller target = some task ∧ task.Makes request)
      users := by
  have howner {owner : UserId} (h : owner? users caller target = some owner) :
      call.task? users caller target = call.taskFor? owner := by
    rw [task?, h]
    rfl
  rw [procedure_eq]
  cases hn : named? target with
  | none =>
    rw [howner (by rw [owner?, hn])]
    exact call.seeks_judged service caller caller.id
  | some slug =>
    refine .report _ (.userBySlug slug ?_)
    cases hb : users.bySlug slug with
    | none => exact .report _ (.fail _)
    | some user =>
      have hu : owner? users caller target = some user.id := by
        rw [owner?, hn]
        simp [hb]
      rw [howner hu]
      exact call.seeks_judged service caller user.id

end ServiceCall

end KeyLifecycle
