import KeyLifecycle.Proofs.Service.Stages
import KeyLifecycle.Proofs.Session.Solo
import KeyLifecycle.Proofs.Vault.Ownership

/-!
# Nobody gets past the policy, and nobody is sent away without cause

The service under the policy `Policy.selfOrAdmin`. A `Petition` is one call with whoever makes it
and whom they name; `Petition.owner?` is who is meant, which depends on the users alone. Whether the
caller may is decided by then, and the two outcomes could not differ more:

* a call that names nobody, or somebody whom the caller may not act on, is refused at once, even
  while others hold the table (`KeyLifecycle.Petition.attend_of_found`);
* a call of somebody who may act reaches its last stage, and from there on the owner is served as
  `Vault.Attends` says; `Session.Minds` is what each turn keeps of this.

`KeyLifecycle.authorization_is_mediated` says both of every call, after any calls whatsoever.
-/

namespace KeyLifecycle

/-! ### What a generator may fail with -/

/-- A text that is no access key is invalid, and that is all. -/
theorem AccessKey.isAuthorization_of_ofText {text : String} {cause : Failure}
    (h : ofText text = .error cause) : cause.isAuthorization = false := by
  rw [ofText] at h
  split at h
  · simp at h
  · obtain rfl := Except.error.inj h
    rfl

namespace Generator

variable {g next : Generator} {cause : Failure}

/-- What has been written down for a generator to deliver; nothing has if it draws from a source. -/
def script : Generator → List (Except Failure KeyMaterial)
  | random _ => []
  | scripted items => items

theorem script_generate (g : Generator) : g.generate.2.script ⊆ g.script := by
  cases g with
  | random source => exact List.Subset.refl []
  | scripted items =>
    rcases items with _ | ⟨cause | material, rest⟩
    · exact List.Subset.refl []
    · exact List.subset_cons_self _ rest
    · exact List.subset_cons_self _ rest

/-- A source fails for want of random bytes, or because it has broken down. -/
theorem isAuthorization_of_ofSource {source : Source}
    (h : (ofSource source).1 = .failed cause) : cause.isAuthorization = false := by
  have hmaterial {access secret : List UInt8} (h : materialOf access secret = .failed cause) :
      cause.isAuthorization = false := by
    rw [materialOf] at h
    split at h
    · simp at h
    · rename_i he
      obtain rfl := Generated.failed.inj h
      exact AccessKey.isAuthorization_of_ofText he
  rw [ofSource] at h
  split at h
  · obtain rfl := Generated.failed.inj h
    rfl
  · split at h
    · simp at h
    · obtain rfl := Generated.failed.inj h
      rfl
    · split at h
      · simp at h
      · obtain rfl := Generated.failed.inj h
        rfl
      · exact hmaterial h

/-- **A generator does not judge**: it fails for want of a right only if that is what its script
says. -/
theorem mem_script_of_generate (h : g.generate = (.failed cause, next))
    (hc : cause.isAuthorization = true) : .error cause ∈ g.script := by
  cases g with
  | random source =>
    have hs : (ofSource source).1 = .failed cause := congrArg Prod.fst h
    rw [isAuthorization_of_ofSource hs] at hc
    exact absurd hc Bool.false_ne_true
  | scripted items =>
    rcases items with _ | ⟨cause' | material, rest⟩
    · obtain rfl := Generated.failed.inj (congrArg Prod.fst h)
      exact absurd hc Bool.false_ne_true
    · obtain rfl := Generated.failed.inj (congrArg Prod.fst h)
      exact List.mem_cons_self
    · exact absurd (congrArg Prod.fst h) (by simp [generate])

end Generator

/-! ### What a call of the service keeps, turn by turn -/

namespace Session

/-- **A session that goes on** from another one: with the same users, with a script that has become
shorter at most, and with its vault in order. -/
structure Continues (s₀ s : Session) : Prop where
  directory : s.directory = s₀.directory
  script : s.generator.script ⊆ s₀.generator.script
  orderly : s.vault.Orderly fun _ => True

/-- **A session that goes on with the same table.** -/
structure Spares (s₀ s : Session) : Prop extends s₀.Continues s where
  table : s.vault.table = s₀.vault.table

/-- **A call that minds an owner** leaves all users and the rows of all others as they were, answers
with nothing but what the owner may see, and never fails for want of a right, unless that is what it
got for key material. Until its last stage nothing has been done, and from then on it waits for
nothing but a request that is made for the owner. -/
structure Minds (u : UserId) (last : Procedure (Except Failure Reply)) (s₀ : Session)
    (p : Progress (Except Failure Reply)) (s : Session) : Prop where
  directory : s.directory = s₀.directory
  script : s.generator.script ⊆ s₀.generator.script
  others : s.vault.table.others u = s₀.vault.table.others u
  reply : ∀ reply, p = .finished (.ok reply) → reply.Discloses u s₀.vault.table
  cause : ∀ cause, p = .finished (.error cause) → cause.isAuthorization = true →
    .error cause ∈ s₀.generator.script
  ready : ∀ rest, p = .ready rest → last.IsLastOf s₀.directory rest ∧ s₀.Spares s
  pending : ∀ i next, p = .pending i next → next = .done ∧ s.vault.Attends u s₀.vault.table i

variable {u : UserId} {last : Procedure (Except Failure Reply)} {s₀ s t : Session}
  {p : Progress (Except Failure Reply)} {i : Nat}

/-- Reports do nothing for the caller. -/
theorem Spares.onlyReports (h : s₀.Spares s) (ht : s.OnlyReports t) : s₀.Spares t := by
  obtain ⟨hd, hg, events, hv⟩ := ht
  refine ⟨⟨hd.trans h.directory, ?_, ?_⟩, ?_⟩
  · rw [hg]
    exact h.script
  · have ho : (s.vault.run [.report events]).Orderly fun _ => True :=
      h.orderly.run fun _ _ => trivial
    rwa [hv]
  · rw [hv]
    exact h.table

/-- What a call keeps that does not go on. -/
theorem minds_of_through (hd : s.directory = s₀.directory)
    (hs : s.generator.script ⊆ s₀.generator.script)
    (ho : s.vault.table.others u = s₀.vault.table.others u) (hp : p.isUnfinished = false)
    (hr : ∀ reply, p = .finished (.ok reply) → reply.Discloses u s₀.vault.table)
    (hc : ∀ cause, p = .finished (.error cause) → cause.isAuthorization = true →
      .error cause ∈ s₀.generator.script) : s₀.Minds u last p s where
  directory := hd
  script := hs
  others := ho
  reply := hr
  cause := hc
  ready := by
    rintro rest rfl
    simp [Progress.isUnfinished] at hp
  pending := by
    rintro i next rfl
    simp [Progress.isUnfinished] at hp

/-- A call on the way to its last stage. -/
theorem Spares.minds_of_ready {rest : Procedure (Except Failure Reply)} (h : s₀.Spares s)
    (hl : last.IsLastOf s₀.directory rest) : s₀.Minds u last (.ready rest) s where
  directory := h.directory
  script := h.script
  others := by rw [h.table]
  reply := by simp
  cause := by simp
  ready := by
    rintro _ ⟨rfl⟩
    exact ⟨hl, h⟩
  pending := by simp

/-- A call that has come to its end without having done anything. -/
theorem Spares.minds_of_error {cause : Failure} (h : s₀.Spares s)
    (hc : cause.isAuthorization = true → .error cause ∈ s₀.generator.script) :
    s₀.Minds u last (.finished (.error cause)) s := by
  refine minds_of_through h.directory h.script (by rw [h.table]) rfl (by simp) ?_
  rintro _ ⟨rfl⟩
  exact hc

/-- **A call that waits for a request of the owner** minds the owner, answered or not. -/
theorem minds_awaiting (hd : s.directory = s₀.directory)
    (hs : s.generator.script ⊆ s₀.generator.script)
    (h : s.vault.Attends u s₀.vault.table i) :
    s₀.Minds u last (.awaiting s.vault i) s := by
  rw [Progress.awaiting]
  split
  · rename_i answer ha
    obtain ⟨hok, herr⟩ := h.answer ha
    refine minds_of_through hd hs h.others rfl ?_ ?_
    · rintro reply ⟨rfl⟩
      exact hok reply rfl
    · rintro cause ⟨rfl⟩ hc
      rw [herr cause rfl] at hc
      exact absurd hc Bool.false_ne_true
  · refine ⟨hd, hs, h.others, by simp, by simp, by simp, ?_⟩
    rintro j next ⟨⟩
    exact ⟨rfl, h⟩

/-- The last stage makes a request for the owner. -/
theorem Spares.minds_ask (h : s₀.Spares s) {request : Request} (hu : request.IsOf u)
    (limit : Option Span) :
    s₀.Minds u last ((Procedure.ask request limit .done).run s).1
      ((Procedure.ask request limit .done).run s).2 := by
  obtain ⟨turn, left, hturn, hrun⟩ := Procedure.run_ask request limit s
  rw [hrun]
  have hattends : (s.vault.start request limit).Attends u s₀.vault.table s.vault.calls.length := by
    rw [← h.table]
    exact Vault.attends_start h.orderly hu limit
  have hfollows := hattends.follows ⟨turn, rfl, hturn⟩
  exact minds_awaiting
    (s := { s with vault := (s.vault.start request limit).run turn, left := left })
    h.directory h.script hfollows

/-- The last stage draws key material and makes a request for the owner with it. -/
theorem Spares.minds_drawing (h : s₀.Spares s) {request : KeyMaterial → Request}
    (hu : ∀ material, (request material).IsOf u) (limit : Option Span) :
    s₀.Minds u last ((Procedure.drawing request limit).run s).1
      ((Procedure.drawing request limit).run s).2 := by
  have hnext : s₀.Spares { s with generator := s.generator.generate.2 } :=
    ⟨⟨h.directory, List.Subset.trans (Generator.script_generate s.generator) h.script, h.orderly⟩,
      h.table⟩
  rcases hg : s.generator.generate with ⟨material | cause | _, next⟩
  · rw [Procedure.run_drawing_of_material hg]
    rw [hg] at hnext
    exact hnext.minds_ask (hu material) limit
  · rw [Procedure.run_drawing_of_failed hg]
    rw [hg] at hnext
    exact hnext.minds_of_error fun hc => h.script (Generator.mem_script_of_generate hg hc)
  · rw [Procedure.run_drawing_of_breakdown hg]
    rw [hg] at hnext
    exact minds_of_through hnext.directory hnext.script (by rw [hnext.table]) rfl (by simp)
      (by simp)

/-- **The last stage of every call minds the owner.** -/
theorem Spares.minds_forOwner (h : s₀.Spares s) (call : ServiceCall) (store : Store) (u : UserId) :
    s₀.Minds u last ((call.forOwner store u).run s).1 ((call.forOwner store u).run s).2 := by
  have hinvalid {key : String} {cause : Failure} (he : AccessKey.ofText key = .error cause) :
      s₀.Minds u last (.finished (.error cause)) s := by
    refine h.minds_of_error fun hc => ?_
    rw [AccessKey.isAuthorization_of_ofText he] at hc
    exact absurd hc Bool.false_ne_true
  cases call with
  | create => exact h.minds_drawing .create _
  | list => exact h.minds_ask .list _
  | delete key =>
    rw [ServiceCall.forOwner]
    split
    · exact h.minds_ask (.delete _) _
    · rename_i he
      exact hinvalid he
  | rotate key =>
    rw [ServiceCall.forOwner]
    split
    · exact h.minds_drawing (.rotate _) _
    · rename_i he
      exact hinvalid he

/-- **One turn.** -/
theorem Minds.poll {call : ServiceCall} {store : Store}
    (h : s₀.Minds u (call.forOwner store u) p s) :
    s₀.Minds u (call.forOwner store u) (p.poll s).1 (p.poll s).2 := by
  cases p with
  | ready rest =>
    obtain ⟨hlast, hs⟩ := h.ready rest rfl
    obtain ⟨t, ht, hrun⟩ := hlast.run hs.directory
    rw [Progress.poll_ready]
    -- the turn ends in the last stage, or before it for want of an allowance
    rcases hrun with hrun | ⟨rest', hrun, hlast'⟩
    · rw [hrun]
      exact (hs.onlyReports ht).minds_forOwner call store u
    · rw [hrun]
      exact (hs.onlyReports ht).minds_of_ready hlast'
  | pending i next =>
    obtain ⟨rfl, hattends⟩ := h.pending i next rfl
    have hpoll : (Progress.pending i Procedure.done).poll s =
        (.awaiting (s.poll i).vault i, s.poll i) := by
      unfold Progress.poll Progress.awaiting
      dsimp only
      cases (s.poll i).vault.answer? i <;> rfl
    rw [hpoll]
    have hfollows := hattends.follows (Vault.follows_poll s.vault i s.left)
    exact minds_awaiting h.directory h.script hfollows
  | _ => exact h

/-- The end of patience. -/
theorem Minds.giveUp (h : s₀.Minds u last p s) : s₀.Minds u last (p.giveUp s).1 (p.giveUp s).2 := by
  cases p with
  | ready rest => exact minds_of_through h.directory h.script h.others rfl (by nofun) (by nofun)
  | pending i next =>
    -- the call is dropped, which is a move of its own
    obtain ⟨-, hattends⟩ := h.pending i next rfl
    have hdropped := hattends.follows (Vault.follows_refl i s.vault).interrupt
    exact minds_of_through h.directory h.script hdropped.others rfl (by nofun) (by nofun)
  | _ => exact h

/-- The passing of time. -/
theorem Minds.advance (h : s₀.Minds u last p s) (moment : Nat) :
    s₀.Minds u last p { s with vault := s.vault.advance moment } := by
  have htable : (s.vault.advance moment).table = s.vault.table := by
    rw [Vault.advance]
    split <;> rfl
  refine ⟨h.directory, h.script, ?_, h.reply, h.cause, fun rest hp => ?_, fun i next hp => ?_⟩
  · rw [htable]
    exact h.others
  · obtain ⟨hlast, hs⟩ := h.ready rest hp
    obtain ⟨moves, hm⟩ := exists_run_advance s.vault moment
    refine ⟨hlast, ⟨hs.directory, hs.script, ?_⟩, htable.trans hs.table⟩
    rw [hm]
    exact hs.orderly.run fun _ _ => trivial
  · obtain ⟨hn, hattends⟩ := h.pending i next hp
    exact ⟨hn, hattends.advance moment⟩

/-- **Whatever becomes of a call whose last stage is that of an owner**, it minds that owner. -/
theorem minds_perform {call : ServiceCall} {store : Store} {procedure : Procedure _}
    (hv : s.vault.Orderly fun _ => True)
    (h : (call.forOwner store u).IsLastOf s.directory procedure) (patience : Span) :
    s.Minds u (call.forOwner store u) (s.perform procedure patience).1
      (s.perform procedure patience).2 := by
  refine perform_induction (P := s.Minds u (call.forOwner store u)) (fun _ _ hp => hp.poll)
    (fun _ _ hp => hp.giveUp) ?_ (fun _ _ moment hp => hp.advance moment) ?_ patience
  · rintro p t left ⟨hd, hs, ho, hr, hc, hready, hpending⟩
    refine ⟨hd, hs, ho, hr, hc, fun rest hp => ?_, hpending⟩
    obtain ⟨hlast, ht⟩ := hready rest hp
    exact ⟨hlast, ht.onlyReports (t.onlyReports_allow left)⟩
  · have hs : s.Spares s := ⟨⟨rfl, List.Subset.refl _, hv⟩, rfl⟩
    exact hs.minds_of_ready h

end Session

/-! ### One call and many -/

/-- **A call of the service**: who makes it, whom they name, what they ask for, and how long they
wait. -/
structure Petition where
  caller : Caller
  target : Option String
  call : ServiceCall
  patience : Span

namespace Petition

/-- Who is meant: the caller, unless a slug is given, and then whoever has that slug. -/
def owner? (q : Petition) (users : Directory) : Option UserId :=
  match ServiceCall.named? q.target with
  | none => some q.caller.id
  | some slug => (users.bySlug slug).map (·.id)

/-- Whether the caller may act on somebody: on themselves, or as an administrator. -/
def Reaches (q : Petition) (u : UserId) : Prop := q.caller.id = u ∨ q.caller.isAdmin = true

/-- Makes the call. -/
def attend (q : Petition) (store : Store) (s : Session) :
    Progress (Except Failure Reply) × Session :=
  s.perform (q.call.procedure ⟨.selfOrAdmin, store⟩ q.caller q.target) q.patience

/-- What becomes of a session by some calls, one after the other. -/
def attendAll (store : Store) (history : List Petition) (s : Session) : Session :=
  history.foldl (fun s q => (q.attend store s).2) s

variable {q : Petition} {s : Session} {u : UserId} {slug : String} (store : Store)

/-- The reason that is given to whoever may not act. -/
def refusal (q : Petition) (u : UserId) : Failure :=
  .policyDenied q.call.action.name u (Refusal.notOwnerOrAdmin q.caller.id).message

theorem judged_of_reaches (h : q.Reaches u) :
    q.call.judged ⟨.selfOrAdmin, store⟩ q.caller u =
      .report (.policyAllowed q.caller.id u q.call.action) (q.call.forOwner store u) := by
  have hr : q.caller.id = u ∨ q.caller.isAdmin = true := h
  rw [ServiceCall.judged, Policy.require, Policy.refusal?, if_pos hr]

theorem judged_of_not_reaches (h : ¬q.Reaches u) :
    q.call.judged ⟨.selfOrAdmin, store⟩ q.caller u =
      .report (.policyDenied q.caller.id u q.call.action) (.done (.error (q.refusal u))) := by
  have hr : ¬(q.caller.id = u ∨ q.caller.isAdmin = true) := h
  rw [ServiceCall.judged, Policy.require, Policy.refusal?, if_neg hr]
  rfl

/-- **A call that is over with the look-up** is answered at once, and nothing comes of it but its
reports. -/
theorem attend_of_found {event : Event} {cause : Failure}
    (hn : ServiceCall.named? q.target = some slug)
    (hf : q.call.found ⟨.selfOrAdmin, store⟩ q.caller slug (.ok (s.directory.bySlug slug)) =
      .report event (.done (.error cause))) :
    s.OnlyReports (q.attend store s).2 ∧ (q.attend store s).1 = .finished (.error cause) := by
  have ha : ∃ t, s.OnlyReports t ∧ q.attend store s = (.finished (.error cause), t) := by
    rw [attend, ServiceCall.procedure_eq, hn]
    exact Session.perform_told hf q.patience
  obtain ⟨t, ht, ha⟩ := ha
  rw [ha]
  exact ⟨ht, rfl⟩

/-- **Nobody is found.** -/
theorem attend_of_unknown (ho : q.owner? s.directory = none) :
    s.OnlyReports (q.attend store s).2 ∧ ∃ slug, q.target = some slug ∧ slug ≠ "" ∧
      (q.attend store s).1 = .finished (.error (.targetNotFound slug)) := by
  rw [owner?] at ho
  split at ho
  · simp at ho
  · rename_i slug hn
    have hb := Option.map_eq_none_iff.mp ho
    have hf : q.call.found ⟨.selfOrAdmin, store⟩ q.caller slug (.ok (s.directory.bySlug slug)) =
        .report (.resolutionFailed q.caller.id q.call.action)
          (.done (.error (.targetNotFound slug))) := by
      rw [hb, ServiceCall.found]
    obtain ⟨hs, hp⟩ := attend_of_found store hn hf
    obtain ⟨htarget, hslug⟩ := ServiceCall.named?_eq_some.mp hn
    exact ⟨hs, slug, htarget, hslug, hp⟩

/-- **The caller may not act on whoever is found.** -/
theorem attend_of_not_reaches (ho : q.owner? s.directory = some u) (hu : ¬q.Reaches u) :
    s.OnlyReports (q.attend store s).2 ∧
      (q.attend store s).1 = .finished (.error (q.refusal u)) := by
  rw [owner?] at ho
  split at ho
  · -- everybody may act on themselves
    obtain rfl := Option.some.inj ho
    exact absurd (Or.inl rfl) hu
  · rename_i slug hn
    obtain ⟨user, hb, rfl⟩ := Option.map_eq_some_iff.mp ho
    have hf : q.call.found ⟨.selfOrAdmin, store⟩ q.caller slug (.ok (s.directory.bySlug slug)) =
        .report (.policyDenied q.caller.id user.id q.call.action)
          (.done (.error (q.refusal user.id))) := by
      rw [hb, ServiceCall.found, judged_of_not_reaches store hu]
    exact attend_of_found store hn hf

/-- The last stage of a call is that of the owner, if the caller may act. -/
theorem isLastOf_of_reaches {users : Directory} (ho : q.owner? users = some u) (hu : q.Reaches u) :
    (q.call.forOwner store u).IsLastOf users
      (q.call.procedure ⟨.selfOrAdmin, store⟩ q.caller q.target) := by
  rw [owner?] at ho
  rw [ServiceCall.procedure_eq]
  generalize ServiceCall.named? q.target = named at ho ⊢
  cases named with
  | none =>
    obtain rfl := Option.some.inj ho
    dsimp only
    rw [judged_of_reaches store hu]
    exact .report _ .here
  | some slug =>
    obtain ⟨user, hb, rfl⟩ := Option.map_eq_some_iff.mp ho
    refine .report _ (.userBySlug slug ?_)
    rw [hb, ServiceCall.found, judged_of_reaches store hu]
    exact .report _ .here

/-- **The caller may act**, so the call minds the owner. -/
theorem attend_minds (hv : s.vault.Orderly fun _ => True) (ho : q.owner? s.directory = some u)
    (hu : q.Reaches u) :
    s.Minds u (q.call.forOwner store u) (q.attend store s).1 (q.attend store s).2 :=
  Session.minds_perform hv (isLastOf_of_reaches store ho hu) q.patience

/-- **One call.** -/
theorem attend_continues {s₀ : Session} (h : s₀.Continues s) (q : Petition) :
    s₀.Continues (q.attend store s).2 := by
  have hv : (q.attend store s).2.vault.Orderly fun _ => True := by
    -- what the call asks for does not matter for that
    obtain ⟨moves, hm⟩ := s.exists_run_perform
      (q.call.procedure ⟨.selfOrAdmin, store⟩ q.caller q.target) q.patience
    rw [attend, hm]
    exact h.orderly.run fun _ _ => trivial
  have hquiet (hr : s.OnlyReports (q.attend store s).2) : s₀.Continues (q.attend store s).2 := by
    refine ⟨hr.directory.trans h.directory, ?_, hv⟩
    rw [hr.generator]
    exact h.script
  cases ho : q.owner? s.directory with
  | none => exact hquiet (attend_of_unknown store ho).1
  | some u =>
    by_cases hu : q.Reaches u
    · have hm := attend_minds store h.orderly ho hu
      exact ⟨hm.directory.trans h.directory, List.Subset.trans hm.script h.script, hv⟩
    · exact hquiet (attend_of_not_reaches store ho hu).1

/-- **Many calls.** -/
theorem attendAll_continues {s₀ : Session} (h : s₀.Continues s) (history : List Petition) :
    s₀.Continues (attendAll store history s) := by
  induction history generalizing s with
  | nil => exact h
  | cons q history ih => exact ih (attend_continues store h q)

end Petition

/-- **Authorization is completely mediated.** Some users, a generator, and a vault to which anything
may have happened; any calls of the service have been made, and then one more is made, with the
slug of nobody, of somebody whom the caller may act on, or of somebody else. In the first and the
last case it is answered at once, whoever holds the table, and nothing has changed but the reports.
In the other case the rows of everybody but the one who is meant stay as they are, what is answered
is theirs, and no answer is that a right is wanting – unless this was written down for the generator
to deliver, while a generator that draws from a source has no such script. -/
theorem authorization_is_mediated (store : Store) (users : Directory) (generator : Generator)
    (left : Nat) (trail : List Move) (history : List Petition) (q : Petition) :
    let s := Petition.attendAll store history ⟨users, generator, Vault.empty.run trail, left⟩
    let p := (q.attend store s).1
    let s' := (q.attend store s).2
    match q.owner? users with
    | none =>
      s.OnlyReports s' ∧ ∃ slug, q.target = some slug ∧ slug ≠ "" ∧
        p = .finished (.error (.targetNotFound slug))
    | some u =>
      (q.caller.id = u ∨ q.caller.isAdmin = true →
        s'.vault.table.others u = s.vault.table.others u ∧
        (∀ reply, p = .finished (.ok reply) → reply.Discloses u s.vault.table) ∧
        ∀ cause, p = .finished (.error cause) → cause.isAuthorization = true →
          .error cause ∈ generator.script) ∧
      (¬(q.caller.id = u ∨ q.caller.isAdmin = true) →
        s.OnlyReports s' ∧ ∃ reason,
          p = .finished (.error (.policyDenied q.call.action.name u reason))) := by
  intro s p s'
  have hs : Session.Continues ⟨users, generator, Vault.empty.run trail, left⟩ s :=
    Petition.attendAll_continues store
      ⟨rfl, List.Subset.refl _, Vault.orderly_empty.run fun _ _ => trivial⟩ history
  -- no call of the service adds a user
  have hd : s.directory = users := hs.directory
  split
  · rename_i ho
    rw [← hd] at ho
    exact Petition.attend_of_unknown store ho
  · rename_i u ho
    rw [← hd] at ho
    refine ⟨fun hu => ?_, fun hu => ?_⟩
    · have hm := Petition.attend_minds store hs.orderly ho hu
      exact ⟨hm.others, hm.reply, fun cause hp hc => hs.script (hm.cause cause hp hc)⟩
    · obtain ⟨hr, hp⟩ := Petition.attend_of_not_reaches store ho hu
      exact ⟨hr, _, hp⟩

end KeyLifecycle
