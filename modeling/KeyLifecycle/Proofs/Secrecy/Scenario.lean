import KeyLifecycle.Proofs.Secrecy.Session
import KeyLifecycle.Proofs.Service.Stages

/-!
# Secrets flow into the answer that issues them, and nowhere else

A scenario is a list of acts: a call of the service, of the store or of the table itself, several of
them side by side with or without somebody who holds the table, a transaction that is asked for one
step after another and dropped at any time, other failures to come, another source of key material.
What is to be seen of an act are the answers to its calls and the events that have been reported
meanwhile.

Let the same scenario be played twice, with sources of key material that deliver the same access
keys and fail at the same calls, but deliver other secrets, and with other secrets in the
transactions. Nothing that is to be seen differs, but for the secrets in the answers that issue
them (`KeyLifecycle.Session.secrets_flow_nowhere_else`).
-/

namespace KeyLifecycle

/-! ### What is asked, and what is to be seen -/

/-- Something that is asked of a session. -/
inductive Errand where
  | serve (service : Service) (caller : Caller) (target : Option String) (call : ServiceCall)
  | create (store : Store) (owner : UserId)
  | rotate (store : Store) (owner : UserId) (key : AccessKey)
  /-- Any other operation of a store, within its limit, or of the table, which knows of none. -/
  | ask (request : Request) (limit : Option Span)

/-- How an errand is done. -/
def Errand.procedure : Errand → Procedure (Except Failure Reply)
  | serve service caller target call => call.procedure service caller target
  | create store owner => store.create owner
  | rotate store owner key => store.rotate owner key
  | ask request limit => Operation.ask request limit

/-- What becomes of a session. -/
inductive Act where
  | perform (errand : Errand) (patience : Span)
  /-- Some errands side by side, while somebody holds the table for some time or nobody does. -/
  | together (errands : List Errand) (hold : Option Span) (patience : Span)
  /-- A transaction begins. -/
  | lease (patience : Span)
  /-- Something is done in a transaction. -/
  | resume (call : Nat) (work : Work Reply) (patience : Span)
  | drop (call : Nat)
  | setPlan (plan : FailurePlan)
  | setGenerator (generator : Generator)

/-- What is to be seen of an errand in the end. -/
inductive Seen where
  | answer (answer : Except Failure Reply)
  | crash
  | nothing

/-- The secrets are taken out of an answer. -/
def Seen.blind : Seen → Seen
  | answer a => answer (a.map Reply.blind)
  | crash => crash
  | nothing => nothing

/-- What is to be seen of how far an errand has come. -/
def Progress.seen : Progress (Except Failure Reply) → Seen
  | finished a => .answer a
  | crashed => .crash
  | _ => .nothing

/-- **Plays an act**: what is to be seen of its errands, and the session after it. -/
def Act.play : Act → Session → List Seen × Session
  | perform errand patience, s =>
    let (p, s) := s.perform errand.procedure patience
    ([p.seen], s)
  | together errands hold patience, s =>
    let (ps, s) := s.together (errands.map Errand.procedure) hold patience
    (ps.map Progress.seen, s)
  | lease patience, s =>
    let (call, s) := s.lease patience
    ([if call.isSome then .answer (.ok .done) else .nothing], s)
  | resume call work patience, s =>
    let (p, s) := s.resume call work patience
    ([p.seen], s)
  | drop call, s => ([], s.drop call)
  | setPlan plan, s => ([], { s with vault := s.vault.setPlan plan })
  | setGenerator generator, s => ([], { s with generator := generator })

/-- **Plays a scenario**: what is to be seen of each act, and the events reported in it. -/
def Session.play : List Act → Session → List (List Seen × List Event)
  | [], _ => []
  | act :: rest, s =>
    ((act.play s).1, (act.play s).2.vault.log.drop s.vault.log.length) :: play rest (act.play s).2

/-! ### What may differ -/

/-- Errands that differ at most in the secrets that they bring with them. -/
inductive Errand.Alike : Errand → Errand → Prop
  | serve (service : Service) (caller : Caller) (target : Option String) (call : ServiceCall) :
    Alike (.serve service caller target call) (.serve service caller target call)
  | create (store : Store) (owner : UserId) : Alike (.create store owner) (.create store owner)
  | rotate (store : Store) (owner : UserId) (key : AccessKey) :
    Alike (.rotate store owner key) (.rotate store owner key)
  | ask {r r' : Request} (h : r.Alike r') (limit : Option Span) :
    Alike (.ask r limit) (.ask r' limit)

/-- Acts that differ at most in the secrets that they bring with them. -/
inductive Act.Alike : Act → Act → Prop
  | perform {e e' : Errand} (h : e.Alike e') (patience : Span) :
    Alike (.perform e patience) (.perform e' patience)
  | together {es es' : List Errand} (h : List.Forall₂ Errand.Alike es es') (hold : Option Span)
      (patience : Span) : Alike (.together es hold patience) (.together es' hold patience)
  | lease (patience : Span) : Alike (.lease patience) (.lease patience)
  | resume (call : Nat) {work work' : Work Reply} (h : work.Alike work') (patience : Span) :
    Alike (.resume call work patience) (.resume call work' patience)
  | drop (call : Nat) : Alike (.drop call) (.drop call)
  | setPlan (plan : FailurePlan) : Alike (.setPlan plan) (.setPlan plan)
  | setGenerator {g g' : Generator} (h : g.Alike g') : Alike (.setGenerator g) (.setGenerator g')

/-! ### Errands -/

/-- An answer is handed on as it is. -/
theorem Procedure.alike_ask {r r' : Request} (hr : r.Alike r') (limit : Option Span) :
    (Procedure.ask r limit .done).Alike AnswersAlike (.ask r' limit .done) :=
  .ask hr limit fun _ _ ha => .done ha

/-- **Key material that is drawn goes into a request**, and nowhere else. -/
theorem Procedure.alike_drawing {request : KeyMaterial → Request}
    (hr : ∀ m m', m.blind = m'.blind → (request m).Alike (request m')) (limit : Option Span) :
    (drawing request limit).Alike AnswersAlike (drawing request limit) := by
  refine .generate fun a a' ha => ?_
  rcases Failure.eq_or_of_map_eq ha with ⟨cause, rfl, rfl⟩ | ⟨m, m', rfl, rfl, hm⟩
  · exact .done rfl
  · exact alike_ask (hr m m' hm) limit

namespace ServiceCall

theorem alike_forOwner (call : ServiceCall) (store : Store) (owner : UserId) :
    (call.forOwner store owner).Alike AnswersAlike (call.forOwner store owner) := by
  cases call with
  | create => exact Procedure.alike_drawing (fun _ _ hm => .create owner hm) _
  | list => exact Procedure.alike_ask (.list owner) _
  | delete key =>
    rw [forOwner]
    cases AccessKey.ofText key with
    | error cause => exact .done rfl
    | ok key => exact Procedure.alike_ask (.delete owner key) _
  | rotate key =>
    rw [forOwner]
    cases AccessKey.ofText key with
    | error cause => exact .done rfl
    | ok key => exact Procedure.alike_drawing (fun _ _ hm => .rotate owner key hm) _

theorem alike_judged (call : ServiceCall) (service : Service) (caller : Caller) (target : UserId) :
    (call.judged service caller target).Alike AnswersAlike (call.judged service caller target) := by
  rw [judged]
  cases service.policy.require caller target call.action with
  | error cause => exact .report _ (.done rfl)
  | ok _ => exact .report _ (call.alike_forOwner service.store target)

/-- **No stage of a service call looks at a secret.** -/
theorem alike_procedure (call : ServiceCall) (service : Service) (caller : Caller)
    (target : Option String) :
    (call.procedure service caller target).Alike AnswersAlike
      (call.procedure service caller target) := by
  rw [procedure_eq]
  cases named? target with
  | none => exact call.alike_judged service caller caller.id
  | some slug =>
    refine .report _ (.userBySlug slug fun answer => ?_)
    rcases answer with cause | _ | user
    · rw [found]
      split
      · exact .report _ (.done rfl)
      · exact .done rfl
    · exact .report _ (.done rfl)
    · exact call.alike_judged service caller user.id

end ServiceCall

theorem Errand.Alike.procedure {e e' : Errand} (h : e.Alike e') :
    e.procedure.Alike AnswersAlike e'.procedure := by
  cases h with
  | serve service caller target call => exact call.alike_procedure service caller target
  | create store owner =>
    rw [Errand.procedure, Store.create_eq]
    exact Procedure.alike_drawing (fun _ _ hm => .create owner hm) _
  | rotate store owner key =>
    rw [Errand.procedure, Store.rotate_eq]
    exact Procedure.alike_drawing (fun _ _ hm => .rotate owner key hm) _
  | ask hr limit => exact Procedure.alike_ask hr limit

/-! ### Scenarios -/

theorem Progress.Alike.seen {p q : Progress (Except Failure Reply)} (h : p.Alike AnswersAlike q) :
    p.seen.blind = q.seen.blind := by
  cases h with
  | finished ha => exact congrArg Seen.answer ha
  | _ => rfl

theorem Progress.Alike.map_seen {ps qs : List (Progress (Except Failure Reply))}
    (h : List.Forall₂ (Progress.Alike AnswersAlike) ps qs) :
    (ps.map Progress.seen).map Seen.blind = (qs.map Progress.seen).map Seen.blind := by
  induction h with
  | nil => rfl
  | cons hp _ ih => rw [List.map_cons, List.map_cons, List.map_cons, List.map_cons, hp.seen, ih]

/-- **One act**, played in two sessions that are alike, shows the same and leaves them alike. -/
theorem Act.Alike.play {a a' : Act} (ha : a.Alike a') {s s' : Session} (h : s.Alike s') :
    (a.play s).1.map Seen.blind = (a'.play s').1.map Seen.blind ∧
      (a.play s).2.Alike (a'.play s').2 := by
  cases ha with
  | perform he patience =>
    obtain ⟨hp, hs⟩ := h.perform he.procedure patience
    exact ⟨congrArg (fun seen => [seen]) hp.seen, hs⟩
  | together hes hold patience =>
    have hps := hes.imp fun _ _ he => he.procedure
    obtain ⟨hqs, hs⟩ := h.together
      (List.forall₂_map_left_iff.mpr (List.forall₂_map_right_iff.mpr hps)) hold patience
    exact ⟨Progress.Alike.map_seen hqs, hs⟩
  | lease patience =>
    obtain ⟨hc, hs⟩ := h.lease patience
    rw [Act.play, Act.play]
    generalize s.lease patience = x at hc hs ⊢
    generalize s'.lease patience = y at hc hs ⊢
    obtain ⟨call, t⟩ := x
    obtain ⟨call', t'⟩ := y
    obtain rfl : call = call' := hc
    exact ⟨rfl, hs⟩
  | resume call hw patience =>
    obtain ⟨hp, hs⟩ := h.resume call hw patience
    exact ⟨congrArg (fun seen => [seen]) hp.seen, hs⟩
  | drop call => exact ⟨rfl, h.drop call⟩
  | setPlan plan => exact ⟨rfl, h.setPlan plan⟩
  | setGenerator hg => exact ⟨rfl, h.directory, hg, h.vault, h.left⟩

namespace Session

/-- What is to be seen of a scenario, without the secrets of its answers; events are left as they
are. -/
def withoutSecrets (record : List (List Seen × List Event)) : List (List Seen × List Event) :=
  record.map fun (seen, events) => (seen.map Seen.blind, events)

/-- **A scenario**, played in two sessions that are alike, shows the same. -/
theorem Alike.play {acts acts' : List Act} (ha : List.Forall₂ Act.Alike acts acts')
    {s s' : Session} (h : s.Alike s') :
    withoutSecrets (s.play acts) = withoutSecrets (s'.play acts') := by
  induction ha generalizing s s' with
  | nil => rfl
  | cons hact _ ih =>
    obtain ⟨hseen, hs⟩ := hact.play h
    have hrest := ih hs
    rw [Session.play, Session.play, withoutSecrets, withoutSecrets, List.map_cons, List.map_cons]
    rw [withoutSecrets, withoutSecrets] at hrest
    dsimp only
    rw [hseen, hs.vault.log, h.vault.log, hrest]

theorem alike_start (users : Directory) {g g' : Generator} (hg : g.Alike g') :
    (start users g).Alike (start users g') :=
  ⟨rfl, hg, ⟨rfl, rfl, rfl, .nil, rfl, rfl⟩, rfl⟩

/-- **Secrets flow into the answers that issue them, and nowhere else.** A scenario is played twice
with the same users: with generators that deliver the same access keys and the same failures,
each at the same call, and with works that bring the same access keys with them, while all secrets
may be others. The two records are the same, all events with all that is in them included, but for
the secrets of the credentials that the answers have issued. -/
theorem secrets_flow_nowhere_else (users : Directory) {g g' : Generator} (hg : g.Alike g')
    {acts acts' : List Act} (ha : List.Forall₂ Act.Alike acts acts') :
    withoutSecrets ((start users g).play acts) = withoutSecrets ((start users g').play acts') :=
  Alike.play ha (alike_start users hg)

/-- A create, a unit of work that issues a key, and a list, each time with other secrets. -/
theorem secrets_flow_nowhere_else_create_unit_list :
    withoutSecrets ((start .empty (.scripted [.ok ⟨⟨"a", by decide⟩, ⟨[1]⟩⟩])).play
        [.perform (.create ⟨30⟩ ⟨1⟩) 9,
          .perform (.ask (.unit "import" (.issue ⟨1⟩ ⟨⟨"b", by decide⟩, ⟨[2]⟩⟩)) none) 9,
          .perform (.ask (.list ⟨1⟩) none) 9]) =
      withoutSecrets ((start .empty (.scripted [.ok ⟨⟨"a", by decide⟩, ⟨[5, 6]⟩⟩])).play
        [.perform (.create ⟨30⟩ ⟨1⟩) 9,
          .perform (.ask (.unit "import" (.issue ⟨1⟩ ⟨⟨"b", by decide⟩, ⟨[7]⟩⟩)) none) 9,
          .perform (.ask (.list ⟨1⟩) none) 9]) := by
  refine secrets_flow_nowhere_else .empty (Generator.alike_scripted ?_) ?_
  · rfl
  · refine .cons (.perform (.create _ _) 9) (.cons (.perform (.ask (.unit "import" ?_) none) 9)
      (.cons (.perform (.ask (.list _) none) 9) .nil))
    refine Work.alike_issue ⟨1⟩ ?_
    rfl

end Session

end KeyLifecycle
