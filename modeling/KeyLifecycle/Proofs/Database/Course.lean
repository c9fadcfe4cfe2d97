import KeyLifecycle.Database.Transaction
import KeyLifecycle.Proofs.Vault.Staging

/-!
# The course of a transaction

What is sent to a server in the course of a unit of work, and what is heard of it. Nothing is
assumed of the server: it may answer anything to anything, refuse any statement, and take its time.
Whoever has sent a statement may hear nothing of it in time (`Database.Sending`), and time may also
run out in a pause.

There are few courses that a transaction can take, and `Database.Protocol` lists them: `BEGIN` is
refused, or nothing is heard of it; time runs out inside the work; or the work comes to an outcome,
and is closed by the one statement that suits the outcome. That a plain unit of work takes one of
these courses is `KeyLifecycle.Request.concludes`, which also says what comes of it: the answer,
whether running out of time has been reported, and that a server that knows transactions keeps what
it had unless it was asked to commit.

The proof follows the conversation piece by piece. `Exchange.Comes` says that a conversation has
come to another one, and what has been sent on the way; a work inside its transaction comes to its
outcome or runs out of time (`KeyLifecycle.Work.comes`), and the rest is put together from there.
-/

namespace KeyLifecycle

open Database

namespace Database

/-! ### What is sent and what is heard -/

/-- A statement that has been sent, and what has been heard of it in time, if anything. -/
abbrev Sending : Type := Statement × Option Reception

/-- **A server that knows transactions.** What it keeps for good changes by a commit only; whoever
is inside a transaction stays there until a commit or a rollback. -/
structure Server.IsTransactional {σ κ : Type} (server : Server σ) (kept : σ → κ)
    (inside : σ → Prop) : Prop where
  begin (s : σ) : kept (server.reply .begin s).2 = kept s
  opens {s : σ} {rows : List Cells} {affected : Nat}
    (h : (server.reply .begin s).1.reception = .answer rows affected) :
    inside (server.reply .begin s).2
  within {s : σ} {statement : Statement} (hi : inside s) (hc : statement ≠ .commit)
    (hr : statement ≠ .rollback) :
    inside (server.reply statement s).2 ∧ kept (server.reply statement s).2 = kept s
  rollback (s : σ) : kept (server.reply .rollback s).2 = kept s
  elapse (duration : Span) (s : σ) :
    kept (server.elapse duration s) = kept s ∧ (inside s → inside (server.elapse duration s))

namespace Exchange

variable {α β σ κ : Type} {server : Server σ} {e e' e'' : Exchange α} {s s' s'' : σ}
  {sent sent' : List Sending} {log log' : List Event}

/-- **What is sent in a conversation**, and what is heard of it. That a transaction is rolled back
when it is given up is not asked for by anybody, and does not count. -/
def sendings (server : Server σ) : Exchange α → σ → List Sending
  | done _, _ => []
  | report _ next, s => next.sendings server s
  | send statement patience next, s =>
    let (arrival, s) := server.reply statement s
    (statement, (arrival.within patience).map (·.reception)) ::
      (next (arrival.within patience)).sendings server s
  | pause duration next, s => next.sendings server (server.elapse duration s)
  | forsake next, s => next.sendings server (server.reply .rollback s).2

/-- **A conversation has come to another one**, and the server from one state to another: what has
been sent on the way, and what has been reported. Nothing has been given up. -/
inductive Comes (server : Server σ) :
    Exchange α → σ → List Sending → List Event → Exchange α → σ → Prop
  | here (e : Exchange α) (s : σ) : Comes server e s [] [] e s
  | report {event : Event} {next e : Exchange α} {s s' : σ} {sent : List Sending}
      {log : List Event} (h : Comes server next s sent log e s') :
    Comes server (report event next) s sent (event :: log) e s'
  | send {statement : Statement} {patience : Option Span} {next : Option Arrival → Exchange α}
      {e : Exchange α} {s s' : σ} {sent : List Sending} {log : List Event}
      (h : Comes server (next ((server.reply statement s).1.within patience))
        (server.reply statement s).2 sent log e s') :
    Comes server (send statement patience next) s
      ((statement, ((server.reply statement s).1.within patience).map (·.reception)) :: sent)
      log e s'
  | pause {duration : Span} {next e : Exchange α} {s s' : σ} {sent : List Sending}
      {log : List Event} (h : Comes server next (server.elapse duration s) sent log e s') :
    Comes server (pause duration next) s sent log e s'

theorem Comes.trans (h : Comes server e s sent log e' s')
    (h' : Comes server e' s' sent' log' e'' s'') :
    Comes server e s (sent ++ sent') (log ++ log') e'' s'' := by
  induction h with
  | here => exact h'
  | report _ ih => exact .report (ih h')
  | send _ ih => exact .send (ih h')
  | pause _ ih => exact .pause (ih h')

/-- What has been sent on the way comes first. -/
theorem Comes.sendings_eq (h : Comes server e s sent log e' s') :
    e.sendings server s = sent ++ e'.sendings server s' := by
  induction h with
  | here => rfl
  | report _ ih => exact ih
  | send _ ih =>
    rw [sendings, List.cons_append, ← ih]
  | pause _ ih => exact ih

/-- The rest of the conversation decides how it ends. -/
theorem Comes.run_eq (h : Comes server e s sent log e' s') :
    e.run server s = ((e'.run server s').1, (e'.run server s').2.1,
      log ++ (e'.run server s').2.2) := by
  induction h with
  | here => rfl
  | report _ ih => simp only [run, ih, List.cons_append]
  | send _ ih => simp only [run, ih]
  | pause _ ih => simp only [run, ih]

/-- **Inside a transaction nothing is kept**: what has been sent on the way changes nothing for
good, if it neither commits nor rolls back. -/
theorem Comes.keeps {kept : σ → κ} {inside : σ → Prop} (h : Comes server e s sent log e' s')
    (hs : server.IsTransactional kept inside)
    (hsent : ∀ sending ∈ sent, sending.1 ≠ .commit ∧ sending.1 ≠ .rollback) (hi : inside s) :
    inside s' ∧ kept s' = kept s := by
  induction h with
  | here => exact ⟨hi, rfl⟩
  | report _ ih => exact ih hsent hi
  | send _ ih =>
    obtain ⟨hc, hr⟩ := hsent _ List.mem_cons_self
    obtain ⟨hi', hk⟩ := hs.within hi hc hr
    obtain ⟨hi'', hk'⟩ := ih (fun sending hm => hsent sending (List.mem_cons_of_mem _ hm)) hi'
    exact ⟨hi'', hk'.trans hk⟩
  | pause _ ih =>
    obtain ⟨hk, hi'⟩ := hs.elapse _ _
    obtain ⟨hi'', hk'⟩ := ih hsent (hi' hi)
    exact ⟨hi'', hk'.trans hk⟩

/-- Whoever waits without end hears the answer. -/
theorem run_ask (server : Server σ) (statement : Statement) (next : Reception → Exchange α)
    (s : σ) :
    (ask statement next).run server s =
      (next (server.reply statement s).1.reception).run server (server.reply statement s).2 := rfl

/-- Whatever is made of the outcome of a conversation, the same is sent. -/
theorem sendings_bind_done (e : Exchange α) (f : α → β) (s : σ) :
    (e.bind fun value => done (f value)).sendings server s = e.sendings server s := by
  induction e generalizing s with
  | done value => rfl
  | report event rest ih => exact ih s
  | send statement patience rest ih => simp only [bind, sendings, ih]
  | pause duration rest ih => exact ih _
  | forsake rest ih => exact ih _

theorem run_bind_done (e : Exchange α) (f : α → β) (s : σ) :
    (e.bind fun value => done (f value)).run server s =
      (f (e.run server s).1, (e.run server s).2.1, (e.run server s).2.2) := by
  induction e generalizing s with
  | done value => rfl
  | report event rest ih => simp only [bind, run, ih]
  | send statement patience rest ih => simp only [bind, run, ih]
  | pause duration rest ih => simp only [bind, run, ih]
  | forsake rest ih => simp only [bind, run, ih]

end Exchange

/-! ### Statements within the time that is left -/

namespace Standing

open Exchange

variable {α σ : Type}

/-- **A statement is answered in time, or too late.** -/
theorem comes_send (server : Server σ) (standing : Standing) (statement : Statement)
    (late : Standing → Exchange α) (next : Standing → Reception → Exchange α) (s : σ) :
    (∃ left, Comes server (standing.send statement late next) s
        [(statement, some (server.reply statement s).1.reception)] []
        (next ⟨standing.isOpen, left⟩ (server.reply statement s).1.reception)
        (server.reply statement s).2) ∨
      Comes server (standing.send statement late next) s [(statement, none)] []
        (late standing) (server.reply statement s).2 := by
  have h : Comes server (standing.send statement late next) s _ [] _
      (server.reply statement s).2 := .send (.here _ _)
  rw [Arrival.within] at h
  by_cases hw : standing.left.all ((server.reply statement s).1.delay ≤ ·) = true
  · rw [if_pos hw] at h
    exact Or.inl ⟨_, h⟩
  · rw [if_neg hw] at h
    exact Or.inr h

/-- Whoever waits without end hears the answer. -/
theorem run_send_none (server : Server σ) (isOpen : Bool) (statement : Statement)
    (late : Standing → Exchange α) (next : Standing → Reception → Exchange α) (s : σ) :
    (send ⟨isOpen, none⟩ statement late next).run server s =
      (next ⟨isOpen, none⟩ (server.reply statement s).1.reception).run server
        (server.reply statement s).2 := rfl

/-- **A pause is over in time, or time runs out in it.** -/
theorem comes_pause (server : Server σ) (standing : Standing) (duration : Span)
    (late : Standing → Exchange α) (next : Standing → Exchange α) (s : σ) :
    (∃ left s', Comes server (standing.pause duration late next) s [] []
        (next ⟨standing.isOpen, left⟩) s') ∨
      ∃ s', Comes server (standing.pause duration late next) s [] [] (late standing) s' := by
  obtain ⟨isOpen, left⟩ := standing
  rw [pause]
  cases left with
  | none => exact Or.inl ⟨none, _, .pause (.here _ _)⟩
  | some left =>
    dsimp only
    split
    · exact Or.inl ⟨_, _, .pause (.here _ _)⟩
    · exact Or.inr ⟨_, .pause (.here _ _)⟩

end Standing

end Database

/-! ### What a work has to say -/

/-- **What a work sends inside its transaction**, and its outcome; there is none if time has run
out. The first statement that is refused, or whose answer cannot be read, is the end of the work. -/
inductive Work.Says {α : Type} : Work α → List Sending → Option (Except Failure α) → Prop
  | done (value : α) : Says (.done value) [] (some (.ok value))
  | fail (cause : Failure) : Says (.fail cause) [] (some (.error cause))
  | insert {owner : UserId} {material : KeyMaterial} {next : Credential → Work α}
      {reception : Reception} {id : Int64} {sent : List Sending}
      {outcome : Option (Except Failure α)} (hr : reception.number = .ok id)
      (h : Says (next ⟨⟨id⟩, owner, material.key, material.secret, none⟩) sent outcome) :
    Says (.insert owner material next) ((.insertCredential owner material, some reception) :: sent)
      outcome
  | insertFault {owner : UserId} {material : KeyMaterial} {next : Credential → Work α}
      {reception : Reception} {fault : Fault} (hr : reception.number = .error fault) :
    Says (.insert owner material next) [(.insertCredential owner material, some reception)]
      (some (.error (insertFailure fault)))
  | insertLate {owner : UserId} {material : KeyMaterial} {next : Credential → Work α} :
    Says (.insert owner material next) [(.insertCredential owner material, none)] none
  | delete {owner : UserId} {key : AccessKey} {next : Bool → Work α} {reception : Reception}
      {found : Bool} {sent : List Sending} {outcome : Option (Except Failure α)}
      (hr : reception.hasEffect = .ok found) (h : Says (next found) sent outcome) :
    Says (.delete owner key next) ((.deleteCredential owner key, some reception) :: sent) outcome
  | deleteFault {owner : UserId} {key : AccessKey} {next : Bool → Work α} {reception : Reception}
      {fault : Fault} (hr : reception.hasEffect = .error fault) :
    Says (.delete owner key next) [(.deleteCredential owner key, some reception)]
      (some (.error (fault.failure "delete api key")))
  | deleteLate {owner : UserId} {key : AccessKey} {next : Bool → Work α} :
    Says (.delete owner key next) [(.deleteCredential owner key, none)] none
  | pause {duration : Span} {next : Work α} {sent : List Sending}
      {outcome : Option (Except Failure α)} (h : Says next sent outcome) :
    Says (.pause duration next) sent outcome
  | pauseLate {duration : Span} {next : Work α} : Says (.pause duration next) [] none

namespace Work

variable {α β σ : Type} {work : Work α} {sent : List Sending} {outcome : Option (Except Failure α)}

/-- **A work neither begins nor ends a transaction**: it inserts and deletes. -/
theorem Says.isInsertOrDelete (h : work.Says sent outcome) : ∀ sending ∈ sent,
    (∃ owner material, sending.1 = .insertCredential owner material) ∨
      ∃ owner key, sending.1 = .deleteCredential owner key := by
  induction h with
  | done | fail | pauseLate => simp
  | insert hr h ih => exact List.forall_mem_cons.mpr ⟨Or.inl ⟨_, _, rfl⟩, ih⟩
  | delete hr h ih => exact List.forall_mem_cons.mpr ⟨Or.inr ⟨_, _, rfl⟩, ih⟩
  | insertFault | insertLate => exact List.forall_mem_singleton.mpr (Or.inl ⟨_, _, rfl⟩)
  | deleteFault | deleteLate => exact List.forall_mem_singleton.mpr (Or.inr ⟨_, _, rfl⟩)
  | pause h ih => exact ih

theorem Says.ne_closing (h : work.Says sent outcome) :
    ∀ sending ∈ sent, sending.1 ≠ .commit ∧ sending.1 ≠ .rollback := by
  intro sending hm
  rcases h.isInsertOrDelete sending hm with ⟨owner, material, hs⟩ | ⟨owner, key, hs⟩ <;>
    rw [hs] <;> exact ⟨by simp, by simp⟩

/-- **A plain work inside its transaction** comes to its outcome, or runs out of time, and its
transaction is still open then. -/
theorem comes (hplain : work.IsPlain) (server : Server σ) (late : Standing → Exchange β)
    (next : Standing → Except Failure α → Exchange β) (left : Option Span) (s : σ) :
    ∃ sent outcome left' s', work.Says sent outcome ∧
      Exchange.Comes server (work.exchange late next ⟨true, left⟩) s sent []
        (outcome.elim (late ⟨true, left'⟩) (next ⟨true, left'⟩)) s' := by
  induction work generalizing left s with
  | done value => exact ⟨[], _, left, s, .done value, .here _ _⟩
  | fail cause => exact ⟨[], _, left, s, .fail cause, .here _ _⟩
  | insert owner material rest ih =>
    rw [Work.exchange, if_pos rfl]
    rcases Standing.comes_send server ⟨true, left⟩ (.insertCredential owner material) late _ s with
      ⟨left', hsend⟩ | hlate
    · cases hr : ((server.reply (.insertCredential owner material) s).1.reception).number with
      | ok id =>
        obtain ⟨sent, outcome, left'', s', hsays, hcomes⟩ := ih _ (hplain _) left' _
        refine ⟨_, outcome, left'', s', .insert hr hsays, hsend.trans ?_⟩
        simp only [hr]
        exact hcomes
      | error fault =>
        refine ⟨_, _, left', (server.reply (.insertCredential owner material) s).2,
          .insertFault hr, ?_⟩
        simp only [hr] at hsend
        exact hsend
    · exact ⟨_, none, left, _, .insertLate, hlate⟩
  | delete owner key rest ih =>
    rw [Work.exchange, if_pos rfl]
    rcases Standing.comes_send server ⟨true, left⟩ (.deleteCredential owner key) late _ s with
      ⟨left', hsend⟩ | hlate
    · cases hr : ((server.reply (.deleteCredential owner key) s).1.reception).hasEffect with
      | ok found =>
        obtain ⟨sent, outcome, left'', s', hsays, hcomes⟩ := ih _ (hplain _) left' _
        refine ⟨_, outcome, left'', s', .delete hr hsays, hsend.trans ?_⟩
        simp only [hr]
        exact hcomes
      | error fault =>
        refine ⟨_, _, left', (server.reply (.deleteCredential owner key) s).2, .deleteFault hr, ?_⟩
        simp only [hr] at hsend
        exact hsend
    · exact ⟨_, none, left, _, .deleteLate, hlate⟩
  | commit rest | rollback rest => exact False.elim hplain
  | pause duration rest ih =>
    rw [Work.exchange]
    rcases Standing.comes_pause server ⟨true, left⟩ duration late _ s with
      ⟨left', s', hpause⟩ | ⟨s', hlate⟩
    · obtain ⟨sent, outcome, left'', s'', hsays, hcomes⟩ := ih hplain left' s'
      exact ⟨sent, outcome, left'', s'', .pause hsays, hpause.trans hcomes⟩
    · exact ⟨[], none, left, s', .pauseLate, hlate⟩

end Work

/-! ### The courses of a transaction -/

namespace Database

/-- The statement that closes a transaction, by the outcome of its work. -/
def closing : Except Failure Reply → Statement
  | .ok _ => .commit
  | .error _ => .rollback

/-- **What is answered after the closing statement**: only a commit that has been carried out makes
an answer out of a success, and whatever comes of a rollback, the failure of the work stands. -/
def conclusion : Except Failure Reply → Reception → Except Failure Reply
  | .ok reply, .answer _ _ => .ok reply
  | .ok _, .fault fault => .error (fault.failure "commit")
  | .error cause, _ => .error cause

/-- **The courses that a transaction can take**: what is sent, what is heard of it, and the answer;
there is none if time runs out. -/
inductive Protocol (work : Work Reply) : List Sending → Option (Except Failure Reply) → Prop
  /-- The transaction cannot be begun. -/
  | refused (fault : Fault) :
    Protocol work [(.begin, some (.fault fault))]
      (some (.error (fault.failure "begin transaction")))
  /-- Nothing is heard of its beginning. -/
  | unheard : Protocol work [(.begin, none)] none
  /-- Time runs out inside the work. -/
  | late {rows : List Cells} {affected : Nat} {body : List Sending} (h : work.Says body none) :
    Protocol work ((.begin, some (.answer rows affected)) :: body) none
  /-- The work comes to an outcome, and is closed. -/
  | closed {rows : List Cells} {affected : Nat} {body : List Sending}
      {outcome : Except Failure Reply} {heard : Option Reception}
      (h : work.Says body (some outcome)) :
    Protocol work
      ((.begin, some (.answer rows affected)) :: (body ++ [(closing outcome, heard)]))
      (heard.map (conclusion outcome))

/-- Whether it has been reported that time has run out. -/
def timesOut (log : List Event) : Bool :=
  log.any fun
    | .timedOut _ _ => true
    | _ => false

theorem timesOut_append (log log' : List Event) :
    timesOut (log ++ log') = (timesOut log || timesOut log') := List.any_append

/-- Nothing that is reported of a request that has been answered is about time. -/
theorem timesOut_audit (request : Request) (reply : Reply) :
    timesOut (request.audit reply) = false := by
  cases request <;> cases reply <;> rfl

/-- **What comes of a conversation about a unit of work**: it takes one of the courses, and is
answered accordingly; a request that has run out of time is cancelled, and that is reported. A
server that knows transactions keeps what it had, unless it has been asked to commit. -/
structure Concludes {σ : Type} (server : Server σ) (operation : String) (work : Work Reply)
    (e : Exchange (Except Failure Reply)) (s : σ) (answer? : Option (Except Failure Reply)) :
    Prop where
  protocol : Protocol work (e.sendings server s) answer?
  answer : (e.run server s).1 = answer?.getD (.error (.cancelled operation))
  timedOut : timesOut (e.run server s).2.2 = answer?.isNone
  keeps {κ : Type} {kept : σ → κ} {inside : σ → Prop} (hs : server.IsTransactional kept inside)
    (hno : ∀ sending ∈ e.sendings server s, sending.1 ≠ .commit) :
    kept (e.run server s).2.1 = kept s

section

variable {σ : Type} {server : Server σ} {operation : String} {limit : Option Span} {s s' : σ}
  {e e' : Exchange (Except Failure Reply)} {sent : List Sending} {log : List Event}
  {work : Work Reply} {answer? : Option (Except Failure Reply)}

/-- **How a conversation ends** when nothing is sent any more: its answer, whether time has run out,
and what the server has kept. -/
structure Ends (server : Server σ) (operation : String) (e : Exchange (Except Failure Reply))
    (s : σ) (answer? : Option (Except Failure Reply)) : Prop where
  sendings : e.sendings server s = []
  answer : (e.run server s).1 = answer?.getD (.error (.cancelled operation))
  timedOut : timesOut (e.run server s).2.2 = answer?.isNone
  keeps {κ : Type} {kept : σ → κ} {inside : σ → Prop} (hs : server.IsTransactional kept inside) :
    kept (e.run server s).2.1 = kept s

theorem ends_done (server : Server σ) (operation : String) (answer : Except Failure Reply)
    (s : σ) : Ends server operation (.done answer) s (some answer) :=
  ⟨rfl, rfl, rfl, fun _ => rfl⟩

/-- What is reported makes no difference, unless it is about time. -/
theorem Ends.report {event : Event} (h : Ends server operation e s answer?)
    (hno : timesOut [event] = false) : Ends server operation (.report event e) s answer? where
  sendings := h.sendings
  answer := h.answer
  timedOut := by
    have hlog : ((Exchange.report event e).run server s).2.2 =
        [event] ++ (e.run server s).2.2 := rfl
    rw [hlog, timesOut_append, hno, Bool.false_or, h.timedOut]
  keeps hs := h.keeps hs

theorem Ends.foldr_report (h : Ends server operation e s answer?) {events : List Event}
    (hno : timesOut events = false) :
    Ends server operation (events.foldr .report e) s answer? := by
  induction events with
  | nil => exact h
  | cons event events ih =>
    have hno' : timesOut ([event] ++ events) = false := hno
    rw [timesOut_append, Bool.or_eq_false_iff] at hno'
    exact (ih hno'.2).report hno'.1

/-- To give the transaction up makes no difference to what is kept. -/
theorem Ends.forsake (h : ∀ s, Ends server operation e s answer?) (s : σ) :
    Ends server operation (.forsake e) s answer? where
  sendings := (h _).sendings
  answer := (h _).answer
  timedOut := (h _).timedOut
  keeps hs := ((h _).keeps hs).trans (hs.rollback s)

/-- **Time has run out.** -/
theorem ends_cancel (server : Server σ) (operation : String) (limit : Option Span)
    (standing : Standing) (s : σ) :
    Ends server operation (standing.cancel operation limit) s none := by
  have h : ∀ s, Ends server operation
      (.report (.timedOut operation (limit.getD 0)) (.done (.error (.cancelled operation)))) s
      none := fun s => ⟨rfl, rfl, rfl, fun _ => rfl⟩
  rw [Standing.cancel]
  split
  · exact Ends.forsake h s
  · exact h s

/-- **A conversation that has come to its last piece.** -/
theorem Ends.concludes (h : Ends server operation e' s' answer?)
    (hcomes : Exchange.Comes server e s sent log e' s') (hlog : timesOut log = false)
    (hp : Protocol work sent answer?)
    (hk : ∀ {κ : Type} {kept : σ → κ} {inside : σ → Prop}, server.IsTransactional kept inside →
      (∀ sending ∈ sent, sending.1 ≠ .commit) → kept s' = kept s) :
    Concludes server operation work e s answer? := by
  have hsent : e.sendings server s = sent := by
    rw [hcomes.sendings_eq, h.sendings, List.append_nil]
  constructor
  · rwa [hsent]
  · rw [hcomes.run_eq]
    exact h.answer
  · rw [hcomes.run_eq]
    dsimp only
    rw [timesOut_append, hlog, Bool.false_or, h.timedOut]
  · intro κ kept inside hs hno
    rw [hcomes.run_eq]
    rw [hsent] at hno
    exact (h.keeps hs).trans (hk hs hno)

end

end Database

/-! ### A unit of work takes one of the courses -/

namespace Request

variable {σ : Type} {work : Work Reply}

/-- How a unit of work is closed when its work has come to an outcome. -/
def close (request : Request) (limit : Option Span) (s : Standing) :
    Except Failure Reply → Exchange (Except Failure Reply)
  | .ok reply =>
    s.commit (Standing.cancel request.operation limit) fun _ outcome =>
      match outcome with
      | .ok () =>
        .report (.transactionCommitted request.operation) <|
          (request.audit reply).foldr .report (.done (.ok reply))
      | .error cause => .done (.error cause)
  | .error cause =>
    .report (.rollingBack request.operation cause) <|
      s.rollback (Standing.cancel request.operation limit) fun _ outcome =>
        match outcome with
        | .ok () => .done (.error cause)
        | .error second =>
          .report (.rollbackFailed request.operation second) (.done (.error cause))

theorem transaction_eq (request : Request) (work : Work Reply) (limit : Option Span) :
    request.transaction work limit =
      Standing.begin ⟨false, limit⟩ (Standing.cancel request.operation limit) fun s outcome =>
        match outcome with
        | .error cause => .done (.error cause)
        | .ok () =>
          .report (.transactionOpened request.operation) <|
            work.exchange (Standing.cancel request.operation limit) (request.close limit) s := by
          rfl

/-- **A unit of work is closed by one statement**, and by what is heard of it. -/
theorem close_comes (request : Request) (limit : Option Span) (outcome : Except Failure Reply)
    (server : Server σ) (left : Option Span) (s : σ) :
    ∃ heard log e, Exchange.Comes server (request.close limit ⟨true, left⟩ outcome) s
        [(closing outcome, heard)] log e (server.reply (closing outcome) s).2 ∧
      timesOut log = false ∧
      Ends server request.operation e (server.reply (closing outcome) s).2
        (heard.map (conclusion outcome)) := by
  cases outcome with
  | ok reply =>
    rw [close, Standing.commit, if_pos rfl, Standing.finish]
    rcases Standing.comes_send server ⟨true, left⟩ .commit
      (Standing.cancel request.operation limit) _ s with ⟨left', hsend⟩ | hlate
    · refine ⟨_, [], _, hsend, rfl, ?_⟩
      cases (server.reply .commit s).1.reception with
      | answer rows affected =>
        exact ((ends_done ..).foldr_report (timesOut_audit request reply)).report rfl
      | fault fault => exact Ends.forsake (fun s => ends_done ..) _
    · exact ⟨none, [], _, hlate, rfl, ends_cancel ..⟩
  | error cause =>
    rw [close, Standing.rollback, if_pos rfl, Standing.finish]
    rcases Standing.comes_send server ⟨true, left⟩ .rollback
      (Standing.cancel request.operation limit) _ s with ⟨left', hsend⟩ | hlate
    · refine ⟨_, _, _, .report hsend, rfl, ?_⟩
      cases (server.reply .rollback s).1.reception with
      | answer rows affected => exact ends_done ..
      | fault fault => exact Ends.forsake (fun s => (ends_done ..).report rfl) _
    · exact ⟨none, _, _, .report hlate, rfl, ends_cancel ..⟩

/-- **A unit of plain work takes one of the courses of a transaction.** -/
theorem concludes (request : Request) (hplain : work.IsPlain) (limit : Option Span)
    (server : Server σ) (s : σ) :
    ∃ answer?, Concludes server request.operation work (request.transaction work limit) s
      answer? := by
  rw [transaction_eq, Standing.begin]
  rcases Standing.comes_send server ⟨false, limit⟩ .begin
    (Standing.cancel request.operation limit) _ s with ⟨left, hsend⟩ | hlate
  · cases hr : (server.reply .begin s).1.reception with
    | fault fault =>
      rw [hr] at hsend
      refine ⟨_, (ends_done ..).concludes hsend rfl (.refused fault) ?_⟩
      exact fun hs _ => hs.begin s
    | answer rows affected =>
      rw [hr] at hsend
      obtain ⟨body, outcome, left', s', hsays, hwork⟩ := work.comes hplain server
        (Standing.cancel request.operation limit) (request.close limit) left
        (server.reply .begin s).2
      have hcomes : Exchange.Comes server _ s ((.begin, some (.answer rows affected)) :: body)
          [.transactionOpened request.operation] _ s' := hsend.trans (.report hwork)
      -- inside its transaction the work changes nothing for good
      have hinside {κ : Type} {kept : σ → κ} {inside : σ → Prop}
          (hs : server.IsTransactional kept inside) : inside s' ∧ kept s' = kept s := by
        obtain ⟨hi, hk⟩ := hwork.keeps hs hsays.ne_closing (hs.opens hr)
        exact ⟨hi, hk.trans (hs.begin s)⟩
      cases outcome with
      | none =>
        have hends := ends_cancel server request.operation limit ⟨true, left'⟩ s'
        exact ⟨none, hends.concludes hcomes rfl (.late hsays) fun hs _ => (hinside hs).2⟩
      | some outcome =>
        obtain ⟨heard, log, e, hclose, hlog, hends⟩ :=
          request.close_comes limit outcome server left' s'
        refine ⟨_, hends.concludes (hcomes.trans hclose) ?_ (.closed hsays) ?_⟩
        · rw [timesOut_append, hlog]
          rfl
        · intro κ kept inside hs hno
          cases outcome with
          | ok reply =>
            have hin : ((.commit, heard) : Sending) ∈ [(.begin, some (.answer rows affected))] ++
                body ++ [(closing (.ok reply), heard)] :=
              List.mem_append_right _ (List.mem_singleton_self _)
            exact absurd rfl (hno _ hin)
          | error cause => exact (hs.rollback s').trans (hinside hs).2
  · refine ⟨none, (ends_cancel ..).concludes hlate rfl .unheard ?_⟩
    exact fun hs _ => hs.begin s

end Request

end KeyLifecycle
