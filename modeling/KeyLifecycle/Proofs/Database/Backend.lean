import KeyLifecycle.Database.Procedure
import KeyLifecycle.Proofs.Database.Query
import KeyLifecycle.Proofs.Store.Task

/-!
# A server that does what it is told

A `Backend` is a server of the database that executes one statement after the other by its meaning,
as it is read off the text of the statement (`Query.ofText?`). It keeps the rows that have been
committed, and of a transaction in progress the rows as the transaction sees them. A statement that
is refused in the middle of a transaction spoils it: nothing else is executed until its end, and it
ends without a trace, even if it is asked to commit.

What else there is to a server is left open: who the users are, the numbers of the sequence, the
wording of complaints, how long an answer takes, and what is answered to statements about anything
else.

A conversation with such a server is played by `Exchange.play`. The statements of one request are
few, so with a server that is quick enough none of them comes too late
(`KeyLifecycle.Database.Backend.play_send`).
-/

namespace KeyLifecycle.Database

/-- What is left open of a server. -/
structure Backend where
  rules : Rules
  /-- The complaint about a statement in a transaction that is spoilt. -/
  spoilt : String
  delay : Statement → Span
  /-- The answer to a statement about something else. -/
  elsewhere : Statement → Reception

/-- Where a connection stands. -/
inductive Mode where
  | idle
  /-- Inside a transaction, which sees these rows. -/
  | inside (records : List Record)
  /-- Inside a transaction in which a statement has been refused. -/
  | spoilt

/-- What a server keeps: the rows, how many numbers have been drawn, and where the connection
stands. -/
structure Shelf where
  records : List Record
  drawn : Nat
  mode : Mode

namespace Backend

/-- Executes a query. -/
def execute (b : Backend) (q : Query) (binds : List Bind) (s : Shelf) : Reception × Shelf :=
  match s.mode with
  | .idle =>
    let (reception, records, drawn) := q.perform b.rules binds s.records s.drawn
    (reception, ⟨records, drawn, .idle⟩)
  | .inside copy =>
    match q.perform b.rules binds copy s.drawn with
    | (.answer rows affected, copy, drawn) =>
      (.answer rows affected, ⟨s.records, drawn, .inside copy⟩)
    | (.fault fault, _, drawn) => (.fault fault, ⟨s.records, drawn, .spoilt⟩)
  | .spoilt => (.fault (.refused b.spoilt), s)

/-- The answer to a statement that is none of those about transactions. -/
def answerByText (b : Backend) (statement : Statement) (s : Shelf) : Reception × Shelf :=
  match Query.ofText? statement.text with
  | some q => b.execute q statement.binds s
  | none => (b.elsewhere statement, s)

/-- **The answer to a statement**, and what is kept after it. -/
def answer (b : Backend) (statement : Statement) (s : Shelf) : Reception × Shelf :=
  match statement with
  | .begin =>
    match s.mode with
    | .idle => (.answer [] 0, { s with mode := .inside s.records })
    | _ => (.answer [] 0, s)
  | .commit =>
    match s.mode with
    | .inside copy => (.answer [] 0, ⟨copy, s.drawn, .idle⟩)
    | _ => (.answer [] 0, { s with mode := .idle })
  | .rollback => (.answer [] 0, { s with mode := .idle })
  | _ => b.answerByText statement s

/-- The server. Time makes no difference to what it keeps. -/
def server (b : Backend) : Server Shelf where
  reply statement s := (⟨(b.answer statement s).1, b.delay statement⟩, (b.answer statement s).2)
  elapse _ s := s

/-- **Does tasks one after the other** over the database: the answer to each, if the source of key
material does not break down in the middle of it, and what is kept then. -/
def serve (b : Backend) (store : Store) : List StoreTask → Generator → Shelf →
    List (Option (Except Failure Reply) × Shelf)
  | [], _, _ => []
  | task :: rest, g, s =>
    let ((answer, g), s, _) := (Procedure.exchange (task.procedure store) g).run b.server s
    (answer, s) :: b.serve store rest g s

end Backend

/-! ### Playing a conversation -/

namespace Exchange

variable {α β σ : Type} {server : Server σ} {s : σ}

/-- Plays a conversation, without what has been reported. -/
def play (server : Server σ) (e : Exchange α) (s : σ) : α × σ :=
  ((e.run server s).1, (e.run server s).2.1)

theorem play_done (value : α) : (done value).play server s = (value, s) := rfl

theorem play_report (event : Event) (next : Exchange α) :
    (report event next).play server s = next.play server s := rfl

/-- Reports make no difference. -/
theorem play_foldr_report (events : List Event) (next : Exchange α) :
    (events.foldr report next).play server s = next.play server s := by
  induction events with
  | nil => rfl
  | cons event events ih => rw [List.foldr_cons, play_report, ih]

theorem play_bind (e : Exchange α) (next : α → Exchange β) :
    (e.bind next).play server s = (next (e.play server s).1).play server (e.play server s).2 := by
  induction e generalizing s with
  | done value => rfl
  | report event rest ih => exact ih
  | send statement patience rest ih => exact ih _
  | pause duration rest ih => exact ih
  | forsake rest ih => exact ih

end Exchange

namespace Backend

variable {α : Type} {b : Backend} {s : Shelf} {q : Query} {binds : List Bind}
  {base copy copy' : List Record} {drawn drawn' : Nat}

/-! ### Statements about credentials -/

theorem answerByText_eq {statement : Statement} (h : Query.ofText? statement.text = some q) :
    b.answerByText statement s = b.execute q statement.binds s := by
  simp only [answerByText, h]

theorem answer_listCredentials (u : UserId) : b.answer (.listCredentials u) s =
    b.execute .ofOwner (Statement.listCredentials u).binds s :=
  answerByText_eq (Query.ofText?_listCredentials u)

theorem answer_insertCredential (u : UserId) (m : KeyMaterial) :
    b.answer (.insertCredential u m) s =
      b.execute .issue (Statement.insertCredential u m).binds s :=
  answerByText_eq (Query.ofText?_insertCredential u m)

theorem answer_deleteCredential (u : UserId) (key : AccessKey) :
    b.answer (.deleteCredential u key) s =
      b.execute .revoke (Statement.deleteCredential u key).binds s :=
  answerByText_eq (Query.ofText?_deleteCredential u key)

theorem answer_stampCredential (key : AccessKey) (moment : Instant) :
    b.answer (.stampCredential key moment) s =
      b.execute .stamp (Statement.stampCredential key moment).binds s :=
  answerByText_eq (Query.ofText?_stampCredential key moment)

/-- A query by itself changes the rows at once. -/
theorem execute_idle {reception : Reception} {records : List Record}
    (h : q.perform b.rules binds base drawn = (reception, records, drawn')) :
    b.execute q binds ⟨base, drawn, .idle⟩ = (reception, ⟨records, drawn', .idle⟩) := by
  simp only [execute, h]

/-- A query in a transaction changes the rows that the transaction sees. -/
theorem execute_inside {rows : List Cells} {affected : Nat}
    (h : q.perform b.rules binds copy drawn = (.answer rows affected, copy', drawn')) :
    b.execute q binds ⟨base, drawn, .inside copy⟩ =
      (.answer rows affected, ⟨base, drawn', .inside copy'⟩) := by
  simp only [execute, h]

/-- A query that is refused spoils its transaction. -/
theorem execute_refused {fault : Fault}
    (h : q.perform b.rules binds copy drawn = (.fault fault, copy', drawn')) :
    b.execute q binds ⟨base, drawn, .inside copy⟩ = (.fault fault, ⟨base, drawn', .spoilt⟩) := by
  simp only [execute, h]

/-! ### In time -/

/-- No answer takes longer. -/
def IsWithin (b : Backend) (slowest : Span) : Prop := ∀ statement, b.delay statement ≤ slowest

variable {slowest left n : Nat}

/-- **A statement in time**: whoever has patience for some more statements after it is answered it,
and has patience left for those. -/
theorem play_send (hb : b.IsWithin slowest) (hleft : (n + 1) * slowest ≤ left) (isOpen : Bool)
    (statement : Statement) (late : Standing → Exchange α)
    (next : Standing → Reception → Exchange α) :
    ∃ left', n * slowest ≤ left' ∧
      (Standing.send ⟨isOpen, some left⟩ statement late next).play b.server s =
        (next ⟨isOpen, some left'⟩ (b.answer statement s).1).play b.server
          (b.answer statement s).2 := by
  have hdelay := hb statement
  rw [Nat.add_one_mul] at hleft
  have hwithin : Arrival.within (some left) ⟨(b.answer statement s).1, b.delay statement⟩ =
      some ⟨(b.answer statement s).1, b.delay statement⟩ := by
    rw [Arrival.within, if_pos]
    simpa using Nat.le_trans hdelay (Nat.le_trans (Nat.le_add_left ..) hleft)
  have hrest : n * slowest ≤ left - b.delay statement :=
    Nat.le_sub_of_add_le (Nat.le_trans (Nat.add_le_add_left hdelay _) hleft)
  refine ⟨left - b.delay statement, hrest, ?_⟩
  rw [Standing.send, Exchange.play, Exchange.run]
  simp only [server, hwithin]
  rfl

variable {late : Standing → Exchange α} {next : Standing → Except Failure Unit → Exchange α}

theorem play_begin (hb : b.IsWithin slowest) (hleft : (n + 1) * slowest ≤ left) :
    ∃ left', n * slowest ≤ left' ∧
      (Standing.begin ⟨false, some left⟩ late next).play b.server ⟨base, drawn, .idle⟩ =
        (next ⟨true, some left'⟩ (.ok ())).play b.server ⟨base, drawn, .inside base⟩ :=
  play_send hb hleft false .begin late _

/-- **A commit** keeps the rows that the transaction has seen. -/
theorem play_commit (hb : b.IsWithin slowest) (hleft : (n + 1) * slowest ≤ left) :
    ∃ left', n * slowest ≤ left' ∧
      (Standing.commit ⟨true, some left⟩ late next).play b.server ⟨base, drawn, .inside copy⟩ =
        (next ⟨false, some left'⟩ (.ok ())).play b.server ⟨copy, drawn, .idle⟩ := by
  rw [Standing.commit, if_pos rfl]
  exact play_send hb hleft true .commit late _

/-- **A rollback** keeps the rows as they were, and the numbers that have been drawn are lost. -/
theorem play_rollback (hb : b.IsWithin slowest) (hleft : (n + 1) * slowest ≤ left) (mode : Mode) :
    ∃ left', n * slowest ≤ left' ∧
      (Standing.rollback ⟨true, some left⟩ late next).play b.server ⟨base, drawn, mode⟩ =
        (next ⟨false, some left'⟩ (.ok ())).play b.server ⟨base, drawn, .idle⟩ := by
  rw [Standing.rollback, if_pos rfl]
  exact play_send hb hleft true .rollback late _

end Backend

end KeyLifecycle.Database
