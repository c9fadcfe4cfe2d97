import KeyLifecycle.Database.Migration
import KeyLifecycle.Proofs.Database.Course

/-!
# What a database keeps of migrations

The books of a database are the table of versions and the scripts that have taken effect, each time
that one has. What is done inside a transaction is only a draft until it is committed, the changes
of a script included; a statement that is refused leaves nothing behind, and spoils the transaction
that it is made in. Nobody writes down a version that is there already, or that somebody else has
written down in a transaction of their own that is still open: whoever tries has to wait for them.
A script is taken to leave the transaction open, and the table of versions alone.

`Database.Books.next?` says all of this of one statement and what is answered to it. Whether the
server refuses a statement is up to the server; a server is obliging if it does not refuse what it
could carry out (`Database.Server.IsObliging`).
-/

namespace KeyLifecycle

open Database

/-- What is written down of a migration. -/
def Migration.row (m : Migration) : Int64 × String := (m.version, m.description)

namespace Database

/-- What is kept for good. -/
structure Books where
  /-- The versions that are written down, with their descriptions, if there is a table for them. -/
  table : Option (List (Int64 × String))
  /-- The scripts that have taken effect. -/
  scripts : List String
  deriving DecidableEq

/-- What a transaction has done so far. -/
structure Draft where
  rows : List (Int64 × String)
  scripts : List String
  deriving DecidableEq

/-- Where a connection stands. -/
inductive Stance where
  | idle
  | inside (draft : Draft)
  /-- Inside a transaction in which a statement has been refused. -/
  | spoilt
  deriving DecidableEq

/-- What is sent in the course of migrations, and where. -/
def Stance.expects : Stance → Statement → Bool
  | _, .rollback => true
  | .idle, .createVersionTable => true
  | .idle, .hasVersion _ => true
  | .idle, .newestVersion => true
  | .idle, .begin => true
  | .inside _, .script _ => true
  | .inside _, .addVersion _ _ => true
  | .inside _, .commit => true
  | _, _ => false

namespace Books

/-- The rows of the table of versions. -/
def rows (b : Books) : List (Int64 × String) := b.table.getD []

/-- The versions that are recorded. -/
def versions (b : Books) : List Int64 := b.rows.map (·.1)

/-- The books with a table of versions. -/
def prepared (b : Books) : Books := { b with table := some b.rows }

/-- The books after a commit. -/
def publish (b : Books) (draft : Draft) : Books :=
  ⟨b.table.map (· ++ draft.rows), b.scripts ++ draft.scripts⟩

/-- The newest version, as it is read out of the table. -/
def newestCell (b : Books) : Cell :=
  match b.versions.max? with
  | some version => .int version.toInt
  | none => .null

/-- **What comes of a statement and the answer to it**, if this can be the answer at all. The
versions that others have written down without having committed them are taken. -/
def next? (b : Books) (isTaken : Int64 → Bool) (stance : Stance) (statement : Statement)
    (reception : Reception) : Option (Books × Stance) :=
  match statement, reception, stance with
  | .rollback, _, _ => some (b, .idle)
  | .commit, .fault _, _ => some (b, .idle)
  | _, .fault _, .idle => some (b, .idle)
  | _, .fault _, _ => some (b, .spoilt)
  | .createVersionTable, .answer _ _, .idle => some (b.prepared, .idle)
  | .hasVersion version, .answer rows _, .idle =>
    if b.table.isSome ∧ rows = [[.flag (decide (version ∈ b.versions))]] then some (b, .idle)
    else none
  | .newestVersion, .answer rows _, .idle =>
    if b.table.isSome ∧ rows = [[b.newestCell]] then some (b, .idle) else none
  | .begin, .answer _ _, .idle => some (b, .inside ⟨[], []⟩)
  | .script text, .answer _ _, .inside draft =>
    some (b, .inside { draft with scripts := draft.scripts ++ [text] })
  | .addVersion version description, .answer _ _, .inside draft =>
    if b.table.isSome ∧ version ∉ b.versions ∧ version ∉ draft.rows.map (·.1) ∧
        !isTaken version then
      some (b, .inside { draft with rows := draft.rows ++ [(version, description)] })
    else none
  | .commit, .answer _ _, .inside draft => some (b.publish draft, .idle)
  | _, _, _ => none

variable {b : Books} {isTaken : Int64 → Bool} {draft : Draft} {fault : Fault} {rows : List Cells}
  {affected : Nat} {version : Int64} {next : Books × Stance}

@[simp] theorem rows_prepared (b : Books) : b.prepared.rows = b.rows := rfl

@[simp] theorem versions_prepared (b : Books) : b.prepared.versions = b.versions := rfl

theorem rows_publish (h : b.table.isSome) (draft : Draft) :
    (b.publish draft).rows = b.rows ++ draft.rows := by
  obtain ⟨rows, hrows⟩ := Option.isSome_iff_exists.mp h
  simp [publish, Books.rows, hrows]

/-! ### Statements one by one -/

/-- A refusal outside of a transaction leaves everything as it is. -/
theorem next?_idle_fault (statement : Statement) :
    b.next? isTaken .idle statement (.fault fault) = some (b, .idle) := by
  cases statement <;> rfl

/-- A statement that is refused changes nothing, and spoils the transaction that it is in, or ends
it. -/
theorem next?_fault {b' : Books} {stance stance' : Stance} {statement : Statement}
    (h : b.next? isTaken stance statement (.fault fault) = some (b', stance')) :
    b' = b ∧ (stance' = .idle ∨ stance' = .spoilt ∧ stance ≠ .idle) := by
  cases stance with
  | idle =>
    rw [next?_idle_fault] at h
    obtain ⟨rfl, rfl⟩ := Prod.mk.inj (Option.some.inj h)
    exact ⟨rfl, Or.inl rfl⟩
  | _ => cases statement <;> obtain ⟨rfl, rfl⟩ := Prod.mk.inj (Option.some.inj h) <;> simp

theorem next?_hasVersion :
    b.next? isTaken .idle (.hasVersion version) (.answer rows affected) = some next ↔
      (b.table.isSome ∧ rows = [[.flag (decide (version ∈ b.versions))]]) ∧ next = (b, .idle) := by
  rw [next?, Option.ite_none_right_eq_some, Option.some.injEq, eq_comm (b := next)]

theorem next?_newestVersion :
    b.next? isTaken .idle .newestVersion (.answer rows affected) = some next ↔
      (b.table.isSome ∧ rows = [[b.newestCell]]) ∧ next = (b, .idle) := by
  rw [next?, Option.ite_none_right_eq_some, Option.some.injEq, eq_comm (b := next)]

theorem next?_addVersion {description : String} :
    b.next? isTaken (.inside draft) (.addVersion version description) (.answer rows affected) =
        some next ↔
      (b.table.isSome ∧ version ∉ b.versions ∧ version ∉ draft.rows.map (·.1) ∧
          isTaken version = false) ∧
        next = (b, .inside { draft with rows := draft.rows ++ [(version, description)] }) := by
  rw [next?, Option.ite_none_right_eq_some, Option.some.injEq, eq_comm (b := next),
    Bool.not_eq_true']

end Books

/-! ### Servers -/

variable {σ : Type} {server : Server σ} {view : σ → Books × Stance} {s : σ}

/-- **A server that keeps the books**, if nobody else uses them: what it answers in the course of
migrations can be answered, and leaves the books accordingly. It may refuse any statement. -/
structure Server.KeepsBooks (server : Server σ) (view : σ → Books × Stance) : Prop where
  reply {statement : Statement} {s : σ} (h : (view s).2.expects statement = true) :
    (view s).1.next? (fun _ => false) (view s).2 statement (server.reply statement s).1.reception =
      some (view (server.reply statement s).2)

/-- **A server that refuses nothing** that it could carry out. -/
def Server.IsObliging (server : Server σ) (view : σ → Books × Stance) : Prop :=
  ∀ (statement : Statement) (s : σ) (rows : List Cells) (affected : Nat) (next : Books × Stance),
    (view s).2.expects statement = true →
    (view s).1.next? (fun _ => false) (view s).2 statement (.answer rows affected) = some next →
    ∃ rows affected, (server.reply statement s).1.reception = .answer rows affected

/-- A transaction that is given up leaves the books as they are. -/
theorem Server.KeepsBooks.view_rollback (h : server.KeepsBooks view) (s : σ) :
    view (server.reply .rollback s).2 = ((view s).1, .idle) := by
  have hexpects : (view s).2.expects .rollback = true := by cases (view s).2 <;> rfl
  exact (Option.some.inj (h.reply hexpects)).symm

/-- What comes of a statement that could be carried out: it is, or it is refused, by a server that
is not obliging. -/
theorem Server.KeepsBooks.cases (h : server.KeepsBooks view) {statement : Statement}
    (he : (view s).2.expects statement = true) {rows : List Cells} {affected : Nat}
    {next : Books × Stance}
    (hcan : (view s).1.next? (fun _ => false) (view s).2 statement (.answer rows affected) =
      some next) :
    (∃ rows affected, (server.reply statement s).1.reception = .answer rows affected ∧
        (view s).1.next? (fun _ => false) (view s).2 statement (.answer rows affected) =
          some (view (server.reply statement s).2)) ∨
      ∃ fault, (server.reply statement s).1.reception = .fault fault ∧ ¬server.IsObliging view ∧
        (view s).1.next? (fun _ => false) (view s).2 statement (.fault fault) =
          some (view (server.reply statement s).2) := by
  have hreply := h.reply he
  cases hr : (server.reply statement s).1.reception with
  | answer rows affected =>
    rw [hr] at hreply
    exact Or.inl ⟨rows, affected, rfl, hreply⟩
  | fault fault =>
    rw [hr] at hreply
    refine Or.inr ⟨fault, rfl, fun hobliging => ?_, hreply⟩
    obtain ⟨rows, affected, ha⟩ := hobliging _ _ _ _ _ he hcan
    rw [hr] at ha
    simp at ha

/-- What comes of a statement outside of a transaction that could be carried out. -/
theorem Server.KeepsBooks.cases_of_idle (h : server.KeepsBooks view) {b : Books}
    (hv : view s = (b, .idle)) (statement : Statement)
    (he : Stance.idle.expects statement = true) {rows : List Cells} {affected : Nat}
    {next : Books × Stance}
    (hcan : b.next? (fun _ => false) .idle statement (.answer rows affected) = some next) :
    (∃ rows affected, (server.reply statement s).1.reception = .answer rows affected ∧
        b.next? (fun _ => false) .idle statement (.answer rows affected) =
          some (view (server.reply statement s).2)) ∨
      ∃ fault, (server.reply statement s).1.reception = .fault fault ∧ ¬server.IsObliging view ∧
        view (server.reply statement s).2 = (b, .idle) := by
  have hcases := h.cases (by rw [hv]; exact he) (by rw [hv]; exact hcan)
  rw [hv] at hcases
  rcases hcases with hdone | ⟨fault, hr, ho, hview⟩
  · exact Or.inl hdone
  · rw [Books.next?_idle_fault] at hview
    exact Or.inr ⟨fault, hr, ho, (Option.some.inj hview).symm⟩

end Database

end KeyLifecycle
