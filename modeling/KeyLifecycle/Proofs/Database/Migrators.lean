import KeyLifecycle.Proofs.Database.Migrating

/-!
# Several migrators at one database

Runs of migrations that go on at the same time, each on a connection of its own. One act is one
statement of one of them, or whatever else it does next; the acts of different migrators come in any
order. A statement may be refused, a connection may be lost just after a statement has been carried
out, and a migrator may be broken off anywhere before it has answered. A transaction that is given
up with its connection is undone.

What has been committed is seen by all at once (`Database.Books`), and of the drafts of others a
migrator only notices that it has to wait for the versions in them.

Where a run may be is said by a migration of its list and a stage of it
(`KeyLifecycle.Migration.Stage`), and what one act can bring about at a stage is said once, in
`KeyLifecycle.Database.Migrator.act?_amid`.
-/

namespace KeyLifecycle

open Database

namespace Migration

variable {m : Migration} {rest : List Migration} {b b' : Books} {isTaken : Int64 → Bool}
  {stance stance' : Stance} {statement : Statement} {reception : Reception}

/-! ### Stages of a migration -/

/-- What a migration has to do next. -/
inductive Stage where
  | table
  | check
  | begin
  | script
  | addVersion
  | commit
  | report
  | giveUp (fault : Fault)
  deriving DecidableEq

/-- How far a migration has come. -/
inductive Point where
  | amid (stage : Stage)
  | ended (answer : Except Failure Unit)

/-- What is reported at last. -/
def reporting (m : Migration) : Exchange (Except Failure Unit) :=
  .report m.news (.done (.ok ()))

/-- What is left of the conversation at a stage. -/
def Stage.talk (m : Migration) : Stage → Exchange (Except Failure Unit)
  | table => m.migrate
  | check => .ask (.hasVersion m.version) m.verdict
  | begin => m.apply
  | script =>
    apply.inside m (.script m.script) <|
      apply.inside m (.addVersion m.version m.description) <| apply.inside m .commit m.reporting
  | addVersion =>
    apply.inside m (.addVersion m.version m.description) <| apply.inside m .commit m.reporting
  | commit => apply.inside m .commit m.reporting
  | report => m.reporting
  | giveUp fault => .forsake (.done (.error (fault.failure m.operation)))

/-- The statement that is sent at a stage, if one is. -/
def Stage.statement? (m : Migration) : Stage → Option Statement
  | table => some .createVersionTable
  | check => some (.hasVersion m.version)
  | begin => some .begin
  | script => some (.script m.script)
  | addVersion => some (.addVersion m.version m.description)
  | commit => some .commit
  | report => none
  | giveUp _ => none

/-- How far a migration has come after the answer to the statement of a stage. -/
def Stage.heard (m : Migration) : Stage → Reception → Point
  | table, .answer _ _ => .amid .check
  | table, .fault fault => .ended (.error (fault.failure "create migrations table"))
  | check, reception =>
    match reception.flag with
    | .error fault => .ended (.error (fault.failure "check migration status"))
    | .ok true => .ended (.ok ())
    | .ok false => .amid .begin
  | begin, .answer _ _ => .amid .script
  | begin, .fault fault => .ended (.error (fault.failure m.operation))
  | script, .answer _ _ => .amid .addVersion
  | addVersion, .answer _ _ => .amid .commit
  | commit, .answer _ _ => .amid .report
  | _, .fault fault => .amid (.giveUp fault)
  | stage, .answer _ _ => .amid stage

/-- What is left of the conversation about one migration. -/
def Point.remainder (m : Migration) : Point → Exchange (Except Failure Unit)
  | amid stage => stage.talk m
  | ended answer => .done answer

/-- How a run goes on after one migration. -/
def onward (rest : List Migration) : Except Failure Unit → Exchange (Except Failure Unit)
  | .ok () => migrateAll rest
  | .error cause => .done (.error cause)

/-- What is left of a run. -/
def Point.talk (m : Migration) (rest : List Migration) (point : Point) :
    Exchange (Except Failure Unit) :=
  (point.remainder m).bind (onward rest)

theorem migrateAll_cons (m : Migration) (rest : List Migration) :
    migrateAll (m :: rest) = (Point.amid .table).talk m rest := rfl

/-- At a stage with a statement, the statement is sent, and it goes on as it is heard. -/
theorem Stage.talk_eq_ask {stage : Stage} (h : stage.statement? m = some statement) :
    stage.talk m = .ask statement fun reception => (stage.heard m reception).remainder m := by
  cases stage with
  | report => simp [statement?] at h
  | giveUp fault => simp [statement?] at h
  | check =>
    obtain rfl := Option.some.inj h
    refine congrArg (Exchange.ask _) (funext fun reception => ?_)
    rw [verdict, heard]
    cases reception.flag with
    | error fault => rfl
    | ok isKnown => cases isKnown <;> rfl
  | _ =>
    -- elsewhere there is one way to go on if it is carried out, and one if it is refused
    obtain rfl := Option.some.inj h
    simp only [talk, migrate, ensureTable, apply, apply.inside]
    refine congrArg (Exchange.ask _) (funext fun reception => ?_)
    cases reception <;> rfl

theorem ask_bind {α β : Type} (statement : Statement) (next : Reception → Exchange α)
    (onward : α → Exchange β) :
    (Exchange.ask statement next).bind onward =
      .ask statement fun reception => (next reception).bind onward := by
  refine congrArg (Exchange.send statement none) (funext fun arrival => ?_)
  cases arrival <;> rfl

theorem Point.talk_eq_ask {stage : Stage} (h : stage.statement? m = some statement) :
    (amid stage).talk m rest =
      .ask statement fun reception => (stage.heard m reception).talk m rest := by
  rw [talk, remainder, Stage.talk_eq_ask h, ask_bind]
  rfl

/-! ### Where a connection stands at a stage -/

/-- Where a connection stands at a stage: what the transaction has done so far. -/
def Stage.Fits (m : Migration) : Stage → Stance → Prop
  | script, stance => stance = .inside ⟨[], []⟩
  | addVersion, stance => stance = .inside ⟨[], [m.script]⟩
  | commit, stance => stance = .inside ⟨[m.row], [m.script]⟩
  | giveUp _, stance => stance = .idle ∨ stance = .spoilt
  | _, stance => stance = .idle

/-- What holds of the books and of the connection when a migration has come so far. -/
def Point.Stands (m : Migration) (b : Books) (stance : Stance) : Point → Prop
  | amid stage => stage.Fits m stance ∧ (stage = .table ∨ b.table.isSome) ∧
      (stage = .report → m.version ∈ b.versions)
  | ended (.ok ()) => stance = .idle ∧ m.version ∈ b.versions
  | ended (.error failure) =>
    stance = .idle ∧ ∃ operation, ∃ fault : Fault, failure = fault.failure operation

end Migration

namespace Database

/-- The versions in a draft. -/
def Stance.holds (version : Int64) : Stance → Bool
  | .inside draft => decide (version ∈ draft.rows.map (·.1))
  | _ => false

/-! ### Migrators -/

/-- A run of migrations on a connection of its own. -/
structure Migrator where
  /-- What is left of it, unless it has been broken off. -/
  talk : Option (Exchange (Except Failure Unit))
  stance : Stance

/-- What a migrator does next, or what becomes of it. -/
inductive Act where
  /-- It takes its next step; a statement is answered. -/
  | turn (arrival : Arrival)
  /-- Its statement is carried out, but the connection is lost before the answer comes. -/
  | lose (arrival : Arrival) (fault : Fault)
  /-- It is broken off. -/
  | abort

/-- What comes of an act of a migrator, if it can act in this way. -/
def Migrator.act? (b : Books) (isTaken : Int64 → Bool) (mg : Migrator) (act : Act) :
    Option (Books × Migrator) :=
  match mg.talk, act with
  | none, _ => none
  | some (.done _), _ => none
  | some _, .abort => some (b, ⟨none, .idle⟩)
  | some (.send statement patience next), .turn arrival =>
    (b.next? isTaken mg.stance statement arrival.reception).map fun (b, stance) =>
      (b, ⟨some (next (arrival.within patience)), stance⟩)
  | some (.send statement patience next), .lose arrival fault =>
    (b.next? isTaken mg.stance statement arrival.reception).map fun (b, _) =>
      (b, ⟨some (next (Arrival.within patience ⟨.fault fault, arrival.delay⟩)), .idle⟩)
  | some (.report _ next), .turn _ => some (b, ⟨some next, mg.stance⟩)
  | some (.pause _ next), .turn _ => some (b, ⟨some next, mg.stance⟩)
  | some (.forsake next), .turn _ => some (b, ⟨some next, .idle⟩)
  | some _, .lose _ _ => none

open Migration

variable {m : Migration} {rest : List Migration} {b b' : Books} {isTaken : Int64 → Bool}
  {stance stance' : Stance} {stage : Stage} {mg mg' : Migrator} {act : Act}

/-- **What an act of a migrator can bring about** at a stage of a migration: the books, how far the
migration has come then unless it has been broken off, and where the connection stands. -/
inductive Comes (b : Books) (isTaken : Int64 → Bool) (m : Migration) (stance : Stance) :
    Stage → Books → Option Point → Stance → Prop
  | aborted (stage : Stage) : Comes b isTaken m stance stage b none .idle
  | heard {stage : Stage} {statement : Statement} {reception : Reception} {b' : Books}
      {stance' : Stance} (hstatement : stage.statement? m = some statement)
      (hnext : b.next? isTaken stance statement reception = some (b', stance')) :
    Comes b isTaken m stance stage b' (some (stage.heard m reception)) stance'
  | lost {stage : Stage} {statement : Statement} {reception : Reception} {b' : Books}
      {stance' : Stance} (fault : Fault) (hstatement : stage.statement? m = some statement)
      (hnext : b.next? isTaken stance statement reception = some (b', stance')) :
    Comes b isTaken m stance stage b' (some (stage.heard m (.fault fault))) .idle
  | reported : Comes b isTaken m stance .report b (some (.ended (.ok ()))) stance
  | gaveUp (fault : Fault) :
    Comes b isTaken m stance (.giveUp fault) b
      (some (.ended (.error (fault.failure m.operation)))) .idle

theorem Migrator.act?_abort (h : mg.act? b isTaken .abort = some (b', mg')) :
    b' = b ∧ mg' = ⟨none, .idle⟩ := by
  obtain ⟨talk, stance⟩ := mg
  cases talk with
  | none => cases h
  | some e =>
    cases e with
    | done answer => cases h
    | _ => exact (Prod.mk.inj (Option.some.inj h)).imp Eq.symm Eq.symm

/-- The books and the migrator after an act. -/
theorem Migrator.act?_amid
    (h : act? b isTaken ⟨some ((Point.amid stage).talk m rest), stance⟩ act = some (b', mg')) :
    ∃ point, mg'.talk = Option.map (Point.talk m rest) point ∧
      Comes b isTaken m stance stage b' point mg'.stance := by
  cases act with
  | abort =>
    obtain ⟨rfl, rfl⟩ := act?_abort h
    exact ⟨none, rfl, .aborted stage⟩
  | turn arrival =>
    cases hstatement : stage.statement? m with
    | some statement =>
      rw [Point.talk_eq_ask hstatement] at h
      obtain ⟨⟨books, after⟩, hnext, hafter⟩ := Option.map_eq_some_iff.mp h
      obtain ⟨rfl, rfl⟩ := Prod.mk.inj hafter
      exact ⟨some (stage.heard m arrival.reception), rfl, .heard hstatement hnext⟩
    | none =>
      cases stage with
      | report =>
        obtain ⟨rfl, rfl⟩ := Prod.mk.inj (Option.some.inj h)
        exact ⟨some (.ended (.ok ())), rfl, .reported⟩
      | giveUp fault =>
        obtain ⟨rfl, rfl⟩ := Prod.mk.inj (Option.some.inj h)
        exact ⟨some (.ended (.error (fault.failure m.operation))), rfl, .gaveUp fault⟩
      | _ => simp [Stage.statement?] at hstatement
  | lose arrival fault =>
    cases hstatement : stage.statement? m with
    | some statement =>
      rw [Point.talk_eq_ask hstatement] at h
      obtain ⟨⟨books, after⟩, hnext, hafter⟩ := Option.map_eq_some_iff.mp h
      obtain ⟨rfl, rfl⟩ := Prod.mk.inj hafter
      exact ⟨some (stage.heard m (.fault fault)), rfl, .lost fault hstatement hnext⟩
    | none =>
      -- nothing is sent, so there is no answer to lose
      cases stage with
      | report => cases h
      | giveUp _ => cases h
      | _ => simp [Stage.statement?] at hstatement

/-! ### What an act does to the books -/

/-- **How the books change in an act**: nothing is gained, and whatever the connection holds then it
has held before, or it is new and nobody else holds it; or the migration that the connection holds
is gained. -/
inductive Changes (b : Books) (isTaken : Int64 → Bool) (m : Migration) (stance : Stance) :
    Books → Stance → Prop
  | quiet {b' : Books} {stance' : Stance} (hgains : b.Gains [] b')
      (htable : b.table.isSome → b'.table.isSome)
      (hholds : ∀ version, stance'.holds version → stance.holds version ∨
        version ∉ b.versions ∧ isTaken version = false) :
    Changes b isTaken m stance b' stance'
  | committed {b' : Books} (hgains : b.Gains [m] b') (htable : b'.table.isSome)
      (hholds : stance.holds m.version) : Changes b isTaken m stance b' .idle

theorem Changes.table {b' : Books} (h : Changes b isTaken m stance b' stance')
    (ht : b.table.isSome) : b'.table.isSome := by
  cases h with
  | quiet _ htable _ => exact htable ht
  | committed _ htable _ => exact htable

/-- What is recorded stays recorded. -/
theorem Changes.versions_subset (h : Changes b isTaken m stance b' stance') :
    b.versions ⊆ b'.versions := by
  have hsubset {gain : List Migration} (hg : b.Gains gain b') : b.versions ⊆ b'.versions := by
    rw [hg.versions]
    exact List.subset_append_left _ _
  cases h with
  | quiet hgains _ _ => exact hsubset hgains
  | committed hgains _ _ => exact hsubset hgains

/-- Nothing happens to the books, and nothing is held. -/
theorem changes_of_not_holds (h : ∀ version, stance'.holds version = false) :
    Changes b isTaken m stance b stance' :=
  .quiet b.gains_refl id fun version hv => absurd (h version) (by simp [hv])

/-- The same when the connection is lost. -/
theorem Changes.idle (h : Changes b isTaken m stance b' stance') :
    Changes b isTaken m stance b' .idle := by
  cases h with
  | quiet hgains htable _ => exact .quiet hgains htable (by simp [Stance.holds])
  | committed hgains htable hholds => exact .committed hgains htable hholds

/-- Wherever the statement of a stage is refused, or the connection is lost with it. -/
theorem stands_heard_fault {statement : Statement} {fault : Fault}
    (h : (Point.amid stage).Stands m b stance) (hstatement : stage.statement? m = some statement)
    (hstance : stance' = .idle ∨ stance' = .spoilt ∧ stance ≠ .idle) :
    (stage.heard m (.fault fault)).Stands m b stance' := by
  obtain ⟨hfits, htable, -⟩ := h
  have of_idle (hidle : stance = .idle) : stance' = .idle :=
    hstance.resolve_right fun ⟨_, hno⟩ => hno hidle
  have of_table (hno : stage ≠ .table) : (Point.amid (.giveUp fault)).Stands m b stance' :=
    ⟨hstance.imp_right And.left, Or.inr (htable.resolve_left hno), by simp⟩
  cases stage with
  | table => exact ⟨of_idle hfits, _, _, rfl⟩
  | check => exact ⟨of_idle hfits, _, _, rfl⟩
  | begin => exact ⟨of_idle hfits, _, _, rfl⟩
  | script => exact of_table (by simp)
  | addVersion => exact of_table (by simp)
  | commit => exact of_table (by simp)
  | report => simp [Stage.statement?] at hstatement
  | giveUp _ => simp [Stage.statement?] at hstatement

/-- **A statement of a stage is answered**, or refused. -/
theorem changes_and_stands_heard {statement : Statement} {reception : Reception}
    (h : (Point.amid stage).Stands m b stance) (hstatement : stage.statement? m = some statement)
    (hnext : b.next? isTaken stance statement reception = some (b', stance')) :
    Changes b isTaken m stance b' stance' ∧ (stage.heard m reception).Stands m b' stance' := by
  cases reception with
  | fault fault =>
    obtain ⟨rfl, hstance⟩ := Books.next?_fault hnext
    refine ⟨changes_of_not_holds ?_, stands_heard_fault h hstatement hstance⟩
    rcases hstance with rfl | ⟨rfl, -⟩ <;> exact fun _ => rfl
  | answer rows affected =>
    obtain ⟨hfits, htable, -⟩ := h
    -- from stage to stage: what the statement does, and where the connection stands after it
    cases stage with
    | table =>
      obtain rfl : stance = .idle := hfits
      obtain rfl := Option.some.inj hstatement
      obtain ⟨rfl, rfl⟩ := Prod.mk.inj (Option.some.inj hnext)
      exact ⟨.quiet b.gains_prepared (fun _ => rfl) (by simp [Stance.holds]), rfl, Or.inr rfl,
        by simp⟩
    | check =>
      obtain rfl : stance = .idle := hfits
      obtain rfl := Option.some.inj hstatement
      obtain ⟨⟨ht, rfl⟩, hafter⟩ := Books.next?_hasVersion.mp hnext
      obtain ⟨rfl, rfl⟩ := Prod.mk.inj hafter
      refine ⟨changes_of_not_holds fun _ => rfl, ?_⟩
      by_cases hm : m.version ∈ b'.versions
      · rw [decide_eq_true hm]
        exact ⟨rfl, hm⟩
      · rw [decide_eq_false hm]
        exact ⟨rfl, Or.inr ht, by simp⟩
    | begin =>
      obtain rfl : stance = .idle := hfits
      obtain rfl := Option.some.inj hstatement
      obtain ⟨rfl, rfl⟩ := Prod.mk.inj (Option.some.inj hnext)
      have ht : b.table.isSome := htable.resolve_left (by simp)
      exact ⟨changes_of_not_holds fun _ => rfl, rfl, Or.inr ht, by simp⟩
    | script =>
      obtain rfl : stance = .inside ⟨[], []⟩ := hfits
      obtain rfl := Option.some.inj hstatement
      obtain ⟨rfl, rfl⟩ := Prod.mk.inj (Option.some.inj hnext)
      have ht : b.table.isSome := htable.resolve_left (by simp)
      exact ⟨changes_of_not_holds fun _ => rfl, rfl, Or.inr ht, by simp⟩
    | addVersion =>
      obtain rfl : stance = .inside ⟨[], [m.script]⟩ := hfits
      obtain rfl := Option.some.inj hstatement
      obtain ⟨⟨ht, hm, -, hfree⟩, hafter⟩ := Books.next?_addVersion.mp hnext
      obtain ⟨rfl, rfl⟩ := Prod.mk.inj hafter
      refine ⟨.quiet b'.gains_refl id fun version hv => ?_, rfl, Or.inr ht, by simp⟩
      obtain rfl : version = m.version := by simpa [Stance.holds] using hv
      exact Or.inr ⟨hm, hfree⟩
    | commit =>
      obtain rfl : stance = .inside ⟨[m.row], [m.script]⟩ := hfits
      obtain rfl := Option.some.inj hstatement
      obtain ⟨rfl, rfl⟩ := Prod.mk.inj (Option.some.inj hnext)
      have ht : b.table.isSome := htable.resolve_left (by simp)
      have hgains : b.Gains [m] (b.publish ⟨[m.row], [m.script]⟩) := ⟨Books.rows_publish ht _, rfl⟩
      have ht' : (b.publish ⟨[m.row], [m.script]⟩).table.isSome := by simpa [Books.publish] using ht
      refine ⟨.committed hgains ht' (by simp [Stance.holds, Migration.row]), rfl, Or.inr ht', ?_⟩
      rw [hgains.versions]
      simp
    | report => simp [Stage.statement?] at hstatement
    | giveUp fault => simp [Stage.statement?] at hstatement

/-- How far a migration has come can be said of later books as well. -/
theorem Changes.stands {point : Point} {stance₁ : Stance} {m' : Migration} {stance₂ : Stance}
    (h : Changes b isTaken m' stance₁ b' stance₂) (hpoint : point.Stands m b stance) :
    point.Stands m b' stance := by
  cases point with
  | amid stage =>
    obtain ⟨hfits, htable, hreport⟩ := hpoint
    exact ⟨hfits, htable.imp_right h.table, fun hstage => h.versions_subset (hreport hstage)⟩
  | ended answer =>
    cases answer with
    | ok => exact ⟨hpoint.1, h.versions_subset hpoint.2⟩
    | error failure => exact hpoint

/-- **What comes of an act at a stage.** -/
theorem Comes.changes_and_stands {point : Option Point}
    (h : Comes b isTaken m stance stage b' point stance')
    (hs : (Point.amid stage).Stands m b stance) :
    Changes b isTaken m stance b' stance' ∧ (point = none → stance' = .idle) ∧
      ∀ p ∈ point, p.Stands m b' stance' := by
  cases h with
  | aborted => exact ⟨changes_of_not_holds fun _ => rfl, fun _ => rfl, by simp⟩
  | heard hstatement hnext =>
    obtain ⟨hchanges, hstands⟩ := changes_and_stands_heard hs hstatement hnext
    exact ⟨hchanges, by simp, by simpa using hstands⟩
  | lost fault hstatement hnext =>
    have hchanges := (changes_and_stands_heard hs hstatement hnext).1
    have hstands : (stage.heard m (.fault fault)).Stands m b' .idle :=
      stands_heard_fault (hchanges.stands hs) hstatement (Or.inl rfl)
    exact ⟨hchanges.idle, by simp, by simpa using hstands⟩
  | reported =>
    obtain ⟨rfl, -, hreport⟩ := hs
    have hstands : (Point.ended (.ok ())).Stands m b .idle := ⟨rfl, hreport rfl⟩
    exact ⟨changes_of_not_holds fun _ => rfl, by simp, by simpa using hstands⟩
  | gaveUp fault =>
    have hstands : (Point.ended (.error (fault.failure m.operation))).Stands m b .idle :=
      ⟨rfl, _, _, rfl⟩
    exact ⟨changes_of_not_holds fun _ => rfl, by simp, by simpa using hstands⟩

/-! ### Where a run can be -/

/-- **Where a migrator of some migrations can be**: broken off, failed, at the end, or amid one of
them, with those before it recorded. -/
inductive Migrator.Stands (b : Books) (ms : List Migration) : Migrator → Prop
  | aborted : Stands b ms ⟨none, .idle⟩
  | failed (operation : String) (fault : Fault) :
    Stands b ms ⟨some (.done (.error (fault.failure operation))), .idle⟩
  | through (h : ∀ m ∈ ms, m.version ∈ b.versions) : Stands b ms ⟨some (.done (.ok ())), .idle⟩
  | amid {before : List Migration} {m : Migration} {rest : List Migration} {stage : Stage}
      {stance : Stance} (hms : ms = before ++ m :: rest)
      (hbefore : ∀ m' ∈ before, m'.version ∈ b.versions)
      (h : (Point.amid stage).Stands m b stance) :
    Stands b ms ⟨some ((Point.amid stage).talk m rest), stance⟩

variable {ms before : List Migration}

/-- Amid a migration there is something left to be done. -/
theorem talk_amid_ne_done (answer : Except Failure Unit) :
    (Point.amid stage).talk m rest ≠ .done answer := by
  intro h
  cases stage <;> cases h

/-- What a migrator has answered when it has. -/
theorem Migrator.Stands.answer (h : mg.Stands b ms) {answer : Except Failure Unit}
    (ha : mg.talk = some (.done answer)) :
    answer = .ok () ∧ (∀ m ∈ ms, m.version ∈ b.versions) ∨
      ∃ operation, ∃ fault : Fault, answer = .error (fault.failure operation) := by
  cases h with
  | aborted => cases ha
  | failed operation fault =>
    cases ha
    exact Or.inr ⟨operation, fault, rfl⟩
  | through hall =>
    cases ha
    exact Or.inl ⟨rfl, hall⟩
  | amid => exact absurd (Option.some.inj ha) (talk_amid_ne_done answer)

/-- Those that are left are begun. -/
theorem Migrator.stands_migrateAll (hms : ms = before ++ rest)
    (hbefore : ∀ m ∈ before, m.version ∈ b.versions) :
    Migrator.Stands b ms ⟨some (migrateAll rest), .idle⟩ := by
  cases rest with
  | nil =>
    rw [List.append_nil] at hms
    exact .through (by rwa [hms])
  | cons m rest =>
    have hpoint : (Point.amid .table).Stands m b .idle := ⟨rfl, Or.inl rfl, by simp⟩
    rw [migrateAll_cons]
    exact .amid hms hbefore hpoint

/-- A run that has come so far with one of its migrations. -/
theorem Migrator.stands_of_point {point : Point} (hms : ms = before ++ m :: rest)
    (hbefore : ∀ m ∈ before, m.version ∈ b.versions) (h : point.Stands m b stance) :
    Migrator.Stands b ms ⟨some (point.talk m rest), stance⟩ := by
  cases point with
  | amid stage => exact .amid hms hbefore h
  | ended answer =>
    cases answer with
    | ok =>
      obtain ⟨rfl, hm⟩ := h
      have hms' : ms = (before ++ [m]) ++ rest := by simp [hms]
      refine stands_migrateAll hms' fun m' hm' => ?_
      rcases List.mem_append.mp hm' with hm' | hm'
      · exact hbefore m' hm'
      · obtain rfl := List.mem_singleton.mp hm'
        exact hm
    | error failure =>
      obtain ⟨rfl, operation, fault, rfl⟩ := h
      exact .failed operation fault

/-- Where a migrator can be does not change when others act. -/
theorem Changes.migrator_stands {stance₁ stance₂ : Stance} {m' : Migration}
    (h : Changes b isTaken m' stance₁ b' stance₂) (hstands : mg.Stands b ms) :
    mg.Stands b' ms := by
  cases hstands with
  | aborted => exact .aborted
  | failed operation fault => exact .failed operation fault
  | through hall => exact .through fun m hm => h.versions_subset (hall m hm)
  | amid hms hbefore hpoint =>
    exact .amid hms (fun m hm => h.versions_subset (hbefore m hm)) (h.stands hpoint)

/-- **One act of a migrator**, wherever it can be. -/
theorem Migrator.Stands.step (h : mg.Stands b ms) (hact : mg.act? b isTaken act = some (b', mg')) :
    ∃ m ∈ ms, Changes b isTaken m mg.stance b' mg'.stance ∧ mg'.Stands b' ms := by
  cases h with
  | aborted => cases hact
  | failed operation fault => cases hact
  | through hall => cases hact
  | @amid before m rest stage stance hms hbefore hpoint =>
    obtain ⟨talk', stance'⟩ := mg'
    obtain ⟨point, rfl, hcomes⟩ := act?_amid hact
    obtain ⟨hchanges, hnone, hsome⟩ := hcomes.changes_and_stands hpoint
    refine ⟨m, by simp [hms], hchanges, ?_⟩
    cases point with
    | none =>
      obtain rfl := hnone rfl
      exact .aborted
    | some p =>
      have hbefore' : ∀ m ∈ before, m.version ∈ b'.versions := fun m hm =>
        hchanges.versions_subset (hbefore m hm)
      exact stands_of_point hms hbefore' (hsome p rfl)

end Database

end KeyLifecycle
