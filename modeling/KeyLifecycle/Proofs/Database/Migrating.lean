import KeyLifecycle.Proofs.Database.Books
import KeyLifecycle.Proofs.Int64

/-!
# Migrations are resumed where they stopped

What a run of migrations does to the books of a database, whichever of its statements are refused.
Of one migration there are six statements, or two if its version is recorded already; the first of
them that is refused ends the run, and the books then are as they were before the migration
(`KeyLifecycle.Migration.ends_migrate`). A whole run is therefore a number of migrations that have
got through, each of which has been recorded together with its effect if it had not been before, and
perhaps one that has not (`KeyLifecycle.Migration.unrolls_migrateAll`).

So a run may be repeated until nothing is refused any more, and what is done by all the runs
together is done once.
-/

namespace KeyLifecycle

open Database

namespace Database

/-- All of some statements have been carried out. -/
def AllAnswered (sent : List Sending) : Prop :=
  ∀ sending ∈ sent, ∃ rows affected, sending.2 = some (.answer rows affected)

theorem AllAnswered.cons {sent : List Sending} (h : AllAnswered sent) (statement : Statement)
    (rows : List Cells) (affected : Nat) :
    AllAnswered ((statement, some (.answer rows affected)) :: sent) := by
  intro sending hmem
  rcases List.mem_cons.mp hmem with rfl | hmem
  · exact ⟨rows, affected, rfl⟩
  · exact h sending hmem

theorem AllAnswered.append {sent sent' : List Sending} (h : AllAnswered sent)
    (h' : AllAnswered sent') : AllAnswered (sent ++ sent') := fun sending hmem =>
  (List.mem_append.mp hmem).elim (h sending) (h' sending)

theorem allAnswered_nil : AllAnswered [] := by
  intro sending hmem
  simp at hmem

/-- Books after others, in which some migrations have been recorded and have taken effect. -/
structure Books.Gains (before : Books) (ms : List Migration) (after : Books) : Prop where
  rows : after.rows = before.rows ++ ms.map Migration.row
  scripts : after.scripts = before.scripts ++ ms.map (·.script)

theorem Books.gains_refl (b : Books) : b.Gains [] b := ⟨by simp, by simp⟩

theorem Books.gains_prepared (b : Books) : b.Gains [] b.prepared := ⟨by simp, by simp [prepared]⟩

theorem Books.Gains.trans {a b c : Books} {ms ms' : List Migration} (h : a.Gains ms b)
    (h' : b.Gains ms' c) : a.Gains (ms ++ ms') c :=
  ⟨by rw [h'.rows, h.rows, List.map_append, List.append_assoc],
    by rw [h'.scripts, h.scripts, List.map_append, List.append_assoc]⟩

theorem Books.Gains.versions {a b : Books} {ms : List Migration} (h : a.Gains ms b) :
    b.versions = a.versions ++ ms.map (·.version) := by
  rw [Books.versions, h.rows, List.map_append, List.map_map]
  rfl

namespace Exchange

variable {α β σ : Type}

theorem sendings_ask (server : Server σ) (statement : Statement) (next : Reception → Exchange α)
    (s : σ) :
    (ask statement next).sendings server s =
      (statement, some (server.reply statement s).1.reception) ::
        (next (server.reply statement s).1.reception).sendings server
          (server.reply statement s).2 := rfl

/-- One conversation after the other is one run after the other. -/
theorem run_bind (server : Server σ) (e : Exchange α) (next : α → Exchange β) (s : σ) :
    (e.bind next).run server s =
      let first := e.run server s
      let second := (next first.1).run server first.2.1
      (second.1, second.2.1, first.2.2 ++ second.2.2) := by
  induction e generalizing s with
  | done value => rfl
  | report event rest ih => simp only [bind, run, ih, List.cons_append]
  | send statement patience rest ih => exact ih _ _
  | pause duration rest ih => exact ih _
  | forsake rest ih => exact ih _

theorem sendings_bind (server : Server σ) (e : Exchange α) (next : α → Exchange β) (s : σ) :
    (e.bind next).sendings server s =
      e.sendings server s ++ (next (e.run server s).1).sendings server (e.run server s).2.1 := by
  induction e generalizing s with
  | done value => rfl
  | report event rest ih => exact ih s
  | send statement patience rest ih => simp only [bind, sendings, run, ih, List.cons_append]
  | pause duration rest ih => exact ih _
  | forsake rest ih => exact ih _

end Exchange

end Database

namespace Migration

/-- The name under which a fault is reported, by the statement that it is a fault of. -/
def operationFor (m : Migration) : Statement → String
  | .createVersionTable => "create migrations table"
  | .hasVersion _ => "check migration status"
  | _ => m.operation

/-- The transaction that applies a migration. -/
def applying (m : Migration) : List Statement :=
  [.begin, .script m.script, .addVersion m.version m.description, .commit]

/-- What is sent for a migration if nothing is refused. -/
def statements (b : Books) (m : Migration) : List Statement :=
  [.createVersionTable, .hasVersion m.version] ++
    if m.version ∈ b.versions then [] else m.applying

/-- How it goes on after the question whether the version is recorded. -/
def verdict (m : Migration) (reception : Reception) : Exchange (Except Failure Unit) :=
  match reception.flag with
  | .error fault => .done (.error (fault.failure "check migration status"))
  | .ok true => .done (.ok ())
  | .ok false => m.apply

theorem migrate_eq (m : Migration) :
    m.migrate = ensureTable (.ask (.hasVersion m.version) m.verdict) := rfl

theorem verdict_answer (m : Migration) (isKnown : Bool) (affected : Nat) :
    m.verdict (.answer [[.flag isKnown]] affected) =
      if isKnown then .done (.ok ()) else m.apply := by
  cases isKnown <;> rfl

theorem verdict_fault (m : Migration) (fault : Fault) :
    m.verdict (.fault fault) = .done (.error (fault.failure "check migration status")) := rfl

/-- Those of some migrations whose versions are not recorded. -/
def unrecorded (b : Books) (ms : List Migration) : List Migration :=
  ms.filter (·.version ∉ b.versions)

/-- What is reported of a migration that has been applied. -/
def news (m : Migration) : Event := .migrationApplied m.version.toInt m.description

variable {σ : Type} {server : Server σ} {view : σ → Books × Stance} {s : σ} {m : Migration}
  {before : Books} {toSay : List Statement} {gain : List Migration}

/-! ### One migration -/

theorem unrecorded_of_mem (h : m.version ∈ before.versions) : unrecorded before [m] = [] := by
  simp [unrecorded, h]

theorem unrecorded_of_notMem (h : m.version ∉ before.versions) : unrecorded before [m] = [m] := by
  simp [unrecorded, h]

theorem unrecorded_cons (b : Books) (m : Migration) (ms : List Migration) :
    unrecorded b (m :: ms) = unrecorded b [m] ++ unrecorded b ms := by
  change ([m] ++ ms).filter _ = _
  exact List.filter_append ..

/-- **How a conversation about a migration ends** that has some statements to make: all of them are
carried out, and the books have gained what there is to gain; or one is refused, by a server that is
not obliging, and they have gained nothing. The answer, the books and the connection, what has been
sent and what has been reported. -/
inductive Ends (server : Server σ) (view : σ → Books × Stance) (m : Migration) (before : Books)
    (toSay : List Statement) (gain : List Migration) :
    Except Failure Unit → Books × Stance → List Sending → List Event → Prop
  | through {books : Books} {sent : List Sending} (hsent : sent.map (·.1) = toSay)
      (ha : AllAnswered sent) (hg : before.Gains gain books) :
    Ends server view m before toSay gain (.ok ()) (books, .idle) sent (gain.map news)
  | stopped {books : Books} {front : List Sending} {statement : Statement}
      {rest : List Statement} {fault : Fault}
      (hsent : toSay = front.map (·.1) ++ statement :: rest)
      (ha : AllAnswered front) (hg : before.Gains [] books)
      (ho : ¬server.IsObliging view) :
    Ends server view m before toSay gain (.error (fault.failure (m.operationFor statement)))
      (books, .idle) (front ++ [(statement, some (.fault fault))]) []

/-- The first statement is refused. -/
theorem Ends.refused {books : Books} {fault : Fault} (statement : Statement)
    (hg : before.Gains [] books) (ho : ¬server.IsObliging view) :
    m.Ends server view before (statement :: toSay) gain
      (.error (fault.failure (m.operationFor statement))) (books, .idle)
      [(statement, some (.fault fault))] [] := by
  have hsent : statement :: toSay = ([] : List Sending).map (·.1) ++ statement :: toSay := rfl
  exact .stopped hsent allAnswered_nil hg ho

/-- A conversation about a migration ends in this way. -/
def EndsFrom (server : Server σ) (view : σ → Books × Stance) (m : Migration) (before : Books)
    (toSay : List Statement) (gain : List Migration) (e : Exchange (Except Failure Unit)) (s : σ) :
    Prop :=
  m.Ends server view before toSay gain (e.run server s).1 (view (e.run server s).2.1)
    (e.sendings server s) (e.run server s).2.2

/-- One more statement, which is carried out. -/
theorem Ends.cons {answer : Except Failure Unit} {last : Books × Stance} {sent : List Sending}
    {log : List Event} {books : Books} {statement : Statement} {rows : List Cells} {affected : Nat}
    (h : m.Ends server view books toSay gain answer last sent log) (hg : before.Gains [] books) :
    m.Ends server view before (statement :: toSay) gain answer last
      ((statement, some (.answer rows affected)) :: sent) log := by
  cases h with
  | through hsent ha hg' =>
    refine .through ?_ (ha.cons statement rows affected) (hg.trans hg')
    rw [List.map_cons, hsent]
  | stopped hsent ha hg' ho =>
    rw [← List.cons_append]
    have hsent' : statement :: toSay = _ := congrArg (statement :: ·) hsent
    exact .stopped hsent' (ha.cons statement rows affected) (hg.trans hg') ho

/-- A statement inside of the transaction: what follows is done if it is carried out, and if it is
refused, the transaction is given up. -/
theorem endsFrom_inside (h : server.KeepsBooks view) {draft : Draft} {statement : Statement}
    {next : Exchange (Except Failure Unit)} {after : Books × Stance}
    (hv : view s = (before, .inside draft)) (he : (Stance.inside draft).expects statement = true)
    (hop : m.operationFor statement = m.operation)
    (hcan : ∀ rows affected, before.next? (fun _ => false) (.inside draft) statement
      (.answer rows affected) = some after)
    (hfault : ∀ fault, ∃ stance, before.next? (fun _ => false) (.inside draft) statement
      (.fault fault) = some (before, stance))
    (hnext : ∀ s, view s = after → m.EndsFrom server view before toSay gain next s) :
    m.EndsFrom server view before (statement :: toSay) gain (apply.inside m statement next) s := by
  rw [apply.inside, EndsFrom, Exchange.run_ask, Exchange.sendings_ask]
  rcases h.cases (by rw [hv]; exact he) (by rw [hv]; exact hcan [] 0) with
    ⟨rows, affected, hr, hview⟩ | ⟨fault, hr, ho, hview⟩
  · rw [hv] at hview
    rw [hr]
    exact Ends.cons (hnext _ (Option.some.inj (hview.symm.trans (hcan rows affected))))
      before.gains_refl
  · obtain ⟨stance, hstance⟩ := hfault fault
    rw [hv, hstance] at hview
    have hlast := h.view_rollback (server.reply statement s).2
    rw [← Option.some.inj hview] at hlast
    rw [hr]
    simp only [Reception.confirm, Exchange.run, Exchange.sendings, hlast, ← hop]
    exact .refused statement before.gains_refl ho

/-- **The transaction of a migration**, whose version is not recorded. -/
theorem endsFrom_apply (h : server.KeepsBooks view) (hv : view s = (before, .idle))
    (ht : before.table.isSome) (hm : m.version ∉ before.versions) :
    m.EndsFrom server view before m.applying [m] m.apply s := by
  rw [apply, EndsFrom, Exchange.run_ask, Exchange.sendings_ask]
  have hcan : before.next? (fun _ => false) .idle .begin (.answer [] 0) = some _ := rfl
  rcases h.cases_of_idle hv .begin rfl hcan with
    ⟨rows, affected, hr, hview⟩ | ⟨fault, hr, ho, hlast⟩
  · rw [hr]
    refine Ends.cons ?_ before.gains_refl
    -- the script, the version and the commit, each with the draft that the one before it has left
    refine endsFrom_inside h (Option.some.inj hview).symm rfl rfl (fun _ _ => rfl)
      (fun _ => ⟨_, rfl⟩) fun s hs => ?_
    have hadd (rows : List Cells) (affected : Nat) : before.next? (fun _ => false)
        (.inside ⟨[], [m.script]⟩) (.addVersion m.version m.description) (.answer rows affected) =
          some (before, .inside ⟨[m.row], [m.script]⟩) :=
      Books.next?_addVersion.mpr ⟨⟨ht, hm, List.not_mem_nil, rfl⟩, rfl⟩
    refine endsFrom_inside h hs rfl rfl hadd (fun _ => ⟨_, rfl⟩) fun s hs => ?_
    refine endsFrom_inside h hs rfl rfl (fun _ _ => rfl) (fun _ => ⟨_, rfl⟩) fun s hs => ?_
    rw [EndsFrom, Exchange.run, Exchange.run, hs]
    exact .through rfl allAnswered_nil ⟨Books.rows_publish ht _, rfl⟩
  · rw [hr]
    simp only [Reception.confirm, Exchange.run, Exchange.sendings, hlast]
    exact .refused .begin before.gains_refl ho

/-- **What a migration comes to** is all of it or nothing. -/
theorem endsFrom_migrate (h : server.KeepsBooks view) (hv : view s = (before, .idle))
    (m : Migration) :
    m.EndsFrom server view before (m.statements before) (unrecorded before [m]) m.migrate s := by
  rw [migrate_eq, ensureTable, EndsFrom, Exchange.run_ask, Exchange.sendings_ask]
  have hcan : before.next? (fun _ => false) .idle .createVersionTable (.answer [] 0) = some _ := rfl
  rcases h.cases_of_idle hv .createVersionTable rfl hcan with
    ⟨rows, affected, hr, hview⟩ | ⟨fault, hr, ho, hlast⟩
  · rw [hr]
    refine Ends.cons ?_ before.gains_prepared
    have hprepared : view (server.reply .createVersionTable s).2 = (before.prepared, .idle) :=
      (Option.some.inj hview).symm
    generalize (server.reply .createVersionTable s).2 = s at hprepared
    simp only [Reception.confirm]
    rw [Exchange.run_ask, Exchange.sendings_ask]
    have hcan : before.prepared.next? (fun _ => false) .idle (.hasVersion m.version)
        (.answer [[.flag (decide (m.version ∈ before.versions))]] 1) =
          some (before.prepared, .idle) :=
      Books.next?_hasVersion.mpr ⟨⟨rfl, rfl⟩, rfl⟩
    rcases h.cases_of_idle hprepared (.hasVersion m.version) rfl hcan with
      ⟨rows, affected, hr, hview⟩ | ⟨fault, hr, ho, hlast⟩
    · obtain ⟨⟨-, rfl⟩, hsame⟩ := Books.next?_hasVersion.mp hview
      rw [hr]
      refine Ends.cons ?_ before.prepared.gains_refl
      rw [verdict_answer, Books.versions_prepared]
      by_cases hm : m.version ∈ before.versions
      · rw [unrecorded_of_mem hm, if_pos hm, if_pos (decide_eq_true hm), Exchange.run, hsame]
        exact .through rfl allAnswered_nil before.prepared.gains_refl
      · rw [unrecorded_of_notMem hm, if_neg hm, if_neg (by simpa using hm)]
        exact endsFrom_apply h hsame rfl hm
    · rw [hr, verdict_fault, Exchange.run, hlast]
      exact .refused (.hasVersion m.version) before.prepared.gains_refl ho
  · rw [hr]
    simp only [Reception.confirm, Exchange.run, Exchange.sendings, hlast]
    exact .refused .createVersionTable before.gains_refl ho

/-! ### A run of migrations -/

/-- **How a run of migrations ends.** All of them get through: what was not recorded is recorded
now, and its script has taken effect. Or one of them, of which a statement is refused, and that of
those before it only. The answer, the books and the connection, what has been sent and what has been
reported. -/
inductive Unrolls (server : Server σ) (view : σ → Books × Stance) (before : Books)
    (ms : List Migration) :
    Except Failure Unit → Books × Stance → List Sending → List Event → Prop
  | through {books : Books} {sent : List Sending}
      (hsent : sent.map (·.1) = ms.flatMap (statements before)) (ha : AllAnswered sent)
      (hg : before.Gains (unrecorded before ms) books) :
    Unrolls server view before ms (.ok ()) (books, .idle) sent
      ((unrecorded before ms).map news)
  | stopped {books : Books} {done later : List Migration} {m : Migration} {front : List Sending}
      {said rest : List Statement} {statement : Statement} {fault : Fault}
      (hms : ms = done ++ m :: later)
      (hsent : front.map (·.1) = done.flatMap (statements before) ++ said)
      (hm : m.statements before = said ++ statement :: rest) (ha : AllAnswered front)
      (hg : before.Gains (unrecorded before done) books) (ho : ¬server.IsObliging view) :
    Unrolls server view before ms (.error (fault.failure (m.operationFor statement)))
      (books, .idle) (front ++ [(statement, some (.fault fault))])
      ((unrecorded before done).map news)

/-- **One more migration first**, of another version than all that follow. -/
theorem Unrolls.cons {books : Books} {ms : List Migration} {answer : Except Failure Unit}
    {last : Books × Stance} {sent first : List Sending} {log : List Event}
    (h : Unrolls server view books ms answer last sent log)
    (hno : m.version ∉ ms.map (·.version)) (hfirst : first.map (·.1) = m.statements before)
    (ha : AllAnswered first) (hg : before.Gains (unrecorded before [m]) books) :
    Unrolls server view before (m :: ms) answer last (first ++ sent)
      ((unrecorded before [m]).map news ++ log) := by
  -- the others are about other versions, and find them as they were
  have hsame {m' : Migration} (hm' : m' ∈ ms) :
      m'.version ∈ books.versions ↔ m'.version ∈ before.versions := by
    rw [hg.versions, List.mem_append, or_iff_left]
    intro hmem
    obtain ⟨other, ho, he⟩ := List.mem_map.mp hmem
    obtain rfl := List.mem_singleton.mp (List.mem_of_mem_filter ho)
    exact hno (List.mem_map.mpr ⟨m', hm', he.symm⟩)
  have hunrecorded {part : List Migration} (hsub : part ⊆ ms) :
      unrecorded books part = unrecorded before part :=
    List.filter_congr fun m' hm' => decide_eq_decide.mpr (not_congr (hsame (hsub hm')))
  have hstatements {m' : Migration} (hm' : m' ∈ ms) :
      m'.statements books = m'.statements before := by
    rw [statements, statements]
    simp only [hsame hm']
  have hflat {part : List Migration} (hsub : part ⊆ ms) :
      part.flatMap (statements books) = part.flatMap (statements before) := by
    rw [List.flatMap_def, List.flatMap_def]
    exact congrArg _ (List.map_congr_left fun m' hm' => hstatements (hsub hm'))
  cases h with
  | through hsent ha' hg' =>
    rw [hunrecorded (List.Subset.refl ms)] at hg' ⊢
    rw [← List.map_append, ← unrecorded_cons]
    refine .through ?_ (ha.append ha') ?_
    · rw [List.map_append, hfirst, hsent, List.flatMap_cons, hflat (List.Subset.refl ms)]
    · rw [unrecorded_cons]
      exact hg.trans hg'
  | @stopped _ done later m' front said rest statement fault hms hsent hm ha' hg' ho =>
    have hdone : done ⊆ ms := by
      rw [hms]
      exact List.subset_append_left done _
    rw [hunrecorded hdone] at hg' ⊢
    rw [← List.map_append, ← unrecorded_cons, ← List.append_assoc]
    have hms' : m :: ms = (m :: done) ++ m' :: later := by rw [hms, List.cons_append]
    rw [hstatements (by rw [hms]; simp)] at hm
    refine .stopped hms' ?_ hm (ha.append ha') ?_ ho
    · rw [List.map_append, hfirst, hsent, List.flatMap_cons, hflat hdone, List.append_assoc]
    · rw [unrecorded_cons]
      exact hg.trans hg'

/-- **What becomes of a run of migrations**, whatever is refused on the way. -/
theorem unrolls_migrateAll (h : server.KeepsBooks view) {ms : List Migration}
    (hms : (ms.map (·.version)).Nodup) (hv : view s = (before, .idle)) :
    Unrolls server view before ms ((migrateAll ms).run server s).1
      (view ((migrateAll ms).run server s).2.1) ((migrateAll ms).sendings server s)
      ((migrateAll ms).run server s).2.2 := by
  induction ms generalizing s before with
  | nil =>
    rw [migrateAll, Exchange.run, Exchange.sendings, hv]
    exact .through rfl allAnswered_nil before.gains_refl
  | cons m ms ih =>
    rw [List.map_cons, List.nodup_cons] at hms
    have hfirst := endsFrom_migrate h hv m
    rw [EndsFrom] at hfirst
    rw [migrateAll, Exchange.run_bind, Exchange.sendings_bind]
    generalize m.migrate.sendings server s = first at hfirst ⊢
    generalize m.migrate.run server s = outcome at hfirst ⊢
    obtain ⟨answer, s', log⟩ := outcome
    dsimp only at hfirst ⊢
    generalize hs' : view s' = last at hfirst
    cases hfirst with
    | through hsent ha hg => exact (ih hms.2 hs').cons hms.1 hsent ha hg
    | stopped hsent ha hg ho =>
      rw [Exchange.run, Exchange.sendings, hs', List.append_nil]
      exact .stopped (List.nil_append _).symm rfl hsent ha hg ho

/-- No transaction is left open. -/
theorem Unrolls.snd_eq {ms : List Migration} {answer : Except Failure Unit} {last : Books × Stance}
    {sent : List Sending} {log : List Event}
    (h : Unrolls server view before ms answer last sent log) : last.2 = .idle := by
  cases h <;> rfl

/-- A server that refuses nothing takes a run to its end. -/
theorem Unrolls.of_isObliging {ms : List Migration} {answer : Except Failure Unit}
    {last : Books × Stance} {sent : List Sending} {log : List Event}
    (h : Unrolls server view before ms answer last sent log) (ho : server.IsObliging view) :
    answer = .ok () ∧ last.2 = .idle ∧ before.Gains (unrecorded before ms) last.1 ∧
      sent.map (·.1) = ms.flatMap (statements before) := by
  cases h with
  | through hsent ha hg => exact ⟨rfl, rfl, hg, hsent⟩
  | stopped _ _ _ _ _ hno => exact absurd ho hno

/-- Whatever is sent is about one of the migrations. -/
theorem Unrolls.mem_statements {ms : List Migration} {answer : Except Failure Unit}
    {last : Books × Stance} {sent : List Sending} {log : List Event}
    (h : Unrolls server view before ms answer last sent log) :
    ∀ sending ∈ sent, ∃ m ∈ ms, sending.1 ∈ m.statements before := by
  have of_flatMap {statement : Statement} {some : List Migration}
      (hmem : statement ∈ some.flatMap (statements before)) :
      ∃ m ∈ some, statement ∈ m.statements before := List.mem_flatMap.mp hmem
  intro sending hmem
  cases h with
  | through hsent _ _ =>
    refine of_flatMap ?_
    rw [← hsent]
    exact List.mem_map_of_mem hmem
  | @stopped _ done later m front said rest statement _ hms hsent hm _ _ _ =>
    rcases List.mem_append.mp hmem with hmem | hmem
    · have hmem' := List.mem_map_of_mem (f := (·.1)) hmem
      rw [hsent, List.mem_append] at hmem'
      rcases hmem' with hmem' | hmem'
      · obtain ⟨other, ho, hother⟩ := of_flatMap hmem'
        exact ⟨other, by rw [hms]; exact List.mem_append_left _ ho, hother⟩
      · exact ⟨m, by rw [hms]; simp, by rw [hm]; exact List.mem_append_left _ hmem'⟩
    · obtain rfl := List.mem_singleton.mp hmem
      exact ⟨m, by rw [hms]; simp, by rw [hm]; simp⟩

/-! ### What has taken effect, and what is executed -/

/-- What has got through is recorded. -/
theorem mem_versions_of_gains {books : Books} {ms : List Migration}
    (hg : before.Gains (unrecorded before ms) books) (hm : m ∈ ms) :
    m.version ∈ books.versions := by
  rw [hg.versions, List.mem_append]
  by_cases hrecorded : m.version ∈ before.versions
  · exact Or.inl hrecorded
  · refine Or.inr (List.mem_map_of_mem (f := (·.version)) (List.mem_filter.mpr ⟨hm, ?_⟩))
    exact decide_eq_true hrecorded

/-- The script that a statement is. -/
def script? : Statement → Option String
  | .script text => some text
  | _ => none

/-- The scripts that are sent are those of the migrations that are not recorded. -/
theorem filterMap_script?_statements (b : Books) (ms : List Migration) :
    (ms.flatMap (statements b)).filterMap script? = (unrecorded b ms).map (·.script) := by
  induction ms with
  | nil => rfl
  | cons m ms ih =>
    rw [List.flatMap_cons, List.filterMap_append, ih, unrecorded_cons, List.map_append]
    congr 1
    by_cases hm : m.version ∈ b.versions
    · rw [unrecorded_of_mem hm, statements, if_pos hm]
      rfl
    · rw [unrecorded_of_notMem hm, statements, if_neg hm]
      rfl

/-! ### The newest version -/

theorem number?_newestCell (b : Books) (affected : Nat) :
    (Reception.answer [[b.newestCell]] affected).number? = .ok b.versions.max? := by
  cases h : b.versions.max? with
  | none =>
    rw [Books.newestCell, h]
    rfl
  | some version =>
    rw [Books.newestCell, h]
    change Except.ok (some (Int64.ofInt version.toInt)) = _
    rw [Int64.ofInt_toInt]

/-- **The newest version is asked for**, of a server that refuses nothing. -/
theorem run_newestVersion (h : server.KeepsBooks view) (ho : server.IsObliging view)
    (hv : view s = (before, .idle)) :
    (newestVersion.run server s).1 = .ok before.versions.max? := by
  have hcan : before.next? (fun _ => false) .idle .createVersionTable (.answer [] 0) = some _ := rfl
  obtain ⟨rows, affected, hr, hview⟩ :=
    (h.cases_of_idle hv .createVersionTable rfl hcan).resolve_right fun ⟨_, _, hno, _⟩ => hno ho
  rw [newestVersion, ensureTable, Exchange.run_ask, hr]
  have hprepared : view (server.reply .createVersionTable s).2 = (before.prepared, .idle) :=
    (Option.some.inj hview).symm
  have hcan : before.prepared.next? (fun _ => false) .idle .newestVersion
      (.answer [[before.prepared.newestCell]] 1) = some (before.prepared, .idle) :=
    Books.next?_newestVersion.mpr ⟨⟨rfl, rfl⟩, rfl⟩
  obtain ⟨rows, affected, hr, hview⟩ :=
    (h.cases_of_idle hprepared .newestVersion rfl hcan).resolve_right fun ⟨_, _, hno, _⟩ => hno ho
  obtain ⟨⟨-, rfl⟩, -⟩ := Books.next?_newestVersion.mp hview
  simp only [Reception.confirm]
  rw [Exchange.run_ask, hr, Exchange.run, number?_newestCell]
  rfl

end Migration

/-- **Migrations are resumed where they stopped.** Let there be a server that keeps the books, with
any versions recorded, and any migrations of distinct versions; let the server refuse whatever it
refuses. A run of the migrations records those before the one that fails that were not recorded, and
the scripts of these, no others and each once, have taken effect; it reports the fault, and begins
none that comes after (`Migration.Unrolls`).

Let the run be repeated with a server that refuses nothing. It executes the scripts of those that
are not recorded yet, in their order, and all are recorded then; after this no run executes a script
at all. And the version that is found to be the newest is the greatest one that is recorded. -/
theorem migrations_are_resumed {σ : Type} {server : Server σ} {view : σ → Books × Stance}
    (h : server.KeepsBooks view) {ms : List Migration} (hms : (ms.map (·.version)).Nodup) {s : σ}
    (hs : (view s).2 = .idle) :
    let e := Migration.migrateAll ms
    let first := (e.run server s).2.1
    Migration.Unrolls server view (view s).1 ms (e.run server s).1 (view first)
        (e.sendings server s) (e.run server s).2.2 ∧
      ∀ again : Server σ, again.KeepsBooks view → again.IsObliging view →
        let second := (e.run again first).2.1
        (e.run again first).1 = .ok () ∧
          (view second).2 = .idle ∧
          (view first).1.Gains (Migration.unrecorded (view first).1 ms) (view second).1 ∧
          (∀ m ∈ ms, m.version ∈ (view second).1.versions) ∧
          ((e.sendings again first).map (·.1)).filterMap Migration.script? =
            (Migration.unrecorded (view first).1 ms).map (·.script) ∧
          (∀ later : Server σ, later.KeepsBooks view →
            ∀ sending ∈ e.sendings later second, ∀ text, sending.1 ≠ .script text) ∧
          ∃ newest, (Migration.newestVersion.run again first).1 = .ok newest ∧
            ∀ version, newest = some version ↔ version ∈ (view first).1.versions ∧
              ∀ other ∈ (view first).1.versions, other ≤ version := by
  intro e first
  have hfirst := Migration.unrolls_migrateAll h hms (Prod.ext rfl hs : view s = ((view s).1, .idle))
  refine ⟨hfirst, fun again ha ho => ?_⟩
  have hidle : view first = ((view first).1, .idle) := Prod.ext rfl hfirst.snd_eq
  intro second
  have hsecond := Migration.unrolls_migrateAll ha hms hidle
  obtain ⟨hok, hidle', hgains, hsent⟩ := hsecond.of_isObliging ho
  have hrecorded : ∀ m ∈ ms, m.version ∈ (view second).1.versions := fun m hm =>
    Migration.mem_versions_of_gains hgains hm
  refine ⟨hok, hidle', hgains, hrecorded, ?_, ?_, ?_⟩
  · rw [hsent, Migration.filterMap_script?_statements]
  · intro later hl sending hmem text htext
    have hthird := Migration.unrolls_migrateAll hl hms
      (Prod.ext rfl hidle' : view second = ((view second).1, .idle))
    obtain ⟨m, hm, hstatement⟩ := hthird.mem_statements sending hmem
    rw [Migration.statements, if_pos (hrecorded m hm), htext] at hstatement
    simp at hstatement
  · exact ⟨_, Migration.run_newestVersion ha ho hidle, fun version => List.max?_eq_some_iff⟩

/-! ### A server with refusals on a list -/

namespace Database

/-- What is answered to a statement that is carried out. -/
def Books.answer (b : Books) : Statement → Reception
  | .hasVersion version => .answer [[.flag (decide (version ∈ b.versions))]] 1
  | .newestVersion => .answer [[b.newestCell]] 1
  | _ => .answer [] 0

/-- A server that refuses the statements which it is told to, counted from zero, and those which it
cannot carry out. -/
def listedServer (refusals : List Nat) : Server ((Books × Stance) × Nat) where
  reply statement s :=
    let answer := s.1.1.answer statement
    let reception :=
      if s.2 ∈ refusals then .fault (.refused "terminating connection")
      else if (s.1.1.next? (fun _ => false) s.1.2 statement answer).isSome then answer
      else .fault (.refused "duplicate key value violates unique constraint")
    (⟨reception, 0⟩,
      (s.1.1.next? (fun _ => false) s.1.2 statement reception).getD s.1, s.2 + 1)
  elapse _ s := s

theorem Books.isSome_next?_fault (b : Books) (isTaken : Int64 → Bool) (stance : Stance)
    (statement : Statement) (fault : Fault) :
    (b.next? isTaken stance statement (.fault fault)).isSome = true := by
  cases statement <;> cases stance <;> rfl

theorem listedServer_keepsBooks (refusals : List Nat) :
    (listedServer refusals).KeepsBooks Prod.fst where
  reply {statement s} _ := by
    have hsome {reception : Reception}
        (h : (s.1.1.next? (fun _ => false) s.1.2 statement reception).isSome = true) :
        s.1.1.next? (fun _ => false) s.1.2 statement reception =
          some ((s.1.1.next? (fun _ => false) s.1.2 statement reception).getD s.1) := by
      obtain ⟨next, hn⟩ := Option.isSome_iff_exists.mp h
      rw [hn, Option.getD_some]
    dsimp only [listedServer]
    split
    · exact hsome (Books.isSome_next?_fault _ _ _ _ _)
    · split
      · exact hsome ‹_›
      · exact hsome (Books.isSome_next?_fault _ _ _ _ _)

/-- A server without refusals on its list is obliging. -/
theorem listedServer_isObliging : (listedServer []).IsObliging Prod.fst := by
  intro statement s rows affected next he hcan
  have hsome : (s.1.1.next? (fun _ => false) s.1.2 statement (s.1.1.answer statement)).isSome := by
    obtain ⟨⟨b, stance⟩, count⟩ := s
    cases statement with
    | hasVersion version =>
      cases stance with
      | idle =>
        obtain ⟨⟨ht, -⟩, -⟩ := Books.next?_hasVersion.mp hcan
        exact Option.isSome_of_eq_some (Books.next?_hasVersion.mpr ⟨⟨ht, rfl⟩, rfl⟩)
      | _ => cases he
    | newestVersion =>
      cases stance with
      | idle =>
        obtain ⟨⟨ht, -⟩, -⟩ := Books.next?_newestVersion.mp hcan
        exact Option.isSome_of_eq_some (Books.next?_newestVersion.mpr ⟨⟨ht, rfl⟩, rfl⟩)
      | _ => cases he
    -- of any other statement it makes no difference which answer it is given
    | _ => cases stance <;> exact Option.isSome_of_eq_some hcan
  have hreception : ((listedServer []).reply statement s).1.reception = s.1.1.answer statement := by
    simp [listedServer, hsome]
  rw [hreception]
  cases statement <;> exact ⟨_, _, rfl⟩

end Database

/-- The second of three migrations is recorded, and the version of the third is refused: its script
has no effect before it is run again. -/
theorem migrations_are_resumed_gap :
    let ms : List Migration := [⟨1, "a", "A"⟩, ⟨2, "b", "B"⟩, ⟨3, "c", "C"⟩]
    let s : (Books × Stance) × Nat := ((⟨some [(2, "b")], ["B"]⟩, .idle), 0)
    let e := Migration.migrateAll ms
    let first := (e.run (listedServer [12]) s).2.1
    let second := (e.run (listedServer []) first).2.1
    (ms.map (·.version)).Nodup ∧
      (e.run (listedServer [12]) s).1 = .error
        (.storage "apply migration 3" "error returned from database: terminating connection") ∧
      first.1.1 = ⟨some [(2, "b"), (1, "a")], ["B", "A"]⟩ ∧
      second.1.1.scripts = ["B", "A", "C"] ∧ ∀ m ∈ ms, m.version ∈ second.1.1.versions := by
  intro ms s e first second
  have hms : (ms.map (·.version)).Nodup := by decide
  have hs : (Prod.fst s).2 = .idle := rfl
  obtain ⟨-, hagain⟩ := migrations_are_resumed (listedServer_keepsBooks [12]) hms hs
  obtain ⟨-, -, -, hrecorded, -⟩ :=
    hagain (listedServer []) (listedServer_keepsBooks []) listedServer_isObliging
  refine ⟨hms, by decide +kernel, by decide +kernel, by decide +kernel, ?_⟩
  -- the states are named in the statement, but not in what has been proved
  dsimp only [second, first, e]
  exact hrecorded

end KeyLifecycle
