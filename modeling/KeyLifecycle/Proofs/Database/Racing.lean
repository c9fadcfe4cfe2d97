import KeyLifecycle.Proofs.Database.Late

/-!
# Migrators do not apply a version twice

Whether a version is recorded is asked before the transaction begins that applies it, so several
migrators may find that it is not. What keeps all but one of them from applying it is the row in the
table of versions, which is written in the same transaction as the changes of the script: a version
that somebody holds in an open draft is not recorded, and nobody else holds it
(`KeyLifecycle.Database.Fleet.Sound`). Whoever commits records a new version therefore, and whoever
is late finds it recorded, or waits until it is, and is refused.

Such a migrator is lost (`KeyLifecycle.Database.Fleet.HasLost`). It has a few turns left, in which
its draft is undone, and at the end of them it reports the fault.
-/

namespace KeyLifecycle.Database

open Migration

/-- Migrators at one database. -/
structure Fleet where
  books : Books
  crew : List Migrator

/-- An act of one of the migrators. -/
structure Motion where
  migrator : Nat
  act : Act

namespace Fleet

/-- Migrators that have not begun, each with migrations of its own. -/
def start (b : Books) (lists : List (List Migration)) : Fleet :=
  ⟨b, lists.map fun ms => ⟨some (migrateAll ms), .idle⟩⟩

/-- The versions that anybody holds. -/
def isTaken (f : Fleet) (version : Int64) : Bool := f.crew.any (·.stance.holds version)

/-- What comes of a motion, if it is possible. -/
def move? (f : Fleet) (motion : Motion) : Option Fleet := do
  let mg ← f.crew[motion.migrator]?
  let (books, mg) ← mg.act? f.books f.isTaken motion.act
  return ⟨books, f.crew.set motion.migrator mg⟩

/-- What comes of motions one after the other, if they are possible. -/
def run? (f : Fleet) (motions : List Motion) : Option Fleet := motions.foldlM move? f

/-- What a migrator has answered. -/
def answer? (f : Fleet) (i : Nat) : Option (Except Failure Unit) :=
  match f.crew[i]? with
  | some ⟨some (.done answer), _⟩ => some answer
  | _ => none

variable {b : Books} {lists : List (List Migration)} {f f' : Fleet} {motion : Motion} {i j : Nat}
  {mg mg' : Migrator} {m : Migration} {left : Nat}

theorem move?_eq_some (h : f.move? motion = some f') :
    ∃ mg books mg', f.crew[motion.migrator]? = some mg ∧
      mg.act? f.books f.isTaken motion.act = some (books, mg') ∧
      f' = ⟨books, f.crew.set motion.migrator mg'⟩ := by
  obtain ⟨mg, hmg, h⟩ := Option.bind_eq_some_iff.mp h
  obtain ⟨⟨books, mg'⟩, hact, h⟩ := Option.bind_eq_some_iff.mp h
  exact ⟨mg, books, mg', hmg, hact, (Option.some.inj h).symm⟩

/-- A member after a motion: the one that has acted, or another one. -/
theorem getElem?_set_cases {crew : List Migrator} (h : (crew.set i mg')[j]? = some mg) :
    j = i ∧ mg = mg' ∨ j ≠ i ∧ crew[j]? = some mg := by
  rw [List.getElem?_set] at h
  split at h
  · split at h
    · exact Or.inl ⟨Eq.symm ‹_›, (Option.some.inj h).symm⟩
    · simp at h
  · exact Or.inr ⟨Ne.symm ‹_›, h⟩

/-! ### What holds all the time -/

/-- **What holds all the time**, from some books on: a version that is held is not recorded, and is
held by one migrator only. -/
structure Sound (b : Books) (lists : List (List Migration)) (f : Fleet) : Prop where
  stands {i : Nat} {mg : Migrator} (h : f.crew[i]? = some mg) :
    ∃ ms, lists[i]? = some ms ∧ mg.Stands f.books ms
  unrecorded {i : Nat} {mg : Migrator} {version : Int64} (h : f.crew[i]? = some mg)
    (hv : mg.stance.holds version) : version ∉ f.books.versions
  apart {i j : Nat} {mg mg' : Migrator} {version : Int64} (hi : f.crew[i]? = some mg)
    (hj : f.crew[j]? = some mg') (hv : mg.stance.holds version) (hv' : mg'.stance.holds version) :
    i = j
  nodup : f.books.versions.Nodup
  gains : ∃ done, b.Gains done f.books ∧ ∀ m ∈ done, ∃ ms ∈ lists, m ∈ ms

theorem sound_start (hb : b.versions.Nodup) : (start b lists).Sound b lists := by
  have member {i : Nat} {mg : Migrator} (h : (start b lists).crew[i]? = some mg) :
      ∃ ms, lists[i]? = some ms ∧ mg = ⟨some (migrateAll ms), .idle⟩ := by
    rw [start, List.getElem?_map] at h
    obtain ⟨ms, hms, rfl⟩ := Option.map_eq_some_iff.mp h
    exact ⟨ms, hms, rfl⟩
  refine ⟨fun h => ?_, fun h hv => ?_, fun hi _ hv _ => ?_, hb, [], b.gains_refl, by simp⟩
  · obtain ⟨ms, hms, rfl⟩ := member h
    exact ⟨ms, hms, Migrator.stands_migrateAll (List.nil_append ms).symm (by simp)⟩
  · obtain ⟨ms, -, rfl⟩ := member h
    simp [Stance.holds] at hv
  · obtain ⟨ms, -, rfl⟩ := member hi
    simp [Stance.holds] at hv

/-- Nobody holds what is not taken. -/
theorem not_holds_of_isTaken {version : Int64} (h : f.isTaken version = false)
    (hi : f.crew[i]? = some mg) : mg.stance.holds version = false := by
  rw [isTaken, List.any_eq_false] at h
  exact eq_false_of_ne_true (h mg (List.mem_of_getElem? hi))

/-- An act in which nothing is gained. What is held after it has been held before by the same
migrator, or is new. -/
theorem Sound.quiet {books : Books} (h : f.Sound b lists) (hmg : f.crew[i]? = some mg)
    (hgains : f.books.Gains [] books)
    (hholds : ∀ version, mg'.stance.holds version → mg.stance.holds version ∨
      version ∉ f.books.versions ∧ f.isTaken version = false)
    (hstands : ∀ {j : Nat} {other : Migrator}, (f.crew.set i mg')[j]? = some other →
      ∃ ms, lists[j]? = some ms ∧ other.Stands books ms) :
    Sound b lists ⟨books, f.crew.set i mg'⟩ := by
  have hversions : books.versions = f.books.versions := by
    rw [hgains.versions, List.map_nil, List.append_nil]
  have held {j : Nat} {other : Migrator} {version : Int64}
      (hj : (f.crew.set i mg')[j]? = some other) (hv : other.stance.holds version) :
      (∃ mg, f.crew[j]? = some mg ∧ mg.stance.holds version) ∨
        j = i ∧ version ∉ f.books.versions ∧ f.isTaken version = false := by
    rcases getElem?_set_cases hj with ⟨rfl, rfl⟩ | ⟨-, hj⟩
    · exact (hholds version hv).imp (fun hv => ⟨mg, hmg, hv⟩) fun hnew => ⟨rfl, hnew⟩
    · exact Or.inl ⟨other, hj, hv⟩
  obtain ⟨done, hdone, hlists⟩ := h.gains
  refine ⟨hstands, fun hj hv => ?_, fun hj hk hv hv' => ?_, hversions ▸ h.nodup,
    done ++ [], hdone.trans hgains, by simpa using hlists⟩
  · rw [hversions]
    rcases held hj hv with ⟨mg, hmg, hv⟩ | ⟨-, hv, -⟩
    · exact h.unrecorded hmg hv
    · exact hv
  · -- what is new to one is held by nobody else
    rcases held hj hv with ⟨mg₁, hmg₁, hv₁⟩ | ⟨rfl, -, hfree⟩ <;>
      rcases held hk hv' with ⟨mg₂, hmg₂, hv₂⟩ | ⟨rfl, -, hfree'⟩
    · exact h.apart hmg₁ hmg₂ hv₁ hv₂
    · simp [not_holds_of_isTaken hfree' hmg₁] at hv₁
    · simp [not_holds_of_isTaken hfree hmg₂] at hv₂
    · rfl

/-- An act in which a migration is gained, whose version has been held. -/
theorem Sound.committed {books : Books} (h : f.Sound b lists) (hmg : f.crew[i]? = some mg)
    (hgains : f.books.Gains [m] books) (hholds : mg.stance.holds m.version)
    (hidle : mg'.stance = .idle) (hm : ∃ ms ∈ lists, m ∈ ms)
    (hstands : ∀ {j : Nat} {other : Migrator}, (f.crew.set i mg')[j]? = some other →
      ∃ ms, lists[j]? = some ms ∧ other.Stands books ms) :
    Sound b lists ⟨books, f.crew.set i mg'⟩ := by
  have hversions : books.versions = f.books.versions ++ [m.version] := hgains.versions
  have held {j : Nat} {other : Migrator} {version : Int64}
      (hj : (f.crew.set i mg')[j]? = some other) (hv : other.stance.holds version) :
      j ≠ i ∧ f.crew[j]? = some other := by
    rcases getElem?_set_cases hj with ⟨rfl, rfl⟩ | hj
    · simp [hidle, Stance.holds] at hv
    · exact hj
  obtain ⟨done, hdone, hlists⟩ := h.gains
  refine ⟨hstands, fun hj hv => ?_, fun hj hk hv hv' => ?_, ?_, done ++ [m], hdone.trans hgains,
    fun m' hm' => ?_⟩
  · obtain ⟨hne, hj'⟩ := held hj hv
    rw [hversions, List.mem_append, List.mem_singleton, not_or]
    refine ⟨h.unrecorded hj' hv, fun hversion => hne ?_⟩
    exact h.apart hj' hmg hv (hversion ▸ hholds)
  · exact h.apart (held hj hv).2 (held hk hv').2 hv hv'
  · rw [hversions]
    exact h.nodup.append (List.nodup_singleton _)
      (List.disjoint_singleton.mpr (h.unrecorded hmg hholds))
  · rcases List.mem_append.mp hm' with hm' | hm'
    · exact hlists m' hm'
    · obtain rfl := List.mem_singleton.mp hm'
      exact hm

/-- **One motion.** -/
theorem Sound.move (h : f.Sound b lists) (hmove : f.move? motion = some f') :
    f'.Sound b lists := by
  obtain ⟨mg, books, mg', hmg, hact, rfl⟩ := move?_eq_some hmove
  obtain ⟨ms, hms, hstands⟩ := h.stands hmg
  obtain ⟨m, hm, hchanges, hstands'⟩ := hstands.step hact
  have stands {j : Nat} {other : Migrator}
      (hj : (f.crew.set motion.migrator mg')[j]? = some other) :
      ∃ ms, lists[j]? = some ms ∧ other.Stands books ms := by
    rcases getElem?_set_cases hj with ⟨rfl, rfl⟩ | ⟨-, hj⟩
    · exact ⟨ms, hms, hstands'⟩
    · obtain ⟨ms, hms, hother⟩ := h.stands hj
      exact ⟨ms, hms, hchanges.migrator_stands hother⟩
  generalize hstance : mg'.stance = stance' at hchanges
  cases hchanges with
  | quiet hgains _ hholds => exact h.quiet hmg hgains (hstance ▸ hholds) stands
  | committed hgains _ hholds =>
    exact h.committed hmg hgains hholds hstance ⟨ms, List.mem_of_getElem? hms, hm⟩ stands

/-- **Any number of motions.** -/
theorem Sound.run {motions : List Motion} (h : f.Sound b lists)
    (hrun : f.run? motions = some f') : f'.Sound b lists := by
  induction motions generalizing f with
  | nil => exact Option.some.inj hrun ▸ h
  | cons motion motions ih =>
    rw [run?, List.foldlM_cons] at hrun
    obtain ⟨g, hg, hrun⟩ := Option.bind_eq_some_iff.mp hrun
    exact ih (h.move hg) hrun

/-! ### Who is late -/

/-- A migrator of many that is late. -/
def IsLate (f : Fleet) (i : Nat) (m : Migration) (left : Nat) : Prop :=
  ∃ mg, f.crew[i]? = some mg ∧ mg.Late f.books m left

/-- **Who has lost a race**: a migrator that has found the version of a migration not recorded and
is about to apply it, when it has been recorded by somebody else. -/
def HasLost (f : Fleet) (i : Nat) (m : Migration) : Prop :=
  ∃ rest stage stance, f.crew[i]? = some ⟨some ((Point.amid stage).talk m rest), stance⟩ ∧
    stage ∈ [.begin, .script, .addVersion, .commit] ∧ stage.Fits m stance ∧
    m.version ∈ f.books.versions

/-- Whoever has written the version down has not lost, and the others are late. -/
theorem Sound.isLate (h : f.Sound b lists) (hlost : f.HasLost i m) :
    ∃ left ≤ 4, f.IsLate i m left := by
  obtain ⟨rest, stage, stance, hi, hstage, hfits, hm⟩ := hlost
  have ht : f.books.table.isSome := by
    rw [Option.isSome_iff_ne_none]
    intro hnone
    simp [Books.versions, Books.rows, hnone] at hm
  have late {left : Nat} (hleft : stage.left? = some left) : f.IsLate i m left :=
    ⟨_, hi, .onWay (.amid hleft) ⟨hfits, Or.inr ht, fun _ => hm⟩ hm⟩
  cases stage with
  | begin => exact ⟨4, by omega, late rfl⟩
  | script => exact ⟨3, by omega, late rfl⟩
  | addVersion => exact ⟨2, by omega, late rfl⟩
  | commit =>
    obtain rfl : stance = .inside ⟨[m.row], [m.script]⟩ := hfits
    exact absurd hm (h.unrecorded hi (by simp [Stance.holds, Migration.row]))
  | _ => simp at hstage

/-- **One motion**, while somebody is late. -/
theorem Sound.isLate_move (h : f.Sound b lists) (hlate : f.IsLate i m left)
    (hmove : f.move? motion = some f') :
    if motion.migrator = i then f'.books = f.books ∧ ∃ left' < left, f'.IsLate i m left'
    else f'.IsLate i m left := by
  obtain ⟨other, hi, hlate⟩ := hlate
  obtain ⟨mg, books, mg', hmg, hact, rfl⟩ := move?_eq_some hmove
  split
  · rename_i hown
    subst hown
    obtain rfl := Option.some.inj (hmg.symm.trans hi)
    obtain ⟨rfl, left', hlt, hlate'⟩ := hlate.step hact
    refine ⟨rfl, left', hlt, mg', ?_, hlate'⟩
    exact List.getElem?_set_self (List.getElem?_eq_some_iff.mp hmg).1
  · obtain ⟨ms, -, hstands⟩ := h.stands hmg
    obtain ⟨m', -, hchanges, -⟩ := hstands.step hact
    refine ⟨other, ?_, hchanges.late hlate⟩
    rwa [List.getElem?_set_ne ‹_›]

/-- **Any number of motions**, while somebody is late. -/
theorem Sound.isLate_run {motions : List Motion} (h : f.Sound b lists) (hlate : f.IsLate i m left)
    (hrun : f.run? motions = some f') :
    ∃ left', f'.IsLate i m left' ∧ motions.countP (·.migrator = i) + left' ≤ left := by
  induction motions generalizing f left with
  | nil =>
    obtain rfl := Option.some.inj hrun
    exact ⟨left, hlate, by simp⟩
  | cons motion motions ih =>
    rw [run?, List.foldlM_cons] at hrun
    obtain ⟨g, hg, hrun⟩ := Option.bind_eq_some_iff.mp hrun
    have hmove := h.isLate_move hlate hg
    by_cases hown : motion.migrator = i
    · rw [if_pos hown] at hmove
      obtain ⟨-, left₁, hlt, hlate₁⟩ := hmove
      obtain ⟨left', hlate', hle⟩ := ih (h.move hg) hlate₁ hrun
      refine ⟨left', hlate', ?_⟩
      rw [List.countP_cons_of_pos (by simpa using hown)]
      omega
    · rw [if_neg hown] at hmove
      obtain ⟨left', hlate', hle⟩ := ih (h.move hg) hmove hrun
      refine ⟨left', hlate', ?_⟩
      rwa [List.countP_cons_of_neg (by simpa using hown)]

/-- A migrator that is late has failed or has been broken off, or it can go on. -/
theorem IsLate.cases (h : f.IsLate i m left) :
    (∃ fault : Fault,
        f.crew[i]? = some ⟨some (.done (.error (fault.failure m.operation))), .idle⟩) ∨
      f.crew[i]? = some ⟨none, .idle⟩ ∨
      ∃ arrival f', f.move? ⟨i, .turn arrival⟩ = some f' := by
  obtain ⟨mg, hi, hlate⟩ := h
  rcases Nat.eq_zero_or_pos left with rfl | hpos
  · cases hlate with
    | aborted => exact Or.inr (Or.inl hi)
    | onWay hebbs hs _ =>
      cases hebbs with
      | failed fault =>
        obtain ⟨rfl, -⟩ := hs
        exact Or.inl ⟨fault, hi⟩
      | amid hleft => exact absurd (Stage.left_pos hleft) (Nat.lt_irrefl 0)
  · obtain ⟨arrival, ⟨books, mg'⟩, hact⟩ := hlate.exists_act hpos f.isTaken
    exact Or.inr (Or.inr ⟨arrival, ⟨books, f.crew.set i mg'⟩, by simp [move?, hi, hact]⟩)

/-- What can have been answered. -/
theorem Sound.answer (h : f.Sound b lists) {answer : Except Failure Unit}
    (ha : f.answer? i = some answer) :
    ∃ ms, lists[i]? = some ms ∧
      (answer = .ok () ∧ (∀ m ∈ ms, m.version ∈ f.books.versions) ∨
        ∃ operation, ∃ fault : Fault, answer = .error (fault.failure operation)) := by
  rw [answer?] at ha
  split at ha
  · rename_i hi
    obtain rfl := Option.some.inj ha
    obtain ⟨ms, hms, hstands⟩ := h.stands hi
    exact ⟨ms, hms, hstands.answer rfl⟩
  · simp at ha

end Fleet

/-- **Racing migrators apply a version once.** Let there be any number of migrators at one database,
each with a list of its own, and let them act in any order, statement by statement, with statements
refused, connections lost and migrators broken off anywhere. Wherever that leads, the versions that
are recorded are distinct, and what has been committed since the beginning are whole migrations out
of the lists, each with its row and the effect of its script. A migrator whose run has ended well
leaves all the versions of its list recorded; there is no other answer than that and a fault of the
store.

A migrator that has lost a race has four turns left at most. None of them changes the books, and it
can take them until it is broken off or has reported the fault under the name of the migration, with
nothing left of its transaction. -/
theorem racing_migrators_apply_once {b : Books} (hb : b.versions.Nodup)
    {lists : List (List Migration)} {motions : List Motion} {f : Fleet}
    (hf : (Fleet.start b lists).run? motions = some f) :
    (f.books.versions.Nodup ∧
        ∃ done, b.Gains done f.books ∧ ∀ m ∈ done, ∃ ms ∈ lists, m ∈ ms) ∧
      (∀ (i : Nat) (mg : Migrator), f.crew[i]? = some mg →
        ∃ ms, lists[i]? = some ms ∧ mg.Stands f.books ms) ∧
      (∀ i answer, f.answer? i = some answer → ∃ ms, lists[i]? = some ms ∧
        (answer = .ok () ∧ (∀ m ∈ ms, m.version ∈ f.books.versions) ∨
          ∃ operation, ∃ fault : Fault, answer = .error (fault.failure operation))) ∧
      ∀ i m, f.HasLost i m → ∀ later f', f.run? later = some f' →
        later.countP (·.migrator = i) ≤ 4 ∧
          (∀ act f'', f'.move? ⟨i, act⟩ = some f'' → f''.books = f'.books) ∧
          ((∃ fault : Fault,
              f'.crew[i]? = some ⟨some (.done (.error (fault.failure m.operation))), .idle⟩) ∨
            f'.crew[i]? = some ⟨none, .idle⟩ ∨
            ∃ arrival f'', f'.move? ⟨i, .turn arrival⟩ = some f'') := by
  have hsound := (Fleet.sound_start hb).run hf
  refine ⟨⟨hsound.nodup, hsound.gains⟩, fun i mg hi => hsound.stands hi,
    fun i answer ha => hsound.answer ha, fun i m hlost later f' hlater => ?_⟩
  obtain ⟨left, hleft, hlate⟩ := hsound.isLate hlost
  obtain ⟨left', hlate', hcount⟩ := hsound.isLate_run hlate hlater
  refine ⟨by omega, fun act f'' hmove => ?_, hlate'.cases⟩
  have hown := (hsound.run hlater).isLate_move hlate' hmove
  rw [if_pos rfl] at hown
  exact hown.1

/-- Two migrators both find a version not recorded; the second is late, and is refused. -/
theorem racing_migrators_apply_once_two :
    let m : Migration := ⟨1, "a", "A"⟩
    let answered (i : Nat) : Motion := ⟨i, .turn ⟨.answer [] 0, 0⟩⟩
    let notYet (i : Nat) : Motion := ⟨i, .turn ⟨.answer [[.flag false]] 1, 0⟩⟩
    let race := [answered 0, answered 1, notYet 0, notYet 1, answered 0, answered 1, answered 0,
      answered 1, answered 0, answered 0]
    ∃ f, (Books.mk none []).versions.Nodup ∧
      (Fleet.start ⟨none, []⟩ [[m], [m]]).run? race = some f ∧
      f.books = ⟨some [(1, "a")], ["A"]⟩ ∧
      f.HasLost 1 m ∧
      (∃ f', f.run? [⟨1, .turn ⟨.fault (.refused "duplicate key"), 0⟩⟩, answered 1] = some f' ∧
        f'.books = f.books ∧
        f'.answer? 1 = some (.error
          (.storage "apply migration 1" "error returned from database: duplicate key"))) ∧
      ∀ later f', f.run? later = some f' → later.countP (·.migrator = 1) ≤ 4 := by
  intro m answered notYet race
  have hb : (Books.mk none []).versions.Nodup := List.nodup_nil
  let after : Fleet := ⟨⟨some [(1, "a")], ["A"]⟩,
    [⟨some ((Point.amid .report).talk m []), .idle⟩,
      ⟨some ((Point.amid .addVersion).talk m []), .inside ⟨[], ["A"]⟩⟩]⟩
  have hrun : (Fleet.start ⟨none, []⟩ [[m], [m]]).run? race = some after := rfl
  have hlost : after.HasLost 1 m := ⟨[], .addVersion, _, rfl, by decide, rfl, by decide⟩
  let fault : Fault := .refused "duplicate key"
  let refused : Migrator := ⟨some (.done (.error (fault.failure m.operation))), .idle⟩
  have hanswer : fault.failure m.operation =
      .storage "apply migration 1" "error returned from database: duplicate key" := by
    decide +kernel
  refine ⟨after, hb, hrun, rfl, hlost, ⟨⟨after.books, after.crew.set 1 refused⟩, rfl, rfl, ?_⟩, ?_⟩
  · exact congrArg (some ∘ Except.error) hanswer
  intro later f' hlater
  exact ((racing_migrators_apply_once hb hrun).2.2.2 1 m hlost later f' hlater).1

end KeyLifecycle.Database
