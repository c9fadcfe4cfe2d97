import KeyLifecycle.Proofs.Database.Migrators

/-!
# Migrators that are late

A migrator has found that a version is not recorded, and somebody else records it before the
migrator has written it down. From then on the row cannot be written: the server refuses it, unless
the migrator has been refused or lost before, and the transaction is given up with all that the
script has done. There are four turns at most until then (`KeyLifecycle.Migration.Stage.left?`),
none of which changes anything in the books (`KeyLifecycle.Database.Migrator.Late.step`).
-/

namespace KeyLifecycle

open Database

namespace Migration

variable {m : Migration} {b b' : Books} {isTaken : Int64 → Bool} {stance stance' : Stance}
  {stage : Stage} {left : Nat} {statement : Statement} {reception : Reception}

/-- How many turns there are at most until a migration fails whose version has been recorded by
somebody else. -/
def Stage.left? : Stage → Option Nat
  | .begin => some 4
  | .script => some 3
  | .addVersion => some 2
  | .giveUp _ => some 1
  | _ => none

theorem Stage.left_pos (h : stage.left? = some left) : 0 < left := by
  cases stage <;> cases h <;> decide

/-- How far a migration has come that will fail, or has failed, and how many turns are left. -/
inductive Point.Ebbs (m : Migration) : Nat → Point → Prop
  | amid {stage : Stage} {left : Nat} (hleft : stage.left? = some left) : Ebbs m left (.amid stage)
  | failed (fault : Fault) : Ebbs m 0 (.ended (.error (fault.failure m.operation)))

/-- A version is not held at these stages. -/
theorem Stage.not_holds (hleft : stage.left? = some left) (hfits : stage.Fits m stance)
    (version : Int64) : stance.holds version = false := by
  cases stage with
  | begin =>
    obtain rfl : stance = .idle := hfits
    rfl
  | script =>
    obtain rfl : stance = .inside ⟨[], []⟩ := hfits
    rfl
  | addVersion =>
    obtain rfl : stance = .inside ⟨[], [m.script]⟩ := hfits
    rfl
  | giveUp fault => rcases hfits with rfl | rfl <;> rfl
  | _ => simp [left?] at hleft

/-- A refusal is the end of it, or the transaction is still to be given up. -/
theorem ebbs_heard_fault (fault : Fault) (hleft : stage.left? = some left)
    (hstatement : stage.statement? m = some statement) :
    ∃ left' < left, (stage.heard m (.fault fault)).Ebbs m left' := by
  cases stage with
  | begin =>
    obtain rfl := Option.some.inj hleft
    exact ⟨0, by omega, .failed fault⟩
  | script =>
    obtain rfl := Option.some.inj hleft
    exact ⟨1, by omega, .amid rfl⟩
  | addVersion =>
    obtain rfl := Option.some.inj hleft
    exact ⟨1, by omega, .amid rfl⟩
  | giveUp fault => simp [Stage.statement?] at hstatement
  | _ => simp [Stage.left?] at hleft

/-- Whatever is answered, the version cannot be written down. -/
theorem ebbs_heard (hleft : stage.left? = some left) (hs : (Point.amid stage).Stands m b stance)
    (hm : m.version ∈ b.versions) (hstatement : stage.statement? m = some statement)
    (hnext : b.next? isTaken stance statement reception = some (b', stance')) :
    ∃ left' < left, (stage.heard m reception).Ebbs m left' := by
  cases reception with
  | fault fault => exact ebbs_heard_fault fault hleft hstatement
  | answer rows affected =>
    cases stage with
    | begin =>
      obtain rfl := Option.some.inj hleft
      exact ⟨3, by omega, .amid rfl⟩
    | script =>
      obtain rfl := Option.some.inj hleft
      exact ⟨2, by omega, .amid rfl⟩
    | addVersion =>
      obtain rfl := Option.some.inj hstatement
      obtain rfl : stance = .inside ⟨[], [m.script]⟩ := hs.1
      exact absurd hm (Books.next?_addVersion.mp hnext).1.2.1
    | giveUp fault => simp [Stage.statement?] at hstatement
    | _ => simp [Stage.left?] at hleft

end Migration

namespace Database

open Migration

variable {m : Migration} {b b' : Books} {isTaken : Int64 → Bool} {stance stance' : Stance}
  {stage : Stage} {mg mg' : Migrator} {act : Act} {left : Nat}

/-- Nothing is gained as long as the version is not held, if there is a table. -/
theorem Changes.eq (h : Changes b isTaken m stance b' stance') (hm : stance.holds m.version = false)
    (ht : b.table.isSome) : b' = b := by
  cases h with
  | quiet hgains htable _ =>
    obtain ⟨table, scripts⟩ := b
    obtain ⟨table', scripts'⟩ := b'
    obtain ⟨rows, rfl⟩ := Option.isSome_iff_exists.mp ht
    obtain ⟨rows', rfl⟩ := Option.isSome_iff_exists.mp (htable ht)
    have hrows : rows' = rows ++ [] := hgains.rows
    have hscripts : scripts' = scripts ++ [] := hgains.scripts
    rw [hrows, hscripts, List.append_nil, List.append_nil]
  | committed _ _ hholds => simp [hm] at hholds

theorem Comes.ebbs {point : Option Point} (h : Comes b isTaken m stance stage b' point stance')
    (hleft : stage.left? = some left) (hs : (Point.amid stage).Stands m b stance)
    (hm : m.version ∈ b.versions) : ∀ p ∈ point, ∃ left' < left, p.Ebbs m left' := by
  cases h with
  | aborted => simp
  | heard hstatement hnext => simpa using ebbs_heard hleft hs hm hstatement hnext
  | lost fault hstatement hnext => simpa using ebbs_heard_fault fault hleft hstatement
  | reported => simp [Stage.left?] at hleft
  | gaveUp fault =>
    obtain rfl := Option.some.inj hleft
    intro p hp
    obtain rfl := Option.mem_some_iff.mp hp
    exact ⟨0, by omega, .failed fault⟩

/-- **A migrator that is late** with a migration which somebody else has applied. -/
inductive Migrator.Late (b : Books) (m : Migration) : Nat → Migrator → Prop
  | onWay {rest : List Migration} {point : Point} {stance : Stance} {left : Nat}
      (h : point.Ebbs m left) (hs : point.Stands m b stance) (hm : m.version ∈ b.versions) :
    Late b m left ⟨some (point.talk m rest), stance⟩
  | aborted : Late b m 0 ⟨none, .idle⟩

/-- **An act of a migrator that is late** leaves the books as they are, and a turn less. -/
theorem Migrator.Late.step (h : mg.Late b m left) (hact : mg.act? b isTaken act = some (b', mg')) :
    b' = b ∧ ∃ left' < left, mg'.Late b m left' := by
  cases h with
  | aborted => cases hact
  | @onWay rest point stance _ hebbs hs hm =>
    cases hebbs with
    | failed fault => cases hact
    | @amid stage _ hleft =>
      obtain ⟨talk', stance'⟩ := mg'
      obtain ⟨point, rfl, hcomes⟩ := act?_amid hact
      obtain ⟨hchanges, hnone, hsome⟩ := hcomes.changes_and_stands hs
      have ht : b.table.isSome := hs.2.1.resolve_left fun hstage => by
        rw [hstage] at hleft
        simp [Stage.left?] at hleft
      obtain rfl := hchanges.eq (Stage.not_holds hleft hs.1 m.version) ht
      refine ⟨rfl, ?_⟩
      cases point with
      | none =>
        obtain rfl := hnone rfl
        exact ⟨0, Stage.left_pos hleft, .aborted⟩
      | some p =>
        obtain ⟨left', hlt, hebbs⟩ := hcomes.ebbs hleft hs hm p rfl
        exact ⟨left', hlt, .onWay hebbs (hsome p rfl) hm⟩

/-- As long as turns are left, one can be taken. -/
theorem Migrator.Late.exists_act (h : mg.Late b m left) (hleft : 0 < left)
    (isTaken : Int64 → Bool) :
    ∃ arrival after, mg.act? b isTaken (.turn arrival) = some after := by
  cases h with
  | aborted => omega
  | @onWay rest point stance _ hebbs hs hm =>
    cases hebbs with
    | failed fault => omega
    | @amid stage _ hstage =>
      cases hstatement : stage.statement? m with
      | some statement =>
        obtain ⟨next, hnext⟩ := Option.isSome_iff_exists.mp
          (b.isSome_next?_fault isTaken stance statement .noConnection)
        rw [Point.talk_eq_ask hstatement]
        exact ⟨⟨.fault .noConnection, 0⟩, _, Option.map_eq_some_iff.mpr ⟨next, hnext, rfl⟩⟩
      | none =>
        cases stage with
        | giveUp fault => exact ⟨⟨.fault .noConnection, 0⟩, _, rfl⟩
        | report => simp [Stage.left?] at hstage
        | _ => simp [Stage.statement?] at hstatement

/-- Others do not change that. -/
theorem Changes.late {m' : Migration} {stance₁ stance₂ : Stance}
    (h : Changes b isTaken m' stance₁ b' stance₂) (hlate : mg.Late b m left) :
    mg.Late b' m left := by
  cases hlate with
  | onWay hebbs hs hm => exact .onWay hebbs (h.stands hs) (h.versions_subset hm)
  | aborted => exact .aborted

end Database

end KeyLifecycle
