import KeyLifecycle.Proofs.Table
import KeyLifecycle.Proofs.Vault.Move

/-!
# Work on a copy

What a work does to the copy of its transaction while nobody looks. `Work.Reached` says to which
remainder and to which copy a work can have come since its transaction was opened on a table, as
long as the transaction is open; a step may meet another failure plan than the step before.

A work is *plain* (`Work.IsPlain`) if it leaves the end of its transaction to whoever runs it. All
requests but units of work and leases are plain, and the transaction of a plain work is open for as
long as the work goes on.
-/

namespace KeyLifecycle

/-- Keys that are distinct stay so when a request looks at the table. -/
theorem Table.HasDistinctKeys.stamped {t : Table} (h : t.HasDistinctKeys) (request : Request) :
    (request.stamped t).HasDistinctKeys := by
  cases request with
  | stamp key moment =>
    rw [Request.stamped]
    cases hs : t.stamp? key moment with
    | none => exact h
    | some table => exact h.stamp? hs
  | _ => exact h

/-! ### Steps of a transaction -/

namespace Handle

variable {h h' : Handle} {plan : FailurePlan} {owner : UserId} {material : KeyMaterial}
  {key : AccessKey}

/-- An insert succeeds in an open transaction, where inserts are not to fail and nobody has the
access key. -/
theorem insert_eq_ok {c : Credential} :
    h.insert plan owner material = .ok (c, h') ↔
      h.isOpen = true ∧ plan.insert = false ∧
        ∃ table, h.staged.insert owner material = .ok (c, table) ∧ h' = ⟨true, table⟩ := by
  obtain ⟨isOpen, staged⟩ := h
  rw [insert]
  cases isOpen with
  | false => simp
  | true =>
    cases hp : plan.insert with
    | true => simp
    | false =>
      cases hi : staged.insert owner material with
      | error cause => simp
      | ok result => simp [Prod.ext_iff, eq_comm]

/-- A delete finds a row or none, in an open transaction, where deletes are not to fail. -/
theorem delete_eq_ok {row : Option Row} :
    h.delete plan owner key = .ok (row, h') ↔
      h.isOpen = true ∧ plan.delete = false ∧
        ((row = none ∧ h.staged.remove? owner key = none ∧ h' = h) ∨
          ∃ found table, row = some found ∧ h.staged.remove? owner key = some (found, table) ∧
            h' = ⟨true, table⟩) := by
  obtain ⟨isOpen, staged⟩ := h
  rw [delete]
  cases isOpen with
  | false => simp
  | true =>
    cases hp : plan.delete with
    | true => simp
    | false =>
      cases hr : staged.remove? owner key with
      | none => simp [eq_comm]
      | some result => simp [Prod.ext_iff, eq_comm]

theorem isOpen_of_insert {c : Credential} (hi : h.insert plan owner material = .ok (c, h')) :
    h.isOpen = true ∧ h'.isOpen = true := by
  obtain ⟨ho, -, table, -, rfl⟩ := insert_eq_ok.mp hi
  exact ⟨ho, rfl⟩

theorem isOpen_of_delete {row : Option Row} (hd : h.delete plan owner key = .ok (row, h')) :
    h.isOpen = true ∧ h'.isOpen = true := by
  obtain ⟨ho, -, ⟨-, -, rfl⟩ | ⟨found, table, -, -, rfl⟩⟩ := delete_eq_ok.mp hd
  · exact ⟨ho, ho⟩
  · exact ⟨ho, rfl⟩

end Handle

/-! ### Plain work -/

namespace Work

/-- **Plain work** neither commits nor rolls back by itself, whatever it is answered. -/
def IsPlain {α : Type} : Work α → Prop
  | done _ => True
  | fail _ => True
  | insert _ _ next => ∀ credential, (next credential).IsPlain
  | delete _ _ next => ∀ yes, (next yes).IsPlain
  | commit _ => False
  | rollback _ => False
  | pause _ next => next.IsPlain

theorem isPlain_issue (owner : UserId) (material : KeyMaterial) : (issue owner material).IsPlain :=
  fun _ => trivial

theorem isPlain_revoke {α : Type} (owner : UserId) (key : AccessKey) {next : Work α}
    (h : next.IsPlain) : (revoke owner key next).IsPlain := by
  rintro (_ | _)
  · exact trivial
  · exact h

end Work

/-- A plain request is no lease, and its work, if it has some, is plain. -/
def Request.IsPlain (request : Request) : Prop :=
  request ≠ .lease ∧ ∀ work, request.work? = some work → work.IsPlain

/-- The requests that the store makes for itself are plain. -/
theorem Request.isPlain_of_ne {request : Request} (hl : request ≠ .lease)
    (hu : ∀ name work, request ≠ .unit name work) : request.IsPlain := by
  refine ⟨hl, fun work hw => ?_⟩
  cases request with
  | create owner material =>
    obtain rfl := Option.some.inj hw
    exact Work.isPlain_issue owner material
  | delete owner key =>
    obtain rfl := Option.some.inj hw
    exact Work.isPlain_revoke owner key trivial
  | rotate owner key material =>
    obtain rfl := Option.some.inj hw
    exact Work.isPlain_revoke owner key (Work.isPlain_issue owner material)
  | unit name work' => exact absurd rfl (hu name work')
  | _ => simp [work?] at hw

/-! ### What a work has come to -/

/-- **What a work has come to, and its transaction, while the transaction is open**: it was opened
on a table, and each step since then met some failure plan. -/
inductive Work.Reached (plans : FailurePlan → Prop) (work : Work Reply) (table : Table) :
    Work Reply → Handle → Prop
  | opened : Reached plans work table work (.opened table)
  | insert {owner : UserId} {material : KeyMaterial} {next : Credential → Work Reply}
      {handle staged : Handle} {plan : FailurePlan} {credential : Credential}
      (h : Reached plans work table (.insert owner material next) handle) (hp : plans plan)
      (hi : handle.insert plan owner material = .ok (credential, staged)) :
    Reached plans work table (next credential) staged
  | delete {owner : UserId} {key : AccessKey} {next : Bool → Work Reply}
      {handle staged : Handle} {plan : FailurePlan} {row : Option Row}
      (h : Reached plans work table (.delete owner key next) handle) (hp : plans plan)
      (hd : handle.delete plan owner key = .ok (row, staged)) :
    Reached plans work table (next row.isSome) staged
  | fault {rest : Work Reply} {handle : Handle} {plan : FailurePlan} {cause : Failure}
      (h : Reached plans work table rest handle) (hp : plans plan)
      (hf : rest.fault? plan handle = some cause) :
    Reached plans work table (.fail cause) handle
  | pause {duration : Span} {next : Work Reply} {handle : Handle}
      (h : Reached plans work table (.pause duration next) handle) :
    Reached plans work table next handle

namespace Work.Reached

variable {plans : FailurePlan → Prop} {work rest : Work Reply} {table : Table} {handle : Handle}

theorem isOpen (h : Reached plans work table rest handle) : handle.isOpen = true := by
  induction h with
  | opened => rfl
  | insert _ _ hi => exact (Handle.isOpen_of_insert hi).2
  | delete _ _ hd => exact (Handle.isOpen_of_delete hd).2
  | fault _ _ _ ih => exact ih
  | pause _ ih => exact ih

/-- What is left of plain work is plain. -/
theorem isPlain (h : Reached plans work table rest handle) (hw : work.IsPlain) : rest.IsPlain := by
  induction h with
  | opened => exact hw
  | insert _ _ _ ih => exact ih _
  | delete _ _ _ ih => exact ih _
  | fault => exact trivial
  | pause _ ih => exact ih

end Work.Reached

end KeyLifecycle
