import KeyLifecycle.Policy
import Mathlib.Data.List.Basic

/-!
# Policies and their leaves

A policy is a tree, but all that it says is in its leaves, read from left to right
(`Policy.leaves`). It allows what any of them allows; where none does, it speaks through the
leftmost one (`Policy.leftmost`), however deep that one is. `KeyLifecycle.Policy.refusal?_eq` says
both in one line, by induction on the tree: the leaves of a union are those of its first side and
then those of its second side, and its leftmost leaf is that of its first side.

So the shape of a tree does not matter as long as the same leaves allow and the same leaf is the
leftmost one (`KeyLifecycle.Policy.refusal?_congr`). `Policy.Rearranges` lists ways to change the
shape that keep both, anywhere in a tree, and `Policy.Reorders` adds the exchange of two sides,
which keeps the first only.
-/

namespace KeyLifecycle

namespace Policy

variable {p q r : Policy} {caller : Caller} {target : UserId} {action : Action}

/-! ### Leaves -/

/-- A policy that is no union. -/
def IsLeaf (p : Policy) : Prop := p = selfOrAdmin ∨ p = denyAll ∨ p = fullAccess

/-- The leaves of a policy, from left to right. -/
def leaves : Policy → List Policy
  | union first second => first.leaves ++ second.leaves
  | leaf => [leaf]

/-- The leftmost leaf of a policy. -/
def leftmost : Policy → Policy
  | union first _ => first.leftmost
  | leaf => leaf

theorem isLeaf_of_mem_leaves {leaf : Policy} (h : leaf ∈ p.leaves) : leaf.IsLeaf := by
  induction p with
  | union first second ihf ihs =>
    rw [leaves, List.mem_append] at h
    exact h.elim ihf ihs
  | selfOrAdmin => exact Or.inl (List.mem_singleton.mp h)
  | denyAll => exact Or.inr (Or.inl (List.mem_singleton.mp h))
  | fullAccess => exact Or.inr (Or.inr (List.mem_singleton.mp h))

theorem head?_leaves (p : Policy) : p.leaves.head? = some p.leftmost := by
  induction p with
  | union first second ihf ihs => rw [leaves, List.head?_append, ihf, Option.some_or, leftmost]
  | _ => rfl

/-! ### What a union says -/

theorem allows_eq_true : p.allows caller target action = true ↔
    p.refusal? caller target action = none := by
  rw [allows, Option.isNone_iff_eq_none]

/-- A union is silent if either side is, and otherwise says what its first side says. -/
theorem refusal?_union (p q : Policy) (caller : Caller) (target : UserId) (action : Action) :
    (p.union q).refusal? caller target action =
      if q.allows caller target action then none else p.refusal? caller target action := by
  rw [refusal?, allows]
  cases p.refusal? caller target action with
  | none => simp
  | some reason => cases q.refusal? caller target action <;> simp

/-- **A union allows what either side allows.** -/
theorem allows_union (p q : Policy) (caller : Caller) (target : UserId) (action : Action) :
    (p.union q).allows caller target action =
      (p.allows caller target action || q.allows caller target action) := by
  rw [allows, refusal?_union]
  cases hq : q.allows caller target action with
  | true => simp
  | false => simp [allows]

/-! ### What a tree says -/

/-- **A policy allows what any of its leaves allows.** -/
theorem allows_eq_any (p : Policy) (caller : Caller) (target : UserId) (action : Action) :
    p.allows caller target action = p.leaves.any (·.allows caller target action) := by
  induction p with
  | union first second ihf ihs => rw [allows_union, leaves, List.any_append, ihf, ihs]
  | _ => simp [leaves]

/-- **What a policy says**: nothing, if any of its leaves allows, and otherwise what the leftmost
one says. -/
theorem refusal?_eq (p : Policy) (caller : Caller) (target : UserId) (action : Action) :
    p.refusal? caller target action =
      if p.leaves.any (·.allows caller target action) then none
      else p.leftmost.refusal? caller target action := by
  induction p with
  | union first second ihf ihs =>
    rw [refusal?_union, allows_eq_any, ihf, leaves, List.any_append, leftmost]
    cases first.leaves.any (·.allows caller target action) <;>
      cases second.leaves.any (·.allows caller target action) <;> rfl
  | selfOrAdmin | denyAll | fullAccess =>
    -- a leaf that allows says nothing
    simp only [leaves, leftmost, List.any_cons, List.any_nil, Bool.or_false]
    split
    · exact allows_eq_true.mp ‹_›
    · rfl

/-- **The shape of a tree does not matter**, if the same leaves allow and the same one is the
leftmost. -/
theorem refusal?_congr (h : p.leftmost = q.leftmost)
    (ha : p.allows caller target action = q.allows caller target action) :
    p.refusal? caller target action = q.refusal? caller target action := by
  rw [p.refusal?_eq, q.refusal?_eq, ← p.allows_eq_any, ← q.allows_eq_any, ha, h]

/-- **To require leave** is to be refused with the reason of the leftmost leaf, unless some leaf
allows. -/
theorem require_eq_error (h : p.allows caller target action = false) :
    ∃ reason, p.leftmost.refusal? caller target action = some reason ∧
      p.refusal? caller target action = some reason ∧
      p.require caller target action =
        .error (.policyDenied action.name target reason.message) := by
  cases hp : p.refusal? caller target action with
  | none => simp [allows, hp] at h
  | some reason =>
    refine ⟨reason, ?_, rfl, by rw [require, hp]⟩
    rw [refusal?_eq, ← allows_eq_any, h] at hp
    exact hp

theorem require_eq_ok (h : p.allows caller target action = true) :
    p.require caller target action = .ok () := by
  rw [require, allows_eq_true.mp h]

/-! ### Other trees that say the same -/

/-- **Changes of shape that change nothing**, anywhere in a tree: nested unions are bracketed
otherwise, a part is put beside itself, or a refusal of everything is put at the right end. -/
inductive Rearranges : Policy → Policy → Prop
  | bracket (p q r : Policy) : Rearranges ((p.union q).union r) (p.union (q.union r))
  | double (p : Policy) : Rearranges p (p.union p)
  | deny (p : Policy) : Rearranges p (p.union denyAll)
  | first {p p' : Policy} (q : Policy) (h : Rearranges p p') : Rearranges (p.union q) (p'.union q)
  | second {q q' : Policy} (p : Policy) (h : Rearranges q q') : Rearranges (p.union q) (p.union q')
  | refl (p : Policy) : Rearranges p p
  | symm {p q : Policy} (h : Rearranges p q) : Rearranges q p
  | trans {p q r : Policy} (h : Rearranges p q) (h' : Rearranges q r) : Rearranges p r

/-- **Changes of shape that may change the reason only**: besides those that change nothing, the two
sides of a union are exchanged. -/
inductive Reorders : Policy → Policy → Prop
  | swap (p q : Policy) : Reorders (p.union q) (q.union p)
  | rearrange {p q : Policy} (h : Rearranges p q) : Reorders p q
  | first {p p' : Policy} (q : Policy) (h : Reorders p p') : Reorders (p.union q) (p'.union q)
  | second {q q' : Policy} (p : Policy) (h : Reorders q q') : Reorders (p.union q) (p.union q')
  | trans {p q r : Policy} (h : Reorders p q) (h' : Reorders q r) : Reorders p r

/-- A part of a tree may be exchanged for one that says the same. -/
theorem Rearranges.keeps (h : Rearranges p q) : p.leftmost = q.leftmost ∧
    ∀ caller target action, p.allows caller target action = q.allows caller target action := by
  induction h with
  | bracket p q r =>
    exact ⟨rfl, fun _ _ _ => by rw [allows_union, allows_union, allows_union, allows_union,
      Bool.or_assoc]⟩
  | double p => exact ⟨rfl, fun _ _ _ => by rw [allows_union, Bool.or_self]⟩
  | deny p =>
    refine ⟨rfl, fun caller target action => ?_⟩
    have hdeny : denyAll.allows caller target action = false := rfl
    rw [allows_union, hdeny, Bool.or_false]
  | first q h ih => exact ⟨ih.1, fun _ _ _ => by rw [allows_union, allows_union, ih.2]⟩
  | second p h ih => exact ⟨rfl, fun _ _ _ => by rw [allows_union, allows_union, ih.2]⟩
  | refl p => exact ⟨rfl, fun _ _ _ => rfl⟩
  | symm h ih => exact ⟨ih.1.symm, fun _ _ _ => (ih.2 ..).symm⟩
  | trans h h' ih ih' => exact ⟨ih.1.trans ih'.1, fun _ _ _ => (ih.2 ..).trans (ih'.2 ..)⟩

theorem Reorders.allows_eq (h : Reorders p q) (caller : Caller) (target : UserId)
    (action : Action) : p.allows caller target action = q.allows caller target action := by
  induction h with
  | swap p q => rw [allows_union, allows_union, Bool.or_comm]
  | rearrange h => exact h.keeps.2 caller target action
  | first q h ih => rw [allows_union, allows_union, ih]
  | second p h ih => rw [allows_union, allows_union, ih]
  | trans h h' ih ih' => exact ih.trans ih'

/-- **Composed policies mean what their leaves mean.** A policy of any shape allows an action
exactly if at least one of its leaves does. If it refuses, the reason is the one that the leftmost
leaf gives, and to require leave fails with the text of that reason, the name of the action and the
number of the target. So another bracketing of nested unions, a part that is put beside itself, or a
refusal of everything at the right end change neither the decision nor the reason, and an exchange
of the two sides of unions does not change the decision, wherever in the tree this is done. -/
theorem policies_mean_what_their_leaves_mean (p : Policy) (caller : Caller) (target : UserId)
    (action : Action) :
    (∀ leaf ∈ p.leaves, leaf.IsLeaf) ∧ p.leaves.head? = some p.leftmost ∧
      (p.allows caller target action = true ↔
        ∃ leaf ∈ p.leaves, leaf.allows caller target action = true) ∧
      (p.allows caller target action = true → p.require caller target action = .ok ()) ∧
      (p.allows caller target action = false →
        ∃ reason, p.leftmost.refusal? caller target action = some reason ∧
          p.refusal? caller target action = some reason ∧
          p.require caller target action =
            .error (.policyDenied action.name target reason.message)) ∧
      (∀ q, p.Rearranges q →
        q.refusal? caller target action = p.refusal? caller target action) ∧
      ∀ q, p.Reorders q → q.allows caller target action = p.allows caller target action := by
  refine ⟨fun leaf => isLeaf_of_mem_leaves, p.head?_leaves, ?_, require_eq_ok, require_eq_error,
    fun q h => ?_, fun q h => (h.allows_eq caller target action).symm⟩
  · rw [allows_eq_any, List.any_eq_true]
  · exact (refusal?_congr h.keeps.1 (h.keeps.2 caller target action)).symm

-- the reason comes from the left, wherever the leaf that gives it stands
example :
    let caller : Caller := ⟨⟨5⟩, false⟩
    (denyAll.union selfOrAdmin).refusal? caller ⟨6⟩ .listCredentials =
        some (.unconditional "DenyAll") ∧
      (selfOrAdmin.union denyAll).refusal? caller ⟨6⟩ .listCredentials =
        some (.notOwnerOrAdmin ⟨5⟩) := by
  decide

end Policy

end KeyLifecycle
