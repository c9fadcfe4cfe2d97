import KeyLifecycle.Proofs.Table
import KeyLifecycle.Generator
import KeyLifecycle.Store.Handle
import KeyLifecycle.Store.Reply

/-!
# Tables without their secrets

To *blind* something is to take the secrets out of it and to leave everything else as it is. Two
things that are equal when they are blinded differ in their secrets at most.

No operation of a table or of a transaction looks at a secret: it makes no difference whether the
table is blinded before the operation or after it (`KeyLifecycle.Table.insert_blind` and its
likes).
-/

namespace KeyLifecycle

/-! ### Blinding -/

/-- The secret of nobody. -/
def Secret.none : Secret := ⟨[]⟩

def KeyMaterial.blind (m : KeyMaterial) : KeyMaterial := { m with secret := .none }

def Credential.blind (c : Credential) : Credential := { c with secret := .none }

def Row.blind (row : Row) : Row := { row with secret := .none }

def Table.blind (t : Table) : Table := { t with rows := t.rows.map Row.blind }

def Handle.blind (h : Handle) : Handle := { h with staged := h.staged.blind }

/-- Key material loses its secret; a failure has none. -/
def Generated.blind : Generated → Generated
  | material m => material m.blind
  | failed cause => failed cause
  | breakdown => breakdown

mutual

/-- **An answer without its secrets.** Only a credential that has been issued has one. -/
def Reply.blind : Reply → Reply
  | .issued c => .issued c.blind
  | .parts replies => .parts (Reply.blinds replies)
  | .done => .done
  | .found yes => .found yes
  | .summaries entries => .summaries entries
  | .count rows => .count rows

def Reply.blinds : List Reply → List Reply
  | [] => []
  | reply :: rest => reply.blind :: Reply.blinds rest

end

/-- Results that are equal but for what a function hides are failures for one cause, or values that
are. -/
theorem Failure.eq_or_of_map_eq {α β : Type} {f : α → β} {x y : Except Failure α}
    (h : x.map f = y.map f) :
    (∃ cause, x = .error cause ∧ y = .error cause) ∨ ∃ a b, x = .ok a ∧ y = .ok b ∧ f a = f b := by
  cases x with
  | error cause =>
    cases y with
    | error cause' => exact Or.inl ⟨cause, rfl, by rw [Except.error.inj h]⟩
    | ok b => simp [Except.map] at h
  | ok a =>
    cases y with
    | error cause' => simp [Except.map] at h
    | ok b => exact Or.inr ⟨a, b, rfl, rfl, Except.ok.inj h⟩

/-! ### Operations of a table -/

namespace Table

variable (t : Table) (owner : UserId) (key : AccessKey) (m : KeyMaterial)

theorem keys_blind : t.blind.keys = t.keys := by
  rw [keys, keys, blind, List.map_map]
  rfl

theorem hasKey_blind : t.blind.hasKey key = t.hasKey key := by
  rw [Bool.eq_iff_iff, hasKey_iff, hasKey_iff, keys_blind]

theorem length_blind : t.blind.rows.length = t.rows.length := by
  rw [blind, List.length_map]

/-- What an owner sees has no secret in it. -/
theorem summaries_blind : t.blind.summaries owner = t.summaries owner := by
  rw [summaries, summaries, blind, List.filter_map, List.map_map]
  rfl

theorem insert_blind :
    t.blind.insert owner m.blind =
      (t.insert owner m).map (Prod.map Credential.blind Table.blind) := by
  rw [insert, insert, hasKey_blind]
  cases h : t.hasKey m.key with
  | true => simp [h, Except.map, KeyMaterial.blind]
  | false =>
    simp [h, Except.map, KeyMaterial.blind, Credential.blind, blind, Row.blind]

theorem remove?_blind :
    t.blind.remove? owner key = (t.remove? owner key).map (Prod.map Row.blind Table.blind) := by
  have hp : Row.isFor owner key ∘ Row.blind = Row.isFor owner key := rfl
  rw [remove?, remove?, blind, List.find?_map, List.eraseP_map, hp, Option.map_map, Option.map_map]
  rfl

theorem stampRows_blind (moment : Instant) (rows : List Row) :
    stampRows key moment (rows.map Row.blind) = (stampRows key moment rows).map Row.blind := by
  induction rows with
  | nil => rfl
  | cons row rest ih =>
    have hk : row.blind.key = row.key := rfl
    rw [List.map_cons, stampRows, stampRows, ih, hk]
    by_cases h : row.key = key
    · rw [if_pos h, if_pos h]
      rfl
    · rw [if_neg h, if_neg h]
      rfl

theorem stamp?_blind (moment : Instant) :
    t.blind.stamp? key moment = (t.stamp? key moment).map Table.blind := by
  rw [stamp?, stamp?, hasKey_blind]
  cases h : t.hasKey key with
  | true => simp [blind, stampRows_blind]
  | false => simp

end Table

/-! ### Steps of a transaction -/

namespace Handle

variable (h : Handle) (plan : FailurePlan) (owner : UserId) (key : AccessKey) (m : KeyMaterial)

theorem isOpen_blind : h.blind.isOpen = h.isOpen := rfl

theorem insert_blind :
    h.blind.insert plan owner m.blind =
      (h.insert plan owner m).map (Prod.map Credential.blind Handle.blind) := by
  rw [insert, insert]
  cases ho : h.isOpen with
  | false => simp [isOpen_blind, ho, Except.map]
  | true =>
    cases hp : plan.insert with
    | true => simp [isOpen_blind, ho, Except.map]
    | false =>
      have ht : h.blind.staged.insert owner m.blind = _ := Table.insert_blind h.staged owner m
      rw [isOpen_blind, ho, ht]
      cases h.staged.insert owner m <;> rfl

theorem delete_blind :
    h.blind.delete plan owner key =
      (h.delete plan owner key).map (Prod.map (Option.map Row.blind) Handle.blind) := by
  rw [delete, delete]
  cases ho : h.isOpen with
  | false => simp [isOpen_blind, ho, Except.map]
  | true =>
    cases hp : plan.delete with
    | true => simp [isOpen_blind, ho, Except.map]
    | false =>
      have ht : h.blind.staged.remove? owner key = _ := Table.remove?_blind h.staged owner key
      rw [isOpen_blind, ho, ht]
      cases h.staged.remove? owner key <;> rfl

theorem commit_blind : h.blind.commit = h.commit.map (Prod.map Table.blind Handle.blind) := by
  rw [commit, commit, isOpen_blind]
  cases h.isOpen <;> rfl

theorem rollback_blind : h.blind.rollback = h.rollback.map Handle.blind := by
  rw [rollback, rollback, isOpen_blind]
  cases h.isOpen <;> rfl

/-! ### Two transactions -/

variable {h h' : Handle} {m m' : KeyMaterial}

/-- **Two inserts that differ in secrets** fail for one cause, or issue credentials that differ in
theirs. -/
theorem insert_agree (hh : h.blind = h'.blind) (plan : FailurePlan) (owner : UserId)
    (hm : m.blind = m'.blind) :
    (∃ cause, h.insert plan owner m = .error cause ∧ h'.insert plan owner m' = .error cause) ∨
      ∃ c c' s s', h.insert plan owner m = .ok (c, s) ∧ h'.insert plan owner m' = .ok (c', s') ∧
        c.blind = c'.blind ∧ s.blind = s'.blind := by
  have hb : (h.insert plan owner m).map (Prod.map Credential.blind Handle.blind) =
      (h'.insert plan owner m').map (Prod.map Credential.blind Handle.blind) := by
    rw [← insert_blind, hh, hm, insert_blind]
  rcases Failure.eq_or_of_map_eq hb with he | ⟨⟨c, s⟩, ⟨c', s'⟩, hv, hw, hcs⟩
  · exact Or.inl he
  · exact Or.inr ⟨c, c', s, s', hv, hw, Prod.mk.inj hcs⟩

/-- Two deletes fail for one cause, or find rows that differ in their secrets, or none. -/
theorem delete_agree (hh : h.blind = h'.blind) (plan : FailurePlan) (owner : UserId)
    (key : AccessKey) :
    (∃ cause, h.delete plan owner key = .error cause ∧ h'.delete plan owner key = .error cause) ∨
      ∃ row row' s s', h.delete plan owner key = .ok (row, s) ∧
        h'.delete plan owner key = .ok (row', s') ∧ row.map Row.blind = row'.map Row.blind ∧
        s.blind = s'.blind := by
  have hb : (h.delete plan owner key).map (Prod.map (Option.map Row.blind) Handle.blind) =
      (h'.delete plan owner key).map (Prod.map (Option.map Row.blind) Handle.blind) := by
    rw [← delete_blind, hh, delete_blind]
  rcases Failure.eq_or_of_map_eq hb with he | ⟨⟨row, s⟩, ⟨row', s'⟩, hv, hw, hrs⟩
  · exact Or.inl he
  · exact Or.inr ⟨row, row', s, s', hv, hw, Prod.mk.inj hrs⟩

theorem commit_agree (hh : h.blind = h'.blind) :
    (∃ cause, h.commit = .error cause ∧ h'.commit = .error cause) ∨
      ∃ t t' s s', h.commit = .ok (t, s) ∧ h'.commit = .ok (t', s') ∧ t.blind = t'.blind ∧
        s.blind = s'.blind := by
  have hb : h.commit.map (Prod.map Table.blind Handle.blind) =
      h'.commit.map (Prod.map Table.blind Handle.blind) := by
    rw [← commit_blind, hh, commit_blind]
  rcases Failure.eq_or_of_map_eq hb with he | ⟨⟨t, s⟩, ⟨t', s'⟩, hv, hw, hts⟩
  · exact Or.inl he
  · exact Or.inr ⟨t, t', s, s', hv, hw, Prod.mk.inj hts⟩

theorem rollback_agree (hh : h.blind = h'.blind) :
    (∃ cause, h.rollback = .error cause ∧ h'.rollback = .error cause) ∨
      ∃ s s', h.rollback = .ok s ∧ h'.rollback = .ok s' ∧ s.blind = s'.blind := by
  have hb : h.rollback.map Handle.blind = h'.rollback.map Handle.blind := by
    rw [← rollback_blind, hh, rollback_blind]
  exact Failure.eq_or_of_map_eq hb

end Handle

end KeyLifecycle
