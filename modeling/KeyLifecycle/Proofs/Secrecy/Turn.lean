import KeyLifecycle.Proofs.Secrecy.Vault

/-!
# Turns that differ in secrets at most

How long a turn lasts, and what it takes of the allowance, depends on no secret: two vaults that are
alike stay so when the same call has its turn in both, and as much of the allowance is left over
(`KeyLifecycle.Vault.Alike.poll`). Inside a transaction this is an induction on what the two works
have in common.
-/

namespace KeyLifecycle.Vault

/-- Turns that have left as much over, and vaults that are alike. -/
def TurnsAlike (t u : Turn) : Prop := t.1 = u.1 ∧ t.2.Alike u.2

variable {v w : Vault} {t u : Turn} {i : Nat}

theorem Alike.phase? (h : v.Alike w) (i : Nat) :
    (v.phase? i = none ∧ w.phase? i = none) ∨
      ∃ p q, v.phase? i = some p ∧ w.phase? i = some q ∧ p.Alike q := by
  rw [Vault.phase?, Vault.phase?]
  rcases h.call i with ⟨hv, hw⟩ | ⟨c, d, hv, hw, hcd⟩
  · exact Or.inl ⟨by rw [hv, Option.map_none], by rw [hw, Option.map_none]⟩
  · exact Or.inr ⟨_, _, by rw [hv, Option.map_some], by rw [hw, Option.map_some], hcd.phase⟩

/-- A step that is taken in some phases only is taken on both sides or on neither. -/
theorem TurnsAlike.stage (h : TurnsAlike t u) (i : Nat) {kind : Vault → Phase → Bool}
    (hk : ∀ {v w : Vault} {p q : Phase}, v.Alike w → p.Alike q → kind v p = kind w q)
    (price : Nat) : TurnsAlike (stage i kind price t) (stage i kind price u) := by
  obtain ⟨hl, hv⟩ := h
  have hany : (t.2.phase? i).any (kind t.2) = (u.2.phase? i).any (kind u.2) := by
    rcases hv.phase? i with ⟨ht, hu⟩ | ⟨p, q, ht, hu, hpq⟩
    · rw [ht, hu]
      rfl
    · rw [ht, hu, Option.any_some, Option.any_some, hk hv hpq]
  rw [Vault.stage, Vault.stage, hl, hany]
  split
  · exact ⟨rfl, hv.step i⟩
  · exact ⟨hl, hv⟩

/-- **Works that are alike are carried on alike**, to the same point and at the same price. -/
theorem Alike.carry {work work' : Work Reply} (hwork : work.Alike work') {handle handle' : Handle}
    (hh : handle.blind = handle'.blind) {left : Nat} (h : v.Alike w) :
    TurnsAlike (carry i work handle (left, v)) (carry i work' handle' (left, w)) := by
  have mayStage {h h' : Handle} (hh : h.blind = h'.blind) (left : Nat) :
      mayStage h left = mayStage h' left ∧ afterStaging h left = afterStaging h' left := by
    have ho : h.isOpen = h'.isOpen := by rw [← Handle.isOpen_blind, hh, Handle.isOpen_blind]
    rw [Vault.mayStage, Vault.mayStage, Vault.afterStaging, Vault.afterStaging, ho]
    exact ⟨rfl, rfl⟩
  induction hwork generalizing handle handle' left v w with
  | done hy => exact ⟨rfl, h.step i⟩
  | fail cause => exact ⟨rfl, h.step i⟩
  | insert owner hm hn ih =>
    rw [Vault.carry, Vault.carry, (mayStage hh left).1, (mayStage hh left).2, ← h.plan]
    split
    · rcases Handle.insert_agree hh v.plan owner hm with
        ⟨cause, hv, hw⟩ | ⟨c, c', s, s', hv, hw, hc, hs⟩
      · rw [hv, hw]
        exact ⟨rfl, (h.step i).step i⟩
      · rw [hv, hw]
        exact ih c c' hc hs (h.step i)
    · exact ⟨rfl, h⟩
  | delete owner key hn ih =>
    -- what is refused takes two steps on both sides, one to fail and one to be answered
    rw [Vault.carry, Vault.carry, (mayStage hh left).1, (mayStage hh left).2, ← h.plan]
    split
    · rcases Handle.delete_agree hh v.plan owner key with
        ⟨cause, hv, hw⟩ | ⟨row, row', s, s', hv, hw, hrow, hs⟩
      · rw [hv, hw]
        exact ⟨rfl, (h.step i).step i⟩
      · have hyes : row.isSome = row'.isSome := by
          rw [← Option.isSome_map (f := Row.blind), hrow, Option.isSome_map]
        rw [hv, hw]
        dsimp only
        rw [hyes]
        exact ih row'.isSome hs (h.step i)
    · exact ⟨rfl, h⟩
  | commit hn ih =>
    rw [Vault.carry, Vault.carry]
    rcases Handle.commit_agree hh with ⟨cause, hv, hw⟩ | ⟨t, t', s, s', hv, hw, ht, hs⟩
    · rw [hv, hw]
      exact ⟨rfl, (h.step i).step i⟩
    · rw [hv, hw]
      exact ih hs (h.step i)
  | rollback hn ih =>
    rw [Vault.carry, Vault.carry]
    rcases Handle.rollback_agree hh with ⟨cause, hv, hw⟩ | ⟨s, s', hv, hw, hs⟩
    · rw [hv, hw]
      exact ⟨rfl, (h.step i).step i⟩
    · rw [hv, hw]
      exact ih hs (h.step i)
  | pause duration hn ih =>
    rw [Vault.carry, Vault.carry]
    split
    · exact ih hh ((h.step i).step i)
    · exact ⟨rfl, h.step i⟩

theorem TurnsAlike.proceed (h : TurnsAlike t u) (i : Nat) :
    TurnsAlike (proceed i t) (proceed i u) := by
  obtain ⟨hl, hv⟩ := h
  obtain ⟨left, v⟩ := t
  obtain ⟨left', w⟩ := u
  obtain rfl : left = left' := hl
  rw [Vault.proceed, Vault.proceed]
  dsimp only at hv ⊢
  rcases hv.phase? i with ⟨ht, hu⟩ | ⟨p, q, ht, hu, hpq⟩
  · rw [ht, hu]
    exact ⟨rfl, hv⟩
  · rw [ht, hu]
    cases hpq with
    | working hwork hh => exact hv.carry hwork hh
    | _ => exact ⟨rfl, hv⟩

/-- **A turn of the same call** leaves vaults that are alike alike, and as much of the allowance. -/
theorem Alike.poll (h : v.Alike w) (i left : Nat) : TurnsAlike (v.poll i left) (w.poll i left) := by
  have hd : TurnsAlike (drain i (left, v)) (drain i (left, w)) := by
    have h₀ : TurnsAlike (left, v) (left, w) := ⟨rfl, h⟩
    -- each stage asks for the kind of the phase only, the last two for the lock and the clock, too
    refine ((((h₀.stage i ?_ 1).stage i ?_ 0).stage i ?_ 1).stage i ?_ 1).proceed i
    · intro v w p q _ hpq
      cases hpq <;> rfl
    · intro v w p q _ hpq
      cases hpq <;> rfl
    · intro v w p q hv hpq
      cases hpq <;> simp [isAdmitted, hv.lock]
    · intro v w p q hv hpq
      cases hpq <;> simp [wakes, hv.now]
  rw [Vault.poll, Vault.poll]
  generalize drain i (left, v) = t at hd ⊢
  generalize drain i (left, w) = u at hd ⊢
  obtain ⟨rest, v'⟩ := t
  obtain ⟨rest', w'⟩ := u
  obtain ⟨hl, hv⟩ := hd
  dsimp only at hl hv ⊢
  rw [hl, hv.isOverdue i]
  split
  · exact ⟨rfl, hv.expire i⟩
  · exact ⟨rfl, hv⟩

end KeyLifecycle.Vault
