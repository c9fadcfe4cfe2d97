import KeyLifecycle.Store.Table
import Mathlib.Data.List.Nodup

/-!
# The table, row by row

What each operation of a table does to its list of rows, said without looking for a row: a new row
comes to the end (`KeyLifecycle.Table.insert_eq_ok`), a row that is taken out leaves the rows before
and after it (`KeyLifecycle.Table.remove?_eq_some`), and a stamp changes one moment of use and
nothing else (`KeyLifecycle.Table.map_stampRows`).

The one property of the table that none of them breaks is that **no two rows have the same access
key** (`KeyLifecycle.Table.HasDistinctKeys`). It is what makes “the row of an owner and an access
key” a row rather than the first of several.
-/

namespace KeyLifecycle

/-- The credential that a row stands for. -/
def Row.credential (row : Row) : Credential :=
  ⟨row.id, row.owner, row.key, row.secret, row.lastAuth⟩

namespace Table

variable {t t' : Table} {owner : UserId} {key other : AccessKey} {material : KeyMaterial}
  {row : Row}

/-! ### Keys -/

/-- The access keys of the rows, oldest first. -/
def keys (t : Table) : List AccessKey := t.rows.map (·.key)

/-- **No two rows have the same access key.** -/
def HasDistinctKeys (t : Table) : Prop := t.keys.Nodup

theorem hasDistinctKeys_empty : empty.HasDistinctKeys := List.nodup_nil

theorem hasKey_iff : t.hasKey key = true ↔ key ∈ t.keys := by
  simp [hasKey, keys]

/-! ### Issuing -/

/-- The row of newly issued key material. -/
def fresh (t : Table) (owner : UserId) (material : KeyMaterial) : Row :=
  ⟨⟨t.lastId + 1⟩, owner, material.key, material.secret, none⟩

theorem insert_eq_ok {c : Credential} :
    t.insert owner material = .ok (c, t') ↔
      material.key ∉ t.keys ∧ c = (t.fresh owner material).credential ∧
        t' = ⟨t.rows ++ [t.fresh owner material], t.lastId + 1⟩ := by
  rw [insert, ← hasKey_iff]
  cases h : t.hasKey material.key with
  | true => simp
  | false => simp [fresh, Row.credential, eq_comm]

theorem insert_eq_error {cause : Failure} :
    t.insert owner material = .error cause ↔ material.key ∈ t.keys ∧ cause = taken := by
  rw [insert, ← hasKey_iff]
  cases h : t.hasKey material.key with
  | true => simp [eq_comm]
  | false => simp

theorem mem_keys_insert {c : Credential} (hi : t.insert owner material = .ok (c, t')) :
    other ∈ t'.keys ↔ other ∈ t.keys ∨ other = material.key := by
  obtain ⟨-, -, rfl⟩ := insert_eq_ok.mp hi
  simp [keys, fresh]

theorem HasDistinctKeys.insert {c : Credential} (h : t.HasDistinctKeys)
    (hi : t.insert owner material = .ok (c, t')) : t'.HasDistinctKeys := by
  obtain ⟨hk, -, rfl⟩ := insert_eq_ok.mp hi
  have hk' : keys ⟨t.rows ++ [t.fresh owner material], t.lastId + 1⟩ =
      t.keys ++ [material.key] := by
    simp [keys, fresh]
  rw [HasDistinctKeys, hk']
  exact h.append (List.nodup_singleton _) (by simpa using hk)

/-! ### Taking out -/

/-- **A row that is taken out** leaves the rows before it and those after it, in their order. -/
theorem remove?_eq_some (h : t.remove? owner key = some (row, t')) :
    ∃ before after, t.rows = before ++ row :: after ∧ t'.rows = before ++ after ∧
      t'.lastId = t.lastId ∧ row.owner = owner ∧ row.key = key := by
  obtain ⟨found, hf, he⟩ := Option.map_eq_some_iff.mp h
  obtain ⟨rfl, rfl⟩ := Prod.mk.inj he
  obtain ⟨hp, before, after, hrows, hbefore⟩ := List.find?_eq_some_iff_append.mp hf
  have hp' : found.owner = owner ∧ found.key = key := by simpa [Row.isFor] using hp
  have hno : ∀ other ∈ before, ¬(Row.isFor owner key other = true) := by
    intro other ho
    simpa using hbefore other ho
  refine ⟨before, after, hrows, ?_, rfl, hp'⟩
  dsimp only
  -- the first row that fits is the one that is erased
  rw [hrows, List.eraseP_append_right _ hno, List.eraseP_cons_of_pos hp]

theorem sublist_of_remove? (hr : t.remove? owner key = some (row, t')) :
    t'.rows.Sublist t.rows := by
  obtain ⟨before, after, hrows, hrows', -⟩ := remove?_eq_some hr
  rw [hrows, hrows']
  exact (List.sublist_cons_self row after).append_left before

theorem mem_keys_of_remove? (hr : t.remove? owner key = some (row, t')) (hk : other ∈ t'.keys) :
    other ∈ t.keys :=
  ((sublist_of_remove? hr).map _).subset hk

theorem HasDistinctKeys.remove? (h : t.HasDistinctKeys)
    (hr : t.remove? owner key = some (row, t')) : t'.HasDistinctKeys :=
  ((sublist_of_remove? hr).map _).nodup h

/-- Where keys are distinct, the row that is taken out is the only one with its key. -/
theorem key_ne_of_remove? (h : t.HasDistinctKeys) {before after : List Row}
    (hrows : t.rows = before ++ row :: after) : ∀ other ∈ before ++ after, other.key ≠ row.key := by
  rw [HasDistinctKeys, keys, hrows, List.map_append, List.map_cons, List.nodup_middle,
    List.nodup_cons] at h
  intro other ho hk
  refine h.1 ?_
  rw [← List.map_append, ← hk]
  exact List.mem_map_of_mem ho

/-- Where keys are distinct, to take a row out is to keep all others. -/
theorem HasDistinctKeys.rows_of_remove? (h : t.HasDistinctKeys)
    (hr : t.remove? owner key = some (row, t')) :
    t'.rows = t.rows.filter (!Row.isFor owner key ·) := by
  obtain ⟨before, after, hrows, hrows', -, howner, hkey⟩ := remove?_eq_some hr
  have hothers : ∀ other ∈ before ++ after, (!Row.isFor owner key other) = true := by
    intro other ho
    have hne := key_ne_of_remove? h hrows other ho
    simp [Row.isFor, hkey ▸ hne]
  have hfound : ¬(!Row.isFor owner key row) = true := by simp [Row.isFor, howner, hkey]
  rw [hrows, hrows', List.filter_append, List.filter_cons, if_neg hfound, ← List.filter_append,
    List.filter_eq_self.mpr hothers]

/-! ### Stamping -/

/-- **A stamp changes nothing but moments of use**: what a row shows without its moment stays. -/
theorem map_stampRows {α : Type} (f : Row → α)
    (hf : ∀ row moment, f { row with lastAuth := moment } = f row) (key : AccessKey)
    (moment : Instant) (rows : List Row) : (stampRows key moment rows).map f = rows.map f := by
  induction rows with
  | nil => rfl
  | cons row rest ih =>
    rw [stampRows]
    split
    · simp [hf]
    · simp [ih]

/-- Where keys are distinct, what is stamped is all that has a key. -/
theorem stampRows_eq_map (moment : Instant) {rows : List Row} (hk : (rows.map (·.key)).Nodup) :
    stampRows key moment rows =
      rows.map fun row => if row.key = key then { row with lastAuth := some moment } else row := by
  induction rows with
  | nil => rfl
  | cons row rest ih =>
    rw [List.map_cons, List.nodup_cons] at hk
    rw [stampRows, List.map_cons]
    split
    · rename_i he
      -- nobody else has the key
      have hrest : ∀ other ∈ rest, other.key ≠ key := by
        rintro other ho rfl
        exact hk.1 (List.mem_map.mpr ⟨other, ho, he.symm⟩)
      refine congrArg _ ((List.map_congr_left fun other ho => ?_).trans (List.map_id rest)).symm
      exact if_neg (hrest other ho)
    · rw [ih hk.2]

theorem stamp?_eq_some {moment : Instant} :
    t.stamp? key moment = some t' ↔
      key ∈ t.keys ∧ t' = { t with rows := stampRows key moment t.rows } := by
  rw [stamp?, ← hasKey_iff]
  cases h : t.hasKey key with
  | true => simp [eq_comm]
  | false => simp

theorem HasDistinctKeys.stamp? {moment : Instant} (h : t.HasDistinctKeys)
    (hs : t.stamp? key moment = some t') : t'.HasDistinctKeys := by
  obtain ⟨-, rfl⟩ := stamp?_eq_some.mp hs
  have hk : keys { t with rows := stampRows key moment t.rows } = t.keys :=
    map_stampRows _ (fun _ _ => rfl) key moment t.rows
  rw [HasDistinctKeys, hk]
  exact h

end Table

end KeyLifecycle
