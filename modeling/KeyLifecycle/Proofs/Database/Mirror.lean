import KeyLifecycle.Database.Transaction
import KeyLifecycle.Proofs.AccessKey
import KeyLifecycle.Proofs.Database.Query
import KeyLifecycle.Proofs.Vault.Numbering

/-!
# The same rows in memory and in a database

A row in memory and a row of the database are the same row if owner, access key and secret are the
same, the moment of use is the same in whole microseconds (`stored_near`, `micros_stored`), and the
numbers correspond. They cannot be asked to be the same: a number that was drawn for a row that came
to nothing is lost to the database, and is given out again in memory. So there is a renumbering,
which keeps the order (`KeepsOrder`), and goes on from row to row.

A list of rows in the database *mirrors* a table (`Mirror`) if it holds the same rows in the same
order. What is kept beside that is what makes the queries about credentials do what the operations
of a table do:

| query | operation | theorem |
|---|---|---|
| `Query.issue` | `Table.insert` | `Mirror.issue_ok`, `Mirror.insert`, `Mirror.issue_taken` |
| `Query.revoke` | `Table.remove?` | `Mirror.revoke_some`, `Mirror.revoke_none` |
| `Query.stamp` | `Table.stamp?` | `Mirror.stamp_some`, `Mirror.stamp_none` |
| `Query.ofOwner` | `Table.summaries` | `Mirror.ofOwner` |

A query speaks of all rows that fit, where a table looks for the first one. The two agree because
there are never two rows with one access key. And a query has to ask for the order that a table is
in, which is the order of numbers on both sides.
-/

namespace KeyLifecycle

namespace Database

/-! ### Renumberings -/

/-- The renumbering keeps the order of the numbers from the first one up to some number. -/
def KeepsOrder (f : Int64 → Int64) (most : Int64) : Prop :=
  ∀ a b, 1 ≤ a → a < b → b ≤ most → f a < f b

/-- Two renumberings do the same with the numbers from the first one up to some number. -/
def SameUpTo (most : Int64) (f g : Int64 → Int64) : Prop :=
  ∀ id, 1 ≤ id → id ≤ most → f id = g id

theorem SameUpTo.refl (most : Int64) (f : Int64 → Int64) : SameUpTo most f f := fun _ _ _ => rfl

theorem SameUpTo.trans {most most' : Int64} {f g h : Int64 → Int64} (hfg : SameUpTo most f g)
    (hgh : SameUpTo most' g h) (hle : most ≤ most') : SameUpTo most f h := fun id hone hid =>
  (hfg id hone hid).trans (hgh id hone (Int64.le_trans hid hle))

/-! ### Moments -/

/-- A moment as it comes back from the database. -/
def stored (moment : Instant) : Instant := .ofMicros moment.micros

/-- The nanoseconds of a moment since the beginning of 1970. -/
def nanosOf (moment : Instant) : Int := moment.seconds * 1000000000 + moment.nanos

theorem nanosOf_ofMicros (micros : Int) : nanosOf (.ofMicros micros) = 1000 * micros := by
  have hnanos : ((micros % 1000000).toNat : Int) = micros % 1000000 :=
    Int.toNat_of_nonneg (Int.emod_nonneg _ (by decide))
  rw [nanosOf, Instant.ofMicros, Int.natCast_mul, hnanos]
  dsimp only
  omega

theorem micros_eq (moment : Instant) :
    moment.micros =
      (nanosOf moment - Instant.epochShift * 1000000000).tdiv 1000 +
        Instant.epochShift * 1000000 := by
  have hnanos : (moment.seconds - Instant.epochShift) * 1000000000 + moment.nanos =
      nanosOf moment - Instant.epochShift * 1000000000 := by
    rw [nanosOf]
    omega
  rw [Instant.micros, hnanos]

/-- **A moment that comes back** is less than a microsecond away. -/
theorem stored_near (moment : Instant) :
    (nanosOf (stored moment) - nanosOf moment).natAbs < 1000 := by
  have hsplit :=
    Int.tmod_add_mul_tdiv (nanosOf moment - Instant.epochShift * 1000000000) 1000
  have hsmall := Int.natAbs_tmod (nanosOf moment - Instant.epochShift * 1000000000) 1000
  have hlt := Nat.mod_lt (nanosOf moment - Instant.epochShift * 1000000000).natAbs
    (show 0 < (1000 : Int).natAbs by decide)
  rw [← hsmall] at hlt
  rw [stored, nanosOf_ofMicros, micros_eq]
  omega

/-- And it has the same microseconds. -/
theorem micros_stored (moment : Instant) : (stored moment).micros = moment.micros := by
  have hwhole : 1000 * moment.micros - Instant.epochShift * 1000000000 =
      1000 * (moment.micros - Instant.epochShift * 1000000) := by
    omega
  rw [stored, micros_eq, nanosOf_ofMicros, hwhole, Int.mul_tdiv_cancel_left _ (by decide)]
  omega

end Database

open Database

/-! ### What is known by a value -/

/-- A user is known by the number. -/
theorem UserId.value_inj {u u' : UserId} : u.value = u'.value ↔ u = u' := by
  cases u
  cases u'
  simp

/-! ### Rows and answers -/

/-- A row in the database, with its number there. -/
def Row.record (f : Int64 → Int64) (row : Row) : Record
  | .id => some (.int (f row.id.value))
  | .owner => some (.int row.owner.value)
  | .key => some (.text row.key.text)
  | .secret => some (.bytes row.secret.bytes)
  | .lastAuth => row.lastAuth.map fun moment => .moment moment.micros

/-- What is shown of a row in the database. -/
def Summary.stored (s : Summary) : Summary := { s with lastAuth := s.lastAuth.map Database.stored }

/-- An answer as it comes from the database. -/
def Reply.stored (f : Int64 → Int64) : Reply → Reply
  | issued c => issued { c with id := ⟨f c.id.value⟩ }
  | summaries entries => summaries (entries.map Summary.stored)
  | other => other

namespace Row

variable {f g : Int64 → Int64} {row : Row}

theorem record_congr (h : f row.id.value = g row.id.value) : row.record f = row.record g := by
  funext column
  cases column with
  | id => exact congrArg (fun n => some (Bind.int n)) h
  | _ => rfl

/-! ### Which rows fit -/

theorem fits_owner (f : Int64 → Int64) (row : Row) (u : UserId) :
    Record.fits [.owner] [.int u.value] (row.record f) = decide (row.owner = u) := by
  simp [Record.fits, record, UserId.value_inj]

theorem fits_key (f : Int64 → Int64) (row : Row) (key : AccessKey) (rest : List Bind) :
    Record.fits [.key] (.text key.text :: rest) (row.record f) = decide (row.key = key) := by
  simp [Record.fits, record, AccessKey.text_inj]

theorem fits_isFor (f : Int64 → Int64) (row : Row) (u : UserId) (key : AccessKey) :
    Record.fits [.owner, .key] [.int u.value, .text key.text] (row.record f) =
      row.isFor u key := by
  simp [Record.fits, record, isFor, UserId.value_inj, AccessKey.text_inj]

/-! ### Rows as they are shown -/

/-- What is read off a row that is shown is its summary. -/
theorem summary_record (f : Int64 → Int64) (row : Row) :
    Cells.summary ([Attribute.key, .lastAuth].map fun column => Bind.cell (row.record f column)) =
      .ok row.summary.stored := by
  have hkey : Cells.read [Cell.text row.key.text, Bind.cell (row.record f .lastAuth)]
      (.named 0 "access_key") Cell.text? = .ok row.key.text := rfl
  have hlast : Cells.read? [Cell.text row.key.text, Bind.cell (row.record f .lastAuth)]
      (.named 1 "last_auth") Cell.moment? = .ok (row.lastAuth.map Database.stored) := by
    rw [record]
    cases row.lastAuth with
    | none => rfl
    | some moment => rfl
  show Cells.summary [Cell.text row.key.text, Bind.cell (row.record f .lastAuth)] = _
  rw [Cells.summary, hkey, hlast]
  simp only [Except.mapError, bind, Except.bind, AccessKey.parse_text]
  rfl

theorem mapM_summary (f : Int64 → Int64) (rows : List Row) :
    (rows.map fun row => [Attribute.key, .lastAuth].map fun column =>
        Bind.cell (row.record f column)).mapM Cells.summary =
      .ok (rows.map fun row => row.summary.stored) := by
  induction rows with
  | nil => rfl
  | cons row rest ih =>
    rw [List.map_cons, List.mapM_cons, summary_record, ih]
    rfl

end Row

namespace Database

/-! ### Sound rules -/

/-- **A database can be relied upon** for so many new rows: their numbers are positive and increase,
and whoever issues an access key that is there is told that it is a duplicate. -/
structure Rules.IsSound (r : Rules) (most : Nat) : Prop where
  positive : ∀ k < most, 0 < r.sequence k
  increasing : ∀ j k, j < k → k < most → r.sequence j < r.sequence k
  complaint : hasPiece "duplicate key".toList (r.complaint (.unique .key)).toList = true

/-- Numbers that increase are at least as great as their places. -/
theorem Rules.IsSound.lt_sequence {r : Rules} {most k : Nat} (h : r.IsSound most) (hk : k < most) :
    (k : Int) < (r.sequence k).toInt := by
  induction k with
  | zero => exact Int64.lt_iff_toInt_lt.mp (h.positive 0 hk)
  | succ k ih =>
    have hbefore := ih (by omega)
    have hstep := Int64.lt_iff_toInt_lt.mp (h.increasing k (k + 1) (by omega) hk)
    omega

/-- So there are only so many of them. -/
theorem Rules.IsSound.lt_of_lt {r : Rules} {most k : Nat} (h : r.IsSound most) (hk : k < most) :
    k + 1 < 2 ^ 63 := by
  have hlt := h.lt_sequence hk
  have hle := Int64.toInt_lt (r.sequence k)
  omega

/-- To have a piece is to have it as one stretch. -/
theorem hasPiece_iff {piece text : List Char} : hasPiece piece text = true ↔ piece <:+: text := by
  induction text with
  | nil => rw [hasPiece, List.isEmpty_iff, List.infix_nil]
  | cons c rest ih =>
    rw [hasPiece, Bool.or_eq_true, List.isPrefixOf_iff_prefix, ih, List.infix_cons_iff]

/-- What a complaint says is a piece of the wording of the fault. -/
theorem hasPiece_message {piece : List Char} {complaint : String}
    (h : hasPiece piece complaint.toList = true) :
    hasPiece piece (Fault.refused complaint).message.toList = true := by
  have hmessage : (Fault.refused complaint).message.toList =
      "error returned from database: ".toList ++ complaint.toList := String.toList_append
  rw [hasPiece_iff] at h ⊢
  rw [hmessage]
  exact List.infix_append_of_infix_right h

/-- So a duplicate is told from any other fault. -/
theorem Rules.IsSound.insertFailure_eq {r : Rules} {most : Nat} (h : r.IsSound most) :
    insertFailure (.refused (r.complaint (.unique .key))) = Table.taken := by
  have hconflict : (Fault.refused (r.complaint (.unique .key))).isConflict = true := by
    rw [Fault.isConflict, Bool.or_eq_true]
    exact Or.inl (hasPiece_message h.complaint)
  rw [insertFailure, if_pos hconflict]

/-! ### Mirrored tables -/

/-- **The records mirror the table**: they are its rows under other numbers, which have all been
drawn. -/
structure Mirror (r : Rules) (f : Int64 → Int64) (t : Table) (records : List Record) (drawn : Nat) :
    Prop where
  rows : records = t.rows.map (Row.record f)
  distinct : t.HasDistinctKeys
  numbered : t.IsNumbered drawn
  drawn_of_le : ∀ id, 1 ≤ id → id ≤ t.lastId → ∃ k < drawn, f id = r.sequence k
  keepsOrder : KeepsOrder f t.lastId

namespace Mirror

variable {r : Rules} {f : Int64 → Int64} {t t' : Table} {records : List Record}
  {drawn drawn' most : Nat} {u : UserId} {key : AccessKey} {m : KeyMaterial} {row : Row}
  {c : Credential}

theorem empty (r : Rules) (f : Int64 → Int64) (drawn : Nat) : Mirror r f .empty [] drawn := by
  have hno {id : Int64} (hone : 1 ≤ id) : ¬id ≤ Table.empty.lastId :=
    Int64.not_le.mpr (Int64.lt_of_lt_of_le (by decide) hone)
  constructor
  · rfl
  · exact Table.hasDistinctKeys_empty
  · exact Table.isNumbered_empty drawn
  · exact fun id hone hid => absurd hid (hno hone)
  · exact fun a b hone hlt hb =>
      absurd hb (hno (Int64.le_trans hone (Int64.le_of_lt hlt)))

/-- Numbers that have been lost make no difference. -/
theorem mono (h : Mirror r f t records drawn) (hle : drawn ≤ drawn') :
    Mirror r f t records drawn' where
  rows := h.rows
  distinct := h.distinct
  numbered := h.numbered.mono hle
  drawn_of_le id hone hid := by
    obtain ⟨k, hk, hseq⟩ := h.drawn_of_le id hone hid
    exact ⟨k, Nat.lt_of_lt_of_le hk hle, hseq⟩
  keepsOrder := h.keepsOrder

/-! ### Issuing -/

/-- A number that is drawn now is not the number of a row. -/
theorem ne_sequence (h : Mirror r f t records drawn) (hr : r.IsSound most) (hd : drawn < most)
    (hrow : row ∈ t.rows) : f row.id.value ≠ r.sequence drawn := by
  obtain ⟨hone, hid⟩ := h.numbered.bounds hrow
  obtain ⟨k, hk, he⟩ := h.drawn_of_le _ hone hid
  rw [he]
  exact Int64.ne_of_lt (hr.increasing k drawn hk hd)

/-- **The only rule that a new row may break** is that nobody has its access key. -/
theorem violation?_eq (h : Mirror r f t records drawn) (hr : r.IsSound most) (hd : drawn < most)
    (hu : r.isUser u.value = true) (m : KeyMaterial) :
    r.violation? records (.ofBinds (r.sequence drawn) [.owner, .key, .secret]
      (Statement.insertCredential u m).binds) =
        if t.hasKey m.key then some (.unique .key) else none := by
  have hids : records.any (· .id = some (.int (r.sequence drawn))) = false := by
    rw [h.rows, List.any_map, List.any_eq_false]
    intro row hrow
    simpa [Row.record] using h.ne_sequence hr hd hrow
  have hkeys : records.any (· .key = some (.text m.key.text)) = t.hasKey m.key := by
    rw [h.rows, List.any_map, Table.hasKey]
    refine congrArg t.rows.any (funext fun row => ?_)
    simp [Row.record, AccessKey.text_inj]
  rw [r.violation?_issue, hids, hkeys, hu]
  rfl

/-- **An access key that is there** is not issued. A number is lost. -/
theorem issue_taken {cause : Failure} (h : Mirror r f t records drawn) (hr : r.IsSound most)
    (hd : drawn < most) (hu : r.isUser u.value = true) (hi : t.insert u m = .error cause) :
    Query.issue.perform r (Statement.insertCredential u m).binds records drawn =
      (.fault (.refused (r.complaint (.unique .key))), records, drawn + 1) := by
  have hkey : t.hasKey m.key = true := Table.hasKey_iff.mpr (Table.insert_eq_error.mp hi).1
  rw [Query.issue, Query.perform, h.violation?_eq hr hd hu, hkey]
  rfl

/-- The renumbering that goes on with the next number of the sequence. -/
def next (r : Rules) (f : Int64 → Int64) (t : Table) (drawn : Nat) : Int64 → Int64 :=
  Function.update f (t.lastId + 1) (r.sequence drawn)

theorem next_lastId (r : Rules) (f : Int64 → Int64) (t : Table) (drawn : Nat) :
    next r f t drawn (t.lastId + 1) = r.sequence drawn :=
  Function.update_self ..

section Next

variable (h : Mirror r f t records drawn) (hr : r.IsSound most) (hd : drawn < most)

include h hr hd

/-- There is a number after the last one. -/
theorem room : t.lastId.toInt + 1 < 2 ^ 63 := by
  have hfew := h.numbered.few
  have hroom := hr.lt_of_lt hd
  omega

theorem lastId_lt : t.lastId < t.lastId + 1 := Int64.lt_add_one (h.room hr hd)

/-- A number up to the next one is the next one, or has been there. -/
theorem le_or_eq_next {id : Int64} (hid : id ≤ t.lastId + 1) :
    id ≤ t.lastId ∨ id = t.lastId + 1 := by
  by_cases he : id = t.lastId + 1
  · exact Or.inr he
  · refine Or.inl (Int64.le_iff_toInt_le.mpr ?_)
    have hlt := Int64.lt_iff_toInt_lt.mp (Int64.lt_of_le_of_ne hid he)
    rw [Int64.toInt_add_one (h.room hr hd)] at hlt
    omega

/-- What has been numbered keeps its number. -/
theorem sameUpTo_next : SameUpTo t.lastId f (next r f t drawn) := by
  intro id hone hid
  have hne : id ≠ t.lastId + 1 := Int64.ne_of_lt (Int64.lt_of_le_of_lt hid (h.lastId_lt hr hd))
  rw [next, Function.update_of_ne hne]

theorem map_record_next : t.rows.map (Row.record (next r f t drawn)) = records := by
  rw [h.rows]
  refine List.map_congr_left fun row hrow => Row.record_congr ?_
  obtain ⟨hone, hid⟩ := h.numbered.bounds hrow
  exact (h.sameUpTo_next hr hd _ hone hid).symm

theorem drawn_next {id : Int64} (hone : 1 ≤ id) (hid : id ≤ t.lastId + 1) :
    ∃ k < drawn + 1, next r f t drawn id = r.sequence k := by
  rcases h.le_or_eq_next hr hd hid with hle | rfl
  · obtain ⟨k, hk, hseq⟩ := h.drawn_of_le id hone hle
    exact ⟨k, Nat.lt_succ_of_lt hk, (h.sameUpTo_next hr hd id hone hle).symm.trans hseq⟩
  · exact ⟨drawn, Nat.lt_succ_self drawn, next_lastId r f t drawn⟩

/-- The next number of the sequence is greater than all that have been drawn. -/
theorem keepsOrder_next : KeepsOrder (next r f t drawn) (t.lastId + 1) := by
  have hsame := h.sameUpTo_next hr hd
  intro a b hone hab hb
  rcases h.le_or_eq_next hr hd hb with hle | rfl
  · have hale : a ≤ t.lastId := Int64.le_trans (Int64.le_of_lt hab) hle
    rw [← hsame a hone hale, ← hsame b (Int64.le_trans hone (Int64.le_of_lt hab)) hle]
    exact h.keepsOrder a b hone hab hle
  · have hale : a ≤ t.lastId :=
      (h.le_or_eq_next hr hd (Int64.le_of_lt hab)).resolve_right (Int64.ne_of_lt hab)
    obtain ⟨k, hk, hseq⟩ := h.drawn_of_le a hone hale
    rw [← hsame a hone hale, next_lastId, hseq]
    exact hr.increasing k drawn hk hd

/-- **A new row** on both sides. -/
theorem insert (hi : t.insert u m = .ok (c, t')) :
    Mirror r (next r f t drawn) t' (t'.rows.map (Row.record (next r f t drawn))) (drawn + 1) := by
  obtain ⟨-, -, rfl⟩ := Table.insert_eq_ok.mp hi
  constructor
  · rfl
  · exact h.distinct.insert hi
  · exact h.numbered.insert (hr.lt_of_lt hd) hi
  · exact fun id hone hid => h.drawn_next hr hd hone hid
  · exact h.keepsOrder_next hr hd

/-- **A row is inserted** that has the next number of the sequence. -/
theorem issue_ok (hu : r.isUser u.value = true) (hi : t.insert u m = .ok (c, t')) :
    Query.issue.perform r (Statement.insertCredential u m).binds records drawn =
      (.answer [[.int (r.sequence drawn).toInt]] 1,
        t'.rows.map (Row.record (next r f t drawn)), drawn + 1) := by
  obtain ⟨hkey, -, rfl⟩ := Table.insert_eq_ok.mp hi
  have hnokey : t.hasKey m.key = false := by simpa [← Table.hasKey_iff] using hkey
  have hnew : Record.ofBinds (r.sequence drawn) [.owner, .key, .secret]
      (Statement.insertCredential u m).binds = (t.fresh u m).record (next r f t drawn) := by
    funext column
    cases column with
    | id => exact congrArg (fun n => some (Bind.int n)) (next_lastId r f t drawn).symm
    | _ => rfl
  rw [Query.issue, Query.perform, h.violation?_eq hr hd hu, hnokey, if_neg Bool.false_ne_true, hnew]
  dsimp only
  rw [List.map_append, h.map_record_next hr hd]
  simp [Row.record, Bind.cell, Table.fresh, next_lastId]

end Next

/-! ### Revoking -/

theorem fits_revoke (f : Int64 → Int64) (u : UserId) (key : AccessKey) :
    Record.fits [.owner, .key] (Statement.deleteCredential u key).binds ∘ Row.record f =
      Row.isFor u key :=
  funext fun row => Row.fits_isFor f row u key

/-- To revoke is to keep all rows that are not those of an owner and an access key. -/
theorem revoke_eq (h : Mirror r f t records drawn) (u : UserId) (key : AccessKey) :
    Query.revoke.perform r (Statement.deleteCredential u key).binds records drawn =
      (.answer [] (t.rows.countP (Row.isFor u key)),
        (t.rows.filter (!Row.isFor u key ·)).map (Row.record f), drawn) := by
  have hkept : (fun row => !Record.fits [.owner, .key] (Statement.deleteCredential u key).binds
      (Row.record f row)) = (!Row.isFor u key ·) :=
    funext fun row => congrArg not (Row.fits_isFor f row u key)
  rw [Query.revoke, Query.perform, h.rows, List.countP_map, fits_revoke, List.filter_map]
  exact congrArg (fun kept => (_, (t.rows.filter kept).map (Row.record f), _)) hkept

/-- **A row that is taken out** is taken out on both sides. -/
theorem revoke_some (h : Mirror r f t records drawn) (hi : t.remove? u key = some (row, t')) :
    (∃ affected, 0 < affected ∧
      Query.revoke.perform r (Statement.deleteCredential u key).binds records drawn =
        (.answer [] affected, t'.rows.map (Row.record f), drawn)) ∧
      Mirror r f t' (t'.rows.map (Row.record f)) drawn := by
  obtain ⟨before, after, hrows, -, hid, howner, hkey⟩ := Table.remove?_eq_some hi
  have hmem : row ∈ t.rows := by simp [hrows]
  have hfor : row.isFor u key = true := by simp [Row.isFor, howner, hkey]
  refine ⟨⟨t.rows.countP (Row.isFor u key), List.countP_pos_iff.mpr ⟨row, hmem, hfor⟩, ?_⟩, ?_⟩
  · rw [h.revoke_eq, ← h.distinct.rows_of_remove? hi]
  · exact ⟨rfl, h.distinct.remove? hi, h.numbered.remove? hi, hid ▸ h.drawn_of_le,
      hid ▸ h.keepsOrder⟩

/-- **Nothing to take out** on one side is nothing to take out on the other. -/
theorem revoke_none (h : Mirror r f t records drawn) (hi : t.remove? u key = none) :
    Query.revoke.perform r (Statement.deleteCredential u key).binds records drawn =
      (.answer [] 0, records, drawn) := by
  have hno : ∀ row ∈ t.rows, ¬row.isFor u key = true :=
    List.find?_eq_none.mp (Option.map_eq_none_iff.mp hi)
  have hall : t.rows.filter (!Row.isFor u key ·) = t.rows :=
    List.filter_eq_self.mpr fun row hrow => by simpa using hno row hrow
  rw [h.revoke_eq, List.countP_eq_zero.mpr hno, hall, h.rows]

/-! ### Stamping -/

/-- To stamp is to set the moment of use in all rows with an access key. -/
theorem stamp_eq (h : Mirror r f t records drawn) (key : AccessKey) (moment : Instant) :
    Query.stamp.perform r (Statement.stampCredential key moment).binds records drawn =
      (.answer [] (t.rows.countP (·.key = key)),
        (Table.stampRows key moment t.rows).map (Row.record f), drawn) := by
  have hfits : Record.fits [.key] (Statement.stampCredential key moment).binds ∘ Row.record f =
      fun row => decide (row.key = key) :=
    funext fun row => Row.fits_key f row key _
  have hset (row : Row) : (if Record.fits [.key] (Statement.stampCredential key moment).binds
      (row.record f) then Function.update (row.record f) .lastAuth
        (Statement.stampCredential key moment).binds[1]? else row.record f) =
      Row.record f (if row.key = key then { row with lastAuth := some moment } else row) := by
    rw [show Record.fits [.key] (Statement.stampCredential key moment).binds (row.record f) = _ from
      Row.fits_key f row key _]
    by_cases hkey : row.key = key
    · rw [if_pos hkey, if_pos (decide_eq_true hkey)]
      funext column
      cases column <;> rfl
    · rw [if_neg hkey, if_neg (by simpa using hkey)]
  rw [Query.stamp, Query.perform, h.rows, List.countP_map, hfits, List.map_map,
    Table.stampRows_eq_map moment h.distinct, List.map_map]
  exact congrArg (fun kept => (_, kept, _)) (List.map_congr_left fun row _ => hset row)

/-- **A stamp** is set on both sides. -/
theorem stamp_some {moment : Instant} (h : Mirror r f t records drawn)
    (hs : t.stamp? key moment = some t') :
    (∃ affected, 0 < affected ∧
      Query.stamp.perform r (Statement.stampCredential key moment).binds records drawn =
        (.answer [] affected, t'.rows.map (Row.record f), drawn)) ∧
      Mirror r f t' (t'.rows.map (Row.record f)) drawn := by
  obtain ⟨hkey, rfl⟩ := Table.stamp?_eq_some.mp hs
  obtain ⟨row, hrow, he⟩ := List.mem_map.mp hkey
  have hissued := Table.map_stampRows Row.asIssued (fun _ _ => rfl) key moment t.rows
  refine ⟨⟨t.rows.countP (·.key = key), ?_, h.stamp_eq key moment⟩, ?_⟩
  · exact List.countP_pos_iff.mpr ⟨row, hrow, decide_eq_true he⟩
  · exact ⟨rfl, h.distinct.stamp? hs, h.numbered.of_asIssued hissued rfl, h.drawn_of_le,
      h.keepsOrder⟩

/-- **Nothing to stamp** on one side is nothing to stamp on the other. -/
theorem stamp_none {moment : Instant} (h : Mirror r f t records drawn)
    (hs : t.stamp? key moment = none) :
    Query.stamp.perform r (Statement.stampCredential key moment).binds records drawn =
      (.answer [] 0, records, drawn) := by
  have hno : ∀ row ∈ t.rows, ¬row.key = key := by simpa [Table.stamp?, Table.hasKey] using hs
  have hsame : Table.stampRows key moment t.rows = t.rows := by
    rw [Table.stampRows_eq_map moment h.distinct]
    exact (List.map_congr_left fun row hrow => if_neg (hno row hrow)).trans (List.map_id _)
  have hcount : t.rows.countP (·.key = key) = 0 := List.countP_eq_zero.mpr (by simpa using hno)
  rw [h.stamp_eq, hcount, hsame, h.rows]

/-! ### Listing -/

/-- Rows are in the order of their numbers on both sides. -/
theorem pairwise_number (h : Mirror r f t records drawn) :
    t.rows.Pairwise fun a b => (a.record f).number .id ≤ (b.record f).number .id := by
  refine h.numbered.sorted.imp_of_mem fun {a b} ha hb hab => ?_
  have hlt := h.keepsOrder _ _ (h.numbered.bounds ha).1 hab (h.numbered.bounds hb).2
  exact Int.le_of_lt (Int64.lt_iff_toInt_lt.mp hlt)

/-- **What an owner sees** is shown, oldest first. -/
theorem ofOwner (h : Mirror r f t records drawn) (u : UserId) :
    ∃ reception, Query.ofOwner.perform r (Statement.listCredentials u).binds records drawn =
        (reception, records, drawn) ∧
      reception.summaries = .ok ((t.summaries u).map Summary.stored) := by
  refine ⟨_, rfl, ?_⟩
  have hfits : Record.fits [.owner] (Statement.listCredentials u).binds ∘ Row.record f =
      fun row => decide (row.owner = u) :=
    funext fun row => Row.fits_owner f row u
  have hsorted : ((t.rows.filter (·.owner = u)).map (Row.record f)).Pairwise
      fun a b => decide (a.number .id ≤ b.number .id) = true := by
    rw [List.pairwise_map]
    exact (h.pairwise_number.filter _).imp fun hab => decide_eq_true hab
  rw [h.rows, List.filter_map, hfits, List.mergeSort_of_pairwise hsorted, List.map_map,
    Reception.summaries, Table.summaries, List.map_map]
  exact Row.mapM_summary f _

end Mirror

end Database

end KeyLifecycle
