import KeyLifecycle.Proofs.Int64
import KeyLifecycle.Proofs.Vault.Exclusion

/-!
# Rows keep their numbers

A row is given the number after the last one, and that is all there is to its number: rows are in
the order of their numbers (`Table.IsNumbered`), and a number that has been given to a row of the
table is never given to another one, not even after the row is gone. The second is a statement about
two moments of a run, and is put as one about two tables: a table *continues* an earlier one
(`Table.Continues`) if its numbers go on from there and each of its rows that has an old number is
an old row. This is kept by whatever is done to a table, and can be put together along a run.

A transaction that is rolled back gives its numbers up, and they are given out again. So the copies
of transactions do not continue one another. Each of them continues the table, as long as it is open
(`Vault.IsNumbered.copies`), since nobody else changes the table meanwhile; so what is published
continues what it replaces.

Numbers have sixty-four bits, and begin anew after the last of them. So all of this is said of runs
with fewer inserts than there are positive numbers (`Vault.inserts`); rolled-back ones are counted,
too. The main statement is `KeyLifecycle.Vault.rows_keep_their_numbers`.
-/

namespace KeyLifecycle

/-- The row as it was when it was issued. -/
def Row.asIssued (row : Row) : Row := { row with lastAuth := none }

namespace Table

/-! ### Tables whose rows are numbered -/

/-- **The rows have numbers in their order**, from one to the last number that has been given out,
and there have not been more than so many of them. -/
structure IsNumbered (t : Table) (most : Nat) : Prop where
  sorted : t.rows.Pairwise fun a b => a.id.value < b.id.value
  bounds {row : Row} (h : row ∈ t.rows) : 1 ≤ row.id.value ∧ row.id.value ≤ t.lastId
  nonneg : 0 ≤ t.lastId
  few : t.lastId.toInt ≤ most

variable {t t' t'' : Table} {most most' : Nat} {owner : UserId} {key : AccessKey}
  {material : KeyMaterial} {row : Row}

theorem isNumbered_empty (most : Nat) : empty.IsNumbered most where
  sorted := List.Pairwise.nil
  bounds h := by simp [empty] at h
  nonneg := by decide
  few := Int.natCast_nonneg most

theorem IsNumbered.mono (h : t.IsNumbered most) (hle : most ≤ most') : t.IsNumbered most' where
  sorted := h.sorted
  bounds := h.bounds
  nonneg := h.nonneg
  few := Int.le_trans h.few (Int.ofNat_le.mpr hle)

/-- A row is known by its number. -/
theorem IsNumbered.eq_of_id (h : t.IsNumbered most) {a b : Row} (ha : a ∈ t.rows) (hb : b ∈ t.rows)
    (hid : a.id = b.id) : a = b := by
  have hids : (t.rows.map fun row => row.id).Nodup :=
    List.pairwise_map.mpr <|
      h.sorted.imp fun hab he => Int64.ne_of_lt hab (congrArg CredentialId.value he)
  exact List.inj_on_of_nodup_map hids ha hb hid

/-- What is issued has the greatest number. -/
theorem IsNumbered.insert {c : Credential} (h : t.IsNumbered most) (hlt : most + 1 < 2 ^ 63)
    (hi : t.insert owner material = .ok (c, t')) : t'.IsNumbered (most + 1) := by
  obtain ⟨-, -, rfl⟩ := insert_eq_ok.mp hi
  have hfew := h.few
  have hroom : t.lastId.toInt + 1 < 2 ^ 63 := by omega
  have hnext := Int64.lt_add_one hroom
  have hnonneg := h.nonneg
  have hone : 1 ≤ t.lastId + 1 := by
    rw [Int64.le_iff_toInt_le] at hnonneg ⊢
    rw [Int64.toInt_add_one hroom]
    have hzero : (0 : Int64).toInt = 0 := rfl
    have hone : (1 : Int64).toInt = 1 := rfl
    omega
  constructor
  · refine List.pairwise_append.mpr ⟨h.sorted, List.pairwise_singleton _ _, fun a ha b hb => ?_⟩
    obtain rfl := List.mem_singleton.mp hb
    exact Int64.lt_of_le_of_lt (h.bounds ha).2 hnext
  · intro row hrow
    rcases List.mem_append.mp hrow with hold | hnew
    · exact ⟨(h.bounds hold).1, Int64.le_trans (h.bounds hold).2 (Int64.le_of_lt hnext)⟩
    · obtain rfl := List.mem_singleton.mp hnew
      exact ⟨hone, Int64.le_refl _⟩
  · exact Int64.le_trans hnonneg (Int64.le_of_lt hnext)
  · dsimp only
    rw [Int64.toInt_add_one hroom]
    omega

/-- What is left when a row is taken out is in its order. -/
theorem IsNumbered.remove? (h : t.IsNumbered most) (hr : t.remove? owner key = some (row, t')) :
    t'.IsNumbered most := by
  obtain ⟨-, -, -, -, hid, -⟩ := remove?_eq_some hr
  have hsub := sublist_of_remove? hr
  exact ⟨h.sorted.sublist hsub, fun hrow => hid ▸ h.bounds (hsub.subset hrow), hid ▸ h.nonneg,
    hid ▸ h.few⟩

/-- A look at the table changes no number. -/
theorem asIssued_stamped (t : Table) (request : Request) :
    (request.stamped t).rows.map Row.asIssued = t.rows.map Row.asIssued ∧
      (request.stamped t).lastId = t.lastId := by
  cases request with
  | stamp key moment =>
    rw [Request.stamped]
    cases hs : t.stamp? key moment with
    | none => exact ⟨rfl, rfl⟩
    | some table =>
      obtain ⟨-, rfl⟩ := stamp?_eq_some.mp hs
      exact ⟨map_stampRows _ (fun _ _ => rfl) key moment t.rows, rfl⟩
  | _ => exact ⟨rfl, rfl⟩

/-- Whether rows are numbered is seen when they are issued. -/
theorem IsNumbered.of_asIssued (h : t.IsNumbered most)
    (hrows : t'.rows.map Row.asIssued = t.rows.map Row.asIssued) (hid : t'.lastId = t.lastId) :
    t'.IsNumbered most where
  sorted := by
    have hmap (rows : List Row) : rows.Pairwise (fun a b => a.id.value < b.id.value) ↔
        (rows.map Row.asIssued).Pairwise fun a b => a.id.value < b.id.value := by
      rw [List.pairwise_map]
      rfl
    rw [hmap, hrows, ← hmap]
    exact h.sorted
  bounds {row} hrow := by
    have hmem : row.asIssued ∈ t.rows.map Row.asIssued := by
      rw [← hrows]
      exact List.mem_map_of_mem hrow
    obtain ⟨old, hold, he⟩ := List.mem_map.mp hmem
    have hids : old.id = row.id := congrArg (fun row => row.id) he
    rw [← hids, hid]
    exact h.bounds hold
  nonneg := hid ▸ h.nonneg
  few := hid ▸ h.few

/-! ### Tables that continue others -/

/-- **A table continues an earlier one**: the numbers go on from there, and a row with an old number
is an old row, in which nothing but the moment of use may have changed. -/
structure Continues (t t' : Table) : Prop where
  lastId : t.lastId ≤ t'.lastId
  kept {row : Row} (h : row ∈ t'.rows) (hid : row.id.value ≤ t.lastId) :
    row.asIssued ∈ t.rows.map Row.asIssued

theorem continues_refl (t : Table) : t.Continues t :=
  ⟨Int64.le_refl _, fun h _ => List.mem_map_of_mem h⟩

theorem Continues.trans (h : t.Continues t') (h' : t'.Continues t'') : t.Continues t'' where
  lastId := Int64.le_trans h.lastId h'.lastId
  kept {row} hrow hid := by
    obtain ⟨old, hold, he⟩ := List.mem_map.mp (h'.kept hrow (Int64.le_trans hid h.lastId))
    have hids : old.id = row.id := congrArg (fun row => row.id) he
    rw [← he]
    exact h.kept hold (by rwa [hids])

theorem Continues.insert {c : Credential} (h : t.Continues t')
    (hroom : t'.lastId.toInt + 1 < 2 ^ 63) (hi : t'.insert owner material = .ok (c, t'')) :
    t.Continues t'' := by
  obtain ⟨-, -, rfl⟩ := insert_eq_ok.mp hi
  have hnext := Int64.lt_add_one hroom
  refine h.trans ⟨Int64.le_of_lt hnext, fun {row} hrow hid => ?_⟩
  rcases List.mem_append.mp hrow with hold | hnew
  · exact List.mem_map_of_mem hold
  -- the new row has a new number
  · obtain rfl := List.mem_singleton.mp hnew
    exact absurd hid (Int64.not_le.mpr hnext)

theorem Continues.remove? (h : t.Continues t') (hr : t'.remove? owner key = some (row, t'')) :
    t.Continues t'' := by
  obtain ⟨-, -, -, -, hid, -⟩ := remove?_eq_some hr
  exact h.trans ⟨hid ▸ Int64.le_refl _, fun hrow _ =>
    List.mem_map_of_mem ((sublist_of_remove? hr).subset hrow)⟩

theorem continues_stamped (t : Table) (request : Request) : t.Continues (request.stamped t) := by
  obtain ⟨hrows, hid⟩ := asIssued_stamped t request
  refine ⟨hid ▸ Int64.le_refl _, fun hrow _ => ?_⟩
  rw [← hrows]
  exact List.mem_map_of_mem hrow

end Table

namespace Vault

variable {v : Vault} {i : Nat} {call call' : Call} {e : Effect} {m : Move} {moves : List Move}
  {most : Nat} {handle : Handle}

/-! ### How often something is issued -/

/-- Whether a move issues key material in the copy of a transaction. -/
def isInsert (v : Vault) : Move → Bool
  | .step i =>
    match v.calls[i]?.map Call.phase with
    | some (.working (.insert owner material _) handle) =>
      (handle.insert v.plan owner material).toBool
    | _ => false
  | _ => false

/-- **How often key material is issued in a run**, in whatever transaction, and whatever becomes of
the transaction. -/
def inserts (v : Vault) : List Move → Nat
  | [] => 0
  | m :: moves => (v.isInsert m).toNat + (v.move m).inserts moves

theorem inserts_append (v : Vault) (before after : List Move) :
    v.inserts (before ++ after) = v.inserts before + (v.run before).inserts after := by
  induction before generalizing v with
  | nil => simp [inserts]
  | cons m before ih => simp [inserts, ih, Nat.add_assoc]

theorem isInsert_step (hc : v.calls[i]? = some call) {owner : UserId} {material : KeyMaterial}
    {next : Credential → Work Reply} {staged : Handle} {credential : Credential}
    (hp : call.phase = .working (.insert owner material next) handle)
    (h : handle.insert v.plan owner material = .ok (credential, staged)) :
    v.isInsert (.step i) = true := by
  simp [isInsert, hc, hp, h, Except.toBool]

/-- **Only a step does something to a transaction**: after any other move of a call, its transaction
is what it was, if it is in one. -/
theorem handle?_of_not_step (hm : m.call? = some i) (hs : m ≠ .step i)
    (hc : v.calls[i]? = some call) (hc' : (v.move m).calls[i]? = some call')
    (hh : call'.phase.handle? = some handle) : call.phase.handle? = some handle := by
  have kept (h : v.calls[i]? = some call') : call.phase.handle? = some handle := by
    obtain rfl := Option.some.inj (hc.symm.trans h)
    exact hh
  have entered {w : Vault} {phase : Phase} (hw : w.calls = v.calls)
      (h : (w.setPhase i phase).calls[i]? = some call') : phase.handle? = some handle := by
    rw [setPhase, List.getElem?_modify_eq, hw, hc] at h
    obtain rfl := Option.some.inj h
    exact hh
  have dropped (h : (v.drop i).calls[i]? = some call') : call.phase.handle? = some handle := by
    simp only [drop, hc] at h
    split at h
    · exact absurd (entered rfl h) (by simp [Phase.handle?])
    · exact kept h
  cases m with
  | step j =>
    obtain rfl := Option.some.inj hm
    exact absurd rfl hs
  | expire j =>
    obtain rfl := Option.some.inj hm
    simp only [move, expire, hc] at hc'
    split at hc'
    · exact kept hc'
    · split at hc'
      · exact absurd (entered rfl hc') (by simp [Phase.handle?])
      · exact kept hc'
  | drop j =>
    obtain rfl := Option.some.inj hm
    exact dropped hc'
  | resume j work =>
    obtain rfl := Option.some.inj hm
    simp only [move, resume, hc] at hc'
    split at hc'
    · rename_i hp
      have hk := entered rfl hc'
      rwa [hp]
    · exact kept hc'
  | interrupt j =>
    obtain rfl := Option.some.inj hm
    simp only [move, interrupt, hc] at hc'
    split at hc'
    · rename_i hp
      have hk := entered rfl hc'
      rwa [hp]
    · rename_i hp
      have hk := entered rfl hc'
      rwa [hp]
    · exact dropped hc'
  | _ => simp [Move.call?] at hm

/-! ### The table and the open copies -/

/-- **A vault whose rows are numbered**: the rows of the table are, with at most so many numbers,
and those of every open copy, which continues the table. -/
structure IsNumbered (v : Vault) (most : Nat) : Prop where
  orderly : v.Orderly fun _ => True
  table : v.table.IsNumbered most
  copies {i : Nat} {call : Call} {handle : Handle} (hc : v.calls[i]? = some call)
    (hh : call.phase.handle? = some handle) (ho : handle.isOpen = true) :
    handle.staged.IsNumbered most ∧ v.table.Continues handle.staged

theorem IsNumbered.mono {most' : Nat} (h : v.IsNumbered most) (hle : most ≤ most') :
    v.IsNumbered most' where
  orderly := h.orderly
  table := h.table.mono hle
  copies hc hh ho := (h.copies hc hh ho).imp_left fun hn => hn.mono hle

theorem isNumbered_empty : Vault.empty.IsNumbered 0 where
  orderly := orderly_empty
  table := Table.isNumbered_empty 0
  copies hc := by simp [Vault.empty] at hc

/-- **What a deed leaves of a transaction**: a copy that continues the table, unless something has
just been issued in it. -/
theorem IsNumbered.copies_deed (h : v.IsNumbered most) (hc : v.calls[i]? = some call)
    (hd : v.Deed i call e) (hh : e.phase.handle? = some handle) (ho : handle.isOpen = true) :
    (handle.staged.IsNumbered most ∧ v.table.Continues handle.staged) ∨
      ∃ owner material next before c, call.phase = .working (.insert owner material next) before ∧
        before.insert v.plan owner material = .ok (c, handle) := by
  -- a deed that hands the transaction on as it was
  have kept : call.phase.handle? = some handle →
      handle.staged.IsNumbered most ∧ v.table.Continues handle.staged := fun hk => h.copies hc hk ho
  cases hd with
  | begin | grant =>
    obtain rfl := Option.some.inj hh
    exact Or.inl ⟨h.table, Table.continues_refl v.table⟩
  | insert hp hi =>
    obtain rfl := Option.some.inj hh
    exact Or.inr ⟨_, _, _, _, _, hp, hi⟩
  | delete hp hd =>
    obtain rfl := Option.some.inj hh
    have ho' := (Handle.isOpen_of_delete hd).1
    obtain ⟨hn, hcont⟩ := h.copies hc (by rw [hp, Phase.handle?]) ho'
    refine Or.inl ?_
    obtain ⟨-, -, ⟨-, -, rfl⟩ | ⟨found, t, -, hr, rfl⟩⟩ := Handle.delete_eq_ok.mp hd
    · exact ⟨hn, hcont⟩
    · exact ⟨hn.remove? hr, hcont.remove? hr⟩
  | fault hp | pause hp | wake hp | resume hp | rest hp =>
    obtain rfl := Option.some.inj hh
    exact Or.inl (kept (by rw [hp, Phase.handle?]))
  | interrupt _ hp =>
    obtain rfl := Option.some.inj hh
    exact Or.inl (kept (Orderly.handle?_of_inside? hp))
  | commit | rollback =>
    obtain rfl := Option.some.inj hh
    exact absurd ho (by simp [Handle.finished])
  | _ => simp [Phase.handle?] at hh

/-- **What a deed leaves of the table** continues it. -/
theorem IsNumbered.table_deed (h : v.IsNumbered most) (hc : v.calls[i]? = some call)
    (hd : v.Deed i call e) : e.table.IsNumbered most ∧ v.table.Continues e.table := by
  cases hd with
  | look =>
    obtain ⟨hrows, hid⟩ := Table.asIssued_stamped v.table call.request
    exact ⟨h.table.of_asIssued hrows hid, Table.continues_stamped v.table call.request⟩
  | commit hp ho => exact h.copies hc (by rw [hp, Phase.handle?]) ho
  | succeed hp _ ho => exact h.copies hc (by rw [hp, Phase.handle?]) ho
  | _ => exact ⟨h.table, Table.continues_refl v.table⟩

/-- **One move.** Whoever else has a transaction open holds the table, and finds it unchanged. -/
theorem IsNumbered.move (h : v.IsNumbered most)
    (hroom : most + (v.isInsert m).toNat < 2 ^ 63) :
    (v.move m).IsNumbered (most + (v.isInsert m).toNat) ∧ v.table.Continues (v.move m).table := by
  have hv : (v.move m).Orderly fun _ => True :=
    (h.orderly.run fun _ _ => trivial : (v.run [m]).Orderly _)
  rcases move_cases v m with ⟨request, limit, rfl⟩ | ⟨hcalls, ht⟩ | ⟨j, call, e, hm, hj, he, hd⟩
  · refine ⟨⟨hv, h.table, fun hc hh ho => ?_⟩, Table.continues_refl v.table⟩
    rcases start_calls_cases hc with ⟨-, rfl⟩ | hc
    · simp [Orderly.handle?_firstPhase] at hh
    · exact h.copies hc hh ho
  · rw [ht]
    have hsame : (v.move m).IsNumbered most :=
      ⟨hv, ht ▸ h.table, fun hc hh ho => ht ▸ h.copies (hcalls ▸ hc) hh ho⟩
    exact ⟨hsame.mono (Nat.le_add_right _ _), Table.continues_refl v.table⟩
  · have hself := amend_calls_self hj e
    obtain ⟨hnum, hcont⟩ := h.table_deed hj hd
    have hle := Nat.le_add_right most (v.isInsert m).toNat
    rw [he] at hv ⊢
    refine ⟨⟨hv, hnum.mono hle, fun {i call' handle} hc hh ho => ?_⟩, hcont⟩
    rcases amend_calls_cases hj hc with ⟨rfl, rfl⟩ | ⟨hne, hc⟩
    · rw [amend_table, (h.orderly.holds_deed hj hd hh ho).2.1]
      rcases h.copies_deed hj hd hh ho with hk | ⟨owner, material, next, before, c, hp, hi⟩
      · exact hk.imp_left fun hn => hn.mono hle
      · by_cases hs : m = .step i
        -- one more number has been given out
        · subst hs
          rw [isInsert_step hj hp hi] at hroom ⊢
          have ho' := (Handle.isOpen_of_insert hi).1
          obtain ⟨hn, hk⟩ := h.copies hj (by rw [hp, Phase.handle?]) ho'
          obtain ⟨-, -, t, ht, rfl⟩ := Handle.insert_eq_ok.mp hi
          have hfew := hn.few
          exact ⟨hn.insert hroom ht, hk.insert (by simp at hroom; omega) ht⟩
        · rw [← he] at hself
          have hk := h.copies hj (handle?_of_not_step hm hs hj hself hh) ho
          exact hk.imp_left fun hn => hn.mono hle
    · have hl := h.orderly.holds hc hh ho
      rw [amend_table, (h.orderly.others hj hd hl hne).2]
      exact (h.copies hc hh ho).imp_left fun hn => hn.mono hle

/-- **Many moves.** -/
theorem IsNumbered.run (h : v.IsNumbered most) (hroom : most + v.inserts moves < 2 ^ 63) :
    (v.run moves).IsNumbered (most + v.inserts moves) ∧ v.table.Continues (v.run moves).table := by
  induction moves generalizing v most with
  | nil => exact ⟨h, Table.continues_refl v.table⟩
  | cons m moves ih =>
    rw [inserts, ← Nat.add_assoc] at hroom ⊢
    obtain ⟨hone, hcont⟩ := h.move (m := m) (by omega)
    obtain ⟨hrest, hcont'⟩ := ih hone hroom
    exact ⟨hrest, hcont.trans hcont'⟩

/-- **Rows keep their numbers.** Whatever happens to a vault that begins without credentials, by
whomever and in whatever order: as long as there are positive numbers left, access keys are
distinct, rows are in the order of their numbers, and these lie between one and the last number that
has been given out. Compared with any earlier moment, the last number has not decreased; a row whose
number had been given out by then was a row of the table then; and a row that has the number of a
row of the table then has its owner, access key and secret, too. -/
theorem rows_keep_their_numbers (h : Vault.empty.inserts moves < 2 ^ 63) :
    let t := (Vault.empty.run moves).table
    t.keys.Nodup ∧ t.rows.Pairwise (fun a b => a.id.value < b.id.value) ∧
      (∀ row ∈ t.rows, 1 ≤ row.id.value ∧ row.id.value ≤ t.lastId) ∧
      ∀ seen rest, moves = seen ++ rest →
        let early := (Vault.empty.run seen).table
        early.lastId ≤ t.lastId ∧
          (∀ row ∈ t.rows, row.id.value ≤ early.lastId → ∃ old ∈ early.rows, old.id = row.id) ∧
          ∀ old ∈ early.rows, ∀ row ∈ t.rows, row.id = old.id →
            row.owner = old.owner ∧ row.key = old.key ∧ row.secret = old.secret := by
  intro t
  have hnum : (Vault.empty.run moves).IsNumbered (0 + Vault.empty.inserts moves) :=
    (isNumbered_empty.run (by omega)).1
  refine ⟨hnum.orderly.distinct, hnum.table.sorted, fun _ hrow => hnum.table.bounds hrow, ?_⟩
  intro seen rest hs early
  obtain ⟨hearly, hcont⟩ : (Vault.empty.run seen).IsNumbered (0 + Vault.empty.inserts seen) ∧
      early.Continues t := by
    rw [hs, inserts_append] at h
    have hseen : (Vault.empty.run seen).IsNumbered (0 + Vault.empty.inserts seen) :=
      (isNumbered_empty.run (by omega)).1
    refine ⟨hseen, ?_⟩
    have ht : t = ((Vault.empty.run seen).run rest).table := by rw [← run_append, ← hs]
    rw [ht]
    exact (hseen.run (by omega)).2
  -- an old row and the row that it has become
  have find {row : Row} (hrow : row ∈ t.rows) (hid : row.id.value ≤ early.lastId) :
      ∃ old ∈ early.rows, old.asIssued = row.asIssued := List.mem_map.mp (hcont.kept hrow hid)
  refine ⟨hcont.lastId, fun row hrow hid => ?_, fun old hold row hrow hid => ?_⟩
  · obtain ⟨old, hold, he⟩ := find hrow hid
    exact ⟨old, hold, congrArg (fun row => row.id) he⟩
  · obtain ⟨old', hold', he⟩ := find hrow (hid ▸ (hearly.table.bounds hold).2)
    have hids : old'.id = old.id := (congrArg (fun row => row.id) he).trans hid
    obtain rfl := hearly.table.eq_of_id hold' hold hids
    exact ⟨(congrArg Row.owner he).symm, (congrArg Row.key he).symm, (congrArg Row.secret he).symm⟩

/-- A unit of work issues a credential, commits by itself and fails; a second one is dropped after
its insert, and its number is given out again to a third; then the first row is revoked. -/
theorem rows_keep_their_numbers_unit_drop_revoke :
    let a : AccessKey := ⟨"a", by decide⟩
    let b : AccessKey := ⟨"b", by decide⟩
    let unit : Request :=
      .unit "unit" (.insert ⟨1⟩ ⟨a, ⟨[1]⟩⟩ fun _ => .commit (.fail .credentialNotFound))
    let seen : List Move := [.start unit none, .step 0, .step 0, .step 0, .step 0, .step 0,
      .start (.create ⟨2⟩ ⟨b, ⟨[2]⟩⟩) none, .step 1, .step 1, .step 1, .drop 1]
    let rest : List Move := [.start (.create ⟨3⟩ ⟨b, ⟨[3]⟩⟩) none, .step 2, .step 2, .step 2,
      .step 2, .start (.delete ⟨1⟩ a) none, .step 3, .step 3, .step 3, .step 3]
    Vault.empty.inserts (seen ++ rest) < 2 ^ 63 ∧
      (Vault.empty.run seen).table.lastId ≤ (Vault.empty.run (seen ++ rest)).table.lastId ∧
      (Vault.empty.run (seen ++ rest)).table.rows = [⟨⟨2⟩, ⟨3⟩, b, ⟨[3]⟩, none⟩] := by
  intro a b unit seen rest
  have h : Vault.empty.inserts (seen ++ rest) < 2 ^ 63 := by decide +kernel
  obtain ⟨-, -, -, hearly⟩ := rows_keep_their_numbers h
  exact ⟨h, (hearly seen rest rfl).1, by decide +kernel⟩

end Vault

end KeyLifecycle
