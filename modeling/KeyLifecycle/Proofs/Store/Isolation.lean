import KeyLifecycle.Proofs.Secrecy.Session
import KeyLifecycle.Proofs.Session.Alone
import KeyLifecycle.Proofs.Store.Task
import KeyLifecycle.Proofs.Vault.Ownership

/-!
# Owners do not notice each other

All credentials are in one table: the rows of all owners in one list, numbered by one counter, with
access keys that nobody may have twice. Still, an owner cannot tell what others have in it, and
cannot touch it.

Take two sessions whose tables show the owner the same and have nothing else in common
(`Session.AgreeOn`). A request for the owner comes to the same on both tables, but for the number of
what it issues (`KeyLifecycle.Request.perform_agree`):

* a row that is taken out is the first *of the owner* with a key, so that what there is of others
  does not matter to what the owner sees afterwards (`KeyLifecycle.Table.summaries_remove?`);
* whether a key can be issued does depend on others, but only if it is theirs already, which is the
  one thing that is ruled out.

It takes as much of the allowance, too (`KeyLifecycle.Request.price_agree`), so that with a limit of
no time at all, or without patience, it does not come to its end in one session alone. All this
survives any number of calls, one after the other (`KeyLifecycle.owners_are_isolated`).
-/

namespace KeyLifecycle

/-! ### What an owner has of a table -/

namespace Table

variable {t t' : Table} {u : UserId} {key : AccessKey} {m : KeyMaterial} {plan : FailurePlan}

/-- The access keys of an owner. -/
def keysOf (t : Table) (u : UserId) : List AccessKey := (t.summaries u).map (·.key)

theorem mem_keysOf : key ∈ t.keysOf u ↔ ∃ row ∈ t.rows, row.owner = u ∧ row.key = key := by
  simp [keysOf, summaries, Row.summary, and_assoc]

/-- An access key is there if the owner has it, or if somebody else has. -/
theorem mem_keys_iff (t : Table) (u : UserId) (key : AccessKey) :
    key ∈ t.keys ↔ key ∈ t.keysOf u ∨ key ∈ (t.others u).map (·.key) := by
  rw [mem_keysOf]
  constructor
  · intro h
    obtain ⟨row, hrow, rfl⟩ := List.mem_map.mp h
    by_cases ho : row.owner = u
    · exact Or.inl ⟨row, hrow, ho, rfl⟩
    · exact Or.inr (List.mem_map_of_mem (List.mem_filter.mpr ⟨hrow, by simpa using ho⟩))
  · rintro (⟨row, hrow, -, rfl⟩ | h)
    · exact List.mem_map_of_mem hrow
    · obtain ⟨row, hrow, rfl⟩ := List.mem_map.mp h
      exact List.mem_map_of_mem (List.mem_of_mem_filter hrow)

/-- What is issued to an owner comes last. -/
theorem summaries_insert {c : Credential} (h : t.insert u m = .ok (c, t')) :
    t'.summaries u = t.summaries u ++ [⟨m.key, none⟩] := by
  obtain ⟨-, -, rfl⟩ := insert_eq_ok.mp h
  simp [summaries, fresh, Row.summary]

/-- There is nothing to take out if the owner has no such key, whoever else has it. -/
theorem remove?_eq_none : t.remove? u key = none ↔ key ∉ t.keysOf u := by
  rw [remove?, Option.map_eq_none_iff, List.find?_eq_none, mem_keysOf]
  simp [Row.isFor]

/-- **What is taken out of a table** is taken out of what its owner sees. -/
theorem summaries_remove? {row : Row} (h : t.remove? u key = some (row, t')) :
    t'.summaries u = (t.summaries u).eraseP (·.key = key) := by
  obtain ⟨found, -, he⟩ := Option.map_eq_some_iff.mp h
  obtain ⟨-, rfl⟩ := Prod.mk.inj he
  have hfor : Row.isFor u key = fun row => decide (row.key = key) && decide (row.owner = u) := by
    funext row
    simp [Row.isFor, and_comm]
  rw [summaries, summaries, List.eraseP_map, List.eraseP_filter, hfor]
  rfl

end Table

/-! ### One request on two tables -/

/-- An answer without the number of the credential that it issues. -/
def Reply.unnumbered : Reply → Reply
  | issued c => issued { c with id := ⟨0⟩ }
  | other => other

/-- Two outcomes that are the same for an owner. -/
def OutcomesAgree (u : UserId) (r r' : Except Failure Reply × Table) : Prop :=
  r.1.map Reply.unnumbered = r'.1.map Reply.unnumbered ∧ r.2.summaries u = r'.2.summaries u

/-- An access key that nobody else has, on either of two tables. -/
def FreshFor (u : UserId) (key : AccessKey) (t t' : Table) : Prop :=
  key ∉ (t.others u).map (·.key) ∧ key ∉ (t'.others u).map (·.key)

namespace Request

variable {u : UserId} {key : AccessKey} {m : KeyMaterial} {plan : FailurePlan} {t t' : Table}

/-- **To issue** is the same on both tables, as the owner has the access key on both or on none. -/
theorem create_agree (h : t.summaries u = t'.summaries u) (hm : FreshFor u m.key t t') :
    OutcomesAgree u ((create u m).perform plan t) ((create u m).perform plan t') := by
  rw [perform_create, perform_create]
  by_cases hp : plan.insert = true
  · rw [if_pos hp, if_pos hp]
    exact ⟨rfl, h⟩
  · rw [if_neg hp, if_neg hp]
    have hkeys : m.key ∈ t.keys ↔ m.key ∈ t'.keys := by
      rw [t.mem_keys_iff u, t'.mem_keys_iff u, Table.keysOf, Table.keysOf, h, or_iff_left hm.1,
        or_iff_left hm.2]
    rcases hi : t.insert u m with cause | ⟨c, t₁⟩ <;>
      rcases hi' : t'.insert u m with cause' | ⟨c', t₁'⟩
    · obtain ⟨-, rfl⟩ := Table.insert_eq_error.mp hi
      obtain ⟨-, rfl⟩ := Table.insert_eq_error.mp hi'
      exact ⟨rfl, h⟩
    · exact absurd (hkeys.mp (Table.insert_eq_error.mp hi).1) (Table.insert_eq_ok.mp hi').1
    · exact absurd (hkeys.mpr (Table.insert_eq_error.mp hi').1) (Table.insert_eq_ok.mp hi).1
    · refine ⟨?_, ?_⟩
      · obtain ⟨-, rfl, -⟩ := Table.insert_eq_ok.mp hi
        obtain ⟨-, rfl, -⟩ := Table.insert_eq_ok.mp hi'
        rfl
      · rw [Table.summaries_insert hi, Table.summaries_insert hi', h]

/-- A row of the owner is taken out of both tables, or of none. -/
theorem remove?_agree (h : t.summaries u = t'.summaries u) (key : AccessKey) :
    (t.remove? u key = none ∧ t'.remove? u key = none) ∨
      ∃ row rest row' rest', t.remove? u key = some (row, rest) ∧
        t'.remove? u key = some (row', rest') ∧ rest.summaries u = rest'.summaries u := by
  have hkeys : t.keysOf u = t'.keysOf u := by rw [Table.keysOf, h, ← Table.keysOf]
  rcases hr : t.remove? u key with _ | ⟨row, rest⟩ <;>
    rcases hr' : t'.remove? u key with _ | ⟨row', rest'⟩
  · exact Or.inl ⟨rfl, rfl⟩
  · rw [Table.remove?_eq_none, hkeys, ← Table.remove?_eq_none, hr'] at hr
    simp at hr
  · rw [Table.remove?_eq_none, ← hkeys, ← Table.remove?_eq_none, hr] at hr'
    simp at hr'
  · refine Or.inr ⟨row, rest, row', rest', rfl, rfl, ?_⟩
    rw [Table.summaries_remove? hr, Table.summaries_remove? hr', h]

/-- **To revoke** is the same on both tables. -/
theorem delete_agree (h : t.summaries u = t'.summaries u) :
    OutcomesAgree u ((delete u key).perform plan t) ((delete u key).perform plan t') := by
  rw [perform_delete, perform_delete]
  by_cases hp : plan.delete = true
  · rw [if_pos hp, if_pos hp]
    exact ⟨rfl, h⟩
  · rw [if_neg hp, if_neg hp]
    rcases remove?_agree h key with ⟨hr, hr'⟩ | ⟨row, rest, row', rest', hr, hr', hrest⟩
    · rw [hr, hr']
      exact ⟨rfl, h⟩
    · rw [hr, hr']
      exact ⟨rfl, hrest⟩

/-- **To replace** is the same on both tables. -/
theorem rotate_agree (h : t.summaries u = t'.summaries u) (hm : FreshFor u m.key t t') :
    OutcomesAgree u ((rotate u key m).perform plan t) ((rotate u key m).perform plan t') := by
  rw [perform_rotate, perform_rotate]
  by_cases hp : plan.delete = true
  · rw [if_pos hp, if_pos hp]
    exact ⟨rfl, h⟩
  · rw [if_neg hp, if_neg hp]
    rcases remove?_agree h key with ⟨hr, hr'⟩ | ⟨row, rest, row', rest', hr, hr', hrest⟩
    · rw [hr, hr']
      exact ⟨rfl, h⟩
    · have hm' : FreshFor u m.key rest rest' := by
        rw [FreshFor, Table.others_remove? hr, Table.others_remove? hr']
        exact hm
      obtain ⟨ha, ht⟩ : OutcomesAgree u ((create u m).perform plan rest) _ :=
        create_agree hrest hm'
      rw [hr, hr']
      dsimp only
      rcases hc : (create u m).perform plan rest with ⟨cause | reply, t₁⟩ <;>
        rcases hc' : (create u m).perform plan rest' with ⟨cause' | reply', t₁'⟩ <;>
        rw [hc, hc'] at ha ht
      · exact ⟨ha, h⟩
      · simp [Except.map] at ha
      · simp [Except.map] at ha
      · exact ⟨ha, ht⟩

/-- The access key that a request is to issue. -/
def newKey? : Request → Option AccessKey
  | create _ m => some m.key
  | rotate _ _ m => some m.key
  | _ => none

variable {request : Request}

/-- **A request for an owner** comes to the same on two tables on which the owner has the same, as
long as nobody else has the access key that it is to issue. -/
theorem perform_agree (hu : request.IsOf u) (h : t.summaries u = t'.summaries u)
    (hm : ∀ key ∈ request.newKey?, FreshFor u key t t') (plan : FailurePlan) :
    OutcomesAgree u (request.perform plan t) (request.perform plan t') := by
  cases hu with
  | create m => exact create_agree h (hm m.key rfl)
  | delete key => exact delete_agree h
  | rotate key m => exact rotate_agree h (hm m.key rfl)
  | list =>
    unfold perform
    dsimp only [work?]
    split
    · exact ⟨rfl, h⟩
    · exact ⟨by rw [h], h⟩

/-- **A request for an owner** leaves the rows of everybody else as they are. -/
theorem others_perform (hu : request.IsOf u) (plan : FailurePlan) (t : Table) :
    (request.perform plan t).2.others u = t.others u := by
  have hcreate (m : KeyMaterial) (t : Table) :
      ((create u m).perform plan t).2.others u = t.others u := by
    rw [perform_create]
    split
    · rfl
    · split
      · exact (Table.others_insert ‹_›).1
      · rfl
  cases hu with
  | create m => exact hcreate m t
  | delete key =>
    rw [perform_delete]
    split
    · rfl
    · split
      · exact Table.others_remove? ‹_›
      · rfl
  | rotate key m =>
    rw [perform_rotate]
    split
    · rfl
    · split
      · rename_i rest hr
        have hrest := hcreate m rest
        split
        · rename_i hc
          rw [hc] at hrest
          exact hrest.trans (Table.others_remove? hr)
        · rfl
      · rfl
  | list =>
    unfold perform
    dsimp only [work?]
    split <;> rfl

/-- The price of a revocation depends on whether there is something to take out. -/
theorem price_revoke (plan : FailurePlan) (u : UserId) (key : AccessKey) (next : Work Reply)
    (t : Table) : (Work.revoke u key next).price plan t =
      if plan.delete then 1
      else
        match t.remove? u key with
        | some (_, rest) => next.price plan rest + 1
        | none => 1 := by
  rw [Work.revoke, Work.price]
  split
  · rfl
  · cases t.remove? u key <;> rfl

theorem price_issue (plan : FailurePlan) (u : UserId) (m : KeyMaterial) (t : Table) :
    (Work.issue u m).price plan t = 1 := by
  rw [Work.issue, Work.price]
  split
  · rfl
  · cases t.insert u m <;> rfl

/-- What a request for an owner takes of an allowance does not depend on others either. -/
theorem price_agree (hu : request.IsOf u) (h : t.summaries u = t'.summaries u)
    (plan : FailurePlan) : request.price plan t = request.price plan t' := by
  cases hu with
  | list => rfl
  | create m => simp only [price, entryPrice, work?, price_issue]
  | delete key =>
    simp only [price, entryPrice, work?, price_revoke]
    rcases remove?_agree h key with ⟨hr, hr'⟩ | ⟨row, rest, row', rest', hr, hr', -⟩
    · rw [hr, hr']
    · rw [hr, hr']
      rfl
  | rotate key m =>
    simp only [price, entryPrice, work?, price_revoke]
    rcases remove?_agree h key with ⟨hr, hr'⟩ | ⟨row, rest, row', rest', hr, hr', -⟩
    · rw [hr, hr']
    · rw [hr, hr']
      simp only [price_issue]

/-- It is far less than the allowance of a round. -/
theorem IsOf.price_le (hu : request.IsOf u) (plan : FailurePlan) (t : Table) :
    request.price plan t ≤ Session.allowance := by
  have hle : request.price plan t ≤ 3 := by
    cases hu with
    | list =>
      rw [price]
      split <;> omega
    | create m =>
      simp only [price, entryPrice, work?, price_issue]
      omega
    | delete key =>
      simp only [price, entryPrice, work?, price_revoke]
      split
      · omega
      · split
        · simp [Work.price]
        · omega
    | rotate key m =>
      simp only [price, entryPrice, work?, price_revoke]
      split
      · omega
      · split
        · simp [price_issue]
        · omega
  rw [Session.allowance]
  omega

theorem IsOf.isBrisk (hu : request.IsOf u) : request.IsBrisk := by
  refine ⟨?_, fun work hw => ?_⟩
  · cases hu <;> simp
  · cases hu with
    | list => simp [work?] at hw
    | create m =>
      obtain rfl := Option.some.inj hw
      exact Work.isBrisk_issue u m
    | delete key =>
      obtain rfl := Option.some.inj hw
      exact Work.isBrisk_revoke u key trivial
    | rotate key m =>
      obtain rfl := Option.some.inj hw
      exact Work.isBrisk_revoke u key (Work.isBrisk_issue u m)

/-- **Whoever does not have a key** revokes and replaces nothing, whoever else has it. -/
theorem perform_of_foreign (hk : key ∉ t.keysOf u)
    (hr : request = .delete u key ∨ ∃ m, request = .rotate u key m) (plan : FailurePlan) :
    (request.perform plan t).2 = t ∧
      (plan.delete = false → (request.perform plan t).1 = .error .credentialNotFound) := by
  have hnone := Table.remove?_eq_none.mpr hk
  rcases hr with rfl | ⟨m, rfl⟩
  · rw [perform_delete, hnone]
    cases plan.delete <;> simp
  · rw [perform_rotate, hnone]
    cases plan.delete <;> simp

/-! ### Its fate -/

/-- A request leaves the table of its outcome, or the table as it was. -/
theorem fate_table (request : Request) (limit : Option Span) (patience : Span) (plan : FailurePlan)
    (t : Table) (left : Nat) :
    (request.fate limit patience plan t left).table = (request.perform plan t).2 ∨
      (request.fate limit patience plan t left).table = t := by
  dsimp only [fate]
  split
  · exact Or.inl rfl
  · split
    · exact Or.inr rfl
    · split
      · exact Or.inr rfl
      · exact Or.inl rfl

/-- **A request that may take some time**, made by somebody with some patience, is answered. -/
theorem fate_of_unhurried {limit : Option Span} {patience : Span}
    (h : limit ≠ some 0 ∧ patience ≠ 0) (request : Request) (plan : FailurePlan) (t : Table)
    (left : Nat) :
    (request.fate limit patience plan t left).answer? = some (request.perform plan t).1 ∧
      (request.fate limit patience plan t left).table = (request.perform plan t).2 := by
  dsimp only [fate]
  split
  · exact ⟨rfl, rfl⟩
  · rw [if_neg fun hc => h.1 hc.2, if_neg fun hc => h.2 hc.2]
    exact ⟨rfl, rfl⟩

end Request

namespace StoreTask

variable {task : StoreTask} {u : UserId}

theorem request_isOf (hu : task.owner? = some u) (m : KeyMaterial) : (task.request m).IsOf u := by
  cases task with
  | create owner =>
    obtain rfl := Option.some.inj hu
    exact .create m
  | list owner =>
    obtain rfl := Option.some.inj hu
    exact .list
  | delete owner key =>
    obtain rfl := Option.some.inj hu
    exact .delete key
  | rotate owner key =>
    obtain rfl := Option.some.inj hu
    exact .rotate key m
  | _ => simp [owner?] at hu

theorem limit?_of_owner (hu : task.owner? = some u) (store : Store) :
    task.limit? store = some store.limit := by
  cases task <;> first | rfl | simp [owner?] at hu

/-- The access key that is issued by a task that draws is the one that has been drawn. -/
theorem newKey?_request (task : StoreTask) (m : KeyMaterial) :
    (task.request m).newKey? = if task.draws then some m.key else none := by
  cases task <;> rfl

end StoreTask

/-! ### One call in two sessions -/

/-- Two ends of a call that look the same, but for the number of what is issued. -/
inductive Progress.SameEnd :
    Progress (Except Failure Reply) → Progress (Except Failure Reply) → Prop
  | finished {a a' : Except Failure Reply} (h : a.map Reply.unnumbered = a'.map Reply.unnumbered) :
    SameEnd (.finished a) (.finished a')
  | crashed : SameEnd .crashed .crashed
  | givenUp : SameEnd .givenUp .givenUp

/-- **Fates that look the same** to an owner. -/
structure Fate.Agree (u : UserId) (fate fate' : Fate) : Prop where
  same : fate.progress.SameEnd fate'.progress
  summaries : fate.table.summaries u = fate'.table.summaries u

theorem Request.fate_agree {request : Request} {u : UserId} {plan : FailurePlan} {t t' : Table}
    {limit : Option Span} {patience : Span} {left left' : Nat}
    (h : OutcomesAgree u (request.perform plan t) (request.perform plan t'))
    (hs : t.summaries u = t'.summaries u) (hp : request.price plan t = request.price plan t')
    (hleft : left = left' ∨ limit ≠ some 0 ∧ patience ≠ 0) :
    Fate.Agree u (request.fate limit patience plan t left)
        (request.fate limit patience plan t' left') ∧
      (left = left' → (request.fate limit patience plan t left).left =
        (request.fate limit patience plan t' left').left) := by
  have hsame : left = left' → Fate.Agree u (request.fate limit patience plan t left)
        (request.fate limit patience plan t' left') ∧
      (request.fate limit patience plan t left).left =
        (request.fate limit patience plan t' left').left := by
    rintro rfl
    dsimp only [fate]
    rw [← hp]
    split
    · exact ⟨⟨.finished h.1, h.2⟩, rfl⟩
    · split
      · exact ⟨⟨.finished rfl, hs⟩, rfl⟩
      · split
        · exact ⟨⟨.givenUp, hs⟩, rfl⟩
        · exact ⟨⟨.finished h.1, h.2⟩, rfl⟩
  refine ⟨?_, fun he => (hsame he).2⟩
  rcases hleft with he | hun
  · exact (hsame he).1
  · obtain ⟨ha, ht⟩ := fate_of_unhurried hun request plan t left
    obtain ⟨ha', ht'⟩ := fate_of_unhurried hun request plan t' left'
    refine ⟨?_, by rw [ht, ht', h.2]⟩
    rw [Fate.progress, Fate.progress, ha, ha']
    exact .finished h.1

namespace Session

/-- **Two sessions in which an owner has the same**: the same operations are to fail in both, and
nobody has the table in either. Whatever else there is may differ. -/
structure AgreeOn (u : UserId) (s s' : Session) : Prop where
  free : s.vault.lock = .free
  free' : s'.vault.lock = .free
  plan : s.vault.plan = s'.vault.plan
  summaries : s.vault.table.summaries u = s'.vault.table.summaries u

/-- **What is left of two sessions** by something that has been done for an owner in each: it looks
the same in both, the owner has the same afterwards, and all others have what they had, in either.
-/
structure Apart (u : UserId) (s s' : Session) (r r' : Progress (Except Failure Reply) × Session) :
    Prop where
  same : r.1.SameEnd r'.1
  agree : r.2.AgreeOn u r'.2
  others : r.2.vault.table.others u = s.vault.table.others u
  others' : r'.2.vault.table.others u = s'.vault.table.others u

variable {u : UserId} {s s' : Session} {request : Request} {task : StoreTask} {store : Store}
  {patience : Span}

/-- **One request in two sessions.** -/
theorem AgreeOn.perform_ask {limit : Option Span} (h : s.AgreeOn u s') (hu : request.IsOf u)
    (hm : ∀ key ∈ request.newKey?, FreshFor u key s.vault.table s'.vault.table)
    (hleft : s.left = s'.left ∨ limit ≠ some 0 ∧ patience ≠ 0) :
    let r := s.perform (.ask request limit .done) patience
    let r' := s'.perform (.ask request limit .done) patience
    Apart u s s' r r' ∧ (s.left = s'.left → r.2.left = r'.2.left) ∧
      r.2.generator = s.generator ∧ r'.2.generator = s'.generator := by
  intro r r'
  obtain ⟨v, hr, ht, hp, hl⟩ :=
    perform_alone hu.isBrisk h.free (hu.price_le _ _) limit patience
  obtain ⟨v', hr', ht', hp', hl'⟩ :=
    perform_alone hu.isBrisk h.free' (hu.price_le _ _) limit patience
  have hothers (s : Session) : (request.fate limit patience s.vault.plan s.vault.table
      s.left).table.others u = s.vault.table.others u := by
    rcases request.fate_table limit patience s.vault.plan s.vault.table s.left with he | he
    · rw [he, Request.others_perform hu]
    · rw [he]
  obtain ⟨hfate, hrest⟩ := Request.fate_agree
    (Request.perform_agree hu h.summaries hm s.vault.plan) h.summaries
    (Request.price_agree hu h.summaries s.vault.plan) hleft
  rw [← h.plan] at hr' ht' hp'
  have hr₀ : r = _ := hr
  have hr₀' : r' = _ := hr'
  rw [hr₀, hr₀']
  refine ⟨⟨hfate.same, ⟨hl, hl', ?_, ?_⟩, ?_, ?_⟩, hrest, rfl, rfl⟩
  · exact hp.trans hp'.symm
  · rw [ht, ht']
    exact hfate.summaries
  · rw [ht]
    exact hothers s
  · rw [ht', h.plan]
    exact hothers s'

/-- A task that draws is, once it has its key material, a request. -/
theorem perform_drawing {material : KeyMaterial} {next : Generator}
    (h : s.generator.generate = (.material material, next)) (request : KeyMaterial → Request)
    (limit : Option Span) (patience : Span) :
    s.perform (Procedure.drawing request limit) patience =
      { s with generator := next }.perform (.ask (request material) limit .done) patience :=
  perform_congr (Procedure.run_drawing_of_material h) rfl rfl patience

/-- What is left of two sessions by a call that does nothing to their tables. -/
theorem AgreeOn.apart_of_idle (h : s.AgreeOn u s') {p p' : Progress (Except Failure Reply)}
    (hp : p.SameEnd p') (g g' : Generator) :
    Apart u s s' (p, { s with generator := g }) (p', { s' with generator := g' }) :=
  ⟨hp, ⟨h.free, h.free', h.plan, h.summaries⟩, rfl, rfl⟩

/-- The generator after a task, which draws once or not at all. -/
def drawn (s : Session) (task : StoreTask) : Generator :=
  if task.draws then s.generator.generate.2 else s.generator

/-- **One task in two sessions.** -/
theorem AgreeOn.perform_task (h : s.AgreeOn u s') (hu : task.owner? = some u)
    (hdraws : task.draws = true → s.generator.generate.1 = s'.generator.generate.1)
    (hfresh : task.draws = true → ∀ m, s.generator.generate.1 = .material m →
      FreshFor u m.key s.vault.table s'.vault.table)
    (hleft : s.left = s'.left ∨ store.limit ≠ 0 ∧ patience ≠ 0) :
    let r := s.perform (task.procedure store) patience
    let r' := s'.perform (task.procedure store) patience
    Apart u s s' r r' ∧ (s.left = s'.left → r.2.left = r'.2.left) ∧
      r.2.generator = s.drawn task ∧ r'.2.generator = s'.drawn task := by
  intro r r'
  have hlimit : s.left = s'.left ∨ some store.limit ≠ some 0 ∧ patience ≠ 0 := by simpa using hleft
  cases hd : task.draws with
  | false =>
    have hmaterial : KeyMaterial := ⟨⟨"k", by decide⟩, ⟨[]⟩⟩
    have hask : task.procedure store = .ask (task.request hmaterial) (some store.limit) .done := by
      rw [StoreTask.procedure_of_not_draws hd store hmaterial, StoreTask.limit?_of_owner hu]
    have hnew : (task.request hmaterial).newKey? = none := by
      rw [StoreTask.newKey?_request, hd]
      rfl
    have hone := h.perform_ask (StoreTask.request_isOf hu hmaterial) (by simp [hnew]) hlimit
    rw [← hask] at hone
    simpa [drawn, hd] using hone
  | true =>
    rcases hg : s.generator.generate with ⟨outcome, next⟩
    rcases hg' : s'.generator.generate with ⟨outcome', next'⟩
    obtain rfl : outcome = outcome' := by simpa [hg, hg'] using hdraws hd
    have hdrawn : s.drawn task = next := by simp [drawn, hd, hg]
    have hdrawn' : s'.drawn task = next' := by simp [drawn, hd, hg']
    have hdrawing := StoreTask.procedure_of_draws hd store
    rw [hdrawn, hdrawn']
    cases outcome with
    | material m =>
      have hr : r = _ := (congrArg (s.perform · patience) hdrawing).trans
        (perform_drawing hg task.request _ patience)
      have hr' : r' = _ := (congrArg (s'.perform · patience) hdrawing).trans
        (perform_drawing hg' task.request _ patience)
      have hs : AgreeOn u { s with generator := next } { s' with generator := next' } :=
        ⟨h.free, h.free', h.plan, h.summaries⟩
      have hnew : ∀ key ∈ (task.request m).newKey?,
          FreshFor u key s.vault.table s'.vault.table := by
        intro key hk
        rw [StoreTask.newKey?_request, if_pos hd] at hk
        obtain rfl := Option.some.inj hk
        exact hfresh hd m (congrArg Prod.fst hg)
      obtain ⟨⟨hsame, hagree, hothers, hothers'⟩, hrest⟩ :=
        hs.perform_ask (StoreTask.request_isOf hu m) hnew hlimit
      rw [hr, hr']
      exact ⟨⟨hsame, hagree, hothers, hothers'⟩, hrest⟩
    | failed cause =>
      have hr : r = _ := (congrArg (s.perform · patience) hdrawing).trans
        (perform_of_run (Procedure.run_drawing_of_failed hg) rfl patience)
      have hr' : r' = _ := (congrArg (s'.perform · patience) hdrawing).trans
        (perform_of_run (Procedure.run_drawing_of_failed hg') rfl patience)
      rw [hr, hr']
      exact ⟨h.apart_of_idle (.finished rfl) next next', id, rfl, rfl⟩
    | breakdown =>
      have hr : r = _ := (congrArg (s.perform · patience) hdrawing).trans
        (perform_of_run (Procedure.run_drawing_of_breakdown hg) rfl patience)
      have hr' : r' = _ := (congrArg (s'.perform · patience) hdrawing).trans
        (perform_of_run (Procedure.run_drawing_of_breakdown hg') rfl patience)
      rw [hr, hr']
      exact ⟨h.apart_of_idle .crashed next next', id, rfl, rfl⟩

/-! ### Many calls -/

/-- **Does tasks one after the other**, each for as long as patience lasts: how each of them ends,
with the session after it. -/
def serve (store : Store) : List (StoreTask × Span) → Session →
    List (Progress (Except Failure Reply) × Session)
  | [], _ => []
  | (task, patience) :: rest, s =>
    let r := s.perform (task.procedure store) patience
    r :: serve store rest r.2

/-- How often key material is drawn for some tasks. -/
def draws (calls : List (StoreTask × Span)) : Nat := calls.countP (·.1.draws)

theorem nth_drawn (s : Session) (task : StoreTask) (n : Nat) :
    (s.drawn task).nth n = s.generator.nth (n + if task.draws then 1 else 0) := by
  rw [drawn]
  split <;> rfl

/-- **Many calls in two sessions.** -/
theorem AgreeOn.serve {calls : List (StoreTask × Span)} (hu : ∀ c ∈ calls, c.1.owner? = some u)
    (h : s.AgreeOn u s')
    (hleft : s.left = s'.left ∨ store.limit ≠ 0 ∧ ∀ c ∈ calls, c.2 ≠ 0)
    (hdraws : ∀ n < draws calls, s.generator.nth n = s'.generator.nth n)
    (hfresh : ∀ n < draws calls, ∀ m, s.generator.nth n = .material m →
      FreshFor u m.key s.vault.table s'.vault.table) :
    List.Forall₂ (Apart u s s') (Session.serve store calls s) (Session.serve store calls s') := by
  induction calls generalizing s s' with
  | nil => exact .nil
  | cons c calls ih =>
    obtain ⟨task, patience⟩ := c
    have hcount : draws ((task, patience) :: calls) =
        draws calls + if task.draws then 1 else 0 := by
      rw [draws, List.countP_cons]
      rfl
    have hfirst : task.draws = true → 0 < draws ((task, patience) :: calls) := by
      intro hd
      rw [hcount, if_pos hd]
      omega
    have hnow : s.left = s'.left ∨ store.limit ≠ 0 ∧ patience ≠ 0 :=
      hleft.imp_right fun hl => ⟨hl.1, hl.2 _ List.mem_cons_self⟩
    obtain ⟨hone, hrest, hg, hg'⟩ := h.perform_task (hu _ List.mem_cons_self)
      (fun hd => hdraws 0 (hfirst hd)) (fun hd => hfresh 0 (hfirst hd)) hnow
    -- the rest is done in the sessions that are left, with the generators that are left
    have hstill {n : Nat} (hn : n < draws calls) :
        n + (if task.draws then 1 else 0) < draws ((task, patience) :: calls) := by
      rw [hcount]
      omega
    have hnext := ih (fun c hc => hu c (List.mem_cons_of_mem _ hc)) hone.agree
      (hleft.imp hrest fun hl => ⟨hl.1, fun c hc => hl.2 c (List.mem_cons_of_mem _ hc)⟩)
      (fun n hn => by rw [hg, hg', nth_drawn, nth_drawn, hdraws _ (hstill hn)])
      (fun n hn m hm => by
        rw [hg, nth_drawn] at hm
        rw [FreshFor, hone.others, hone.others']
        exact hfresh _ (hstill hn) m hm)
    refine .cons hone (hnext.imp fun r r' hr => ?_)
    exact ⟨hr.same, hr.agree, hr.others.trans hone.others, hr.others'.trans hone.others'⟩

/-! ### Keys of others -/

/-- **A request with a key that the owner does not have** changes nothing, and finds nothing. -/
theorem perform_ask_of_foreign (hl : s.vault.lock = .free) {key : AccessKey}
    (hk : key ∉ s.vault.table.keysOf u)
    (hr : request = .delete u key ∨ ∃ m, request = .rotate u key m) (limit : Option Span)
    (patience : Span) :
    (s.perform (.ask request limit .done) patience).2.vault.table = s.vault.table ∧
      (s.vault.plan.delete = false → limit ≠ some 0 ∧ patience ≠ 0 →
        (s.perform (.ask request limit .done) patience).1 =
          .finished (.error .credentialNotFound)) := by
  have hu : request.IsOf u := by
    rcases hr with rfl | ⟨m, rfl⟩
    · exact .delete key
    · exact .rotate key m
  obtain ⟨v, hp, ht, -, -⟩ := perform_alone hu.isBrisk hl (hu.price_le _ _) limit patience
  obtain ⟨hsame, hnot⟩ := Request.perform_of_foreign hk hr s.vault.plan
  rw [hp]
  refine ⟨ht.trans ?_, fun hplan hun => ?_⟩
  · rcases request.fate_table limit patience s.vault.plan s.vault.table s.left with he | he
    · rw [he, hsame]
    · exact he
  · dsimp only
    rw [Fate.progress, (Request.fate_of_unhurried hun request _ _ _).1, hnot hplan]

/-- **A key that the owner does not have** is not revoked and not replaced, and nothing changes. -/
theorem perform_of_foreign (hl : s.vault.lock = .free) {key : AccessKey}
    (hk : key ∉ s.vault.table.keysOf u) (htask : task = .delete u key ∨ task = .rotate u key)
    (store : Store) (patience : Span) :
    (s.perform (task.procedure store) patience).2.vault.table = s.vault.table ∧
      (s.vault.plan.delete = false → store.limit ≠ 0 ∧ patience ≠ 0 →
        (task.draws = true → ∃ m, s.generator.nth 0 = .material m) →
        (s.perform (task.procedure store) patience).1 =
          .finished (.error .credentialNotFound)) := by
  have hlimit : store.limit ≠ 0 ∧ patience ≠ 0 → some store.limit ≠ some 0 ∧ patience ≠ 0 :=
    fun h => ⟨by simpa using h.1, h.2⟩
  rcases htask with rfl | rfl
  · obtain ⟨ht, hp⟩ := perform_ask_of_foreign hl hk (Or.inl rfl) (some store.limit) patience
    exact ⟨ht, fun hplan hun _ => hp hplan (hlimit hun)⟩
  · rw [StoreTask.procedure_of_draws rfl]
    rcases hg : s.generator.generate with ⟨m | cause | _, next⟩
    · rw [perform_drawing hg]
      obtain ⟨ht, hp⟩ := perform_ask_of_foreign (s := { s with generator := next })
        hl hk (Or.inr ⟨m, rfl⟩) (some store.limit) patience
      exact ⟨ht, fun hplan hun _ => hp hplan (hlimit hun)⟩
    · have hnone : ¬∃ m, s.generator.nth 0 = .material m := by simp [Generator.nth, hg]
      rw [perform_of_run (Procedure.run_drawing_of_failed hg) rfl]
      exact ⟨rfl, fun _ _ hd => absurd (hd rfl) hnone⟩
    · have hnone : ¬∃ m, s.generator.nth 0 = .material m := by simp [Generator.nth, hg]
      rw [perform_of_run (Procedure.run_drawing_of_breakdown hg) rfl]
      exact ⟨rfl, fun _ _ hd => absurd (hd rfl) hnone⟩

end Session

/-- **Owners are isolated.** Two sessions show an owner the same, while what others have may be
anything, and so may all that has happened before; the same operations are to fail in both, and
nobody has the table. Tasks of the owner are done in each, one after the other, with the same key
material, and no access key of it is somebody else's in either. The allowance matters only to those
in a hurry: it is the same, or all calls may take some time. Then each call ends in the same way in
both sessions, but for the numbers of issued credentials; after each call the owner has the same in
both; and the rows of everybody else are what and where they were.

In particular, whoever revokes or replaces a key that is not theirs changes nothing. They are told
that there is no such credential, if this is not prevented by something else, and whether it is
somebody else's or nobody's makes no difference. -/
theorem owners_are_isolated (store : Store) {u : UserId} {calls : List (StoreTask × Span)}
    (hu : ∀ c ∈ calls, c.1.owner? = some u) {s s' : Session} (h : s.AgreeOn u s')
    (hleft : s.left = s'.left ∨ store.limit ≠ 0 ∧ ∀ c ∈ calls, c.2 ≠ 0)
    (hdraws : ∀ n < Session.draws calls, s.generator.nth n = s'.generator.nth n)
    (hfresh : ∀ n < Session.draws calls, ∀ m, s.generator.nth n = .material m →
      FreshFor u m.key s.vault.table s'.vault.table) :
    List.Forall₂ (Session.Apart u s s') (Session.serve store calls s)
        (Session.serve store calls s') ∧
      ∀ key ∉ s.vault.table.keysOf u, ∀ task : StoreTask,
        task = .delete u key ∨ task = .rotate u key → ∀ patience,
        let r := s.perform (task.procedure store) patience
        r.2.vault.table = s.vault.table ∧
          (s.vault.plan.delete = false → store.limit ≠ 0 ∧ patience ≠ 0 →
            (task.draws = true → ∃ m, s.generator.nth 0 = .material m) →
            r.1 = .finished (.error .credentialNotFound)) :=
  ⟨h.serve hu hleft hdraws hfresh,
    fun _ hk _ htask patience => Session.perform_of_foreign h.free hk htask store patience⟩

/-- In one session `b` is somebody else's key, which was issued before; in the other nobody has it.
An owner issues a credential, revokes `b` in vain, and replaces the key `a`. -/
theorem owners_are_isolated_revoke_foreign :
    let a : AccessKey := ⟨"a", by decide⟩
    let b : AccessKey := ⟨"b", by decide⟩
    let material : KeyMaterial := ⟨⟨"c", by decide⟩, ⟨[1]⟩⟩
    let material' : KeyMaterial := ⟨⟨"d", by decide⟩, ⟨[2]⟩⟩
    let generator : Generator := .scripted [.ok material, .ok material']
    let s : Session := ⟨.empty, generator, { Vault.empty with
      table := ⟨[⟨⟨1⟩, ⟨2⟩, b, ⟨[7]⟩, none⟩, ⟨⟨2⟩, ⟨1⟩, a, ⟨[8]⟩, none⟩], 2⟩ }, 0⟩
    let s' : Session := ⟨.empty, generator, { Vault.empty with
      table := ⟨[⟨⟨1⟩, ⟨1⟩, a, ⟨[9]⟩, none⟩], 1⟩ }, 5⟩
    let calls : List (StoreTask × Span) :=
      [(.create ⟨1⟩, 9), (.delete ⟨1⟩ b, 9), (.rotate ⟨1⟩ a, 9)]
    List.Forall₂ (Session.Apart ⟨1⟩ s s') (Session.serve ⟨30⟩ calls s)
        (Session.serve ⟨30⟩ calls s') ∧
      (s.perform ((StoreTask.delete ⟨1⟩ b).procedure ⟨30⟩) 9).1 =
        .finished (.error .credentialNotFound) := by
  intro a b material material' generator s s' calls
  have hagree : s.AgreeOn ⟨1⟩ s' := ⟨rfl, rfl, rfl, rfl⟩
  have hfresh : ∀ n < Session.draws calls, ∀ m, s.generator.nth n = .material m →
      FreshFor ⟨1⟩ m.key s.vault.table s'.vault.table := by
    intro n hn m hm
    have hn' : n = 0 ∨ n = 1 := by
      have hdraws : Session.draws calls = 2 := rfl
      omega
    rcases hn' with rfl | rfl
    · obtain rfl : material = m := Generated.material.inj hm
      exact ⟨by decide, by decide⟩
    · obtain rfl : material' = m := Generated.material.inj hm
      exact ⟨by decide, by decide⟩
  obtain ⟨hall, hforeign⟩ := owners_are_isolated ⟨30⟩ (by decide) hagree
    (Or.inr ⟨by decide, by decide⟩) (fun _ _ => rfl) hfresh
  refine ⟨hall, (hforeign b (by decide) (.delete ⟨1⟩ b) (Or.inl rfl) 9).2 rfl ?_ ?_⟩
  · exact ⟨by decide, by decide⟩
  · simp [StoreTask.draws]

end KeyLifecycle
