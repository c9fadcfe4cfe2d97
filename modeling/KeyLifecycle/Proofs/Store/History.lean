import KeyLifecycle.Proofs.Session.Pursuit
import Mathlib.Algebra.BigOperators.Group.Finset.Piecewise

/-!
# A list tells what has happened

Calls are made one after the other, of services and of stores, and whatever is answered `ok`
establishes a `Fact`: that an access key has been issued, revoked or used. From the facts alone,
without a look at any table, one can tell what an owner should see (`Fact.holdings`): each key that
has been issued to them and not been revoked *since*, in the order in which it was issued, with the
last moment of its use *since*. A key that is issued once more begins anew.

The table is always in step with that (`Session.Remembers`). For this each fact does to what stands
what its call does to the table:

| fact | what stands | the table |
|---|---|---|
| issued | `Fact.standing_issued` | `Table.entries_insert` |
| revoked | `Fact.standing_revoked` | `Table.entries_remove?` |
| used | `Fact.standing_used` | `Table.entries_stamp?` |

The two columns read alike where the keys of a table are distinct: a table takes out, or stamps, the
first row that fits, while a fact is about all that fit. So every list that is answered `ok` tells
what it should, and so does the number of rows (`KeyLifecycle.list_is_faithful_view`).
-/

namespace KeyLifecycle

/-! ### What calls establish -/

/-- Something that the answer to a call has established. -/
inductive Fact where
  /-- An access key has been issued to an owner. -/
  | issued (owner : UserId) (key : AccessKey)
  /-- A credential of an owner has been revoked, or replaced. -/
  | revoked (owner : UserId) (key : AccessKey)
  /-- An access key has been used at a moment. -/
  | used (key : AccessKey) (moment : Instant)
  deriving DecidableEq

namespace Fact

/-- The moment of use of an access key, if this is what a fact tells. -/
def use? (key : AccessKey) : Fact → Option Instant
  | used key' moment => if key' = key then some moment else none
  | _ => none

/-- To whom an access key has been issued, if this is what a fact tells. -/
def recipient? : Fact → Option UserId
  | issued owner _ => some owner
  | _ => none

/-- The last moment of use of an access key. -/
def lastUse (key : AccessKey) (facts : List Fact) : Option Instant :=
  (facts.filterMap (use? key)).getLast?

/-- **What stands of all that has been issued**, in the order in which it was issued: everything
that has not been revoked since, with its owner and the last moment of use since. -/
def standing : List Fact → List (UserId × Summary)
  | [] => []
  | issued owner key :: since =>
    if revoked owner key ∈ since then standing since
    else (owner, ⟨key, lastUse key since⟩) :: standing since
  | _ :: since => standing since

/-- **What an owner should see.** -/
def holdings (owner : UserId) (facts : List Fact) : List Summary :=
  ((standing facts).filter (·.1 = owner)).map (·.2)

/-- Everybody to whom something has ever been issued. -/
def recipients (facts : List Fact) : Finset UserId := (facts.filterMap recipient?).toFinset

variable {owner : UserId} {key : AccessKey} {moment : Instant} {facts : List Fact}

/-! ### One more fact -/

theorem lastUse_concat (key : AccessKey) (facts : List Fact) (fact : Fact) :
    lastUse key (facts ++ [fact]) = (fact.use? key).or (lastUse key facts) := by
  rw [lastUse, List.filterMap_append, List.getLast?_append, lastUse]
  cases h : fact.use? key <;> simp [h]

/-- What is issued comes last, and has not been used. -/
theorem standing_issued (facts : List Fact) (owner : UserId) (key : AccessKey) :
    standing (facts ++ [issued owner key]) = standing facts ++ [(owner, ⟨key, none⟩)] := by
  induction facts with
  | nil => simp [standing, lastUse]
  | cons fact facts ih =>
    cases fact with
    | issued owner' key' =>
      simp only [List.cons_append, standing, ih, lastUse_concat, use?, Option.none_or]
      by_cases h : revoked owner' key' ∈ facts <;> simp [h]
    | _ => exact ih

/-- What is revoked is gone, and the rest stays in its order. -/
theorem standing_revoked (facts : List Fact) (owner : UserId) (key : AccessKey) :
    standing (facts ++ [revoked owner key]) =
      (standing facts).filter fun e => ¬(e.1 = owner ∧ e.2.key = key) := by
  induction facts with
  | nil => rfl
  | cons fact facts ih =>
    cases fact with
    | issued owner' key' =>
      simp only [List.cons_append, standing, ih, lastUse_concat, use?, Option.none_or]
      by_cases h : revoked owner' key' ∈ facts
      · simp [h]
      · by_cases hr : owner' = owner ∧ key' = key
        · obtain ⟨rfl, rfl⟩ := hr
          simp [h]
        · have hmem : revoked owner' key' ∉ facts ++ [revoked owner key] := by
            simpa [h] using hr
          rw [if_neg hmem, if_neg h,
            List.filter_cons_of_pos (by simpa only [decide_eq_true_eq] using hr)]
    | _ => exact ih

/-- What is used has a new last moment of use, whoever holds it. -/
theorem standing_used (facts : List Fact) (key : AccessKey) (moment : Instant) :
    standing (facts ++ [used key moment]) =
      (standing facts).map fun e =>
        if e.2.key = key then (e.1, { e.2 with lastAuth := some moment }) else e := by
  induction facts with
  | nil => rfl
  | cons fact facts ih =>
    cases fact with
    | issued owner' key' =>
      simp only [List.cons_append, standing, ih, lastUse_concat, use?]
      by_cases h : revoked owner' key' ∈ facts
      · simp [h]
      · by_cases hk : key = key'
        · simp [h, hk]
        · simp [h, hk, Ne.symm hk]
    | _ => exact ih

/-- Whatever stands has been issued to somebody. -/
theorem mem_recipients {e : UserId × Summary} (h : e ∈ standing facts) :
    e.1 ∈ recipients facts := by
  induction facts with
  | nil => simp [standing] at h
  | cons fact facts ih =>
    have hsub : recipients facts ⊆ recipients (fact :: facts) := by
      intro u hu
      simp only [recipients, List.mem_toFinset] at hu ⊢
      exact List.mem_filterMap.mpr <| by
        obtain ⟨f, hf, he⟩ := List.mem_filterMap.mp hu
        exact ⟨f, List.mem_cons_of_mem _ hf, he⟩
    cases fact with
    | issued owner' key' =>
      rw [standing] at h
      split at h
      · exact hsub (ih h)
      · rcases List.mem_cons.mp h with rfl | h
        · simp [recipients, recipient?]
        · exact hsub (ih h)
    | _ => exact hsub (ih h)

/-- **What stands is what all owners hold together.** -/
theorem length_standing (facts : List Fact) :
    (standing facts).length = ∑ u ∈ recipients facts, (holdings u facts).length := by
  have hall : ∀ e ∈ standing facts, e.1 ∈ recipients facts := fun e h => mem_recipients h
  simp only [holdings, List.length_map]
  generalize standing facts = entries at hall
  induction entries with
  | nil => simp
  | cons e entries ih =>
    have he := hall e List.mem_cons_self
    have hone : ∑ u ∈ recipients facts, (if e.1 = u then 1 else 0) = 1 := by
      simp [he]
    rw [List.length_cons, ih fun e' h => hall e' (List.mem_cons_of_mem e h), ← hone,
      ← Finset.sum_add_distrib]
    refine Finset.sum_congr rfl fun u _ => ?_
    by_cases hu : e.1 = u <;> simp [hu]

end Fact

/-! ### Tables -/

namespace Table

variable {t t' : Table} {owner : UserId} {material : KeyMaterial} {key : AccessKey}

/-- What there is to be seen of a table, of all owners. -/
def entries (t : Table) : List (UserId × Summary) := t.rows.map fun row => (row.owner, row.summary)

theorem summaries_eq (t : Table) (owner : UserId) :
    t.summaries owner = (t.entries.filter (·.1 = owner)).map (·.2) := by
  simp [summaries, entries, List.filter_map, Function.comp_def]

theorem keys_eq (t : Table) : t.keys = t.entries.map (·.2.key) := by
  simp [keys, entries, Function.comp_def, Row.summary]

theorem entries_insert {c : Credential} (h : t.insert owner material = .ok (c, t')) :
    t'.entries = t.entries ++ [(owner, ⟨c.key, none⟩)] := by
  obtain ⟨-, rfl, rfl⟩ := insert_eq_ok.mp h
  simp [entries, fresh, Row.summary, Row.credential]

/-- Where keys are distinct, what is taken out is all that an owner has with a key. -/
theorem entries_remove? {row : Row} (hk : t.HasDistinctKeys)
    (h : t.remove? owner key = some (row, t')) :
    t'.entries = t.entries.filter fun e => ¬(e.1 = owner ∧ e.2.key = key) := by
  obtain ⟨before, after, hrows, hrows', -, ho, hkey⟩ := remove?_eq_some h
  have hne := key_ne_of_remove? hk hrows
  have hstay (rows : List Row) (hrows : ∀ other ∈ rows, other.key ≠ row.key) :
      (rows.map fun row => (row.owner, row.summary)).filter
          (fun e => ¬(e.1 = owner ∧ e.2.key = key)) =
        rows.map fun row => (row.owner, row.summary) := by
    refine List.filter_eq_self.mpr fun e he => ?_
    obtain ⟨other, hother, rfl⟩ := List.mem_map.mp he
    simp [Row.summary, ← hkey, hrows other hother]
  rw [entries, entries, hrows, hrows', List.map_append, List.map_append, List.map_cons,
    List.filter_append, List.filter_cons, hstay before fun o h => hne o (List.mem_append_left _ h),
    hstay after fun o h => hne o (List.mem_append_right _ h)]
  simp [ho, hkey, Row.summary]

theorem entries_stamp? {moment : Instant} (hk : t.HasDistinctKeys)
    (h : t.stamp? key moment = some t') :
    t'.entries = t.entries.map fun e =>
      if e.2.key = key then (e.1, { e.2 with lastAuth := some moment }) else e := by
  obtain ⟨-, rfl⟩ := stamp?_eq_some.mp h
  rw [entries, stampRows_eq_map moment hk, entries, List.map_map, List.map_map]
  refine List.map_congr_left fun row _ => ?_
  by_cases hkey : row.key = key
  · simp [Row.summary, hkey]
  · simp [Row.summary, hkey]

end Table

/-! ### Tasks -/

namespace StoreTask

variable {task : StoreTask} {reply : Reply} {material : KeyMaterial} {t t' : Table}

/-- **What an answer establishes.** -/
def facts : StoreTask → Reply → List Fact
  | create owner, .issued c => [.issued owner c.key]
  | delete owner key, _ => [.revoked owner key]
  | rotate owner key, .issued c => [.revoked owner key, .issued owner c.key]
  | stamp key moment, .found true => [.used key moment]
  | _, _ => []

/-- What comes of the answer to whatever was asked: nothing, unless it is `ok`. -/
def established : Option StoreTask → Option (Except Failure Reply) → List Fact
  | some task, some (.ok reply) => task.facts reply
  | _, _ => []

theorem established_of_ne {answer : Option (Except Failure Reply)}
    (h : ∀ reply, answer ≠ some (.ok reply)) (task? : Option StoreTask) :
    established task? answer = [] := by
  unfold established
  split
  · exact absurd rfl (h _)
  · rfl

/-- **A task that is answered keeps the table in step with what is established.** -/
theorem entries_perform {facts : List Fact} (hk : t.HasDistinctKeys)
    (he : t.entries = Fact.standing facts)
    (h : (task.request material).perform {} t = (.ok reply, t')) :
    t'.entries = Fact.standing (facts ++ task.facts reply) := by
  -- where nothing is established, nothing has changed
  have hnone : t.entries = Fact.standing (facts ++ []) := by rwa [List.append_nil]
  cases task with
  | create owner =>
    rw [request, Request.perform_create, if_neg (by simp)] at h
    split at h
    · rename_i c _ hi
      obtain ⟨rfl, rfl⟩ : Reply.issued c = reply ∧ _ = t' := by simpa using h
      rw [Table.entries_insert hi, StoreTask.facts, Fact.standing_issued, he]
    · simp at h
  | list owner =>
    obtain rfl : t = t' := congrArg Prod.snd h
    exact hnone
  | delete owner key =>
    rw [request, Request.perform_delete, if_neg (by simp)] at h
    split at h
    · rename_i hr
      obtain ⟨rfl, rfl⟩ : Reply.done = reply ∧ _ = t' := by simpa using h
      rw [Table.entries_remove? hk hr, StoreTask.facts, Fact.standing_revoked, he]
    · simp at h
  | rotate owner key =>
    rw [request, Request.perform_rotate, if_neg (by simp)] at h
    split at h
    · rename_i rest hr
      rw [Request.perform_create, if_neg (by simp)] at h
      cases hi : rest.insert owner material with
      | error cause => simp [hi] at h
      | ok result =>
        obtain ⟨c, t''⟩ := result
        obtain ⟨rfl, rfl⟩ : Reply.issued c = reply ∧ t'' = t' := by simpa [hi] using h
        rw [Table.entries_insert hi, Table.entries_remove? hk hr, he, ← Fact.standing_revoked,
          ← Fact.standing_issued, List.append_assoc]
        rfl
    · simp at h
  | stamp key moment =>
    rw [request] at h
    unfold Request.perform at h
    simp only [Request.work?] at h
    split at h
    · rename_i hs
      obtain ⟨rfl, rfl⟩ : Reply.found true = reply ∧ _ = t' := by simpa using h
      rw [Table.entries_stamp? hk hs, StoreTask.facts, Fact.standing_used, he]
    · obtain ⟨rfl, rfl⟩ : Reply.found false = reply ∧ t = t' := by simpa using h
      exact hnone
  | count =>
    obtain rfl : t = t' := congrArg Prod.snd h
    exact hnone

end StoreTask

/-! ### A history -/

/-- What happens in a history, one thing after the other. -/
inductive Chapter where
  /-- Something is asked of a service. -/
  | serve (service : Service) (caller : Caller) (target : Option String) (call : ServiceCall)
    (patience : Span)
  /-- Something is asked of a store. -/
  | ask (store : Store) (task : StoreTask) (patience : Span)
  /-- Other operations are to fail from now on. -/
  | setPlan (plan : FailurePlan)
  /-- Key material comes from another generator from now on. -/
  | setGenerator (generator : Generator)

/-- The answer of a procedure that has come to its end. -/
def Progress.answer? : Progress (Except Failure Reply) → Option (Except Failure Reply)
  | finished answer => some answer
  | _ => none

namespace Chapter

/-- What is asked for in a chapter in the end, where certain users are known. -/
def task? (users : Directory) : Chapter → Option StoreTask
  | serve _ caller target call _ => call.task? users caller target
  | ask _ task _ => some task
  | _ => none

/-- **What happens in a chapter**: what is answered, if anything is, and the session after it. -/
def play : Chapter → Session → Option (Except Failure Reply) × Session
  | serve service caller target call patience, s =>
    let (p, s) := s.perform (call.procedure service caller target) patience
    (p.answer?, s)
  | ask store task patience, s =>
    let (p, s) := s.perform (task.procedure store) patience
    (p.answer?, s)
  | setPlan plan, s => (none, { s with vault := s.vault.setPlan plan })
  | setGenerator generator, s => (none, { s with generator := generator })

end Chapter

namespace Session

/-- The session after some chapters. -/
def after (s : Session) (chapters : List Chapter) : Session :=
  chapters.foldl (fun s chapter => (chapter.play s).2) s

/-- **What has been established in some chapters**, one after the other. -/
def history : Session → List Chapter → List Fact
  | _, [] => []
  | s, chapter :: chapters =>
    StoreTask.established (chapter.task? s.directory) (chapter.play s).1 ++
      (chapter.play s).2.history chapters

/-- **A session that is in step with its history.** -/
structure Remembers (users : Directory) (facts : List Fact) (s : Session) : Prop where
  directory : s.directory = users
  orderly : s.vault.Orderly fun _ => True
  entries : s.vault.table.entries = Fact.standing facts

variable {users : Directory} {facts : List Fact} {s : Session}

/-- **A procedure that may come to one task** keeps the session in step, and an answer to it is that
of the task. -/
theorem Remembers.perform {procedure : Procedure (Except Failure Reply)} {task? : Option StoreTask}
    (h : s.Remembers users facts)
    (hseeks : procedure.Seeks (fun request => ∃ task, task? = some task ∧ task.Makes request) users)
    (patience : Span) :
    (s.perform procedure patience).2.Remembers users
        (facts ++ StoreTask.established task? (s.perform procedure patience).1.answer?) ∧
      ∀ reply, (s.perform procedure patience).1.answer? = some (.ok reply) →
        ∃ task material t', task? = some task ∧
          (task.request material).perform {} s.vault.table = (.ok reply, t') := by
  have hplain : ∀ request, (∃ task, task? = some task ∧ task.Makes request) → request.IsPlain := by
    rintro request ⟨task, -, hm⟩
    exact hm.isPlain
  rw [← h.directory] at hseeks
  obtain ⟨hd, hv, ⟨reply, request, hp, ⟨task, rfl, material, rfl⟩, hperform⟩ | ⟨hno, ht⟩⟩ :=
    perform_seeks hplain hseeks h.orderly patience
  · rw [hp]
    refine ⟨⟨hd.trans h.directory, hv, ?_⟩, ?_⟩
    · exact StoreTask.entries_perform h.orderly.distinct h.entries hperform
    · rintro _ ⟨rfl⟩
      exact ⟨task, material, _, rfl, hperform⟩
  · have ha (reply : Reply) : (s.perform procedure patience).1.answer? ≠ some (.ok reply) := by
      intro ha
      refine hno reply ?_
      cases hp : (s.perform procedure patience).1 <;> simp_all [Progress.answer?]
    refine ⟨⟨hd.trans h.directory, hv, ?_⟩, fun reply hr => absurd hr (ha reply)⟩
    rw [StoreTask.established_of_ne ha, List.append_nil, ht]
    exact h.entries

/-- **One chapter.** -/
theorem Remembers.play (h : s.Remembers users facts) (chapter : Chapter) :
    (chapter.play s).2.Remembers users
        (facts ++ StoreTask.established (chapter.task? users) (chapter.play s).1) ∧
      ∀ reply, (chapter.play s).1 = some (.ok reply) →
        ∃ task material t', chapter.task? users = some task ∧
          (task.request material).perform {} s.vault.table = (.ok reply, t') := by
  cases chapter with
  | serve service caller target call patience =>
    exact h.perform (call.seeks service caller target users) patience
  | ask store task patience =>
    have hseeks : (task.procedure store).Seeks
        (fun request => ∃ task', some task = some task' ∧ task'.Makes request) users :=
      (task.seeks store users).mono fun _ hr => ⟨task, rfl, hr⟩
    exact h.perform hseeks patience
  | setPlan plan =>
    have hv : (s.vault.run [.setPlan plan]).Orderly fun _ => True :=
      h.orderly.run fun _ _ => trivial
    refine ⟨⟨h.directory, hv, ?_⟩, by nofun⟩
    rw [StoreTask.established_of_ne (by nofun), List.append_nil]
    exact h.entries
  | setGenerator generator =>
    refine ⟨⟨h.directory, h.orderly, ?_⟩, by nofun⟩
    rw [StoreTask.established_of_ne (by nofun), List.append_nil]
    exact h.entries

/-- **Many chapters.** -/
theorem Remembers.after (h : s.Remembers users facts) (chapters : List Chapter) :
    (s.after chapters).Remembers users (facts ++ s.history chapters) := by
  induction chapters generalizing s facts with
  | nil =>
    rw [history, List.append_nil]
    exact h
  | cons chapter chapters ih =>
    rw [history, h.directory, ← List.append_assoc]
    exact ih (h.play chapter).1

theorem remembers_start (users : Directory) (generator : Generator) :
    (start users generator).Remembers users [] :=
  ⟨rfl, Vault.orderly_empty, rfl⟩

end Session

/-- **A list tells what has happened, and nothing else.** Some users, and no credentials yet; calls
of services and of stores are made one after the other, and other operations are to fail, or another
generator is used, from any of them on. Whatever has become of all these calls: a list for an owner
that is answered `ok` is what the owner should see according to the answers, with no key twice, and
the number of rows is that of what all owners should see together. -/
theorem list_is_faithful_view (users : Directory) (generator : Generator)
    (chapters : List Chapter) :
    let s := (Session.start users generator).after chapters
    let facts := (Session.start users generator).history chapters
    (∀ u, ((Fact.holdings u facts).map (·.key)).Nodup) ∧
      ∀ (chapter : Chapter) (reply : Reply), (chapter.play s).1 = some (.ok reply) →
        (∀ u, chapter.task? users = some (.list u) → reply = .summaries (Fact.holdings u facts)) ∧
        (chapter.task? users = some .count →
          reply = .count (∑ u ∈ Fact.recipients facts, (Fact.holdings u facts).length)) := by
  intro s facts
  have h : s.Remembers users facts :=
    (Session.remembers_start users generator).after chapters
  refine ⟨fun u => ?_, fun chapter reply hreply => ?_⟩
  · have hk : s.vault.table.keys.Nodup := h.orderly.distinct
    rw [Table.keys_eq, h.entries] at hk
    rw [Fact.holdings, List.map_map]
    exact ((List.filter_sublist).map _).nodup hk
  · obtain ⟨task, material, t', ht, hp⟩ := (h.play chapter).2 reply hreply
    rw [ht]
    refine ⟨?_, ?_⟩
    · rintro u ⟨rfl⟩
      obtain rfl : reply = .summaries (s.vault.table.summaries u) :=
        (Except.ok.inj (congrArg Prod.fst hp)).symm
      rw [Table.summaries_eq, h.entries, Fact.holdings]
    · rintro ⟨rfl⟩
      obtain rfl : reply = .count s.vault.table.rows.length :=
        (Except.ok.inj (congrArg Prod.fst hp)).symm
      have hlen : s.vault.table.rows.length = s.vault.table.entries.length :=
        (List.length_map _).symm
      rw [hlen, h.entries, Fact.length_standing]

/-- A user gets a key and uses it, and `bob` gets one as well, by way of a service. The key is
replaced in vain, since nothing can be issued, then revoked, and issued once more: it is listed
without a moment of use. -/
theorem list_is_faithful_view_issued_again :
    let a : AccessKey := ⟨"a", by decide⟩
    let b : AccessKey := ⟨"b", by decide⟩
    let generator : Generator := .scripted [.ok ⟨a, ⟨[1]⟩⟩, .ok ⟨b, ⟨[2]⟩⟩, .ok ⟨b, ⟨[3]⟩⟩,
      .ok ⟨a, ⟨[4]⟩⟩]
    let users : Directory := .ofUsers [⟨⟨2⟩, ⟨"bob", by decide⟩, .standard⟩]
    let chapters : List Chapter := [.ask ⟨30⟩ (.create ⟨1⟩) 9,
      .serve ⟨.selfOrAdmin, ⟨30⟩⟩ ⟨⟨1⟩, true⟩ (some "bob") .create 9,
      .ask ⟨30⟩ (.stamp a ⟨1700000000, 0⟩) 9, .setPlan { insert := true },
      .ask ⟨30⟩ (.rotate ⟨1⟩ a) 9, .setPlan {}, .ask ⟨30⟩ (.delete ⟨1⟩ a) 9,
      .ask ⟨30⟩ (.create ⟨1⟩) 9]
    let s := (Session.start users generator).after chapters
    let facts := (Session.start users generator).history chapters
    let list : Chapter := .ask ⟨30⟩ (.list ⟨1⟩) 9
    (list.play s).1 = some (.ok (.summaries (Fact.holdings ⟨1⟩ facts))) ∧
      Fact.holdings ⟨1⟩ facts = [⟨a, none⟩] := by
  intro a b generator users chapters s facts list
  have hok : (list.play s).1.any Except.isOk = true := by decide +kernel
  have hfacts : Fact.holdings ⟨1⟩ facts = [⟨a, none⟩] := by decide +kernel
  rcases ha : (list.play s).1 with _ | cause | reply
  · simp [ha] at hok
  · simp [ha, Except.isOk, Except.toBool] at hok
  · obtain rfl := ((list_is_faithful_view users generator chapters).2 list reply ha).1 ⟨1⟩ rfl
    exact ⟨rfl, hfacts⟩

end KeyLifecycle
