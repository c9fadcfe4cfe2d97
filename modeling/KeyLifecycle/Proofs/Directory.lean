import KeyLifecycle.Directory
import KeyLifecycle.Proofs.Int64
import Mathlib.Data.List.Basic
import Mathlib.Data.List.Induction
import Mathlib.Order.Bounds.Defs

/-!
# The directory of users

Whatever is done to a directory, its look-ups are those of some users who have been entered one
after the other: the ones it was begun with, and then those who have been added
(`Directory.History.IsGrown`). So what there is to say about them can be said about a list of users,
in which the last one of a number and the last one of a slug count. A look-up by slug is the one
that needs care. It goes by the last user of the slug, but answers the last user of the *number* of
that one, who may be somebody else, with another slug
(`KeyLifecycle.Directory.slug_may_lead_to_somebody_else`).

This is only so if the directory was begun with two users who have the same number. Whoever is added
has a slug that nobody had before, or is refused; and has a number that nobody had before, since the
counter is never below a number that has been seen (`KeyLifecycle.Directory.isGreatest_lastId`),
until it begins anew after the last number of all. So it is said of all look-ups at once in
`KeyLifecycle.Directory.lookups_cohere_unless_seeds_clash`, and of what a call changes in
`KeyLifecycle.Directory.creation_is_fresh_exact_and_local`.
-/

namespace KeyLifecycle

namespace Directory

variable {d d' : Directory} {us seeds : List User} {u v e : User} {id : UserId} {s : String}
  {slug : Slug} {role : Role} {α : Type}

/-! ### The last one that counts -/

/-- Of two elements in a list, one after the other, the second may be the last one of all. -/
theorem pair_sublist_concat {a b c : α} {l : List α} :
    [a, b].Sublist (l ++ [c]) ↔ [a, b].Sublist l ∨ a ∈ l ∧ b = c := by
  rw [List.sublist_append_iff]
  constructor
  · rintro ⟨first, second, hl, hfirst, hsecond⟩
    rcases List.sublist_singleton.mp hsecond with rfl | rfl
    · rw [List.append_nil] at hl
      exact Or.inl (hl ▸ hfirst)
    · obtain ⟨ha, hb⟩ := List.append_inj' (show [a] ++ [b] = first ++ [c] from hl) rfl
      obtain rfl : b = c := List.singleton_inj.mp hb
      rw [← ha] at hfirst
      exact Or.inr ⟨List.singleton_sublist.mp hfirst, rfl⟩
  · rintro (h | ⟨ha, rfl⟩)
    · exact ⟨[a, b], [], by simp, h, List.nil_sublist _⟩
    · exact ⟨[a], [b], rfl, List.singleton_sublist.mpr ha, List.Sublist.refl _⟩

/-- **The last element of a kind** is found from the end. -/
theorem last_of_find? {p : α → Bool} {a : α} {l : List α} (h : l.reverse.find? p = some a) :
    a ∈ l ∧ p a = true ∧ ∀ e ∈ l, p e = true → e = a ∨ [e, a].Sublist l := by
  obtain ⟨hp, later, earlier, hl, hlater⟩ := List.find?_eq_some_iff_append.mp h
  obtain rfl : l = earlier.reverse ++ a :: later.reverse := by
    rw [← List.reverse_reverse l, hl, List.reverse_append, List.reverse_cons, List.append_assoc]
    rfl
  refine ⟨by simp, hp, fun e he hpe => ?_⟩
  rcases List.mem_append.mp he with hearlier | he
  · have ha : a ∈ a :: later.reverse := List.mem_cons_self
    exact Or.inr
      ((List.singleton_sublist.mpr hearlier).append (List.singleton_sublist.mpr ha))
  · rcases List.mem_cons.mp he with rfl | hl
    · exact Or.inl rfl
    · simpa [hpe] using hlater e (List.mem_reverse.mp hl)

/-! ### Looking up -/

/-- Who has been entered has the number from then on; other numbers lead where they led. -/
theorem byId_enter : (d.enter u).byId id = if u.id = id then some u else d.byId id := by
  by_cases h : u.id = id
  · simp [byId, enter, h]
  · simp [byId, enter, h]

/-- Who has been entered has the slug from then on; other slugs lead where they led. -/
theorem filed_enter :
    (d.enter u).filed s = if u.slug.text = s then some u.id else d.filed s := by
  by_cases h : u.slug.text = s
  · simp [filed, enter, h]
  · simp [filed, enter, h]

/-- Users are entered one after the other. -/
theorem ofUsers_concat : ofUsers (us ++ [u]) = (ofUsers us).enter u := by
  rw [ofUsers, List.foldl_append]
  rfl

/-- Of the users of a number, the last one counts. -/
theorem byId_ofUsers : (ofUsers us).byId id = us.reverse.find? (·.id = id) := by
  have husers : (ofUsers us).users = us.reverse := by
    induction us using List.reverseRecOn with
    | nil => rfl
    | append_singleton us u ih =>
      rw [ofUsers_concat, List.reverse_concat, ← ih]
      rfl
  rw [byId, husers]

/-- Of the users of a slug, it is the number of the last one that counts. -/
theorem filed_ofUsers :
    (ofUsers us).filed s = (us.reverse.find? (·.slug.text = s)).map (·.id) := by
  have hindex : (ofUsers us).index = us.reverse.map fun u => (u.slug, u.id) := by
    induction us using List.reverseRecOn with
    | nil => rfl
    | append_singleton us u ih =>
      rw [ofUsers_concat, List.reverse_concat, List.map_cons, ← ih]
      rfl
  rw [filed, hindex, List.find?_map, Option.map_map]
  rfl

/-- A number leads nowhere exactly if nobody has it. -/
theorem byId_eq_none_iff : (ofUsers us).byId id = none ↔ ∀ u ∈ us, u.id ≠ id := by
  simp [byId_ofUsers]

/-- A slug is not filed exactly if nobody has it. -/
theorem filed_eq_none_iff : (ofUsers us).filed s = none ↔ ∀ u ∈ us, u.slug.text ≠ s := by
  simp [filed_ofUsers]

/-- **The user of a number** has it, and nobody after him does. -/
theorem last_of_byId (h : (ofUsers us).byId id = some u) :
    u ∈ us ∧ u.id = id ∧ ∀ e ∈ us, e.id = id → e = u ∨ [e, u].Sublist us := by
  rw [byId_ofUsers] at h
  simpa using last_of_find? h

/-- **The number filed under a slug** is that of somebody who has the slug, and nobody after him
does. -/
theorem last_of_filed (h : (ofUsers us).filed s = some id) :
    ∃ u ∈ us, u.slug.text = s ∧ u.id = id ∧
      ∀ e ∈ us, e.slug.text = s → e = u ∨ [e, u].Sublist us := by
  rw [filed_ofUsers] at h
  obtain ⟨u, hu, hid⟩ := Option.map_eq_some_iff.mp h
  obtain ⟨hmem, hslug, hlast⟩ := last_of_find? hu
  exact ⟨u, hmem, by simpa using hslug, hid, by simpa using hlast⟩

/-- Somebody who is filed can be looked up. -/
theorem isSome_bySlug : ((ofUsers us).bySlug s).isSome = ((ofUsers us).filed s).isSome := by
  cases h : (ofUsers us).filed s with
  | none => rw [bySlug, h]; rfl
  | some id =>
    obtain ⟨u, hu, -, hid, -⟩ := last_of_filed h
    rw [bySlug, h, Option.bind_some, Option.isSome_some, Option.isSome_iff_ne_none]
    exact fun hnone => byId_eq_none_iff.mp hnone u hu hid

/-- **Two directories that come to the same in all look-ups**, wherever their counters are. -/
structure Agrees (d d' : Directory) : Prop where
  users : d.users = d'.users
  index : d.index = d'.index

namespace Agrees

variable (h : d.Agrees d')

include h

theorem byId : d.byId = d'.byId := by
  funext id
  rw [Directory.byId, h.users, Directory.byId]

theorem filed : d.filed = d'.filed := by
  funext s
  rw [Directory.filed, h.index, Directory.filed]

theorem bySlug : d.bySlug = d'.bySlug := by
  funext s
  rw [Directory.bySlug, h.filed, h.byId, Directory.bySlug]

theorem trans {d'' : Directory} (h' : d'.Agrees d'') : d.Agrees d'' :=
  ⟨h.users.trans h'.users, h.index.trans h'.index⟩

/-- It stays so when somebody is entered into both. -/
theorem enter (u : User) : (d.enter u).Agrees (d'.enter u) :=
  ⟨congrArg (u :: ·) h.users, congrArg ((u.slug, u.id) :: ·) h.index⟩

end Agrees

/-! ### The counter -/

/-- **The counter is at the largest number that has been seen**, or at zero. -/
theorem isGreatest_lastId (us : List User) :
    IsGreatest {n | n = 0 ∨ ∃ u ∈ us, u.id.value.toInt = n} (ofUsers us).lastId.toInt := by
  induction us using List.reverseRecOn with
  | nil =>
    refine ⟨Or.inl rfl, ?_⟩
    rintro n (rfl | ⟨u, hu, -⟩)
    · exact le_refl _
    · cases hu
  | append_singleton us u ih =>
    obtain ⟨hmem, hle⟩ := ih
    have hnext : (ofUsers (us ++ [u])).lastId = max (ofUsers us).lastId u.id.value := by
      rw [ofUsers_concat]
      rfl
    rw [hnext, Int64.toInt_max]
    constructor
    · rcases max_choice (ofUsers us).lastId.toInt u.id.value.toInt with h | h
      · rw [h]
        exact hmem.imp_right fun ⟨v, hv, hn⟩ => ⟨v, List.mem_append_left _ hv, hn⟩
      · rw [h]
        exact Or.inr ⟨u, by simp, rfl⟩
    · rintro n (rfl | ⟨v, hv, rfl⟩)
      · exact le_max_of_le_left (hle (Or.inl rfl))
      · rcases List.mem_append.mp hv with hv | hv
        · exact le_max_of_le_left (hle (Or.inr ⟨v, hv, rfl⟩))
        · rw [List.mem_singleton.mp hv]
          exact le_max_right _ _

/-! ### Histories -/

/-- What has become of a directory: who has been added to it so far, and what it is now. -/
structure History where
  created : List User
  directory : Directory

namespace History

/-- One more call to add somebody. A call that is refused leaves everything as it is. -/
def call (h : History) (slug : Slug) (role : Role) : History :=
  match h.directory.add slug role with
  | .ok (user, directory) => ⟨h.created ++ [user], directory⟩
  | .error _ => h

/-- **The history of a directory** that is begun with some users and then called to add others. -/
def ofCalls (seeds : List User) (calls : List (Slug × Role)) : History :=
  calls.foldl (fun h c => h.call c.1 c.2) ⟨[], ofUsers seeds⟩

/-- The counter, which each user who is added moves up by one, does not get to the end of its
numbers. -/
def HasRoom (seeds : List User) (calls : List (Slug × Role)) : Prop :=
  (ofUsers seeds).lastId.toInt + (ofCalls seeds calls).created.length < 2 ^ 63

variable {h : History} {calls : List (Slug × Role)}

theorem ofCalls_concat :
    ofCalls seeds (calls ++ [(slug, role)]) = (ofCalls seeds calls).call slug role := by
  rw [ofCalls, List.foldl_append]
  rfl

/-- **What a call does**: nothing, if the slug is filed; else somebody new is entered, and the
counter is at his number. -/
theorem call_cases (h : History) (slug : Slug) (role : Role) :
    ((∃ id, h.directory.filed slug.text = some id) ∧
      h.directory.add slug role = .error (taken slug) ∧ h.call slug role = h) ∨
    h.directory.filed slug.text = none ∧ ∃ user : User, ∃ d : Directory,
      user = ⟨⟨h.directory.lastId + 1⟩, slug, role⟩ ∧
      d.Agrees (h.directory.enter user) ∧ d.lastId = h.directory.lastId + 1 ∧
      h.directory.add slug role = .ok (user, d) ∧
      h.call slug role = ⟨h.created ++ [user], d⟩ := by
  rw [call, add]
  cases h.directory.filed slug.text with
  | some id => exact Or.inl ⟨⟨id, rfl⟩, rfl, rfl⟩
  | none =>
    let user : User := ⟨⟨h.directory.lastId + 1⟩, slug, role⟩
    exact Or.inr ⟨rfl, user, { h.directory.enter user with lastId := user.id.value }, rfl,
      ⟨rfl, rfl⟩, rfl, rfl, rfl⟩

/-- **What is kept in every history**: look-ups are those of the users who have been entered, and of
two who share a slug the second is one of those the directory was begun with. -/
structure IsGrown (seeds : List User) (h : History) : Prop where
  agrees : h.directory.Agrees (ofUsers (seeds ++ h.created))
  slugs {e u : User} (hs : [e, u].Sublist (seeds ++ h.created)) (heq : e.slug.text = u.slug.text) :
    [e, u].Sublist seeds

theorem IsGrown.call (hg : h.IsGrown seeds) (slug : Slug) (role : Role) :
    (h.call slug role).IsGrown seeds := by
  rcases call_cases h slug role with ⟨-, -, hcall⟩ | ⟨hnew, user, d, huser, hd, -, -, hcall⟩
  · rwa [hcall]
  rw [hg.agrees.filed, filed_eq_none_iff] at hnew
  rw [hcall]
  constructor
  · rw [← List.append_assoc, ofUsers_concat]
    exact hd.trans (hg.agrees.enter user)
  · intro e u hs heq
    rw [← List.append_assoc, pair_sublist_concat] at hs
    rcases hs with hs | ⟨he, rfl⟩
    · exact hg.slugs hs heq
    · rw [huser] at heq
      exact absurd heq (hnew e he)

theorem isGrown_ofCalls (seeds : List User) (calls : List (Slug × Role)) :
    (ofCalls seeds calls).IsGrown seeds := by
  induction calls using List.reverseRecOn with
  | nil =>
    constructor
    · rw [ofCalls, List.foldl_nil, List.append_nil]
      exact ⟨rfl, rfl⟩
    · intro e u hs _
      rwa [ofCalls, List.foldl_nil, List.append_nil] at hs
  | append_singleton calls c ih =>
    rw [ofCalls_concat]
    exact ih.call c.1 c.2

/-- **What is kept as long as there are numbers**: the counter has moved up by one for each user
added, and is where it would be if all users had been there from the beginning; and of two who share
a number the second is one of those the directory was begun with. -/
structure IsNumbered (seeds : List User) (h : History) : Prop where
  counter : h.directory.lastId.toInt = (ofUsers seeds).lastId.toInt + h.created.length
  lastId : h.directory.lastId = (ofUsers (seeds ++ h.created)).lastId
  ids {e u : User} (hs : [e, u].Sublist (seeds ++ h.created)) (heq : e.id = u.id) :
    [e, u].Sublist seeds

/-- **The next number is larger than all that have been seen**, if there is one. -/
theorem IsNumbered.isGreatest_lastId (hn : h.IsNumbered seeds) :
    IsGreatest {n | n = 0 ∨ ∃ u ∈ seeds ++ h.created, u.id.value.toInt = n}
      h.directory.lastId.toInt := by
  rw [hn.lastId]
  exact Directory.isGreatest_lastId _

theorem IsNumbered.call (hn : h.IsNumbered seeds)
    (hroom : (ofUsers seeds).lastId.toInt + (h.call slug role).created.length < 2 ^ 63) :
    (h.call slug role).IsNumbered seeds := by
  rcases call_cases h slug role with ⟨-, -, hcall⟩ | ⟨-, user, d, huser, -, hlast, -, hcall⟩
  · rwa [hcall]
  rw [hcall] at hroom ⊢
  have hcounter := hn.counter
  rw [List.length_append, List.length_singleton] at hroom
  have hlimit : h.directory.lastId.toInt + 1 < 2 ^ 63 := by omega
  have hnext := Int64.toInt_add_one hlimit
  have hnumber : user.id.value = h.directory.lastId + 1 := by rw [huser]
  constructor
  · rw [hlast, hnext, List.length_append, List.length_singleton]
    omega
  · rw [← List.append_assoc, ofUsers_concat, hlast]
    show _ = max (ofUsers (seeds ++ h.created)).lastId user.id.value
    rw [hnumber, ← hn.lastId, Int64.max_add_one hlimit]
  · intro e u hs heq
    rw [← List.append_assoc, pair_sublist_concat] at hs
    rcases hs with hs | ⟨he, rfl⟩
    · exact hn.ids hs heq
    · have hle := hn.isGreatest_lastId.2 (Or.inr ⟨e, he, rfl⟩)
      rw [heq, hnumber, hnext] at hle
      omega

/-- A call adds nobody or one, so there was room before if there is room after it. -/
theorem hasRoom_of_concat (hroom : HasRoom seeds (calls ++ [(slug, role)])) :
    HasRoom seeds calls := by
  rw [HasRoom, ofCalls_concat] at hroom
  rcases call_cases (ofCalls seeds calls) slug role with
    ⟨-, -, hcall⟩ | ⟨-, _, _, -, -, -, -, hcall⟩
  · rwa [hcall] at hroom
  · rw [hcall, List.length_append] at hroom
    rw [HasRoom]
    omega

theorem isNumbered_ofCalls (hroom : HasRoom seeds calls) :
    (ofCalls seeds calls).IsNumbered seeds := by
  induction calls using List.reverseRecOn with
  | nil =>
    constructor
    · rw [ofCalls, List.foldl_nil, List.length_nil, Int.natCast_zero, Int.add_zero]
    · rw [ofCalls, List.foldl_nil, List.append_nil]
    · intro e u hs _
      rwa [ofCalls, List.foldl_nil, List.append_nil] at hs
  | append_singleton calls c ih =>
    have hbefore := ih (hasRoom_of_concat hroom)
    rw [HasRoom, ofCalls_concat] at hroom
    rw [ofCalls_concat]
    exact hbefore.call hroom

end History

/-! ### Look-ups are coherent unless two users clash from the beginning -/

/-- **What look-ups should be to one another**: a slug leads to somebody who has it, and who is also
found by number; and a number leads to somebody who has it, and who is also found by slug. -/
structure IsCoherent (d : Directory) : Prop where
  bySlug {s : String} {u : User} (h : d.bySlug s = some u) :
    u.slug.text = s ∧ d.byId u.id = some u
  byId {id : UserId} {u : User} (h : d.byId id = some u) :
    u.id = id ∧ d.bySlug u.slug.text = some u

/-- **A slug leads by the last one of the slug** to the last one of his number. -/
theorem last_of_bySlug (h : (ofUsers us).bySlug s = some u) :
    (ofUsers us).byId u.id = some u ∧ ∃ e ∈ us, e.slug.text = s ∧ e.id = u.id ∧
      (e = u ∨ [e, u].Sublist us) := by
  obtain ⟨id, hfiled, hid⟩ := Option.bind_eq_some_iff.mp h
  obtain ⟨e, he, hslug, rfl, -⟩ := last_of_filed hfiled
  obtain ⟨-, hid', hlast⟩ := last_of_byId hid
  exact ⟨hid'.symm ▸ hid, e, he, hslug, hid'.symm, hlast e he rfl⟩

/-- **Somebody who is found by number is found by slug**, unless a later one with the slug has
another number. -/
theorem bySlug_of_byId (h : (ofUsers us).byId id = some u) :
    (ofUsers us).bySlug u.slug.text = some u ∨
      ∃ e, [u, e].Sublist us ∧ e.slug.text = u.slug.text ∧ e.id ≠ u.id := by
  obtain ⟨hu, rfl, -⟩ := last_of_byId h
  obtain ⟨number, hfiled⟩ : ∃ number, (ofUsers us).filed u.slug.text = some number := by
    refine Option.ne_none_iff_exists'.mp fun hnone => ?_
    exact filed_eq_none_iff.mp hnone u hu rfl
  obtain ⟨e, -, hslug, rfl, hlast⟩ := last_of_filed hfiled
  by_cases hid : e.id = u.id
  · rw [hid] at hfiled
    exact Or.inl (by rw [bySlug, hfiled, Option.bind_some, h])
  · rcases hlast u hu rfl with rfl | hs
    · exact absurd rfl hid
    · exact Or.inr ⟨e, hs, hslug, hid⟩

/-- **Look-ups are coherent unless two users clash from the beginning.** In every history of a
directory, a number leads to nobody but somebody who has it; and whoever a slug leads to is also
found by number. He has the slug himself, unless the directory was begun with two users of one
number, the slug being that of the first and he the second (or the numbers have run out); and
somebody who is found by number is also found by slug, unless the directory was begun with him and,
after him, another one who has the slug and another number. -/
theorem lookups_cohere_unless_seeds_clash (seeds : List User) (calls : List (Slug × Role)) :
    let d := (History.ofCalls seeds calls).directory
    (∀ id u, d.byId id = some u → u.id = id) ∧
    (∀ s u, d.bySlug s = some u → d.byId u.id = some u) ∧
    (∀ s u, d.bySlug s = some u → u.slug.text = s ∨
      (∃ e, [e, u].Sublist seeds ∧ e.slug.text = s ∧ e.id = u.id) ∨
      ¬History.HasRoom seeds calls) ∧
    (∀ id u, d.byId id = some u → d.bySlug u.slug.text = some u ∨
      ∃ e, [u, e].Sublist seeds ∧ e.slug.text = u.slug.text ∧ e.id ≠ u.id) := by
  have hg := History.isGrown_ofCalls seeds calls
  intro d
  have hid : d.byId = (ofUsers (seeds ++ (History.ofCalls seeds calls).created)).byId :=
    hg.agrees.byId
  have hslug : d.bySlug = (ofUsers (seeds ++ (History.ofCalls seeds calls).created)).bySlug :=
    hg.agrees.bySlug
  rw [hid, hslug]
  refine ⟨fun id u h => (last_of_byId h).2.1, fun s u h => (last_of_bySlug h).1, fun s u h => ?_,
    fun id u h => ?_⟩
  · obtain ⟨-, e, -, hslug, hid, rfl | hs⟩ := last_of_bySlug h
    · exact Or.inl hslug
    · by_cases hroom : History.HasRoom seeds calls
      · exact Or.inr (Or.inl ⟨e, (History.isNumbered_ofCalls hroom).ids hs hid, hslug, hid⟩)
      · exact Or.inr (Or.inr hroom)
  · refine (bySlug_of_byId h).imp_right ?_
    rintro ⟨e, hs, hslug, hid⟩
    exact ⟨e, hg.slugs hs hslug.symm, hslug, hid⟩

/-- **A slug may lead to somebody else**: if a directory is begun with Alice and, under the same
number, Bob, then the slug of Alice leads to Bob. -/
theorem slug_may_lead_to_somebody_else :
    let alice : User := ⟨⟨1⟩, ⟨"alice", by decide⟩, .standard⟩
    let bob : User := ⟨⟨1⟩, ⟨"bob", by decide⟩, .standard⟩
    (History.ofCalls [alice, bob] []).directory.bySlug "alice" = some bob ∧
      ¬∀ seeds calls, (History.ofCalls seeds calls).directory.IsCoherent := by
  intro alice bob
  have hbob : (History.ofCalls [alice, bob] []).directory.bySlug "alice" = some bob := by
    decide +kernel
  refine ⟨hbob, fun hall => ?_⟩
  obtain ⟨hslug, -⟩ := (hall [alice, bob] []).bySlug hbob
  exact absurd hslug (by decide +kernel)

/-! ### Whoever is added is new -/

/-- **Entering is local**: if nobody has the number yet, then the number and the slug of whoever is
entered lead to him, and nothing else changes. -/
theorem look_ups_enter (hfresh : ∀ e ∈ us, e.id ≠ u.id) :
    ((ofUsers us).enter u).byId u.id = some u ∧
      ((ofUsers us).enter u).bySlug u.slug.text = some u ∧
      (∀ id, id ≠ u.id → ((ofUsers us).enter u).byId id = (ofUsers us).byId id) ∧
      ∀ s, s ≠ u.slug.text → ((ofUsers us).enter u).bySlug s = (ofUsers us).bySlug s := by
  have hid : ((ofUsers us).enter u).byId u.id = some u := by rw [byId_enter, if_pos rfl]
  have hother (id : UserId) (h : id ≠ u.id) :
      ((ofUsers us).enter u).byId id = (ofUsers us).byId id := by
    rw [byId_enter, if_neg h.symm]
  refine ⟨hid, ?_, hother, fun s hs => ?_⟩
  · rw [bySlug, filed_enter, if_pos rfl, Option.bind_some, hid]
  · rw [bySlug, bySlug, filed_enter, if_neg hs.symm]
    cases hfiled : (ofUsers us).filed s with
    | none => rfl
    | some id =>
      -- a number that is filed is somebody's
      obtain ⟨e, he, -, rfl, -⟩ := last_of_filed hfiled
      exact hother e.id (hfresh e he)

/-- **Whoever is added has the number after the last one**, which is nobody's, and is entered with
it. -/
theorem History.created_of_filed_eq_none {h : History} (role : Role) (hg : h.IsGrown seeds)
    (hn : h.IsNumbered seeds) (hroom : h.directory.lastId.toInt + 1 < 2 ^ 63)
    (hnew : h.directory.filed slug.text = none) :
    ∃ user, h.directory.add slug role = .ok (user, (h.call slug role).directory) ∧
      (h.call slug role).created = h.created ++ [user] ∧ user.slug = slug ∧ user.role = role ∧
      IsGreatest {n | n = 0 ∨ ∃ u ∈ seeds ++ h.created, u.id.value.toInt = n}
        (user.id.value.toInt - 1) ∧
      (∀ u ∈ seeds ++ h.created, u.id ≠ user.id) ∧
      (h.call slug role).directory.Agrees ((ofUsers (seeds ++ h.created)).enter user) := by
  rcases call_cases h slug role with ⟨⟨id, hfiled⟩, -, -⟩ | ⟨-, user, d, huser, hd, -, hadd, hcall⟩
  · cases hnew.symm.trans hfiled
  have hnext : user.id.value.toInt - 1 = h.directory.lastId.toInt := by
    rw [huser, Int64.toInt_add_one hroom]
    omega
  have hgreatest := hn.isGreatest_lastId
  rw [← hnext] at hgreatest
  have hfresh : ∀ u ∈ seeds ++ h.created, u.id ≠ user.id := by
    intro u hu heq
    have hle := hgreatest.2 (Or.inr ⟨u, hu, rfl⟩)
    rw [heq] at hle
    omega
  rw [hcall]
  refine ⟨user, hadd, rfl, ?_, ?_, hgreatest, hfresh, hd.trans (hg.agrees.enter user)⟩
  · rw [huser]
  · rw [huser]

/-- **Creation is fresh, exact and local.** Whatever users a directory was begun with and whatever
calls there have been, as long as there are numbers: a further call is a conflict exactly if its
slug leads to somebody, and then nothing has changed. Else it answers a user of the slug and the
role, whose number comes after the largest one of zero, the numbers of those the directory was begun
with and the numbers of those added since, and is therefore nobody's. The number and the slug lead
to that user from then on, and all other numbers and slugs lead where they led before. -/
theorem creation_is_fresh_exact_and_local (seeds : List User) (calls : List (Slug × Role))
    (slug : Slug) (role : Role)
    (hroom : History.HasRoom seeds (calls ++ [(slug, role)])) :
    let before := History.ofCalls seeds calls
    let after := History.ofCalls seeds (calls ++ [(slug, role)])
    let d := before.directory
    let d' := after.directory
    ((∃ message, d.add slug role = .error (.conflict message)) ↔
      (d.bySlug slug.text).isSome = true) ∧
    ((d.bySlug slug.text).isSome = true → d.add slug role = .error (taken slug) ∧ after = before) ∧
    (d.bySlug slug.text = none → ∃ user,
      d.add slug role = .ok (user, d') ∧ after.created = before.created ++ [user] ∧
      user.slug = slug ∧ user.role = role ∧
      IsGreatest {n | n = 0 ∨ ∃ u ∈ seeds ++ before.created, u.id.value.toInt = n}
        (user.id.value.toInt - 1) ∧
      (∀ u ∈ seeds ++ before.created, u.id ≠ user.id) ∧
      d'.byId user.id = some user ∧ d'.bySlug slug.text = some user ∧
      (∀ id, id ≠ user.id → d'.byId id = d.byId id) ∧
      ∀ s, s ≠ slug.text → d'.bySlug s = d.bySlug s) := by
  have hg := History.isGrown_ofCalls seeds calls
  have hnumbered := History.isNumbered_ofCalls (History.hasRoom_of_concat hroom)
  rw [History.HasRoom, History.ofCalls_concat] at hroom
  rw [History.ofCalls_concat]
  generalize History.ofCalls seeds calls = h at hroom hg hnumbered ⊢
  dsimp only
  have hsome : (h.directory.bySlug slug.text).isSome = (h.directory.filed slug.text).isSome := by
    rw [hg.agrees.bySlug, hg.agrees.filed]
    exact isSome_bySlug
  rcases History.call_cases h slug role with
    ⟨⟨id, hfiled⟩, hadd, hcall⟩ | ⟨hfiled, _, _, -, -, -, hadd, hcall⟩
  · have htrue : (h.directory.bySlug slug.text).isSome = true := by
      rw [hsome, hfiled, Option.isSome_some]
    refine ⟨⟨fun _ => htrue, fun _ => ⟨_, hadd⟩⟩, fun _ => ⟨hadd, hcall⟩, fun hnone => ?_⟩
    rw [hnone] at htrue
    cases htrue
  · have hfalse : ¬(h.directory.bySlug slug.text).isSome = true := by
      rw [hsome, hfiled]
      simp
    have hlast : h.directory.lastId.toInt + 1 < 2 ^ 63 := by
      rw [hcall, List.length_append, List.length_singleton] at hroom
      have hcounter := hnumbered.counter
      omega
    refine ⟨⟨fun ⟨message, herror⟩ => ?_, fun h => absurd h hfalse⟩, fun h => absurd h hfalse,
      fun _ => ?_⟩
    · cases hadd.symm.trans herror
    · obtain ⟨user, hadd, hcreated, rfl, rfl, hgreatest, hfresh, hafter⟩ :=
        History.created_of_filed_eq_none role hg hnumbered hlast hfiled
      refine ⟨user, hadd, hcreated, rfl, rfl, hgreatest, hfresh, ?_⟩
      rw [hafter.byId, hafter.bySlug, hg.agrees.byId, hg.agrees.bySlug]
      exact look_ups_enter hfresh

/-- The numbers that a directory is begun with are out of order, negative, and there twice; one is
added, and one is refused. The next number is the twelfth. -/
theorem creation_is_fresh_exact_and_local_twelfth :
    let a : Slug := ⟨"a", by decide⟩
    let b : Slug := ⟨"b", by decide⟩
    let c : Slug := ⟨"c", by decide⟩
    let seeds : List User := [⟨⟨10⟩, a, .standard⟩, ⟨⟨-3⟩, b, .standard⟩, ⟨⟨10⟩, b, .administrator⟩]
    let calls : List (Slug × Role) := [(c, .standard), (a, .standard)]
    let d := (History.ofCalls seeds calls).directory
    let e : Slug := ⟨"e", by decide⟩
    History.HasRoom seeds (calls ++ [(e, .standard)]) ∧ d.bySlug "e" = none ∧
      ∃ d', d.add e .standard = .ok (⟨⟨12⟩, e, .standard⟩, d') ∧
        d'.bySlug "e" = some ⟨⟨12⟩, e, .standard⟩ ∧ d'.bySlug "a" = d.bySlug "a" := by
  intro a b c seeds calls d e
  have hroom : History.HasRoom seeds (calls ++ [(e, .standard)]) := by
    unfold History.HasRoom
    decide +kernel
  have hnone : d.bySlug "e" = none := by decide +kernel
  obtain ⟨-, -, hnew⟩ := creation_is_fresh_exact_and_local seeds calls e .standard hroom
  obtain ⟨user, hadd, -, hslug, hrole, -, -, -, hfound, -, hother⟩ := hnew hnone
  obtain rfl : user = ⟨⟨12⟩, e, .standard⟩ := by
    have hadd' : d.add e .standard =
        .ok (⟨⟨12⟩, e, .standard⟩, { d.enter ⟨⟨12⟩, e, .standard⟩ with lastId := 12 }) := by
      with_unfolding_all rfl
    exact congrArg Prod.fst (Except.ok.inj (hadd.symm.trans hadd'))
  exact ⟨hroom, hnone, _, hadd, hfound, hother "a" (by decide)⟩

end Directory

end KeyLifecycle
