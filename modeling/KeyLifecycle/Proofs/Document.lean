import KeyLifecycle.Document
import KeyLifecycle.Proofs.AccessKey
import KeyLifecycle.Proofs.Slug

/-!
# Documents are read as they are written

A value has one document by which it is written, and may be read from more. `IsCodec` puts side by
side what is written, what is read, and from which documents a value is read, as a relation that
does not mention the reader:

| kind of value | its documents |
|---|---|
| number of a user | the whole number, which has to fit |
| slug, access key | the text, which has to pass the check |
| role | the name, or an object whose only field has the name and `null` (`Role.IsIn`) |
| user | a list of documents of the three parts, or an object with them (`User.IsIn`) |

Since the written document is one of those, a value that has been read is read again from what is
written of it, and to read and write is to come to a document that stays (`IsCodec.rewrite`).

The only reader that goes on from field to field is that of an object for a user. In an object any
field may stand anywhere, others are passed over, and the last field of a name counts, but each of
them has to be readable (`HasField`). The induction on the fields carries what each of the three
parts comes to from what it was before (`Comes`).
-/

namespace KeyLifecycle

namespace Document

/-- **A kind of value is read as it is written**, from the documents of some form, and is sound when
it has been read. -/
structure IsCodec {α : Type} (write : α → Json) (read : Json → Except Fault α)
    (IsIn : α → Json → Prop) (Sound : α → Prop) : Prop where
  read_write (x : α) : read (write x) = .ok x
  read_eq_ok_iff {v : Json} {x : α} : read v = .ok x ↔ IsIn x v
  sound {v : Json} {x : α} (h : read v = .ok x) : Sound x ∧ read (write x) = .ok x
  /-- What is written of a value that has been read is read and written in the same way. -/
  rewrite {v w : Json} (h : (read v).map write = .ok w) : (read w).map write = .ok w

/-- A kind of value that is read from its documents, one of which is written. -/
theorem isCodec {α : Type} {write : α → Json} {read : Json → Except Fault α}
    {IsIn : α → Json → Prop} {Sound : α → Prop} (hread : ∀ v x, read v = .ok x ↔ IsIn x v)
    (hwrite : ∀ x, IsIn x (write x)) (hsound : ∀ x, Sound x) : IsCodec write read IsIn Sound := by
  have hrw : ∀ x, read (write x) = .ok x := fun x => (hread _ _).mpr (hwrite x)
  refine ⟨hrw, hread _ _, fun _ => ⟨hsound _, hrw _⟩, fun {v w} h => ?_⟩
  cases hv : read v with
  | error fault =>
    rw [hv] at h
    cases h
  | ok x =>
    rw [hv] at h
    obtain rfl := Except.ok.inj h
    rw [hrw]
    rfl

/-- To do one thing after the other is to succeed in both. -/
theorem bind_eq_ok {ε α β : Type} {e : Except ε α} {next : α → Except ε β} {b : β} :
    e >>= next = .ok b ↔ ∃ a, e = .ok a ∧ next a = .ok b := by
  cases e with
  | error => exact iff_of_false (fun h => by cases h) (by simp)
  | ok a => exact ⟨fun h => ⟨a, rfl, h⟩, fun ⟨_, ha, h⟩ => Except.ok.inj ha ▸ h⟩

theorem mapError_eq_ok {ε ε' α : Type} {e : Except ε α} {f : ε → ε'} {a : α} :
    e.mapError f = .ok a ↔ e = .ok a := by
  cases e <;> simp [Except.mapError]

theorem text?_eq_ok {v : Json} {s : String} : text? v = .ok s ↔ v = .text s := by
  cases v <;> simp [text?]

/-- A kind of value that is made of a text, if that passes a check, is read from its text alone. -/
theorem parse_text_eq_ok_iff {ε α : Type} {parse : String → Except ε α} {text : α → String}
    {fault : ε → Fault} (h : ∀ s x, parse s = .ok x ↔ text x = s) (v : Json) (x : α) :
    (text? v >>= fun s => (parse s).mapError fault) = .ok x ↔ v = .text (text x) := by
  simp only [bind_eq_ok, mapError_eq_ok, text?_eq_ok, h]
  constructor
  · rintro ⟨s, rfl, rfl⟩
    rfl
  · rintro rfl
    exact ⟨_, rfl, rfl⟩

end Document

open Document

/-! ### Numbers, slugs and access keys -/

/-- A number is read from itself alone. -/
theorem UserId.ofJson_eq_ok_iff (v : Json) (id : UserId) :
    UserId.ofJson v = .ok id ↔ v = id.json := by
  have hmin := id.value.minValue_le_toInt
  have hmax := id.value.toInt_le
  cases v with
  | int n =>
    rw [ofJson, json, Json.int.injEq]
    split
    · -- a number that does not fit is that of nobody
      rename_i hout
      exact iff_of_false (by simp) fun h => by omega
    · rename_i hin
      rw [Except.ok.injEq]
      constructor
      · rintro rfl
        refine (Int64.toInt_ofInt_of_le ?_ ?_).symm
        · rw [← Int64.toInt_minValue]
          omega
        · have hmaxValue : Int64.maxValue.toInt = 2 ^ 63 - 1 := rfl
          omega
      · rintro rfl
        rw [UserId.ofInt, Int64.ofInt_toInt]
  | _ => simp [ofJson, json]

theorem Slug.ofJson_eq_ok_iff (v : Json) (slug : Slug) :
    Slug.ofJson v = .ok slug ↔ v = slug.json :=
  parse_text_eq_ok_iff (fun _ slug => parse_eq_ok_iff.trans
    ⟨And.right, fun h => ⟨h ▸ slug.sound, h⟩⟩) v slug

theorem AccessKey.ofJson_eq_ok_iff (v : Json) (key : AccessKey) :
    AccessKey.ofJson v = .ok key ↔ v = key.json :=
  parse_text_eq_ok_iff (fun _ key => parse_eq_ok_iff.trans
    ⟨And.right, fun h => ⟨h ▸ key.sound, h⟩⟩) v key

/-! ### Roles -/

/-- The documents of a role. -/
inductive Role.IsIn (role : Role) : Json → Prop
  | name : IsIn role (.text role.name)
  | object : IsIn role (.object [(role.name, .null)])

/-- A role is known by its name. -/
theorem Role.ofName_eq_ok_iff {name : String} {role : Role} :
    Role.ofName name = .ok role ↔ name = role.name := by
  have hne : Role.administrator.name ≠ Role.standard.name := by decide
  rw [ofName]
  split
  · rename_i h
    cases role <;> simp [h, hne]
  · split
    · rename_i h
      cases role <;> simp [h, hne.symm]
    · cases role <;> simp [*]

theorem Role.ofJson_eq_ok_iff (v : Json) (role : Role) :
    Role.ofJson v = .ok role ↔ role.IsIn v := by
  constructor
  · intro h
    cases v with
    | text name =>
      obtain rfl := ofName_eq_ok_iff.mp h
      exact .name
    | object fields =>
      match fields with
      | [] | _ :: _ :: _ => cases h
      | [(name, content)] =>
        rw [ofJson, bind_eq_ok] at h
        obtain ⟨role', hname, h⟩ := h
        obtain rfl := ofName_eq_ok_iff.mp hname
        cases content <;> cases h
        exact .object
    | _ => cases h
  · rintro (_ | _)
    · exact ofName_eq_ok_iff.mpr rfl
    · rw [ofJson, ofName_eq_ok_iff.mpr rfl]
      rfl

/-! ### Users -/

namespace Document

/-- **A field of an object**: the last one of a name is a document of the value, and each of that
name is one of some value. -/
structure HasField {α : Type} (IsIn : α → Json → Prop) (name : String)
    (fields : List (String × Json)) (x : α) : Prop where
  last : ∃ v, fields.reverse.lookup name = some v ∧ IsIn x v
  readable {v : Json} (h : (name, v) ∈ fields) : ∃ y, IsIn y v

/-- **What a part of a user comes to** when some fields have been read: if none of them has its
name, it is what it was. -/
structure Comes {α : Type} (IsIn : α → Json → Prop) (name : String)
    (fields : List (String × Json)) (before after : Option α) : Prop where
  last : (fields.reverse.lookup name = none ∧ after = before) ∨
    ∃ v x, fields.reverse.lookup name = some v ∧ IsIn x v ∧ after = some x
  readable {v : Json} (h : (name, v) ∈ fields) : ∃ y, IsIn y v

section Comes

variable {α : Type} {IsIn : α → Json → Prop} {name other : String} {v : Json}
  {fields : List (String × Json)} {before after : Option α} {x : α}

/-- The first field counts if none of those after it has its name. -/
theorem lookup_reverse_cons : ((other, v) :: fields).reverse.lookup name =
    (fields.reverse.lookup name).or (if name = other then some v else none) := by
  rw [List.reverse_cons, List.lookup_append, List.lookup_cons, List.lookup_nil]
  by_cases h : name = other
  · rw [if_pos h, beq_iff_eq.mpr h]
  · rw [if_neg h, beq_false_of_ne h]

theorem comes_nil : Comes IsIn name [] before after ↔ after = before := by
  constructor
  · rintro ⟨⟨-, h⟩ | ⟨v, x, hv, -⟩, -⟩
    · exact h
    · cases hv
  · exact fun h => ⟨Or.inl ⟨rfl, h⟩, fun hm => by cases hm⟩

/-- A field of another name makes no difference. -/
theorem comes_cons_of_ne (h : other ≠ name) :
    Comes IsIn name ((other, v) :: fields) before after ↔ Comes IsIn name fields before after := by
  have hlookup : ((other, v) :: fields).reverse.lookup name = fields.reverse.lookup name := by
    rw [lookup_reverse_cons, if_neg h.symm, Option.or_none]
  have hmem (w : Json) : (name, w) ∈ (other, v) :: fields ↔ (name, w) ∈ fields := by
    simp [h.symm]
  constructor
  · rintro ⟨hlast, hreadable⟩
    exact ⟨hlookup ▸ hlast, fun hw => hreadable ((hmem _).mpr hw)⟩
  · rintro ⟨hlast, hreadable⟩
    exact ⟨hlookup.symm ▸ hlast, fun hw => hreadable ((hmem _).mp hw)⟩

/-- A field of the name is what the part is from then on. -/
theorem comes_cons_self : Comes IsIn name ((name, v) :: fields) before after ↔
    ∃ x, IsIn x v ∧ Comes IsIn name fields (some x) after := by
  have hlookup : ((name, v) :: fields).reverse.lookup name =
      (fields.reverse.lookup name).or (some v) := by
    rw [lookup_reverse_cons, if_pos rfl]
  constructor
  · rintro ⟨hlast, hreadable⟩
    have hrest {w : Json} (hw : (name, w) ∈ fields) : ∃ y, IsIn y w :=
      hreadable (List.mem_cons_of_mem _ hw)
    rw [hlookup] at hlast
    cases hr : fields.reverse.lookup name with
    | none =>
      -- it is the last one of its name
      rw [hr, Option.none_or] at hlast
      obtain ⟨h, -⟩ | ⟨_, x, hv, hx, rfl⟩ := hlast
      · cases h
      · obtain rfl := Option.some.inj hv
        exact ⟨x, hx, Or.inl ⟨hr, rfl⟩, hrest⟩
    | some w =>
      rw [hr, Option.some_or] at hlast
      obtain ⟨x, hx⟩ := hreadable List.mem_cons_self
      obtain ⟨h, -⟩ | ⟨_, y, hv, hy, rfl⟩ := hlast
      · cases h
      · exact ⟨x, hx, Or.inr ⟨_, y, hr.trans hv, hy, rfl⟩, hrest⟩
  · rintro ⟨x, hx, hlast, hreadable⟩
    refine ⟨Or.inr ?_, fun {w} hw => ?_⟩
    · obtain ⟨hnone, rfl⟩ | ⟨w, y, hw, hy, rfl⟩ := hlast
      · exact ⟨v, x, by rw [hlookup, hnone, Option.none_or], hx, rfl⟩
      · exact ⟨w, y, by rw [hlookup, hw, Option.some_or], hy, rfl⟩
    · rcases List.mem_cons.mp hw with he | hw
      · obtain rfl := congrArg Prod.snd he
        exact ⟨x, hx⟩
      · exact hreadable hw

/-- A part that was not there has to come from a field. -/
theorem comes_none_some : Comes IsIn name fields none (some x) ↔ HasField IsIn name fields x := by
  constructor
  · rintro ⟨⟨-, h⟩ | ⟨v, y, hv, hy, h⟩, hreadable⟩
    · cases h
    · obtain rfl := Option.some.inj h
      exact ⟨⟨v, hv, hy⟩, hreadable⟩
  · rintro ⟨⟨v, hv, hx⟩, hreadable⟩
    exact ⟨Or.inr ⟨v, x, hv, hx, rfl⟩, hreadable⟩

end Comes

/-- **Reading fields** is to come from three parts to three parts. -/
theorem UserParts.read_eq_ok_iff {fields : List (String × Json)} {parts parts' : UserParts} :
    parts.read fields = .ok parts' ↔
      Comes (fun id v => v = UserId.json id) "id" fields parts.id parts'.id ∧
        Comes (fun slug v => v = Slug.json slug) "slug" fields parts.slug parts'.slug ∧
        Comes Role.IsIn "role" fields parts.role parts'.role := by
  induction fields generalizing parts with
  | nil =>
    obtain ⟨id, slug, role⟩ := parts
    obtain ⟨id', slug', role'⟩ := parts'
    simp [read, comes_nil, eq_comm]
  | cons field fields ih =>
    obtain ⟨name, v⟩ := field
    rw [read]
    by_cases hid : name = "id"
    · subst hid
      rw [if_pos rfl, bind_eq_ok, comes_cons_self, comes_cons_of_ne (by decide),
        comes_cons_of_ne (by decide)]
      simp only [ih, UserId.ofJson_eq_ok_iff]
      exact ⟨fun ⟨x, hv, h, hslug, hrole⟩ => ⟨⟨x, hv, h⟩, hslug, hrole⟩,
        fun ⟨⟨x, hv, h⟩, hslug, hrole⟩ => ⟨x, hv, h, hslug, hrole⟩⟩
    rw [if_neg hid, comes_cons_of_ne hid]
    by_cases hslug : name = "slug"
    · subst hslug
      rw [if_pos rfl, bind_eq_ok, comes_cons_self, comes_cons_of_ne (by decide)]
      simp only [ih, Slug.ofJson_eq_ok_iff]
      exact ⟨fun ⟨x, hv, hid, h, hrole⟩ => ⟨hid, ⟨x, hv, h⟩, hrole⟩,
        fun ⟨hid, ⟨x, hv, h⟩, hrole⟩ => ⟨x, hv, hid, h, hrole⟩⟩
    rw [if_neg hslug, comes_cons_of_ne hslug]
    by_cases hrole : name = "role"
    · subst hrole
      rw [if_pos rfl, bind_eq_ok, comes_cons_self]
      simp only [ih, Role.ofJson_eq_ok_iff]
      exact ⟨fun ⟨x, hv, hid, hslug, h⟩ => ⟨hid, hslug, x, hv, h⟩,
        fun ⟨hid, hslug, x, hv, h⟩ => ⟨x, hv, hid, hslug, h⟩⟩
    rw [if_neg hrole, comes_cons_of_ne hrole, ih]

theorem UserParts.user_eq_ok_iff {parts : UserParts} {user : User} :
    parts.user = .ok user ↔ parts = ⟨some user.id, some user.slug, some user.role⟩ := by
  obtain ⟨id, slug, role⟩ := parts
  obtain ⟨id', slug', role'⟩ := user
  cases id <;> cases slug <;> cases role <;> simp [UserParts.user]

end Document

/-- **The documents of a user.** -/
inductive User.IsIn (user : User) : Json → Prop
  | list {role : Json} (h : user.role.IsIn role) :
    IsIn user (.list [user.id.json, user.slug.json, role])
  | object {fields : List (String × Json)}
      (id : HasField (fun id v => v = UserId.json id) "id" fields user.id)
      (slug : HasField (fun slug v => v = Slug.json slug) "slug" fields user.slug)
      (role : HasField Role.IsIn "role" fields user.role) : IsIn user (.object fields)

theorem User.ofJson_eq_ok_iff (v : Json) (user : User) :
    User.ofJson v = .ok user ↔ user.IsIn v := by
  constructor
  · intro h
    cases v with
    | object fields =>
      rw [ofJson, bind_eq_ok] at h
      obtain ⟨parts, hread, huser⟩ := h
      obtain rfl := UserParts.user_eq_ok_iff.mp huser
      obtain ⟨hid, hslug, hrole⟩ := UserParts.read_eq_ok_iff.mp hread
      exact .object (comes_none_some.mp hid) (comes_none_some.mp hslug) (comes_none_some.mp hrole)
    | list items =>
      match items with
      | [] => cases h
      | [id] =>
        rw [ofJson, bind_eq_ok] at h
        obtain ⟨_, -, h⟩ := h
        cases h
      | [id, slug] =>
        simp only [ofJson, bind_eq_ok] at h
        obtain ⟨_, -, _, -, h⟩ := h
        cases h
      | id :: slug :: role :: rest =>
        simp only [ofJson, bind_eq_ok, UserId.ofJson_eq_ok_iff, Slug.ofJson_eq_ok_iff,
          Role.ofJson_eq_ok_iff] at h
        obtain ⟨id', rfl, slug', rfl, role', hrole, h⟩ := h
        cases rest with
        | nil =>
          obtain rfl := Except.ok.inj h
          exact .list hrole
        | cons => cases h
    | _ => cases h
  · rintro (@⟨role, h⟩ | ⟨hid, hslug, hrole⟩)
    · simp only [ofJson, bind_eq_ok, UserId.ofJson_eq_ok_iff, Slug.ofJson_eq_ok_iff,
        Role.ofJson_eq_ok_iff]
      exact ⟨_, rfl, _, rfl, _, h, rfl⟩
    · rw [ofJson, bind_eq_ok]
      exact ⟨_, UserParts.read_eq_ok_iff.mpr ⟨comes_none_some.mpr hid, comes_none_some.mpr hslug,
        comes_none_some.mpr hrole⟩, UserParts.user_eq_ok_iff.mpr rfl⟩

/-- What is written is one of the documents. -/
theorem User.isIn_json (user : User) : user.IsIn user.json := by
  refine .object ⟨⟨_, rfl, rfl⟩, ?_⟩ ⟨⟨_, rfl, rfl⟩, ?_⟩ ⟨⟨_, rfl, .name⟩, ?_⟩
  · simp
  · simp
  · simpa using ⟨user.role, Role.IsIn.name⟩

/-! ### All of them -/

/-- A whole number that has sixty-four bits with a sign. -/
def Document.Fits (n : Int) : Prop := Int64.minValue.toInt ≤ n ∧ n ≤ Int64.maxValue.toInt

theorem UserId.fits (id : UserId) : Fits id.value.toInt :=
  ⟨id.value.minValue_le_toInt, id.value.toInt_le⟩

theorem UserId.exists_ofJson_iff (n : Int) :
    (∃ id, UserId.ofJson (.int n) = .ok id) ↔ Fits n := by
  constructor
  · rintro ⟨id, h⟩
    obtain rfl := Json.int.inj ((ofJson_eq_ok_iff _ _).mp h)
    exact id.fits
  · rintro ⟨hmin, hmax⟩
    exact ⟨_, if_neg (by omega)⟩

theorem Slug.exists_ofJson_iff (text : String) :
    (∃ slug, Slug.ofJson (.text text) = .ok slug) ↔ Slug.fault? text = none := by
  constructor
  · rintro ⟨slug, h⟩
    obtain rfl := Json.text.inj ((ofJson_eq_ok_iff _ _).mp h)
    exact slug.sound
  · exact fun h => ⟨⟨text, h⟩, (ofJson_eq_ok_iff _ _).mpr rfl⟩

theorem AccessKey.exists_ofJson_iff (text : String) :
    (∃ key, AccessKey.ofJson (.text text) = .ok key) ↔ AccessKey.fault? text = none := by
  constructor
  · rintro ⟨key, h⟩
    obtain rfl := Json.text.inj ((ofJson_eq_ok_iff _ _).mp h)
    exact key.sound
  · exact fun h => ⟨⟨text, h⟩, (ofJson_eq_ok_iff _ _).mpr rfl⟩

/-- **Documents are read as they are written, and no check is passed by.** Every number of a user,
slug, access key, role and user is read again from what is written of it. From any value at all
something is read exactly if the value is one of its documents: so numbers fit, slugs and access
keys pass their checks, inside a user as well, and what has been read is read again from what is
written of it; to read and write once more changes nothing. Of whole numbers those are read that
fit, and of texts those that pass the check. -/
theorem documents_are_read_as_written :
    IsCodec UserId.json UserId.ofJson (fun id v => v = id.json) (fun id => Fits id.value.toInt) ∧
      IsCodec Slug.json Slug.ofJson (fun slug v => v = slug.json)
        (fun slug => Slug.fault? slug.text = none) ∧
      IsCodec AccessKey.json AccessKey.ofJson (fun key v => v = key.json)
        (fun key => AccessKey.fault? key.text = none) ∧
      IsCodec Role.json Role.ofJson Role.IsIn (fun _ => True) ∧
      IsCodec User.json User.ofJson User.IsIn
        (fun user => Fits user.id.value.toInt ∧ Slug.fault? user.slug.text = none) ∧
      (∀ n, (∃ id, UserId.ofJson (.int n) = .ok id) ↔ Fits n) ∧
      (∀ text, (∃ slug, Slug.ofJson (.text text) = .ok slug) ↔ Slug.fault? text = none) ∧
      ∀ text, (∃ key, AccessKey.ofJson (.text text) = .ok key) ↔ AccessKey.fault? text = none :=
  ⟨isCodec UserId.ofJson_eq_ok_iff (fun _ => rfl) UserId.fits,
    isCodec Slug.ofJson_eq_ok_iff (fun _ => rfl) Slug.sound,
    isCodec AccessKey.ofJson_eq_ok_iff (fun _ => rfl) AccessKey.sound,
    isCodec Role.ofJson_eq_ok_iff (fun _ => .name) (fun _ => trivial),
    isCodec User.ofJson_eq_ok_iff User.isIn_json (fun user => ⟨user.id.fits, user.slug.sound⟩),
    UserId.exists_ofJson_iff, Slug.exists_ofJson_iff, AccessKey.exists_ofJson_iff⟩

-- a role may be an object, and further fields are passed over
example : (User.ofJson (.object [("role", .object [("standard", .null)]), ("more", .bool true),
    ("slug", .text "bob"), ("id", .int 5)])).toOption.map (·.json.field? "role") =
      some (some (.text "standard")) := by
  cbv

end KeyLifecycle
