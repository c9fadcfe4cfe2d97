import KeyLifecycle.Settings
import Mathlib

/-!
# Settings are layered leaf by leaf

Two files and the environment are layers of the settings: lists of paths and of the values that
belong there (`Layer`). A layer says something about a leaf if it has the section of the leaf as a
map with an entry for it, or the path to the leaf itself; of several values the last one counts
(`Layer.said?`).

| part | what it is about |
| --- | --- |
| `Layer.IsOfLeaves` | a layer gives sections as maps and leaves as values that are no maps |
| `Value.IsSectioned` | the sections in a tree, as far as they are there, are maps |
| `Lays` | a tree has changed in those leaves of which something was said |
| `Leaf.chosen?` | what is written of a leaf, converted, or its built-in value |
| `gather` | settings, leaf by leaf |

A path that is laid over a tree changes the leaves of which it says something, and no others
(`exists_lays_putAt`); so does a layer, one path after the other (`Layer.exists_lays_put`). In the
tree that results each leaf has what was said last, and a tree is read leaf by leaf (`ofValue_eq`),
so that of a leaf nothing counts but what was said of it last.

This would not hold of any layer. A leaf that is a map is merged with the map that was there, a
section that is no map replaces the whole section, and an index may lead to a place that no list
has. Apart from these a layer may have what it likes, and what belongs to no leaf is not read.
-/

namespace KeyLifecycle.Settings

/-! ### Leaves -/

/-- The leaves of the settings. -/
inductive Leaf where
  | url
  | maxConnections
  | minConnections
  | connectTimeout
  | idleTimeout
  | level
  | format
  | operationTimeout
  deriving DecidableEq

namespace Leaf

/-- What a leaf is. -/
abbrev Content : Leaf → Type
  | url | level => String
  | maxConnections | minConnections => UInt32
  | connectTimeout | idleTimeout | operationTimeout => UInt64
  | format => LogFormat

/-- The section of a leaf. -/
def part : Leaf → String
  | url | maxConnections | minConnections | connectTimeout | idleTimeout => "database"
  | level | format => "logging"
  | operationTimeout => "credentials"

/-- The name of a leaf in its section. -/
def name : Leaf → String
  | url => "url"
  | maxConnections => "max_connections"
  | minConnections => "min_connections"
  | connectTimeout => "connect_timeout_secs"
  | idleTimeout => "idle_timeout_secs"
  | level => "level"
  | format => "format"
  | operationTimeout => "operation_timeout_secs"

/-- The place of a leaf in its section, should that be a list. -/
def place : Leaf → Nat
  | url | level | operationTimeout => 0
  | maxConnections | format => 1
  | minConnections => 2
  | connectTimeout => 3
  | idleTimeout => 4

/-- What a value is converted to. -/
def read? : (leaf : Leaf) → Value → Option leaf.Content
  | url | level => Value.text?
  | maxConnections | minConnections => connections?
  | connectTimeout | idleTimeout | operationTimeout => seconds?
  | format => format?

/-- What a leaf is in some settings. -/
def of : (leaf : Leaf) → Settings → leaf.Content
  | url, s => s.database.url
  | maxConnections, s => s.database.maxConnections
  | minConnections, s => s.database.minConnections
  | connectTimeout, s => s.database.connectTimeout
  | idleTimeout, s => s.database.idleTimeout
  | level, s => s.logging.level
  | format, s => s.logging.format
  | operationTimeout, s => s.credentials.operationTimeout

/-- The path to a leaf. -/
def path (leaf : Leaf) : Path := ⟨leaf.part, [.name leaf.name]⟩

end Leaf

/-! ### Layers -/

/-- Values, and the paths to the places over which they are laid. -/
abbrev Layer := List (Path × Value)

/-- The layer of a file, if it can be read. -/
def Layer.ofFile? (text : Option String) : Option Layer :=
  match text with
  | none => some []
  | some text =>
    match (Json.ofText? text).map Value.ofJson with
    | some (.map entries) => some (entries.map fun (name, value) => (Path.ofText name, value))
    | _ => none

/-- The layer of the environment. -/
def Layer.ofVariables (vars : List (String × String)) : Layer :=
  vars.filterMap fun (name, written) => (Path.ofVariable? name).map (·, .ofText written)

/-- Lays a layer over a value. -/
def Layer.put (layer : Layer) (v : Value) : Option Value :=
  layer.foldlM (fun v (path, value) => Value.putAt path value v) v

/-- What a value at a path says about a leaf. -/
def said? (path : Path) (value : Value) (leaf : Leaf) : Option Value :=
  match path.rest with
  | [] => if path.first = leaf.part then value.entries.reverse.lookup leaf.name else none
  | _ => if path = leaf.path then some value else none

/-- What a layer says about a leaf. -/
def Layer.said? (layer : Layer) (leaf : Leaf) : Option Value :=
  layer.reverse.findSome? fun (path, value) => Settings.said? path value leaf

/-- Whether a value is a map. -/
def Value.isMap : Value → Bool
  | map _ => true
  | _ => false

/-- Whether there is a place for a step wherever it starts. -/
def Step.HasPlace : Step → Prop
  | .name _ => True
  | .index i => 0 ≤ i ∧ i < Value.roomiest

/-- Whether a value at a path has nothing but leaves, as far as it matters. -/
inductive IsOfLeaves : Path → Value → Prop
  /-- A section, no leaf of which is a map. -/
  | part {part : String} {entries : List (String × Value)}
      (h : ∀ leaf : Leaf, leaf.part = part → ∀ value, (leaf.name, value) ∈ entries →
        value.isMap = false) : IsOfLeaves ⟨part, []⟩ (.map entries)
  /-- A leaf that is no map. -/
  | leaf {part name : String} {value : Value} (h : value.isMap = false) :
      IsOfLeaves ⟨part, [.name name]⟩ value
  /-- What belongs to no section, or to none of its leaves. -/
  | unknown {part : String} {rest : List Step} {value : Value}
      (h : ∀ leaf : Leaf, leaf.part = part → ∃ name below, rest = .name name :: below ∧
        leaf.name ≠ name)
      (hplace : ∀ step ∈ rest, step.HasPlace) : IsOfLeaves ⟨part, rest⟩ value

/-- Whether a layer has nothing but leaves. -/
def Layer.IsOfLeaves (layer : Layer) : Prop :=
  ∀ path value, (path, value) ∈ layer → Settings.IsOfLeaves path value

/-! ### What sources say

Names count without regard to case: those in files are put in lower case as they are read, and a
variable's is put so before it is taken for a path. -/

/-- **A variable that is named for a leaf says what the leaf is.** -/
theorem Path.ofVariable?_of_leaf {leaf : Leaf} {name : String}
    (h : Literal.lower name = "app__" ++ leaf.part ++ "__" ++ leaf.name) :
    Path.ofVariable? name = some leaf.path := by
  rw [Path.ofVariable?, h]
  cases leaf <;> decide +kernel

/-- **So does an entry of a file that is named for it**, with a point. -/
theorem Path.ofText_of_leaf {leaf : Leaf} {name : String}
    (h : Literal.lower name = leaf.part ++ "." ++ leaf.name) :
    Path.ofText (Literal.lower name) = leaf.path := by
  rw [h]
  cases leaf <;> decide +kernel

/-- **And so does an entry of its section.** -/
theorem said?_of_part {leaf : Leaf} {name : String} (h : Literal.lower name = leaf.part)
    (fields : List (String × Json)) :
    said? (Path.ofText (Literal.lower name)) (.ofJson (.object fields)) leaf =
      fields.reverse.findSome? fun (name, value) =>
        if leaf.name = Literal.lower name then some (.ofJson value) else none := by
  have hpath : Path.ofText leaf.part = ⟨leaf.part, []⟩ := by cases leaf <;> decide +kernel
  have hentries : Value.entriesOfJson fields =
      fields.map fun (name, value) => (Literal.lower name, .ofJson value) := by
    induction fields with
    | nil => rfl
    | cons field fields ih => rw [Value.entriesOfJson, ih]; rfl
  rw [h, hpath, said?, if_pos rfl, Value.ofJson, Value.entries, hentries, ← List.map_reverse,
    List.lookup_eq_findSome?, List.findSome?_map]
  simp only [Function.comp_def, beq_iff_eq]

/-! ### Entries -/

namespace Value

theorem lookup_cons_eq (name other : String) (value : Value) (es : List (String × Value)) :
    ((other, value) :: es).lookup name = if name = other then some value else es.lookup name := by
  rw [List.lookup_cons]
  by_cases h : name = other
  · rw [if_pos h, beq_iff_eq.2 h]
  · rw [if_neg h, beq_eq_false_iff_ne.2 h]

theorem lookup_setIn (name other : String) (value : Value) (es : List (String × Value)) :
    (setIn name value es).lookup other = if other = name then some value else es.lookup other := by
  induction es with
  | nil => exact lookup_cons_eq ..
  | cons e es ih =>
    obtain ⟨first, old⟩ := e
    rw [setIn]
    by_cases hname : first = name
    · subst first
      rw [if_pos rfl, lookup_cons_eq, lookup_cons_eq]
      split
      · rfl
      · rfl
    · rw [if_neg hname, lookup_cons_eq, lookup_cons_eq, ih]
      by_cases h : other = first
      · rw [if_pos h, if_pos h, if_neg (h ▸ hname)]
      · rw [if_neg h, if_neg h]

/-- **An entry has its new value**, and the others have theirs. -/
theorem entry?_set (v value : Value) (name other : String) :
    entry? (v.set name value) other = if other = name then some value else v.entry? other :=
  lookup_setIn name other value v.entries

/-- Laying a value over an entry concerns that entry, which is the value itself unless that is a
map. -/
theorem exists_put_eq (name : String) (value v : Value) :
    ∃ new, put name value v = v.set name new ∧ (value.isMap = false → new = value) := by
  cases value with
  | map entries => exact ⟨_, by rw [put], nofun⟩
  | null | bool | int | float | text | list => exact ⟨_, by rw [put]; simp, fun _ => rfl⟩

/-- **What is laid over a map entry by entry**: the last value for a name, or what was there. -/
theorem putAll_map {name : String} {entries : List (String × Value)}
    (hmap : ∀ value, (name, value) ∈ entries → value.isMap = false) (es : List (String × Value)) :
    ∃ es', putAll entries (.map es) = .map es' ∧
      es'.lookup name = (entries.reverse.lookup name).or (es.lookup name) := by
  induction entries generalizing es with
  | nil => exact ⟨es, by rw [putAll], rfl⟩
  | cons e entries ih =>
    obtain ⟨other, value⟩ := e
    obtain ⟨new, hput, hnew⟩ := exists_put_eq other value (.map es)
    obtain ⟨es', hall, hlast⟩ :=
      ih (fun value hmem => hmap value (List.mem_cons_of_mem _ hmem)) (setIn other new es)
    refine ⟨es', ?_, ?_⟩
    · rw [putAll, hput]
      exact hall
    · rw [hlast, lookup_setIn, List.reverse_cons, List.lookup_append, lookup_cons_eq,
        Option.or_assoc]
      by_cases h : name = other
      · subst other
        rw [if_pos rfl, if_pos rfl, hnew (hmap value List.mem_cons_self)]
        rfl
      · rw [if_neg h, if_neg h]
        rfl

/-- There is a place to which steps lead. -/
theorem exists_putSteps_eq {step : Step} {rest : List Step} (hstep : step.HasPlace)
    (hrest : ∀ step ∈ rest, step.HasPlace) (value v : Value) :
    ∃ v', putSteps value step rest v = some v' := by
  induction rest generalizing step v with
  | nil =>
    cases step with
    | name name => exact ⟨_, by rw [putSteps]⟩
    | index index =>
      rw [putSteps, position?, if_pos hstep.1, if_pos hstep.2]
      exact ⟨_, rfl⟩
  | cons next rest ih =>
    have hnext := ih (hrest next List.mem_cons_self)
      (fun step hmem => hrest step (List.mem_cons_of_mem _ hmem))
    cases step with
    | name name =>
      obtain ⟨inner, hinner⟩ := hnext ((v.entry? name).getD null)
      exact ⟨_, by rw [putSteps, hinner]; rfl⟩
    | index index =>
      obtain ⟨inner, hinner⟩ :=
        hnext ((reaching index.toNat v.items).getD index.toNat null)
      rw [putSteps, position?, if_pos hstep.1, if_pos hstep.2]
      exact ⟨_, by simp only [Option.bind_eq_bind, Option.bind_some, hinner]; rfl⟩

/-- Laying a value over the place to which steps lead concerns the entry of the first one. -/
theorem exists_putSteps_name_eq {rest : List Step} (hrest : ∀ step ∈ rest, step.HasPlace)
    (name : String) (value v : Value) :
    ∃ new, putSteps value (.name name) rest v = some (v.set name new) ∧
      (rest = [] → value.isMap = false → new = value) := by
  cases rest with
  | nil =>
    obtain ⟨new, hput, hnew⟩ := exists_put_eq name value v
    exact ⟨new, by rw [putSteps, hput], fun _ => hnew⟩
  | cons step rest =>
    obtain ⟨new, hput⟩ := exists_putSteps_eq (hrest step List.mem_cons_self)
      (fun step hmem => hrest step (List.mem_cons_of_mem _ hmem)) value ((v.entry? name).getD null)
    exact ⟨new, by rw [putSteps, hput]; rfl, nofun⟩

/-! ### Leaves of a tree -/

theorem exists_of_isMap {v : Value} (h : v.isMap) : ∃ es, v = .map es := by
  cases v with
  | map es => exact ⟨es, rfl⟩
  | null | bool | int | float | text | list => cases h

/-- The sections that there are are maps. -/
def IsSectioned (v : Value) : Prop :=
  ∀ (leaf : Leaf) (part : Value), v.entry? leaf.part = some part → part.isMap

/-- The value of a leaf. -/
def leaf? (v : Value) (leaf : Leaf) : Option Value :=
  (v.entry? leaf.part).bind fun part => part.entry? leaf.name

/-- A section that there is not yet is empty. -/
theorem entry?_getD {base : Value} (hbase : base.entries = []) (v : Value) (leaf : Leaf) :
    entry? ((v.entry? leaf.part).getD base) leaf.name = v.leaf? leaf := by
  rw [leaf?]
  cases v.entry? leaf.part with
  | none => rw [Option.getD_none, entry?, hbase]; rfl
  | some part => rfl

/-- The entries of a section. -/
def part (v : Value) (name : String) : List (String × Value) :=
  ((v.entry? name).getD (.map [])).entries

theorem lookup_part (v : Value) (leaf : Leaf) :
    (v.part leaf.part).lookup leaf.name = v.leaf? leaf := entry?_getD rfl v leaf

theorem IsSectioned.getD_eq {v : Value} (hv : v.IsSectioned) (leaf : Leaf) :
    (v.entry? leaf.part).getD (.map []) = .map (v.part leaf.part) := by
  rw [part]
  cases hpart : v.entry? leaf.part with
  | none => rfl
  | some part =>
    obtain ⟨es, rfl⟩ := exists_of_isMap (hv leaf part hpart)
    rfl

end Value

/-- A tree after something has been laid over it: each leaf has the value that was said, if any
was, and otherwise the one that it had. -/
def Lays (said : Leaf → Option Value) (v v' : Value) : Prop :=
  v.IsSectioned → v'.IsSectioned ∧ ∀ leaf, v'.leaf? leaf = (said leaf).or (v.leaf? leaf)

namespace Lays

theorem refl (v : Value) : Lays (fun _ => none) v v := fun hv => ⟨hv, fun _ => rfl⟩

/-- **What was said later counts.** -/
theorem trans {said later : Leaf → Option Value} {v v' v'' : Value} (h : Lays said v v')
    (h' : Lays later v' v'') : Lays (fun leaf => (later leaf).or (said leaf)) v v'' := by
  intro hv
  obtain ⟨hv', hsaid⟩ := h hv
  obtain ⟨hv'', hlater⟩ := h' hv'
  exact ⟨hv'', fun leaf => by rw [hlater, hsaid, Option.or_assoc]⟩

/-- A change of one section. -/
theorem set {said : Leaf → Option Value} {v new : Value} {part : String}
    (hother : ∀ leaf : Leaf, leaf.part ≠ part → said leaf = none)
    (hpart : v.IsSectioned → ∀ leaf : Leaf, leaf.part = part →
      new.isMap ∧ new.entry? leaf.name = (said leaf).or (v.leaf? leaf)) :
    Lays said v (v.set part new) := by
  intro hv
  constructor
  · intro leaf section' hsection
    rw [Value.entry?_set] at hsection
    split at hsection
    case isTrue h =>
      cases hsection
      exact (hpart hv leaf h).1
    case isFalse h => exact hv leaf section' hsection
  · intro leaf
    rw [Value.leaf?, Value.entry?_set]
    split
    case isTrue h => exact (hpart hv leaf h).2
    case isFalse h => rw [hother leaf h]; rfl

end Lays

theorem said?_of_part_ne {path : Path} {leaf : Leaf} (h : leaf.part ≠ path.first)
    (value : Value) : said? path value leaf = none := by
  rw [said?]
  split
  · exact if_neg (Ne.symm h)
  · exact if_neg fun hpath => h (congrArg Path.first hpath).symm

/-- A value that is laid over something that is no section. -/
theorem exists_lays_putAt_of_part_ne {path : Path} (hplace : ∀ step ∈ path.rest, step.HasPlace)
    (h : ∀ leaf : Leaf, leaf.part ≠ path.first) (value v : Value) :
    ∃ v', Value.putAt path value v = some v' ∧ Lays (said? path value) v v' := by
  obtain ⟨new, hput, -⟩ := Value.exists_putSteps_name_eq hplace path.first value v
  exact ⟨_, hput, .set (fun leaf hpart => said?_of_part_ne hpart value)
    fun _ leaf hpart => absurd hpart (h leaf)⟩

/-- A value that is laid over an entry of a section. -/
theorem exists_lays_putAt_entry {part name : String} {below : List Step} {value : Value}
    (hbelow : ∀ step ∈ below, step.HasPlace)
    (hleaf : ∀ leaf : Leaf, leaf.part = part → leaf.name = name →
      below = [] ∧ value.isMap = false) (v : Value) :
    ∃ v', Value.putAt ⟨part, .name name :: below⟩ value v = some v' ∧
      Lays (said? ⟨part, .name name :: below⟩ value) v v' := by
  obtain ⟨new, hput, hnew⟩ :=
    Value.exists_putSteps_name_eq hbelow name value ((v.entry? part).getD .null)
  refine ⟨_, by rw [Value.putAt, Value.putSteps, hput]; rfl,
    .set (fun leaf hpart => said?_of_part_ne hpart value) ?_⟩
  rintro hv leaf rfl
  refine ⟨rfl, ?_⟩
  rw [Value.entry?_set, Value.entry?_getD rfl]
  by_cases hname : leaf.name = name
  · subst name
    obtain ⟨rfl, hvalue⟩ := hleaf leaf rfl rfl
    have hsaid : said? ⟨leaf.part, [.name leaf.name]⟩ value leaf = some value := if_pos rfl
    rw [if_pos rfl, hnew rfl hvalue, hsaid]
    rfl
  · have hpath : (⟨leaf.part, .name name :: below⟩ : Path) ≠ leaf.path := by
      intro hpath
      cases hpath
      exact hname rfl
    have hsaid : said? ⟨leaf.part, .name name :: below⟩ value leaf = none := if_neg hpath
    rw [if_neg hname, hsaid]
    rfl

/-- **A value that is laid over a path changes what it says something about.** -/
theorem exists_lays_putAt {path : Path} {value : Value} (h : IsOfLeaves path value) (v : Value) :
    ∃ v', Value.putAt path value v = some v' ∧ Lays (said? path value) v v' := by
  cases h with
  | @part part entries h =>
    refine ⟨_, by rw [Value.putAt, Value.putSteps, Value.put],
      .set (fun leaf hpart => said?_of_part_ne hpart _) ?_⟩
    rintro hv leaf rfl
    obtain ⟨es, hall, hlast⟩ := Value.putAll_map (h leaf rfl) (v.part leaf.part)
    rw [hv.getD_eq, hall]
    refine ⟨rfl, ?_⟩
    rw [said?, if_pos rfl, ← Value.lookup_part]
    exact hlast
  | leaf h => exact exists_lays_putAt_entry (List.forall_mem_nil _) (fun _ _ _ => ⟨rfl, h⟩) v
  | @unknown part rest value h hplace =>
    by_cases hpart : ∃ leaf : Leaf, leaf.part = part
    · obtain ⟨leaf, hleaf⟩ := hpart
      obtain ⟨name, below, rfl, -⟩ := h leaf hleaf
      refine exists_lays_putAt_entry
        (fun step hmem => hplace step (List.mem_cons_of_mem _ hmem)) ?_ v
      intro leaf hpart hname
      obtain ⟨other, _, hrest, hne⟩ := h leaf hpart
      cases hrest
      exact absurd hname hne
    · exact exists_lays_putAt_of_part_ne hplace (fun leaf hleaf => hpart ⟨leaf, hleaf⟩) value v

/-- **A layer changes what it says something about.** -/
theorem Layer.exists_lays_put {layer : Layer} (h : layer.IsOfLeaves) (v : Value) :
    ∃ v', layer.put v = some v' ∧ Lays layer.said? v v' := by
  induction layer generalizing v with
  | nil => exact ⟨v, rfl, Lays.refl v⟩
  | cons item layer ih =>
    obtain ⟨path, value⟩ := item
    obtain ⟨v', hput, hfirst⟩ := exists_lays_putAt (h path value List.mem_cons_self) v
    obtain ⟨v'', hrest, hlater⟩ :=
      ih (fun path value hmem => h path value (List.mem_cons_of_mem _ hmem)) v'
    refine ⟨v'', ?_, ?_⟩
    · simp only [Layer.put, List.foldlM_cons, hput]
      exact hrest
    · have hsaid : Layer.said? ((path, value) :: layer) =
          fun leaf => (Layer.said? layer leaf).or (Settings.said? path value leaf) := by
        funext leaf
        rw [Layer.said?, List.reverse_cons, List.findSome?_append, List.findSome?_singleton]
        rfl
      rw [hsaid]
      exact hfirst.trans hlater

/-! ### Sources are layers -/

theorem putFile_eq {text : Option String} {layer : Layer} (h : Layer.ofFile? text = some layer)
    (v : Value) : putFile text v = placed (layer.put v) := by
  cases text with
  | none =>
    cases h
    rfl
  | some text =>
    rw [Layer.ofFile?] at h
    rw [putFile]
    cases hread : (Json.ofText? text).map Value.ofJson with
    | none =>
      rw [hread] at h
      cases h
    | some value =>
      rw [hread] at h
      cases value with
      | map entries =>
        cases h
        simp only [Layer.put, List.foldlM_map]
      | null | bool | int | float | text | list => cases h

theorem putVariables_eq (vars : List (String × String)) (v : Value) :
    Value.putVariables vars v = (Layer.ofVariables vars).put v := by
  rw [Value.putVariables, Layer.put, Layer.ofVariables, List.foldlM_filterMap]
  congr 1
  funext v ⟨name, written⟩
  cases hpath : Path.ofVariable? name with
  | none => simp only [hpath, Option.map_none]; rfl
  | some path => simp only [hpath, Option.map_some]

/-! ### Reading the leaves -/

/-- What is written of a leaf: what the environment says, or else the file for the place, or else
the file of defaults. -/
def Leaf.written? (defaults place environment : Layer) (leaf : Leaf) : Option Value :=
  (environment.said? leaf).or ((place.said? leaf).or (defaults.said? leaf))

/-- What a leaf is to be: what is written, if it can be converted, or the built-in value if nothing
is written. -/
def Leaf.chosen? (written : Option Value) (leaf : Leaf) : Option leaf.Content :=
  match written with
  | none => some (leaf.of {})
  | some value => leaf.read? value

/-- Settings, leaf by leaf. -/
def gather {m : Type → Type} [Monad m] (get : (leaf : Leaf) → m leaf.Content) : m Settings := do
  return {
    database := {
      url := ← get .url
      maxConnections := ← get .maxConnections
      minConnections := ← get .minConnections
      connectTimeout := ← get .connectTimeout
      idleTimeout := ← get .idleTimeout }
    logging := { level := ← get .level, format := ← get .format }
    credentials := { operationTimeout := ← get .operationTimeout } }

theorem gather_eq_some_iff {get? : (leaf : Leaf) → Option leaf.Content} {s : Settings} :
    gather get? = some s ↔ ∀ leaf, get? leaf = some (leaf.of s) := by
  constructor
  · intro h
    simp only [gather, Option.bind_eq_bind, Option.bind_eq_some_iff] at h
    obtain ⟨_, h₁, _, h₂, _, h₃, _, h₄, _, h₅, _, h₆, _, h₇, _, h₈, h⟩ := h
    cases h
    intro leaf
    cases leaf <;> assumption
  · intro h
    simp only [gather, h]
    rfl

theorem exists_gather_eq_some_iff {get? : (leaf : Leaf) → Option leaf.Content} :
    (∃ s, gather get? = some s) ↔ ∀ leaf, (get? leaf).isSome := by
  constructor
  · rintro ⟨s, hs⟩ leaf
    rw [gather_eq_some_iff.1 hs leaf]
    rfl
  · intro h
    obtain ⟨content, hcontent⟩ :
        ∃ content : (leaf : Leaf) → leaf.Content, ∀ leaf, get? leaf = some (content leaf) :=
      ⟨fun leaf => (get? leaf).get (h leaf), fun leaf => (Option.some_get (h leaf)).symm⟩
    simp only [gather, hcontent]
    exact ⟨_, rfl⟩

/-- What there is, or else a fault. -/
def orMalformed {α : Type} (a : Option α) : Except Fault α := a.elim (.error .malformed) .ok

theorem orMalformed_bind {α β : Type} (a : Option α) (f : α → Option β) :
    orMalformed (a >>= f) = orMalformed a >>= fun a => orMalformed (f a) := by
  cases a with
  | none => rfl
  | some a => rfl

theorem gather_orMalformed (get? : (leaf : Leaf) → Option leaf.Content) :
    gather (fun leaf => orMalformed (get? leaf)) = orMalformed (gather get?) := by
  simp only [gather, orMalformed_bind]
  rfl

theorem sectionOf_eq {tree : Value} (h : tree.IsSectioned) (leaf : Leaf) :
    sectionOf tree leaf.part = .ok (.map (tree.part leaf.part)) := by
  rw [← h.getD_eq, sectionOf]
  cases hpart : tree.entry? leaf.part with
  | none => rfl
  | some part =>
    obtain ⟨es, rfl⟩ := Value.exists_of_isMap (h leaf part hpart)
    rfl

theorem leaf_eq (tree : Value) (leaf : Leaf) :
    Settings.leaf (.map (tree.part leaf.part)) leaf.place leaf.name leaf.read? (leaf.of {}) =
      orMalformed (leaf.chosen? (tree.leaf? leaf)) := by
  unfold Settings.leaf
  dsimp only [ Value.entry?, Value.entries]
  rw [Value.lookup_part]
  cases tree.leaf? leaf with
  | none => rfl
  | some value =>
    dsimp only [Leaf.chosen?]
    cases leaf.read? value with
    | none => rfl
    | some content => rfl

/-- **The leaves of a tree are read one by one.** -/
theorem ofValue_eq {tree : Value} (h : tree.IsSectioned) :
    ofValue tree = orMalformed (gather fun leaf => leaf.chosen? (tree.leaf? leaf)) := by
  have hdatabase : sectionOf tree "database" = _ := sectionOf_eq h .url
  have hlogging : sectionOf tree "logging" = _ := sectionOf_eq h .level
  have hcredentials : sectionOf tree "credentials" = _ := sectionOf_eq h .operationTimeout
  rw [← gather_orMalformed, ← funext (leaf_eq tree), ofValue, hdatabase, hlogging, hcredentials]
  rfl

/-! ### Loading -/

/-- **In the tree of all sources each leaf has what is written of it.** -/
theorem exists_layered_eq {defaults place : Option String} {vars : List (String × String)}
    {d p : Layer} (hd : Layer.ofFile? defaults = some d) (hp : Layer.ofFile? place = some p)
    (hd' : d.IsOfLeaves) (hp' : p.IsOfLeaves) (hvars : (Layer.ofVariables vars).IsOfLeaves) :
    ∃ tree, layered defaults place vars = .ok tree ∧ tree.IsSectioned ∧
      ∀ leaf, tree.leaf? leaf = leaf.written? d p (Layer.ofVariables vars) := by
  obtain ⟨v₁, hv₁, hlays₁⟩ := d.exists_lays_put hd' (.map [])
  obtain ⟨v₂, hv₂, hlays₂⟩ := p.exists_lays_put hp' v₁
  obtain ⟨v₃, hv₃, hlays₃⟩ := (Layer.ofVariables vars).exists_lays_put hvars v₂
  obtain ⟨hsectioned, hleaf⟩ := (hlays₁.trans hlays₂).trans hlays₃ nofun
  refine ⟨v₃, ?_, hsectioned, fun leaf => ?_⟩
  · rw [layered, putFile_eq hd, hv₁]
    change (do
      let v ← putFile place v₁
      placed (Value.putVariables vars v)) = _
    rw [putFile_eq hp, hv₂]
    change placed (Value.putVariables vars v₂) = _
    rw [putVariables_eq, hv₃]
    rfl
  · rw [hleaf]
    exact Option.or_none

theorem validate_eq_ok_iff {s s' : Settings} :
    s.validate = .ok s' ↔
      s' = s ∧ s'.credentials.operationTimeout ≠ 0 ∧ s'.database.maxConnections ≠ 0 := by
  constructor
  · intro h
    rw [validate] at h
    split at h
    case isTrue => cases h
    case isFalse htime =>
      split at h
      case isTrue => cases h
      case isFalse hconnections =>
        cases h
        exact ⟨rfl, htime, hconnections⟩
  · rintro ⟨rfl, htime, hconnections⟩
    rw [validate, if_neg htime, if_neg hconnections]

theorem gather_validate_eq_ok_iff {get? : (leaf : Leaf) → Option leaf.Content} {s : Settings} :
    orMalformed (gather get?) >>= validate = .ok s ↔ (∀ leaf, get? leaf = some (leaf.of s)) ∧
      s.credentials.operationTimeout ≠ 0 ∧ s.database.maxConnections ≠ 0 := by
  rw [← gather_eq_some_iff]
  cases gather get? with
  | none => exact ⟨nofun, fun h => nomatch h.1⟩
  | some s' => exact validate_eq_ok_iff.trans (and_congr_left' (by rw [Option.some_inj, eq_comm]))

theorem exists_gather_validate_eq_ok_iff {get? : (leaf : Leaf) → Option leaf.Content} :
    (∃ s, orMalformed (gather get?) >>= validate = .ok s) ↔ (∀ leaf, (get? leaf).isSome) ∧
      get? .operationTimeout ≠ some (0 : UInt64) ∧ get? .maxConnections ≠ some (0 : UInt32) := by
  constructor
  · rintro ⟨s, hs⟩
    obtain ⟨hget, htime, hconnections⟩ := gather_validate_eq_ok_iff.1 hs
    refine ⟨fun leaf => by rw [hget]; rfl, fun h => htime ?_, fun h => hconnections ?_⟩
    · exact Option.some.inj ((hget .operationTimeout).symm.trans h)
    · exact Option.some.inj ((hget .maxConnections).symm.trans h)
  · rintro ⟨hall, htime, hconnections⟩
    obtain ⟨s, hs⟩ := exists_gather_eq_some_iff.2 hall
    have hget := gather_eq_some_iff.1 hs
    refine ⟨s, gather_validate_eq_ok_iff.2 ⟨hget, fun h => htime ?_, fun h => hconnections ?_⟩⟩
    · exact (hget .operationTimeout).trans (congrArg some h)
    · exact (hget .maxConnections).trans (congrArg some h)

theorem gather_validate_ne_breakdown (get? : (leaf : Leaf) → Option leaf.Content) :
    orMalformed (gather get?) >>= validate ≠ .error .breakdown := by
  cases gather get? with
  | none => nofun
  | some s =>
    change s.validate ≠ _
    rw [validate]
    split
    · nofun
    · split <;> nofun

/-- **Settings are layered leaf by leaf.** Each leaf that is loaded is what is written of it in the
last source that has it, converted, or its built-in value; and settings are loaded just if every
leaf can be converted and the two numbers are not zero, whatever else the sources say. -/
theorem load_layers_leaf_by_leaf {defaults place : Option String} {vars : List (String × String)}
    {d p : Layer} (hd : Layer.ofFile? defaults = some d) (hp : Layer.ofFile? place = some p)
    (hd' : d.IsOfLeaves) (hp' : p.IsOfLeaves) (hvars : (Layer.ofVariables vars).IsOfLeaves) :
    let chosen? (leaf : Leaf) : Option leaf.Content :=
      leaf.chosen? (leaf.written? d p (Layer.ofVariables vars))
    (∀ s : Settings, load defaults place vars = .ok s ↔ (∀ leaf, chosen? leaf = some (leaf.of s)) ∧
      s.credentials.operationTimeout ≠ 0 ∧ s.database.maxConnections ≠ 0) ∧
    ((∃ s, load defaults place vars = .ok s) ↔ (∀ leaf, (chosen? leaf).isSome) ∧
      chosen? .operationTimeout ≠ some (0 : UInt64) ∧ chosen? .maxConnections ≠ some (0 : UInt32)) ∧
    load defaults place vars ≠ .error .breakdown := by
  intro chosen?
  obtain ⟨tree, hlayered, hsectioned, hleaf⟩ := exists_layered_eq hd hp hd' hp' hvars
  have hload : load defaults place vars = orMalformed (gather chosen?) >>= validate := by
    rw [load, hlayered]
    change ofValue tree >>= validate = _
    rw [ofValue_eq hsectioned]
    simp only [hleaf]
    rfl
  rw [hload]
  exact ⟨fun s => gather_validate_eq_ok_iff, exists_gather_validate_eq_ok_iff,
    gather_validate_ne_breakdown chosen?⟩

/-- The environment replaces a value that is no text; the file for the place has another leaf. -/
theorem load_layers_leaf_by_leaf_overridden :
    load (some "\x7b\"Logging\": \x7b\"Level\": null\x7d\x7d")
        (some "\x7b\"database.url\": \"db\"\x7d")
        [("HOME", "/"), ("APP__LOGGING__LEVEL", "debug")] =
      .ok { database := { url := "db" }, logging := { level := "debug" } } := by
  have hd : Layer.ofFile? (some "\x7b\"Logging\": \x7b\"Level\": null\x7d\x7d") =
      some [(⟨"logging", []⟩, .map [("level", .null)])] := by
    cbv
  have hp : Layer.ofFile? (some "\x7b\"database.url\": \"db\"\x7d") =
      some [(⟨"database", [.name "url"]⟩, .text "db")] := by
    cbv
  have hvars : Layer.ofVariables [("HOME", "/"), ("APP__LOGGING__LEVEL", "debug")] =
      [(⟨"logging", [.name "level"]⟩, .text "debug")] := by
    have hhome : Path.ofVariable? "HOME" = none := by decide +kernel
    have hlevel : Path.ofVariable? "APP__LOGGING__LEVEL" = some Leaf.level.path :=
      Path.ofVariable?_of_leaf (by decide +kernel)
    have htext : Value.ofText "debug" = .text "debug" := by cbv
    simp only [Layer.ofVariables, List.filterMap_cons, List.filterMap_nil, hhome, hlevel, htext,
      Option.map_none, Option.map_some]
    rfl
  have hd' : Layer.IsOfLeaves [(⟨"logging", []⟩, .map [("level", .null)])] := by
    intro path value hmem
    cases List.mem_singleton.1 hmem
    refine .part fun leaf _ value hmem => ?_
    cases (Prod.mk.inj (List.mem_singleton.1 hmem)).2
    rfl
  have hp' : Layer.IsOfLeaves [(⟨"database", [.name "url"]⟩, .text "db")] := by
    intro path value hmem
    cases List.mem_singleton.1 hmem
    exact .leaf rfl
  have hvars' : Layer.IsOfLeaves [(⟨"logging", [.name "level"]⟩, .text "debug")] := by
    intro path value hmem
    cases List.mem_singleton.1 hmem
    exact .leaf rfl
  have h := (load_layers_leaf_by_leaf hd hp hd' hp' (hvars ▸ hvars')).1
  rw [hvars] at h
  refine (h _).2 ⟨?_, by decide, by decide⟩
  intro leaf
  cases leaf <;> cbv

end KeyLifecycle.Settings
