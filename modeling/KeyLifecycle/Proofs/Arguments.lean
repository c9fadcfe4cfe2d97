import KeyLifecycle.Arguments
import Mathlib.Data.List.Perm.Basic

/-!
# Command lines are read as they are written

`Command.arguments` writes a command as a list of arguments: the names that lead to it, at each
level the options that belong there, attached to their values by an equals sign, and behind two
dashes what the command is about. The slug of the acting user may be written at any level, and at
several.

Such a line has no argument that could be taken for another one, whatever the texts in it are: an
option begins with a dash, so it is no name of a subcommand, it brings its value along, so nothing
waits for the next argument, and behind the two dashes everything is an operand. So the reader takes
one level after the other, and what it has entered at a level depends on the options of that level
alone (`Arguments.Entries.addAll_eq`). There is just one thing that may be wrong with them: an
option is there twice.
-/

namespace KeyLifecycle

namespace Arguments

/-! ### Options as they are written -/

/-- An option as it is written. -/
inductive Written where
  | actingAs (slug : String)
  | user (slug : String)
  | admin
  deriving DecidableEq

namespace Written

/-- The argument that an option is. -/
def argument : Written → String
  | actingAs slug => "--as=" ++ slug
  | user slug => "--user=" ++ slug
  | admin => "--admin"

/-- Whether a level has an option. -/
def IsOf (level : Level) : Written → Prop
  | actingAs _ => True
  | user _ => level.valued? "user" = some .user
  | admin => level = .leaf .add

/-- The slug of the acting user, if that is what is written. -/
def actingAs? : Written → Option String
  | actingAs slug => some slug
  | _ => none

/-- The slug of the user, if that is what is written. -/
def user? : Written → Option String
  | user slug => some slug
  | _ => none

/-- Whether the administrator's role is written. -/
def isAdmin : Written → Bool
  | admin => true
  | _ => false

theorem head?_argument (w : Written) : w.argument.toList.head? = some '-' := by
  cases w with
  | actingAs slug | user slug =>
    rw [argument, String.toList_append]
    rfl
  | admin => rfl

/-- **An option brings its value along**, however that reads. -/
theorem shape_argument (w : Written) : Shape.of w.argument =
    match w with
    | actingAs slug => .long "as" (some slug)
    | user slug => .long "user" (some slug)
    | admin => .long "admin" none := by
  cases w with
  | actingAs slug | user slug => simp [argument, Shape.of, String.toList_append]
  | admin => rfl

end Written

/-- Options of a command, as they are written. -/
def Written.own (admin : Bool) (user : Option String) : List Written :=
  (if admin then [.admin] else []) ++ user.toList.map .user

/-- No name of a subcommand begins with a dash. -/
theorem Level.isSubcommand_of_dash {arg : String} (h : arg.toList.head? = some '-')
    (level : Level) : level.isSubcommand arg = false := by
  have hhelp : arg ≠ "help" := by
    rintro rfl
    exact absurd h (by decide)
  have hnone : level.subcommand? arg = none := by
    rw [subcommand?.eq_def]
    split
    all_goals first
      | rfl
      | exact absurd h (by decide)
  simp [isSubcommand, hhelp, hnone]

/-! ### Entering options -/

/-- Of one element there is one order. -/
theorem head?_eq_of_perm {α : Type} {xs ys : List α} (h : xs.Perm ys) (hone : ys.length ≤ 1) :
    xs.head? = ys.head? := by
  match ys, hone with
  | [], _ => rw [h.eq_nil]
  | [_], _ => rw [h.eq_singleton]

namespace Entries

/-- Enters an option. -/
def add (e : Entries) : Written → Except Fault Entries
  | .actingAs slug => e.enter .actingAs slug
  | .user slug => e.enter .user slug
  | .admin => e.throwSwitch .admin

/-- Enters options one after the other. -/
def addAll (e : Entries) (options : List Written) : Except Fault Entries := options.foldlM add e

/-- **What there is after some options**: each of them, unless one is there twice. -/
theorem addAll_eq (e : Entries) (options : List Written) :
    let slugs := e.actingAs.toList ++ options.filterMap Written.actingAs?
    let users := e.user.toList ++ options.filterMap Written.user?
    let admins := e.admin.toNat + options.countP Written.isAdmin
    e.addAll options =
      if slugs.length ≤ 1 ∧ users.length ≤ 1 ∧ admins ≤ 1 then
        .ok { e with actingAs := slugs.head?, user := users.head?, admin := 0 < admins }
      else .error .repeated := by
  induction options generalizing e with
  | nil =>
    obtain ⟨actingAs, user, admin, operand, unentered⟩ := e
    cases actingAs <;> cases user <;> cases admin <;> rfl
  | cons w options ih =>
    obtain ⟨actingAs, user, admin, operand, unentered⟩ := e
    rw [addAll, List.foldlM_cons]
    cases w with
    | actingAs slug =>
      cases actingAs with
      | none => exact ih _
      | some other =>
        have hmany : ¬ ((some other).toList ++
            (Written.actingAs slug :: options).filterMap Written.actingAs?).length ≤ 1 := by
          simp [Written.actingAs?]
        simp only [hmany, false_and, if_false]
        rfl
    | user slug =>
      cases user with
      | none => exact ih _
      | some other =>
        have hmany : ¬ ((some other).toList ++
            (Written.user slug :: options).filterMap Written.user?).length ≤ 1 := by
          simp [Written.user?]
        simp only [hmany, false_and, and_false, if_false]
        rfl
    | admin =>
      cases admin with
      | false =>
        have hone : false.toNat + (Written.admin :: options).countP Written.isAdmin
            = true.toNat + options.countP Written.isAdmin := by
          rw [List.countP_cons_of_pos rfl]
          exact (Nat.zero_add _).trans (Nat.add_comm ..)
        simp only [hone]
        exact ih _
      | true =>
        have hmany : ¬ true.toNat + (Written.admin :: options).countP Written.isAdmin ≤ 1 := by
          simp [Written.isAdmin]
        simp only [hmany, and_false, if_false]
        rfl

/-- **What there is after a command's options and slugs of acting users**, in any order: all of
them, if there is at most one slug. -/
theorem addAll_of_perm {options : List Written} {slugs : List String} {admin : Bool}
    {user : Option String} (h : options.Perm (slugs.map .actingAs ++ Written.own admin user)) :
    ({} : Entries).addAll options =
      if slugs.length ≤ 1 then .ok { actingAs := slugs.head?, user := user, admin := admin }
      else .error .repeated := by
  have hslugs : (options.filterMap Written.actingAs?).Perm slugs := by
    have hperm := h.filterMap Written.actingAs?
    have hown : (Written.own admin user).filterMap Written.actingAs? = [] := by
      cases admin <;> cases user <;> rfl
    rwa [List.filterMap_append, List.filterMap_map, hown, List.append_nil,
      show Written.actingAs? ∘ Written.actingAs = some from rfl, List.filterMap_some] at hperm
  have husers : options.filterMap Written.user? = user.toList := by
    have hperm := h.filterMap Written.user?
    have hown : (Written.own admin user).filterMap Written.user? = user.toList := by
      cases admin <;> cases user <;> rfl
    have hnone : (slugs.map Written.actingAs).filterMap Written.user? = [] := by
      simp [Written.user?]
    rw [List.filterMap_append, hnone, hown, List.nil_append] at hperm
    cases user with
    | none => exact hperm.eq_nil
    | some slug => exact hperm.eq_singleton
  have hadmins : options.countP Written.isAdmin = admin.toNat := by
    have hown : (Written.own admin user).countP Written.isAdmin = admin.toNat := by
      cases admin <;> cases user <;> rfl
    have hnone : (slugs.map Written.actingAs).countP Written.isAdmin = 0 := by
      simp [Written.isAdmin]
    rw [h.countP_eq, List.countP_append, hnone, hown, Nat.zero_add]
  have husers' : (options.filterMap Written.user?).length ≤ 1 := by
    rw [husers]
    cases user <;> simp
  have hadmins' : options.countP Written.isAdmin ≤ 1 := hadmins ▸ admin.toNat_le
  have hadmin : decide (0 < admin.toNat) = admin := by cases admin <;> rfl
  rw [addAll_eq]
  simp only [Option.toList_none, List.nil_append, Bool.toNat_false, Nat.zero_add, husers', hadmins',
    and_true, hslugs.length_eq]
  split
  case isTrue hone =>
    rw [head?_eq_of_perm hslugs hone, husers, hadmins, hadmin, Option.head?_toList]
  case isFalse => rfl

theorem close_of_entered {e : Entries} (he : e.unentered = none) : e.close = .ok e := by
  rw [close, he]

/-- What is entered is no option that still waits to be. -/
theorem unentered_of_add {e e' : Entries} {w : Written} (h : e.add w = .ok e') :
    e'.unentered = e.unentered := by
  cases w with
  | actingAs slug | user slug | admin =>
    simp only [add, enter, throwSwitch] at h
    split at h
    · cases h
    · cases h
      rfl

end Entries

/-! ### Reading a level -/

theorem takeLong_of_written {level : Level} {w : Written} (hw : w.IsOf level) {e : Entries}
    (he : e.unentered = none) {name : String} {attached : Option String}
    (hshape : Shape.of w.argument = .long name attached) :
    e.takeLong level name attached = e.add w := by
  have hclose := Entries.close_of_entered he
  rw [w.shape_argument] at hshape
  cases w with
  | actingAs slug =>
    cases hshape
    have hvalued : level.valued? "as" = some .actingAs := rfl
    simp only [Entries.takeLong, hvalued, hclose]
    rfl
  | user slug =>
    cases hshape
    have hvalued : level.valued? "user" = some .user := hw
    simp only [Entries.takeLong, hvalued, hclose]
    rfl
  | admin =>
    cases hshape
    cases (hw : level = .leaf .add)
    have hvalued : (Level.leaf .add).valued? "admin" = none := rfl
    have hswitch : (Level.leaf .add).switch? "admin" = some .admin := rfl
    simp only [Entries.takeLong, hvalued, hswitch, hclose]
    rfl

/-- **An option is entered**, whatever follows. -/
theorem read_option {level : Level} {w : Written} (hw : w.IsOf level) {e : Entries}
    (he : e.unentered = none) (rest : List String) :
    read level false e (w.argument :: rest) = (do
      let e ← e.add w
      read level false e rest) := by
  have hsub := Level.isSubcommand_of_dash w.head?_argument level
  obtain ⟨name, attached, hshape⟩ :
      ∃ name attached, Shape.of w.argument = .long name attached := by
    rw [w.shape_argument]
    cases w <;> exact ⟨_, _, rfl⟩
  simp only [read, hsub, hshape, Bool.false_eq_true, if_false, Bool.false_and,
    takeLong_of_written hw he hshape]

/-- **The options of a level are entered one after the other**, and only then what follows is
read. -/
theorem read_options {level : Level} {options : List Written}
    (hoptions : ∀ w ∈ options, w.IsOf level) {e : Entries} (he : e.unentered = none)
    (rest : List String) :
    read level false e (options.map Written.argument ++ rest) = (do
      let e ← e.addAll options
      read level false e rest) := by
  induction options generalizing e with
  | nil => rfl
  | cons w options ih =>
    rw [List.map_cons, List.cons_append, read_option (hoptions w List.mem_cons_self) he,
      Entries.addAll, List.foldlM_cons, bind_assoc]
    cases hadd : e.add w with
    | error fault => rfl
    | ok e' =>
      exact ih (fun w hw => hoptions w (List.mem_cons_of_mem _ hw))
        ((Entries.unentered_of_add hadd).trans he)

/-- **The name of a subcommand opens its level.** -/
theorem read_subcommand {level next : Level} {name : String}
    (hnext : level.subcommand? name = some next) {e : Entries} (he : e.unentered = none)
    (rest : List String) :
    read level false e (name :: rest) =
      (read next false {} rest).map fun line =>
        { line with actingAs := line.actingAs <|> e.actingAs } := by
  have hgroup : level.isGroup = true := by
    cases level with
    | leaf leaf => simp [Level.subcommand?] at hnext
    | program | users | keys => rfl
  have hsub : level.isSubcommand name = true := by
    simp [Level.isSubcommand, hgroup, hnext]
  have hwaits : e.awaitsValue = false := by rw [Entries.awaitsValue, he]
  have hclose := Entries.close_of_entered he
  simp only [read, hsub, hwaits, hnext, hclose, Bool.not_false, Bool.and_self, if_true,
    Bool.false_eq_true, if_false]
  cases read next false {} rest with
  | error fault => rfl
  | ok line => rfl

/-- The line ends at a command that has what it is about. -/
theorem finish_leaf {leaf : Leaf} {e : Entries} (he : e.unentered = none)
    (hoperand : (Level.leaf leaf).hasOperand = e.operand.isSome) :
    finish (.leaf leaf) e = .ok ⟨leaf, e, e.actingAs⟩ := by
  have hthere : ¬ ((Level.leaf leaf).hasOperand ∧ e.operand.isNone) := by
    rw [hoperand]
    cases e.operand <;> simp
  simp only [finish, Entries.close_of_entered he]
  exact if_neg hthere

/-! ### A command as a line -/

/-- The name that opens a level; the program is there before its arguments are. -/
def Level.name? : Level → Option String
  | program => none
  | users => some "user"
  | keys => some "keys"
  | leaf .migrate => some "migrate"
  | leaf .add => some "add"
  | leaf .create => some "create"
  | leaf .list => some "list"
  | leaf .delete => some "delete"
  | leaf .rotate => some "rotate"

/-- What is written at a level: its name, and then options. -/
def Level.line (options : Level → List Written) (level : Level) : List String :=
  level.name?.toList ++ (options level).map Written.argument

/-- The levels that lead to the end of the line. -/
def Leaf.levels : Leaf → List Level
  | migrate => [.program, .leaf migrate]
  | add => [.program, .users, .leaf add]
  | leaf => [.program, .keys, .leaf leaf]

/-- Whether names lead from a level through others to the end of the line. -/
def Level.LeadsTo (leaf : Leaf) : Level → List Level → Prop
  | level, [] => level = .leaf leaf
  | level, next :: levels =>
    (∃ name, next.name? = some name ∧ level.subcommand? name = some next) ∧ next.LeadsTo leaf levels

end Arguments

open Arguments

namespace Command

/-- The user whose credentials a command is about. -/
def user? : Command → Option String
  | keys (.create user) | keys (.list user) | keys (.delete _ user) | keys (.rotate _ user) => user
  | _ => none

/-- Whether a command is about an administrator. -/
def isAdmin : Command → Bool
  | addUser _ admin => admin
  | _ => false

/-- The text that a command is about. -/
def operand? : Command → Option String
  | addUser slug _ => some slug
  | keys (.delete key _) | keys (.rotate key _) => some key
  | _ => none

/-- The end of the line of a command. -/
def leaf : Command → Leaf
  | migrate => .migrate
  | addUser .. => .add
  | keys (.create _) => .create
  | keys (.list _) => .list
  | keys (.delete ..) => .delete
  | keys (.rotate ..) => .rotate

/-- The options of a command at a level; they are all at its own. -/
def options (c : Command) (level : Arguments.Level) : List Written :=
  if level = .leaf c.leaf then Written.own c.isAdmin c.user? else []

/-- What a command is about, as it is written. -/
def ending (c : Command) : List String := c.operand?.elim [] fun operand => ["--", operand]

/-- A command as a list of arguments, with some options at each level. -/
def arguments (c : Command) (options : Arguments.Level → List Written) : List String :=
  c.leaf.levels.flatMap (Arguments.Level.line options) ++ c.ending

/-- Whether there are at each level the options of a command and, as slugs of the acting user, the
given ones, in whatever order. -/
def IsWrittenWith (c : Command) (slugs : Arguments.Level → List String)
    (options : Arguments.Level → List Written) : Prop :=
  ∀ level, (options level).Perm ((slugs level).map .actingAs ++ c.options level)

/-- What is entered for a command. -/
def entries (c : Command) (actingAs : Option String) : Entries :=
  { actingAs := actingAs, user := c.user?, admin := c.isAdmin, operand := c.operand? }

theorem command_entries (c : Command) (slug actingAs : Option String) :
    (⟨c.leaf, c.entries slug, actingAs⟩ : Line).command = c := by
  cases c with
  | migrate => rfl
  | addUser slug admin => rfl
  | keys command => cases command <;> rfl

theorem leadsTo_levels (c : Command) :
    ∃ levels, c.leaf.levels = .program :: levels ∧
      Arguments.Level.program.LeadsTo c.leaf levels := by
  cases c with
  | migrate => exact ⟨_, rfl, ⟨_, rfl, rfl⟩, rfl⟩
  | addUser slug admin => exact ⟨_, rfl, ⟨_, rfl, rfl⟩, ⟨_, rfl, rfl⟩, rfl⟩
  | keys command => cases command <;> exact ⟨_, rfl, ⟨_, rfl, rfl⟩, ⟨_, rfl, rfl⟩, rfl⟩

theorem hasOperand_leaf (c : Command) :
    (Arguments.Level.leaf c.leaf).hasOperand = c.operand?.isSome := by
  cases c with
  | migrate => rfl
  | addUser slug admin => rfl
  | keys command => cases command <;> rfl

theorem isOf_of_mem_options {c : Command} {level : Arguments.Level} {w : Written}
    (hw : w ∈ c.options level) : w.IsOf level := by
  rw [options] at hw
  split at hw
  · subst level
    cases c with
    | migrate => cases hw
    | addUser slug admin =>
      rcases List.mem_append.1 hw with hw | hw
      · cases admin with
        | true =>
          cases List.mem_singleton.1 hw
          rfl
        | false => cases hw
      · cases hw
    | keys command =>
      obtain ⟨user, -, rfl⟩ := List.mem_map.1 hw
      cases command <;> rfl
  · cases hw

theorem IsWrittenWith.isOf {c : Command} {slugs : Arguments.Level → List String}
    {options : Arguments.Level → List Written} (h : c.IsWrittenWith slugs options)
    (level : Arguments.Level) : ∀ w ∈ options level, w.IsOf level := by
  intro w hw
  rcases List.mem_append.1 ((h level).mem_iff.1 hw) with hslug | hown
  · obtain ⟨slug, -, rfl⟩ := List.mem_map.1 hslug
    trivial
  · exact isOf_of_mem_options hown

/-- **Behind the dashes everything is what the command is about.** -/
theorem read_ending (c : Command) {e : Entries} (he : e.unentered = none)
    (hoperand : e.operand = none) :
    Arguments.read (.leaf c.leaf) false e c.ending =
      .ok ⟨c.leaf, { e with operand := c.operand? }, e.actingAs⟩ := by
  have hhas := c.hasOperand_leaf
  rw [ending]
  cases hop : c.operand? with
  | none =>
    have hsame : { e with operand := none } = e := by
      cases e
      cases hoperand
      rfl
    rw [hop, ← hoperand] at hhas
    rw [hsame]
    exact finish_leaf he hhas
  | some operand =>
    have hsub : (Arguments.Level.leaf c.leaf).isSubcommand "--" = false :=
      Arguments.Level.isSubcommand_of_dash rfl _
    have hshape : Shape.of "--" = .dashes := rfl
    have htake : e.takeOperand (.leaf c.leaf) true operand =
        .ok { e with operand := some operand } := by
      rw [hop] at hhas
      rw [Entries.takeOperand, if_pos ⟨hhas, by rw [hoperand]; rfl⟩, Entries.close_of_entered he]
      rfl
    simp only [Option.elim, Arguments.read, hsub, hshape, htake, Bool.false_eq_true, if_false,
      Bool.false_and, if_true]
    rw [hop] at hhas
    exact finish_leaf he hhas

/-- What is read at the level of the command. -/
theorem IsWrittenWith.read_leaf {c : Command} {slugs : Arguments.Level → List String}
    {options : Arguments.Level → List Written} (h : c.IsWrittenWith slugs options) :
    Arguments.read (.leaf c.leaf) false {}
        ((options (.leaf c.leaf)).map Written.argument ++ c.ending) =
      if (slugs (.leaf c.leaf)).length ≤ 1 then
        .ok ⟨c.leaf, c.entries (slugs (.leaf c.leaf)).head?, (slugs (.leaf c.leaf)).head?⟩
      else .error .repeated := by
  have hperm := h (.leaf c.leaf)
  rw [Command.options, if_pos rfl] at hperm
  rw [read_options (h.isOf _) rfl, Entries.addAll_of_perm hperm]
  split
  · exact read_ending c rfl rfl
  · rfl

/-- What is read from a level above that one on. -/
theorem IsWrittenWith.read_group {c : Command} {slugs : Arguments.Level → List String}
    {options : Arguments.Level → List Written} (h : c.IsWrittenWith slugs options)
    {level next : Arguments.Level} {name : String} (hnext : level.subcommand? name = some next)
    (rest : List String) :
    Arguments.read level false {} ((options level).map Written.argument ++ name :: rest) =
      if (slugs level).length ≤ 1 then
        (Arguments.read next false {} rest).map fun line =>
          { line with actingAs := line.actingAs <|> (slugs level).head? }
      else .error .repeated := by
  have hgroup : level ≠ .leaf c.leaf := by
    rintro rfl
    simp [Arguments.Level.subcommand?] at hnext
  have hperm : (options level).Perm ((slugs level).map .actingAs ++ Written.own false none) := by
    have hperm := h level
    rwa [Command.options, if_neg hgroup] at hperm
  rw [read_options (h.isOf level) rfl, Entries.addAll_of_perm hperm]
  split
  · exact read_subcommand hnext rfl rest
  · rfl

/-- What is first from behind. -/
theorem findSome?_reverse_cons {α β : Type} (f : α → Option β) (x : α) (xs : List α) :
    (x :: xs).reverse.findSome? f = (xs.reverse.findSome? f <|> f x) := by
  rw [List.reverse_cons, List.findSome?_append, List.findSome?_singleton,
    Option.orElse_eq_orElse, Option.orElse_eq_or]

/-- **What is read from a level on**: the command, and the slug that is the deepest one. -/
theorem IsWrittenWith.read_levels {c : Command} {slugs : Arguments.Level → List String}
    {options : Arguments.Level → List Written} (h : c.IsWrittenWith slugs options)
    {level : Arguments.Level} {levels : List Arguments.Level}
    (hlevels : level.LeadsTo c.leaf levels) :
    Arguments.read level false {} ((options level).map Written.argument ++
        (levels.flatMap (Arguments.Level.line options) ++ c.ending)) =
      if ∀ each ∈ level :: levels, (slugs each).length ≤ 1 then
        .ok ⟨c.leaf, c.entries (slugs (.leaf c.leaf)).head?,
          (level :: levels).reverse.findSome? fun each => (slugs each).head?⟩
      else .error .repeated := by
  induction levels generalizing level with
  | nil =>
    cases (hlevels : level = .leaf c.leaf)
    rw [findSome?_reverse_cons]
    simp only [List.forall_mem_singleton]
    exact h.read_leaf
  | cons next levels ih =>
    obtain ⟨⟨name, hname, hnext⟩, hleads⟩ := hlevels
    have hline : (next :: levels).flatMap (Arguments.Level.line options) ++ c.ending =
        name :: ((options next).map Written.argument ++
          (levels.flatMap (Arguments.Level.line options) ++ c.ending)) := by
      rw [List.flatMap_cons, Arguments.Level.line, hname, List.append_assoc, List.append_assoc]
      rfl
    rw [hline, h.read_group hnext, ih hleads, findSome?_reverse_cons _ level]
    by_cases hone : (slugs level).length ≤ 1
    · have hall : (∀ each ∈ level :: next :: levels, (slugs each).length ≤ 1) ↔
          ∀ each ∈ next :: levels, (slugs each).length ≤ 1 :=
        List.forall_mem_cons.trans (and_iff_right hone)
      simp only [hone, hall, if_true]
      split
      · rfl
      · rfl
    · rw [if_neg hone, if_neg fun hall => hone (hall level List.mem_cons_self)]

end Command

/-- **A line is read as the command that was written**, by the user whose slug is written at the
deepest level, unless there are two slugs at one level. -/
theorem Command.lines_are_read_as_written (c : Command) {slugs : Arguments.Level → List String}
    {options : Arguments.Level → List Written} (h : c.IsWrittenWith slugs options) :
    Invocation.ofArguments (c.arguments options) =
      if ∀ level ∈ c.leaf.levels, (slugs level).length ≤ 1 then
        .ok ⟨c, c.leaf.levels.reverse.findSome? fun level => (slugs level).head?⟩
      else .error .repeated := by
  obtain ⟨levels, hlevels, hleads⟩ := c.leadsTo_levels
  have hline : c.arguments options = (options .program).map Written.argument ++
      (levels.flatMap (Arguments.Level.line options) ++ c.ending) := by
    rw [arguments, hlevels, List.flatMap_cons, List.append_assoc]
    rfl
  rw [Invocation.ofArguments, hline, h.read_levels hleads, hlevels]
  split
  · exact congrArg (fun command => Except.ok (⟨command, _⟩ : Invocation)) (c.command_entries ..)
  · rfl

/-- Texts that look like options and names of subcommands, and two acting users. -/
theorem Command.lines_are_read_as_written_rotate :
    Invocation.ofArguments
        ["--as=delete", "keys", "rotate", "--user=-x", "--as=--", "--", "--as=root"] =
      .ok ⟨.keys (.rotate "--as=root" (some "-x")), some "--"⟩ := by
  have h : (Command.keys (.rotate "--as=root" (some "-x"))).IsWrittenWith
      (fun
        | .program => ["delete"]
        | .leaf .rotate => ["--"]
        | _ => [])
      (fun
        | .program => [.actingAs "delete"]
        | .leaf .rotate => [.user "-x", .actingAs "--"]
        | _ => []) := by
    intro level
    cases level with
    | leaf leaf => cases leaf <;> decide
    | program | users | keys => decide
  exact Command.lines_are_read_as_written _ h

end KeyLifecycle
