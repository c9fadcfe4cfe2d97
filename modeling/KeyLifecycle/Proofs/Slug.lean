import KeyLifecycle.Slug
import Mathlib.Data.List.Basic

/-!
# The grammar of slugs

What a slug is can be said in one line: runs of letters and digits, joined by single hyphens
(`Slug.IsGrammatical`), in no more than sixty-four bytes. `Slug.fault?` does not read a text in this
way. It looks at the first and the last character, and then goes through the text once, with one bit
of memory, whether the character before was a hyphen. That both come to the same has two halves:

* a text that is gone through without a fault falls into runs
  (`KeyLifecycle.Slug.exists_runs_of_innerFault?`): each hyphen closes a run, and the bit sees to it
  that the next one is not empty;
* texts that fall into runs are gone through without a fault
  (`KeyLifecycle.Slug.innerFault?_intercalate`).

Where the first and the last character are in order, the fault that is found is the leftmost one in
a sense that does not mention the bit: it is at the first character at which there is no way any
more to go on to a text of the grammar (`Slug.IsExtendable`,
`KeyLifecycle.Slug.exists_stop_of_innerFault?`). `Slug.Refuses` lists all faults with the conditions
under which they are reported, and `KeyLifecycle.Slug.slugs_follow_grammar` says that the list is
right and complete.
-/

namespace KeyLifecycle

namespace Slug

/-! ### The grammar -/

/-- The characters of a run: the lower-case letters and the digits of ASCII. -/
def IsWord (c : Char) : Prop := ('a' ≤ c ∧ c ≤ 'z') ∨ ('0' ≤ c ∧ c ≤ '9')

/-- A run: one or more letters and digits. -/
def IsRun (cs : List Char) : Prop := cs ≠ [] ∧ ∀ c ∈ cs, IsWord c

/-- **The grammar of slugs**: one or more runs, joined by single hyphens. -/
def IsGrammatical (cs : List Char) : Prop :=
  ∃ runs, runs ≠ [] ∧ (∀ run ∈ runs, IsRun run) ∧ cs = ['-'].intercalate runs

/-- What has been read so far can still become a text of the grammar. -/
def IsExtendable (cs : List Char) : Prop := ∃ rest, IsGrammatical (cs ++ rest)

/-- The fault of a character at which a text cannot be gone on with. -/
def stop (c : Char) : Fault := if c = '-' then .consecutiveHyphens else .badCharacter c

/-- **The faults of a text**, each with the conditions under which it is the one to be reported. -/
inductive Refuses (text : String) : Fault → Prop
  | empty (h : text = "") : Refuses text .empty
  | tooLong (hne : text ≠ "") (h : 64 < text.utf8ByteSize) : Refuses text .tooLong
  | badStart {first : Char} (hb : text.utf8ByteSize ≤ 64) (hf : text.toList.head? = some first)
      (h : ¬IsWord first) : Refuses text .badStart
  | badEnd {first last : Char} (hb : text.utf8ByteSize ≤ 64)
      (hf : text.toList.head? = some first) (hw : IsWord first)
      (hl : text.toList.getLast? = some last) (h : ¬IsWord last) : Refuses text .badEnd
  | stops {first last c : Char} {before after : List Char} (hb : text.utf8ByteSize ≤ 64)
      (hf : text.toList.head? = some first) (hw : IsWord first)
      (hl : text.toList.getLast? = some last) (hw' : IsWord last)
      (ht : text.toList = before ++ c :: after) (hr : IsExtendable before)
      (h : ¬IsExtendable (before ++ [c])) : Refuses text (stop c)

variable {c : Char} {cs before run : List Char} {runs : List (List Char)} {hyphen : Bool}
  {fault : Fault}

theorem isWordChar_iff : isWordChar c = true ↔ IsWord c := by
  simp [isWordChar, IsWord]

theorem not_isWord_hyphen : ¬IsWord '-' := by
  rw [← isWordChar_iff]
  decide

/-! ### Going through a text -/

/-- A letter or a digit is passed over. -/
theorem innerFault?_of_isWord (h : IsWord c) :
    innerFault? hyphen (c :: cs) = innerFault? false cs := by
  have hc : c ≠ '-' := by
    rintro rfl
    exact not_isWord_hyphen h
  rw [innerFault?, if_neg hc, if_pos (isWordChar_iff.mpr h)]

/-- What is passed over is a letter or a digit, or a hyphen that does not follow on a hyphen. -/
theorem innerFault?_cons_eq_none :
    innerFault? hyphen (c :: cs) = none ↔
      (c = '-' ∧ hyphen = false ∧ innerFault? true cs = none) ∨
        (IsWord c ∧ innerFault? false cs = none) := by
  by_cases hc : c = '-'
  · subst hc
    simp only [innerFault?, not_isWord_hyphen, false_and, or_false, true_and, if_true]
    cases hyphen <;> simp
  · rw [innerFault?, if_neg hc, ← isWordChar_iff]
    cases isWordChar c <;> simp [hc]

/-- A text without a fault has none up to any place. -/
theorem innerFault?_of_append (h : innerFault? hyphen (before ++ cs) = none) :
    innerFault? hyphen before = none := by
  induction before generalizing hyphen with
  | nil => rfl
  | cons c before ih =>
    rw [List.cons_append, innerFault?_cons_eq_none] at h
    rw [innerFault?_cons_eq_none]
    exact h.imp (And.imp_right (And.imp_right ih)) (And.imp_right ih)

/-- **A letter or a digit is never a fault**: whatever has no fault can be followed by one. -/
theorem innerFault?_append_word (h : innerFault? hyphen cs = none) (hc : IsWord c) :
    innerFault? hyphen (cs ++ [c]) = none := by
  induction cs generalizing hyphen with
  | nil => exact innerFault?_of_isWord hc
  | cons d cs ih =>
    rw [innerFault?_cons_eq_none] at h
    rw [List.cons_append, innerFault?_cons_eq_none]
    exact h.imp (And.imp_right (And.imp_right ih)) (And.imp_right ih)

/-- **A fault is at some character**: there is none before it, and it is the fault of that
character. -/
theorem exists_stop_of_innerFault? (h : innerFault? hyphen cs = some fault) :
    ∃ before c after, cs = before ++ c :: after ∧ innerFault? hyphen before = none ∧
      innerFault? hyphen (before ++ [c]) ≠ none ∧ fault = stop c := by
  induction cs generalizing hyphen with
  | nil => simp [innerFault?] at h
  | cons c cs ih =>
    -- the fault is further on, if the character may be passed over
    have further {next : Bool} (hrest : innerFault? next cs = some fault)
        (hpass : ∀ cs, innerFault? hyphen (c :: cs) = innerFault? next cs) :
        ∃ before c' after, c :: cs = before ++ c' :: after ∧ innerFault? hyphen before = none ∧
          innerFault? hyphen (before ++ [c']) ≠ none ∧ fault = stop c' := by
      obtain ⟨before, c', after, rfl, hnone, hstop, hfault⟩ := ih hrest
      refine ⟨c :: before, c', after, rfl, ?_, ?_, hfault⟩
      · rw [hpass, hnone]
      · rw [List.cons_append, hpass]
        exact hstop
    by_cases hc : c = '-'
    · subst hc
      cases hyphen with
      | true =>
        obtain rfl := Option.some.inj h
        exact ⟨[], '-', cs, rfl, rfl, by simp [innerFault?], rfl⟩
      | false => exact further h fun _ => rfl
    · by_cases hw : IsWord c
      · rw [innerFault?_of_isWord hw] at h
        exact further h fun _ => innerFault?_of_isWord hw
      · rw [innerFault?, if_neg hc, if_neg (by rwa [isWordChar_iff])] at h
        obtain rfl := Option.some.inj h
        refine ⟨[], c, cs, rfl, rfl, ?_, by rw [stop, if_neg hc]⟩
        rw [List.nil_append, ne_eq, innerFault?_cons_eq_none]
        simp [hc, hw]

/-- **The fault at some character is found**, whatever follows on it. -/
theorem innerFault?_of_stop (hbefore : innerFault? hyphen before = none)
    (h : innerFault? hyphen (before ++ [c]) ≠ none) :
    innerFault? hyphen (before ++ c :: cs) = some (stop c) := by
  induction before generalizing hyphen with
  | nil =>
    rw [List.nil_append, ne_eq, innerFault?_cons_eq_none, not_or] at h
    obtain ⟨hhyphen, hword⟩ := h
    by_cases hc : c = '-'
    · subst hc
      cases hyphen with
      | true => rfl
      | false => exact absurd ⟨rfl, rfl, rfl⟩ hhyphen
    · have hw : ¬isWordChar c = true := fun hw => hword ⟨isWordChar_iff.mp hw, rfl⟩
      rw [List.nil_append, innerFault?, if_neg hc, if_neg hw, stop, if_neg hc]
  | cons d before ih =>
    rcases innerFault?_cons_eq_none.mp hbefore with ⟨rfl, rfl, hrest⟩ | ⟨hd, hrest⟩
    · exact ih hrest h
    · rw [List.cons_append, innerFault?_of_isWord hd] at h
      rw [List.cons_append, innerFault?_of_isWord hd]
      exact ih hrest h

/-! ### Runs -/

/-- **What is gone through without a fault falls into runs**, if it ends in a letter or a digit. The
first run goes on with the one that was being read, and may be empty unless there was a hyphen. -/
theorem exists_runs_of_innerFault? (h : innerFault? hyphen cs = none)
    (hlast : ∀ c ∈ cs.getLast?, IsWord c) (hne : hyphen = true → cs ≠ []) :
    ∃ run runs, (hyphen = true → run ≠ []) ∧ (∀ c ∈ run, IsWord c) ∧ (∀ run ∈ runs, IsRun run) ∧
      cs = ['-'].intercalate (run :: runs) := by
  induction cs generalizing hyphen with
  | nil =>
    refine ⟨[], [], fun hh => absurd rfl (hne hh), ?_, ?_, ?_⟩ <;> simp
  | cons c cs ih =>
    have hlast' : ∀ c ∈ cs.getLast?, IsWord c := by
      intro d hd
      refine hlast d ?_
      cases cs with
      | nil => simp at hd
      | cons e cs => rwa [List.getLast?_cons_cons]
    rcases innerFault?_cons_eq_none.mp h with ⟨rfl, rfl, hrest⟩ | ⟨hc, hrest⟩
    · -- a hyphen closes the run, and something follows on it
      have hcs : cs ≠ [] := by
        rintro rfl
        exact not_isWord_hyphen (hlast '-' rfl)
      obtain ⟨run, runs, hrun, hword, hruns, rfl⟩ := ih hrest hlast' fun _ => hcs
      refine ⟨[], run :: runs, by simp, by simp, ?_, ?_⟩
      · exact List.forall_mem_cons.mpr ⟨⟨hrun rfl, hword⟩, hruns⟩
      · rw [List.intercalate_cons_cons]
        rfl
    · obtain ⟨run, runs, -, hword, hruns, rfl⟩ := ih hrest hlast' (by simp)
      refine ⟨c :: run, runs, by simp, List.forall_mem_cons.mpr ⟨hc, hword⟩, hruns, ?_⟩
      cases runs with
      | nil => rw [List.intercalate_singleton, List.intercalate_singleton]
      | cons run' runs =>
        rw [List.intercalate_cons_cons, List.intercalate_cons_cons]
        rfl

/-- **Runs are gone through without a fault.** -/
theorem innerFault?_intercalate (hword : ∀ c ∈ run, IsWord c) (hruns : ∀ run ∈ runs, IsRun run)
    (hne : hyphen = true → run ≠ []) :
    innerFault? hyphen (['-'].intercalate (run :: runs)) = none := by
  induction runs generalizing run hyphen with
  | nil =>
    rw [List.intercalate_singleton]
    induction run generalizing hyphen with
    | nil => rfl
    | cons c run ih =>
      obtain ⟨hc, hrest⟩ := List.forall_mem_cons.mp hword
      rw [innerFault?_of_isWord hc]
      exact ih hrest (by simp)
  | cons next runs ih =>
    obtain ⟨⟨hnext, hword'⟩, hruns'⟩ := List.forall_mem_cons.mp hruns
    rw [List.intercalate_cons_cons]
    induction run generalizing hyphen with
    | nil =>
      cases hyphen with
      | true => exact absurd rfl (hne rfl)
      | false => exact ih hword' hruns' fun _ => hnext
    | cons c run ih' =>
      obtain ⟨hc, hrest⟩ := List.forall_mem_cons.mp hword
      rw [List.cons_append, List.cons_append, innerFault?_of_isWord hc]
      exact ih' hrest (by simp)

/-- The first and the last character of a run that others follow on are letters or digits. -/
theorem head?_intercalate (hrun : IsRun run) (hruns : ∀ run ∈ runs, IsRun run) :
    (∃ first, (['-'].intercalate (run :: runs)).head? = some first ∧ IsWord first) ∧
      ∃ last, (['-'].intercalate (run :: runs)).getLast? = some last ∧ IsWord last := by
  induction runs generalizing run with
  | nil =>
    obtain ⟨hne, hword⟩ := hrun
    rw [List.intercalate_singleton]
    exact ⟨⟨_, List.head?_eq_some_head hne, hword _ (List.head_mem hne)⟩,
      ⟨_, List.getLast?_eq_some_getLast hne, hword _ (List.getLast_mem hne)⟩⟩
  | cons next runs ih =>
    obtain ⟨hnext, hruns'⟩ := List.forall_mem_cons.mp hruns
    obtain ⟨-, last, hlast, hw⟩ := ih hnext hruns'
    obtain ⟨hne, hword⟩ := hrun
    rw [List.intercalate_cons_cons]
    refine ⟨⟨run.head hne, ?_, hword _ (List.head_mem hne)⟩, last, ?_, hw⟩
    · rw [List.append_assoc, List.head?_append, List.head?_eq_some_head hne, Option.some_or]
    · rw [List.getLast?_append, hlast, Option.some_or]

/-- **The grammar, character by character.** -/
theorem isGrammatical_iff :
    IsGrammatical cs ↔ (∃ first, cs.head? = some first ∧ IsWord first) ∧
      (∃ last, cs.getLast? = some last ∧ IsWord last) ∧ innerFault? false cs = none := by
  constructor
  · rintro ⟨runs, hne, hruns, rfl⟩
    cases runs with
    | nil => exact absurd rfl hne
    | cons run runs =>
      obtain ⟨hrun, hruns'⟩ := List.forall_mem_cons.mp hruns
      obtain ⟨hfirst, hlast⟩ := head?_intercalate hrun hruns'
      exact ⟨hfirst, hlast, innerFault?_intercalate hrun.2 hruns' (by simp)⟩
  · rintro ⟨⟨first, hfirst, hw⟩, ⟨last, hlast, hw'⟩, hinner⟩
    -- the first character belongs to the first run, which is therefore not empty
    obtain ⟨run, runs, -, hword, hruns, rfl⟩ :=
      exists_runs_of_innerFault? hinner (by simp [hlast, hw']) (by simp)
    refine ⟨run :: runs, by simp, List.forall_mem_cons.mpr ⟨⟨?_, hword⟩, hruns⟩, rfl⟩
    rintro rfl
    cases runs with
    | nil => simp at hfirst
    | cons run runs =>
      rw [List.intercalate_cons_cons] at hfirst
      obtain rfl : '-' = first := Option.some.inj hfirst
      exact not_isWord_hyphen hw

/-- **What can still become a text of the grammar** has no fault so far, and begins with a letter or
a digit if it begins at all: it is enough to put one letter behind it. -/
theorem isExtendable_iff :
    IsExtendable cs ↔ (∀ first ∈ cs.head?, IsWord first) ∧ innerFault? false cs = none := by
  constructor
  · rintro ⟨rest, h⟩
    obtain ⟨⟨first, hfirst, hw⟩, -, hinner⟩ := isGrammatical_iff.mp h
    refine ⟨fun c hc => ?_, innerFault?_of_append hinner⟩
    rw [List.head?_append, Option.mem_def.mp hc, Option.some_or] at hfirst
    rwa [Option.some.inj hfirst]
  · rintro ⟨hfirst, hinner⟩
    have ha : IsWord 'a' := Or.inl (by decide)
    refine ⟨['a'], isGrammatical_iff.mpr ⟨?_, ⟨'a', by simp, ha⟩, ?_⟩⟩
    swap
    · exact innerFault?_append_word hinner ha
    cases cs with
    | nil => exact ⟨'a', rfl, ha⟩
    | cons c cs => exact ⟨c, rfl, hfirst c rfl⟩

/-! ### What is reported -/

/-- A text that is not empty has a first and a last character. -/
theorem exists_ends {text : String} (h : text ≠ "") :
    ∃ first last, text.toList.head? = some first ∧ text.toList.getLast? = some last := by
  have hne : text.toList ≠ [] := fun hnil => h (String.toList_eq_nil_iff.mp hnil)
  exact ⟨_, _, List.head?_eq_some_head hne, List.getLast?_eq_some_getLast hne⟩

/-- What is wrong with a text, where both ends are known. -/
theorem fault?_eq {text : String} {first last : Char} (hf : text.toList.head? = some first)
    (hl : text.toList.getLast? = some last) :
    fault? text =
      if 64 < text.utf8ByteSize then some .tooLong
      else if isWordChar first = true then
        if isWordChar last = true then innerFault? false text.toList else some .badEnd
      else some .badStart := by
  have hempty : text.isEmpty = false := by
    rw [Bool.eq_false_iff, ne_eq, String.isEmpty_iff]
    rintro rfl
    simp at hf
  rw [fault?, hempty, bodyFault?, hf, hl, Option.any_some, Option.any_some]
  cases isWordChar first <;> cases isWordChar last <;> rfl

/-- **A text in which nothing is found to be wrong** is one of the grammar, and not too long. -/
theorem fault?_eq_none_iff {text : String} :
    fault? text = none ↔ text.utf8ByteSize ≤ 64 ∧ IsGrammatical text.toList := by
  rw [isGrammatical_iff]
  by_cases hne : text = ""
  · subst hne
    simp [fault?]
  obtain ⟨first, last, hf, hl⟩ := exists_ends hne
  rw [fault?_eq hf hl, hf, hl]
  simp only [← isWordChar_iff, Option.some.injEq, exists_eq_left']
  by_cases hlong : 64 < text.utf8ByteSize
  · simp [hlong, Nat.not_le_of_lt hlong]
  · simp only [if_neg hlong, Nat.le_of_not_lt hlong, true_and]
    cases isWordChar first <;> cases isWordChar last <;> simp

/-- **Whatever is found to be wrong is to be reported.** -/
theorem refuses_of_fault? {text : String} (h : fault? text = some fault) : Refuses text fault := by
  by_cases hne : text = ""
  · subst hne
    obtain rfl := Option.some.inj h
    exact .empty rfl
  obtain ⟨first, last, hf, hl⟩ := exists_ends hne
  rw [fault?_eq hf hl] at h
  split at h
  case isTrue hlong =>
    obtain rfl := Option.some.inj h
    exact .tooLong hne hlong
  case isFalse hlong =>
  have hb : text.utf8ByteSize ≤ 64 := Nat.le_of_not_lt hlong
  split at h
  case isFalse hw =>
    obtain rfl := Option.some.inj h
    exact .badStart hb hf (by rwa [isWordChar_iff] at hw)
  case isTrue hw =>
  rw [isWordChar_iff] at hw
  split at h
  case isFalse hw' =>
    obtain rfl := Option.some.inj h
    exact .badEnd hb hf hw hl (by rwa [isWordChar_iff] at hw')
  case isTrue hw' =>
  rw [isWordChar_iff] at hw'
  obtain ⟨before, c, after, ht, hnone, hstop, rfl⟩ := exists_stop_of_innerFault? h
  have hstart : ∀ d ∈ before.head?, IsWord d := by
    intro d hd
    rw [ht, List.head?_append, Option.mem_def.mp hd, Option.some_or] at hf
    rwa [Option.some.inj hf]
  refine .stops hb hf hw hl hw' ht (isExtendable_iff.mpr ⟨hstart, hnone⟩) fun hext => ?_
  exact hstop (isExtendable_iff.mp hext).2

/-- **What is to be reported is found.** -/
theorem fault?_of_refuses {text : String} (h : Refuses text fault) : fault? text = some fault := by
  -- a text that has a first character has a last one, which need not be in order
  have ends {first : Char} (hf : text.toList.head? = some first) :
      ∃ last, text.toList.getLast? = some last := by
    have hne : text ≠ "" := by
      rintro rfl
      simp at hf
    obtain ⟨-, last, -, hl⟩ := exists_ends hne
    exact ⟨last, hl⟩
  cases h with
  | empty h => rw [h]; rfl
  | tooLong hne h =>
    obtain ⟨first, last, hf, hl⟩ := exists_ends hne
    rw [fault?_eq hf hl, if_pos h]
  | badStart hb hf h =>
    obtain ⟨last, hl⟩ := ends hf
    rw [← isWordChar_iff] at h
    rw [fault?_eq hf hl, if_neg (Nat.not_lt_of_le hb), if_neg h]
  | badEnd hb hf hw hl h =>
    rw [← isWordChar_iff] at h hw
    rw [fault?_eq hf hl, if_neg (Nat.not_lt_of_le hb), if_pos hw, if_neg h]
  | @stops first last c before after hb hf hw hl hw' ht hr h =>
    have hstop : innerFault? false (before ++ [c]) ≠ none := by
      refine fun hnone => h (isExtendable_iff.mpr ⟨fun d hd => ?_, hnone⟩)
      -- what has been read begins as the text does
      have hd' : text.toList.head? = some d := by
        rw [ht, List.append_cons, List.head?_append, Option.mem_def.mp hd, Option.some_or]
      rwa [← Option.some.inj (hf.symm.trans hd')]
    rw [← isWordChar_iff] at hw hw'
    rw [fault?_eq hf hl, if_neg (Nat.not_lt_of_le hb), if_pos hw, if_pos hw', ht]
    exact innerFault?_of_stop (isExtendable_iff.mp hr).2 hstop

/-! ### The check -/

/-- What is read is the text itself. -/
theorem parse_eq_ok_iff {text : String} {slug : Slug} :
    parse text = .ok slug ↔ fault? text = none ∧ slug.text = text := by
  rw [parse]
  constructor
  · intro h
    split at h
    · rename_i hnone
      obtain rfl := Except.ok.inj h
      exact ⟨hnone, rfl⟩
    · cases h
  · rintro ⟨hnone, rfl⟩
    split
    · rfl
    · rename_i hsome
      cases hnone.symm.trans hsome

/-- What is reported is what is found. -/
theorem parse_eq_error_iff {text : String} :
    parse text = .error fault ↔ fault? text = some fault := by
  rw [parse]
  split <;> rename_i h <;> simp [h]

/-- **A text is taken as a slug exactly if it is one**: if it has at most sixty-four bytes and
consists of runs of letters and digits joined by single hyphens; the slug is then the text itself.
Any other text is refused, with the one fault that is to be reported: that it is empty; or else that
it is too long; or else that its first, or else its last character is none of these; or else the
fault of the first character with which what has been read can no longer become a text of the
grammar. A first and a last character are there to be looked at unless the text is empty. -/
theorem slugs_follow_grammar (text : String) :
    (fault? text = none ↔ text.utf8ByteSize ≤ 64 ∧ IsGrammatical text.toList) ∧
    (∀ fault, fault? text = some fault ↔ Refuses text fault) ∧
    (∀ slug, parse text = .ok slug ↔ fault? text = none ∧ slug.text = text) ∧
    (∀ fault, parse text = .error fault ↔ fault? text = some fault) ∧
    (text ≠ "" → ∃ first last,
      text.toList.head? = some first ∧ text.toList.getLast? = some last) := by
  refine ⟨fault?_eq_none_iff, fun fault => ?_, fun slug => parse_eq_ok_iff,
    fun fault => parse_eq_error_iff, exists_ends⟩
  exact ⟨refuses_of_fault?, fault?_of_refuses⟩

/-- A capital letter is reported, although two hyphens follow on it; two hyphens are, although a
capital letter follows on them. -/
example : fault? "aB--c" = some (.badCharacter 'B') ∧
    fault? "a--Bc" = some .consecutiveHyphens := by
  decide +kernel

end Slug

end KeyLifecycle
