import KeyLifecycle.Proofs.Database.Backend
import KeyLifecycle.Proofs.Database.Mirror
import KeyLifecycle.Proofs.Database.Protocol
import Mathlib.Data.List.Infix

/-!
# Conflicts are read off complaints

Whoever adds a credential or a user is told of a conflict if the access key, or the slug, is taken.
It is the server that finds that out, and it says so in a message. What is made of the message does
not ask which rule has been broken: it looks for two phrases in the text
(`Database.SpeaksOfUniqueness`), and a conflict is told where one of them stands, whatever the rule
(`Database.Tells`). The words that are put before the message cannot bring such a phrase about
(`Database.speaksOfUniqueness_refused`).

So it depends on the words how much a conflict means. If a server uses the phrases for all rules
about uniqueness and for nothing else (`Database.Rules.IsPlain`), a conflict is told whenever the
access key is taken, and also when the number of the row is; in other words, or another language, it
is told at other times (`KeyLifecycle.conflicts_may_mislead`).

What holds of one statement holds of whole changes: a transaction is answered with the conflict if
and only if one of its inserts has been refused in such words (`Database.Protocol.eq_taken_iff`).
-/

namespace KeyLifecycle

namespace Database

/-! ### Phrases -/

/-- The phrases that are taken as a sign that something has to be unique. -/
def phrases : List String := ["duplicate key", "unique constraint"]

/-- One of the phrases stands in a text. -/
def SpeaksOfUniqueness (text : String) : Prop := ∃ phrase ∈ phrases, phrase.toList <:+: text.toList

instance (text : String) : Decidable (SpeaksOfUniqueness text) :=
  inferInstanceAs (Decidable (∃ phrase ∈ phrases, phrase.toList <:+: text.toList))

theorem isConflict_iff {fault : Fault} :
    fault.isConflict = true ↔ SpeaksOfUniqueness fault.message := by
  rw [Fault.isConflict, Bool.or_eq_true, hasPiece_iff, hasPiece_iff, SpeaksOfUniqueness, phrases,
    List.exists_mem_cons_iff, List.exists_mem_cons_iff]
  simp

/-- **What stands before a text makes no piece of it**, if it has no beginning of the piece at its
end. -/
theorem infix_append_iff_of_clash {piece before text : List Char}
    (h : ∀ tail ∈ before.tails, tail = [] ∨ ¬piece <+: tail ∧ ¬tail <+: piece) :
    piece <:+: before ++ text ↔ piece <:+: text := by
  induction before with
  | nil => rfl
  | cons c before ih =>
    rw [List.tails_cons, List.forall_mem_cons] at h
    have hno : ¬piece <+: c :: (before ++ text) := fun hp => by
      obtain ⟨hpiece, htail⟩ := h.1.resolve_left (List.cons_ne_nil _ _)
      have hc : c :: before <+: c :: (before ++ text) := List.prefix_append (c :: before) text
      exact (List.prefix_or_prefix_of_prefix hp hc).elim hpiece htail
    rw [List.cons_append, List.infix_cons_iff, ih h.2, or_iff_right hno]

/-- **The words before a message bring no phrase about.** -/
theorem speaksOfUniqueness_refused (text : String) :
    SpeaksOfUniqueness (Fault.refused text).message ↔ SpeaksOfUniqueness text := by
  have hmessage : (Fault.refused text).message.toList =
      "error returned from database: ".toList ++ text.toList := String.toList_append
  have hclash : ∀ phrase ∈ phrases, ∀ tail ∈ "error returned from database: ".toList.tails,
      tail = [] ∨ ¬phrase.toList <+: tail ∧ ¬tail <+: phrase.toList := by
    simp only [String.reduceToList]
    decide +kernel
  rw [SpeaksOfUniqueness, hmessage]
  exact exists_congr fun phrase => and_congr_right fun hp =>
    infix_append_iff_of_clash (hclash phrase hp)

/-! ### What is told of a new row -/

/-- What is said of a row without a number in it does not speak of uniqueness. -/
theorem Cells.not_speaks_of_read {cells : Cells} {fault : Fault}
    (h : cells.read .only Cell.int? = .error fault) : ¬SpeaksOfUniqueness fault.message := by
  have hfault : fault = .noColumn .only ∨ fault = .noValue .only ∨ fault = .otherType .only := by
    cases cells with
    | nil => exact Or.inl (Except.error.inj h).symm
    | cons cell rest =>
      cases cell with
      | null => exact Or.inr (Or.inl (Except.error.inj h).symm)
      | int n => cases h
      | text | flag | moment => exact Or.inr (Or.inr (Except.error.inj h).symm)
  rcases hfault with rfl | rfl | rfl <;> decide +kernel

/-- **Only the server speaks of uniqueness**: a number that cannot be read is no sign of it. -/
theorem Reception.eq_fault_iff {reception : Reception} {fault : Fault}
    (hw : SpeaksOfUniqueness fault.message) :
    reception.number = .error fault ↔ reception = .fault fault := by
  constructor
  · intro h
    cases reception with
    | fault other => exact congrArg Reception.fault (Except.error.inj h)
    | answer rows affected =>
      cases rows with
      | nil =>
        obtain rfl : Fault.noRow = fault := Except.error.inj h
        exact absurd hw (by decide +kernel)
      | cons row rows => exact absurd hw (Cells.not_speaks_of_read h)
  · rintro rfl
    rfl

/-- **What is told of a new row**, by what has come back of it: its number makes it, a refusal that
speaks of uniqueness is a conflict, and any other fault is a fault of the store. -/
structure Tells {α : Type} (conflict : Failure) (operation : String) (made : Int64 → α)
    (reception : Reception) (answer : Except Failure α) : Prop where
  granted_iff {value : α} :
    answer = .ok value ↔ ∃ id, reception.number = .ok id ∧ value = made id
  conflict_iff : answer = .error conflict ↔
    ∃ fault, reception = .fault fault ∧ SpeaksOfUniqueness fault.message
  otherwise {fault : Fault} (hr : reception.number = .error fault)
    (hw : ¬SpeaksOfUniqueness fault.message) : answer = .error (.storage operation fault.message)

/-- What is made of a fault of adding a row. -/
def addFailure (conflict : Failure) (operation : String) (fault : Fault) : Failure :=
  if fault.isConflict then conflict else fault.failure operation

theorem insertFailure_eq (fault : Fault) :
    insertFailure fault = addFailure Table.taken "insert api key" fault := rfl

theorem addUserFailure_eq (slug : Slug) (fault : Fault) :
    addUserFailure slug fault = addFailure (Directory.taken slug) "create user" fault := rfl

theorem addFailure_eq_conflict {conflict : Failure} {operation : String} {fault : Fault}
    (hc : ∀ detail, conflict ≠ .storage operation detail) :
    addFailure conflict operation fault = conflict ↔ SpeaksOfUniqueness fault.message := by
  rw [addFailure, ← isConflict_iff]
  split
  · exact iff_of_true rfl ‹_›
  · exact iff_of_false (fun h => hc _ h.symm) ‹_›

/-- **A new row is told of in one way**, whatever the table. -/
theorem tells {α : Type} {conflict : Failure} {operation : String} {made : Int64 → α}
    {reception : Reception} {answer : Except Failure α}
    (hc : ∀ detail, conflict ≠ .storage operation detail)
    (hmade : ∀ id, reception.number = .ok id → answer = .ok (made id))
    (hfault : ∀ fault, reception.number = .error fault →
      answer = .error (addFailure conflict operation fault)) :
    Tells conflict operation made reception answer := by
  cases hr : reception.number with
  | ok id =>
    obtain rfl := hmade id hr
    constructor
    · intro value
      simp [hr, eq_comm]
    · refine iff_of_false (by simp) ?_
      rintro ⟨fault, rfl, -⟩
      cases hr
    · intro fault h
      cases hr.symm.trans h
  | error fault =>
    obtain rfl := hfault fault hr
    constructor
    · intro value
      simp [hr]
    · rw [Except.error.injEq, addFailure_eq_conflict hc]
      constructor
      · exact fun hw => ⟨fault, (Reception.eq_fault_iff hw).mp hr, hw⟩
      · rintro ⟨other, rfl, hw⟩
        obtain rfl : other = fault := Except.error.inj hr
        exact hw
    · intro other h hw
      obtain rfl : fault = other := Except.error.inj (hr.symm.trans h)
      exact congrArg Except.error (if_neg (mt isConflict_iff.mp hw))

variable {σ : Type}

/-- A credential is added inside a transaction. -/
theorem tells_insert (server : Server σ) (s : σ) (owner : UserId) (material : KeyMaterial) :
    Tells Table.taken "insert api key"
      (fun id => Reply.issued ⟨⟨id⟩, owner, material.key, material.secret, none⟩)
      (server.reply (.insertCredential owner material) s).1.reception
      ((leaseStep true (.issue owner material)).run server s).1.1 := by
  rw [leaseStep, Work.issue, Work.exchange, if_pos rfl, Standing.run_send_none]
  refine tells (by simp [Table.taken]) (fun id hr => ?_) fun fault hr => ?_
  · simp [hr, Work.exchange, Exchange.run]
  · simp [hr, Exchange.run, insertFailure_eq]

/-- A user is added by a statement alone. -/
theorem tells_addUser (server : Server σ) (s : σ) (slug : Slug) (role : Role) :
    Tells (Directory.taken slug) "create user" (fun id => User.mk ⟨id⟩ slug role)
      (server.reply (.addUser slug role) s).1.reception
      ((addUser slug role).run server s).1 := by
  rw [addUser, Exchange.run_ask]
  refine tells (by simp [Directory.taken]) (fun id hr => ?_) fun fault hr => ?_
  · simp [hr, Exchange.run]
  · simp [hr, Exchange.run, addUserFailure_eq]

/-! ### Words that are plain -/

/-- A server says in the phrases that something has to be unique, and nothing else. -/
def Rules.IsPlain (r : Rules) : Prop :=
  ∀ violation, SpeaksOfUniqueness (r.complaint violation) ↔
    ∃ column, violation = .unique column

/-- The name of the constraint that makes a column unique. -/
def Attribute.uniqueName : Attribute → String
  | id => "api_keys_pkey"
  | column => "api_keys_" ++ column.name ++ "_key"

/-- The usual wording of complaints. -/
def Violation.inEnglish : Violation → String
  | notNull column =>
    "null value in column \"" ++ column.name ++
      "\" of relation \"api_keys\" violates not-null constraint"
  | unique column =>
    "duplicate key value violates unique constraint \"" ++ column.uniqueName ++ "\""
  | reference column =>
    "insert or update on table \"api_keys\" violates foreign key constraint \"api_keys_" ++
      column.name ++ "_fkey\""

/-- The wording of complaints of a server that speaks German. -/
def Violation.inGerman : Violation → String
  | notNull column =>
    "NULL-Wert in Spalte »" ++ column.name ++
      "« von Relation »api_keys« verletzt Not-Null-Constraint"
  | unique column =>
    "doppelter Schlüsselwert verletzt Unique-Constraint »" ++ column.uniqueName ++ "«"
  | reference column =>
    "Einfügen oder Aktualisieren in Tabelle »api_keys« verletzt " ++
      "Fremdschlüssel-Constraint »api_keys_" ++ column.name ++ "_fkey«"

theorem toList_append_append (before name after : String) :
    (before ++ name ++ after).toList = before.toList ++ name.toList ++ after.toList := by
  rw [String.toList_append, String.toList_append]

/-- **The usual wording is plain.** -/
theorem Rules.isPlain_inEnglish {r : Rules} (h : r.complaint = Violation.inEnglish) :
    r.IsPlain := by
  intro violation
  rw [h]
  cases violation with
  | unique column =>
    refine iff_of_true ⟨"duplicate key", List.mem_cons_self, ?_⟩ ⟨column, rfl⟩
    unfold Violation.inEnglish
    rw [toList_append_append]
    simp only [String.reduceToList]
    exact ⟨[], _, rfl⟩
  | notNull column | reference column =>
    refine iff_of_false ?_ (by simp)
    unfold SpeaksOfUniqueness Violation.inEnglish
    rw [toList_append_append]
    simp only [String.reduceToList]
    cases column <;> decide +kernel

/-- A new credential breaks a rule about uniqueness first, if it breaks one at all. -/
theorem Rules.exists_unique_iff (r : Rules) (records : List Record) (id : Int64) (owner : UserId)
    (material : KeyMaterial) :
    (∃ column, r.violation? records (.ofBinds id [.owner, .key, .secret]
        (Statement.insertCredential owner material).binds) = some (.unique column)) ↔
      records.any (· .id = some (.int id)) = true ∨
        records.any (· .key = some (.text material.key.text)) = true := by
  rw [violation?_issue]
  cases records.any (· .id = some (.int id)) with
  | true => simp
  | false =>
    cases records.any (· .key = some (.text material.key.text)) with
    | true => simp
    | false => cases r.isUser owner.value <;> simp

namespace Backend

/-- **A new credential is refused** with the complaint about the first rule that it breaks. -/
theorem reply_insertCredential_eq_fault (b : Backend) (base copy : List Record) (drawn : Nat)
    (owner : UserId) (material : KeyMaterial) (fault : Fault) :
    (b.server.reply (.insertCredential owner material) ⟨base, drawn, .inside copy⟩).1.reception =
        .fault fault ↔
      ∃ violation, b.rules.violation? copy
          (.ofBinds (b.rules.sequence drawn) [.owner, .key, .secret]
            (Statement.insertCredential owner material).binds) = some violation ∧
        fault = .refused (b.rules.complaint violation) := by
  show (b.answer _ _).1 = _ ↔ _
  rw [answer_insertCredential]
  cases hv : b.rules.violation? copy (.ofBinds (b.rules.sequence drawn) [.owner, .key, .secret]
    (Statement.insertCredential owner material).binds) with
  | some violation =>
    have hperform : Query.issue.perform b.rules (Statement.insertCredential owner material).binds
        copy drawn = (.fault (.refused (b.rules.complaint violation)), copy, drawn + 1) := by
      rw [Query.issue, Query.perform, hv]
    rw [execute_refused hperform]
    simp [eq_comm]
  | none =>
    obtain ⟨rows, copy', hperform⟩ : ∃ rows copy', Query.issue.perform b.rules
        (Statement.insertCredential owner material).binds copy drawn =
          (.answer rows 1, copy', drawn + 1) :=
      ⟨_, _, by rw [Query.issue, Query.perform, hv]⟩
    rw [execute_inside hperform]
    simp

/-- **A conflict is told** if the complaint is made in the phrases, whatever it is about. -/
theorem insert_eq_taken_iff (b : Backend) (base copy : List Record) (drawn : Nat) (owner : UserId)
    (material : KeyMaterial) :
    ((leaseStep true (.issue owner material)).run b.server ⟨base, drawn, .inside copy⟩).1.1 =
        .error Table.taken ↔
      ∃ violation, b.rules.violation? copy
          (.ofBinds (b.rules.sequence drawn) [.owner, .key, .secret]
            (Statement.insertCredential owner material).binds) = some violation ∧
        SpeaksOfUniqueness (b.rules.complaint violation) := by
  rw [(tells_insert ..).conflict_iff]
  simp only [reply_insertCredential_eq_fault]
  constructor
  · rintro ⟨fault, ⟨violation, hv, rfl⟩, hw⟩
    exact ⟨violation, hv, (speaksOfUniqueness_refused _).mp hw⟩
  · rintro ⟨violation, hv, hw⟩
    exact ⟨_, ⟨violation, hv, rfl⟩, (speaksOfUniqueness_refused _).mpr hw⟩

/-- **A conflict is told exactly of taken keys** if and only if the complaint that is made, if any,
is made in the phrases exactly if it is about a taken key. -/
theorem insert_eq_taken_iff_unique_iff (b : Backend) (base copy : List Record) (drawn : Nat)
    (owner : UserId) (material : KeyMaterial) {violation? : Option Violation}
    (hv : b.rules.violation? copy (.ofBinds (b.rules.sequence drawn) [.owner, .key, .secret]
      (Statement.insertCredential owner material).binds) = violation?) :
    (((leaseStep true (.issue owner material)).run b.server ⟨base, drawn, .inside copy⟩).1.1 =
        .error Table.taken ↔ violation? = some (.unique .key)) ↔
      ∀ violation, violation? = some violation →
        (SpeaksOfUniqueness (b.rules.complaint violation) ↔ violation = .unique .key) := by
  rw [insert_eq_taken_iff, hv]
  cases violation? <;> simp

/-- **In plain words** a conflict is told if the access key is taken, or the number. -/
theorem insert_eq_taken_iff_of_isPlain (b : Backend) (base copy : List Record) (drawn : Nat)
    (owner : UserId) (material : KeyMaterial) (hr : b.rules.IsPlain) :
    ((leaseStep true (.issue owner material)).run b.server ⟨base, drawn, .inside copy⟩).1.1 =
        .error Table.taken ↔
      copy.any (· .id = some (.int (b.rules.sequence drawn))) = true ∨
        copy.any (· .key = some (.text material.key.text)) = true := by
  rw [insert_eq_taken_iff, ← Rules.exists_unique_iff b.rules copy _ owner material]
  constructor
  · rintro ⟨violation, hv, hw⟩
    obtain ⟨column, rfl⟩ := (hr violation).mp hw
    exact ⟨column, hv⟩
  · rintro ⟨column, hv⟩
    exact ⟨_, hv, (hr _).mpr ⟨column, rfl⟩⟩

end Backend

end Database

/-! ### Whole changes -/

/-- A work fails with a cause of its own. -/
def Work.GivesUp {α : Type} (cause : Failure) : Work α → Prop
  | .done _ => False
  | .fail own => own = cause
  | .insert _ _ next => ∃ credential, (next credential).GivesUp cause
  | .delete _ _ next => ∃ found, (next found).GivesUp cause
  | .commit next | .rollback next | .pause _ next => next.GivesUp cause

theorem Work.not_givesUp_issue (owner : UserId) (material : KeyMaterial) :
    ¬(Work.issue owner material).GivesUp Table.taken := fun ⟨_, h⟩ => h

theorem Work.not_givesUp_revoke {α : Type} {next : Work α} (owner : UserId) (key : AccessKey)
    (h : ¬next.GivesUp Table.taken) : ¬(Work.revoke owner key next).GivesUp Table.taken := by
  rintro ⟨found, hg⟩
  cases found with
  | true => exact h hg
  | false => cases hg

open Database

/-- **A new credential that has been refused in words of uniqueness.** -/
def Database.IsDuplicate : Sending → Prop
  | (.insertCredential _ _, some (.fault fault)) => SpeaksOfUniqueness fault.message
  | _ => False

theorem Database.isDuplicate_insert {owner : UserId} {material : KeyMaterial}
    {reception : Reception} :
    IsDuplicate (.insertCredential owner material, some reception) ↔
      ∃ fault, reception.number = .error fault ∧ SpeaksOfUniqueness fault.message := by
  constructor
  · intro h
    cases reception with
    | fault fault => exact ⟨fault, rfl, h⟩
    | answer => exact h.elim
  · rintro ⟨fault, hr, hw⟩
    obtain rfl := (Reception.eq_fault_iff hw).mp hr
    exact hw

namespace Work.Says

variable {α : Type} {work : Work α} {sent : List Sending} {outcome : Option (Except Failure α)}

/-- **A refusal in words of uniqueness is the end of a work**, and its outcome is the conflict. -/
theorem eq_taken (h : work.Says sent outcome) (hs : ∃ sending ∈ sent, IsDuplicate sending) :
    outcome = some (.error Table.taken) := by
  obtain ⟨sending, hm, hd⟩ := hs
  induction h with
  | done | fail | pauseLate => cases hm
  | insert hr h ih =>
    rcases List.mem_cons.mp hm with rfl | hm
    · obtain ⟨fault, hfault, -⟩ := isDuplicate_insert.mp hd
      cases hr.symm.trans hfault
    · exact ih hm
  | insertFault hr =>
    obtain rfl := List.mem_singleton.mp hm
    obtain ⟨fault, hfault, hw⟩ := isDuplicate_insert.mp hd
    obtain rfl := Except.error.inj (hr.symm.trans hfault)
    rw [insertFailure, if_pos (isConflict_iff.mpr hw)]
  | insertLate =>
    obtain rfl := List.mem_singleton.mp hm
    exact hd.elim
  | delete hr h ih =>
    rcases List.mem_cons.mp hm with rfl | hm
    · exact hd.elim
    · exact ih hm
  | deleteFault | deleteLate =>
    obtain rfl := List.mem_singleton.mp hm
    exact hd.elim
  | pause h ih => exact ih hm

/-- **Only such a refusal is a conflict**, unless the work makes one itself. -/
theorem exists_of_eq_taken (h : work.Says sent outcome) (ho : outcome = some (.error Table.taken))
    (hno : ¬work.GivesUp Table.taken) : ∃ sending ∈ sent, IsDuplicate sending := by
  induction h with
  | done | insertLate | deleteLate | pauseLate => cases ho
  | fail cause => exact absurd (Except.error.inj (Option.some.inj ho)) hno
  | insert hr h ih =>
    obtain ⟨sending, hm, hd⟩ := ih ho fun hg => hno ⟨_, hg⟩
    exact ⟨sending, List.mem_cons_of_mem _ hm, hd⟩
  | insertFault hr =>
    have hw := (addFailure_eq_conflict (by simp [Table.taken])).mp
      (Except.error.inj (Option.some.inj ho))
    exact ⟨_, List.mem_singleton_self _, isDuplicate_insert.mpr ⟨_, hr, hw⟩⟩
  | delete hr h ih =>
    obtain ⟨sending, hm, hd⟩ := ih ho fun hg => hno ⟨_, hg⟩
    exact ⟨sending, List.mem_cons_of_mem _ hm, hd⟩
  | deleteFault => cases ho
  | pause h ih => exact ih ho hno

end Work.Says

/-- **A transaction is answered with the conflict** if and only if one of its inserts has been
refused in words of uniqueness. -/
theorem Database.Protocol.eq_taken_iff {work : Work Reply} {sent : List Sending}
    {answer : Except Failure Reply} (h : Protocol work sent (some answer))
    (hno : ¬work.GivesUp Table.taken) :
    answer = .error Table.taken ↔ ∃ sending ∈ sent, IsDuplicate sending := by
  generalize ha : some answer = answer? at h
  cases h with
  | refused fault =>
    obtain rfl := Option.some.inj ha
    simp [Fault.failure, Table.taken, IsDuplicate]
  | unheard | late => cases ha
  | @closed rows affected body outcome heard hwork =>
    cases heard with
    | none => cases ha
    | some reception =>
      obtain rfl := Option.some.inj ha
      have hbegin : ¬IsDuplicate (.begin, some (.answer rows affected)) := id
      have hclosing : ¬IsDuplicate (closing outcome, some reception) := by
        cases outcome <;> exact id
      have hbody : (∃ sending ∈ (.begin, some (.answer rows affected)) ::
          (body ++ [(closing outcome, some reception)]), IsDuplicate sending) ↔
          ∃ sending ∈ body, IsDuplicate sending := by
        simp [hbegin, hclosing, or_and_right, exists_or]
      have houtcome : conclusion outcome reception = .error Table.taken ↔
          outcome = .error Table.taken := by
        cases outcome <;> cases reception <;> simp [conclusion, Fault.failure, Table.taken]
      rw [hbody, houtcome]
      exact ⟨fun ho => hwork.exists_of_eq_taken (congrArg some ho) hno,
        fun hs => Option.some.inj (hwork.eq_taken hs)⟩

namespace Mutation

variable {m : Mutation} {g g' : Generator} {request : Request} {work : Work Reply}

/-- The conflict is never made without the database, except by a unit of work of its own. -/
theorem Prepares.not_givesUp (h : m.Prepares g request work g')
    (hno : ∀ name own, m = .transact name own → ¬own.GivesUp Table.taken) :
    ¬work.GivesUp Table.taken := by
  cases h with
  | create => exact Work.not_givesUp_issue _ _
  | delete => exact Work.not_givesUp_revoke _ _ id
  | rotate => exact Work.not_givesUp_revoke _ _ (Work.not_givesUp_issue _ _)
  | transact => exact hno _ _ rfl

/-- **A change is answered with the conflict** if and only if one of its inserts has been refused in
words of uniqueness, unless time runs out. -/
theorem Prepares.eq_taken_iff (h : m.Prepares g request work g') (hplain : m.IsPlain)
    (hno : ∀ name own, m = .transact name own → ¬own.GivesUp Table.taken) {σ : Type}
    (server : Server σ) (store : Store) (s : σ)
    (htime : timesOut (((m.procedure store).exchange g).run server s).2.2 = false) :
    (((m.procedure store).exchange g).run server s).1.1 = some (.error Table.taken) ↔
      ∃ sending ∈ ((m.procedure store).exchange g).sendings server s, IsDuplicate sending := by
  obtain ⟨transaction, answer?, hc, hsent, hrun⟩ := h.concludes hplain server store s
  rw [hrun] at htime ⊢
  rw [hsent]
  cases answer? with
  | none => cases hc.timedOut.symm.trans htime
  | some answer =>
    have hanswer : (transaction.run server s).1 = answer := hc.answer
    rw [hanswer, Option.some.injEq]
    exact hc.protocol.eq_taken_iff (h.not_givesUp hno)

end Mutation

/-- **Conflicts are read off complaints.** Whoever adds a credential inside a transaction, or a
user, is told of the conflict if and only if the server refuses the row with a message in which one
of two phrases stands, whatever the rule that the row breaks; any other fault is a fault of the
store, with the wording of the server, and a number makes the row. The words before the message make
no difference. So is every change of the store that is not out of time: it is answered with the
conflict if and only if one of its inserts has been refused in such words.

With a server that keeps the rules of the table, this is right, a conflict being told exactly if the
access key is taken, if and only if the complaint that is made is made in the phrases exactly if it
is about a taken access key. A server that uses the phrases for what has to be unique and for
nothing else has the conflict told if and only if the access key is taken or the number is. -/
theorem conflicts_are_read_off_complaints {σ : Type} (server : Server σ) (s : σ) (owner : UserId)
    (material : KeyMaterial) (slug : Slug) (role : Role) :
    Tells Table.taken "insert api key"
        (fun id => Reply.issued ⟨⟨id⟩, owner, material.key, material.secret, none⟩)
        (server.reply (.insertCredential owner material) s).1.reception
        ((leaseStep true (.issue owner material)).run server s).1.1 ∧
      Tells (Directory.taken slug) "create user" (fun id => User.mk ⟨id⟩ slug role)
        (server.reply (.addUser slug role) s).1.reception
        ((addUser slug role).run server s).1 ∧
      (∀ text, SpeaksOfUniqueness (Fault.refused text).message ↔ SpeaksOfUniqueness text) ∧
      (∀ (store : Store) (m : Mutation) (g : Generator),
        m.IsPlain → (∀ name own, m = .transact name own → ¬own.GivesUp Table.taken) →
        (∃ request work g', m.Prepares g request work g') →
        timesOut (((m.procedure store).exchange g).run server s).2.2 = false →
        ((((m.procedure store).exchange g).run server s).1.1 = some (.error Table.taken) ↔
          ∃ sending ∈ ((m.procedure store).exchange g).sendings server s,
            IsDuplicate sending)) ∧
      ∀ (b : Backend) (base copy : List Record) (drawn : Nat),
        let answer :=
          ((leaseStep true (.issue owner material)).run b.server ⟨base, drawn, .inside copy⟩).1.1
        let violation? := b.rules.violation? copy
          (.ofBinds (b.rules.sequence drawn) [.owner, .key, .secret]
            (Statement.insertCredential owner material).binds)
        ((answer = .error Table.taken ↔ violation? = some (.unique .key)) ↔
            ∀ violation, violation? = some violation →
              (SpeaksOfUniqueness (b.rules.complaint violation) ↔ violation = .unique .key)) ∧
          (b.rules.IsPlain → (answer = .error Table.taken ↔
            copy.any (· .id = some (.int (b.rules.sequence drawn))) = true ∨
              copy.any (· .key = some (.text material.key.text)) = true)) := by
  refine ⟨tells_insert .., tells_addUser .., speaksOfUniqueness_refused, ?_,
    fun b base copy drawn => ⟨b.insert_eq_taken_iff_unique_iff base copy drawn owner material rfl,
      b.insert_eq_taken_iff_of_isPlain base copy drawn owner material⟩⟩
  rintro store m g hplain hno ⟨request, work, g', h⟩ htime
  exact h.eq_taken_iff hplain hno server store s htime

/-- **Conflicts may mislead.** Nobody has the access key "a", but a row has the number that is drawn
for the new one: whoever issues "a" is told that it exists. In German it is the other way round: "a"
is there, and what is told is a fault of the store. So it is with users. -/
theorem conflicts_may_mislead :
    let material : KeyMaterial := ⟨⟨"a", by decide⟩, ⟨[7]⟩⟩
    let server (number : Int64) (complaint : Violation → String) : Server Shelf :=
      Backend.server ⟨⟨fun _ => true, fun _ => number, complaint⟩, "", fun _ => 0,
        fun _ => .answer [] 0⟩
    let row (key : String) : Record := .ofBinds 1 [.owner, .key, .secret]
      [.int 1, .text key, .bytes [8]]
    let shelf (key : String) : Shelf := ⟨[row key], 0, .inside [row key]⟩
    let issued (number : Int64) (complaint : Violation → String) (key : String) :=
      ((leaseStep true (.issue ⟨1⟩ material)).run (server number complaint) (shelf key)).1.1
    let slug : Slug := ⟨"bob", by decide⟩
    let added (complaint : String) :=
      ((addUser slug .standard).run
        ⟨fun _ s => (⟨.fault (.refused complaint), 0⟩, s), fun _ s => s⟩ ()).1
    issued 1 Violation.inEnglish "b" = .error Table.taken ∧
      issued 2 Violation.inGerman "a" = .error (.storage "insert api key"
        ("error returned from database: doppelter Schlüsselwert verletzt " ++
          "Unique-Constraint »api_keys_access_key_key«")) ∧
      added "duplicate key value violates unique constraint \"users_pkey\"" =
        .error (Directory.taken slug) ∧
      added "doppelter Schlüsselwert verletzt Unique-Constraint »users_slug_key«" =
        .error (.storage "create user" ("error returned from database: doppelter " ++
          "Schlüsselwert verletzt Unique-Constraint »users_slug_key«")) := by
  intro material server row shelf issued slug added
  refine ⟨?_, ?_, ?_, ?_⟩
  · exact (Backend.insert_eq_taken_iff_of_isPlain _ _ _ _ _ _ (Rules.isPlain_inEnglish rfl)).mpr
      (Or.inl (by decide +kernel))
  · have hfault : ((server 2 Violation.inGerman).reply (.insertCredential ⟨1⟩ material)
        (shelf "a")).1.reception =
          .fault (.refused (Violation.inGerman (.unique .key))) :=
      (Backend.reply_insertCredential_eq_fault ..).mpr ⟨.unique .key, by decide +kernel, rfl⟩
    have hmessage : (Fault.refused (Violation.inGerman (.unique .key))).message =
        "error returned from database: doppelter Schlüsselwert verletzt " ++
          "Unique-Constraint »api_keys_access_key_key«" := by
      decide +kernel
    rw [← hmessage]
    exact (tells_insert ..).otherwise (congrArg Reception.number hfault) (by decide +kernel)
  · decide +kernel
  · decide +kernel

end KeyLifecycle
