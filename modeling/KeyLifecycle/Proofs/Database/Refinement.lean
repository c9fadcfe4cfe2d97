import KeyLifecycle.Proofs.Database.Backend
import KeyLifecycle.Proofs.Database.Mirror
import KeyLifecycle.Proofs.Store.Isolation

/-!
# The database does what memory does

A store may keep its credentials in memory or in a database, and whoever asks it cannot tell which:
the answers are the same, and so are the rows, but for the numbers of credentials
(`KeyLifecycle.database_mirrors_memory`).

What the queries do to rows that mirror a table is known (`Mirror`). From there it goes up in three
steps, each of which is a conversation of its own and a lemma about it:

* a *work* inside a transaction comes to its outcome, after so many statements (`Work.Yields`); an
  insert that is refused spoils the transaction, which makes no difference, as it is rolled back;
* a *request* comes to the same on both sides (`Corresponds`), since what is committed is what the
  work has left, and what is rolled back is what was there before it;
* a *task* draws its key material first, which is the same on both sides (`DoneAlike`).

The renumbering goes on from task to task, and each task is only sure of the numbers that there have
been so far. That is enough for the run, since no later number changes what an earlier answer or an
earlier row has been compared by (`Matches.congr`).
-/

namespace KeyLifecycle

open Database

variable {b : Backend} {slowest cost drawn drawn' : Nat} {limit : Span} {copy records : List Record}

/-! ### Work over a database -/

/-- **What comes of a work** in a transaction that sees some rows: whoever has patience for that
many statements, and for some more after them, goes on with the outcome, and with patience for
those. The rows outside the transaction make no difference. -/
def Work.Yields (b : Backend) (slowest cost : Nat) (work : Work Reply) (copy : List Record)
    (drawn : Nat) (outcome : Except Failure Reply) (mode : Mode) (drawn' : Nat) : Prop :=
  ∀ (late : Standing → Exchange (Except Failure Reply))
    (next : Standing → Except Failure Reply → Exchange (Except Failure Reply))
    (base : List Record) (left rest : Nat), (rest + cost) * slowest ≤ left →
    ∃ left', rest * slowest ≤ left' ∧
      (work.exchange late next ⟨true, some left⟩).play b.server ⟨base, drawn, .inside copy⟩ =
        (next ⟨true, some left'⟩ outcome).play b.server ⟨base, drawn', mode⟩

namespace Work

variable {f : Int64 → Int64} {t t' : Table} {most : Nat} {u : UserId} {key : AccessKey}
  {m : KeyMaterial} {row : Row} {c : Credential} {work : Work Reply}
  {outcome : Except Failure Reply} {mode : Mode}

/-- A number is read as it was sent. -/
theorem number_answer (n : Int64) : Reception.number (.answer [[.int n.toInt]] 1) = .ok n :=
  congrArg Except.ok (Int64.ofInt_toInt n)

section Steps

variable (hb : b.IsWithin slowest) (late : Standing → Exchange (Except Failure Reply))
  (next : Standing → Except Failure Reply → Exchange (Except Failure Reply)) {left rest : Nat}
  (hleft : (rest + 1) * slowest ≤ left) (s : Shelf)

include hb hleft

/-- To issue is one statement. -/
theorem play_issue (u : UserId) (m : KeyMaterial) :
    ∃ left', rest * slowest ≤ left' ∧
      let step := b.execute .issue (Statement.insertCredential u m).binds s
      ((issue u m).exchange late next ⟨true, some left⟩).play b.server s =
        (match step.1.number with
          | .ok id => next ⟨true, some left'⟩ (.ok (.issued ⟨⟨id⟩, u, m.key, m.secret, none⟩))
          | .error fault => next ⟨true, some left'⟩ (.error (insertFailure fault))).play
            b.server step.2 := by
  rw [issue, exchange, if_pos rfl, ← Backend.answer_insertCredential]
  exact Backend.play_send hb hleft true (.insertCredential u m) late _

/-- To revoke is one statement, and then what is done after it. -/
theorem play_revoke (u : UserId) (key : AccessKey) (work : Work Reply) :
    ∃ left', rest * slowest ≤ left' ∧
      let step := b.execute .revoke (Statement.deleteCredential u key).binds s
      ((revoke u key work).exchange late next ⟨true, some left⟩).play b.server s =
        (match step.1.hasEffect with
          | .ok found => Work.exchange late next (if found then work else .fail .credentialNotFound)
              ⟨true, some left'⟩
          | .error fault =>
            next ⟨true, some left'⟩ (.error (fault.failure "delete api key"))).play
              b.server step.2 := by
  rw [revoke, exchange, if_pos rfl, ← Backend.answer_deleteCredential]
  exact Backend.play_send hb hleft true (.deleteCredential u key) late _

end Steps

/-- To issue is to get the next number of the sequence. -/
theorem yields_issue_ok (h : Mirror b.rules f t copy drawn) (hr : b.rules.IsSound most)
    (hd : drawn < most) (hu : b.rules.isUser u.value = true) (hb : b.IsWithin slowest)
    (hi : t.insert u m = .ok (c, t')) :
    (issue u m).Yields b slowest 1 copy drawn
      (.ok ((Reply.issued c).stored (Mirror.next b.rules f t drawn)))
      (.inside (t'.rows.map (Row.record (Mirror.next b.rules f t drawn)))) (drawn + 1) := by
  intro late next base left rest hleft
  obtain ⟨left', hleft', hplay⟩ := play_issue hb late next hleft ⟨base, drawn, .inside copy⟩ u m
  refine ⟨left', hleft', ?_⟩
  rw [hplay, Backend.execute_inside (h.issue_ok hr hd hu hi)]
  obtain ⟨-, rfl, -⟩ := Table.insert_eq_ok.mp hi
  have hid : Mirror.next b.rules f t drawn (t.fresh u m).credential.id.value =
      b.rules.sequence drawn := Mirror.next_lastId b.rules f t drawn
  simp only [number_answer, Reply.stored, hid]
  rfl

/-- An access key that is there spoils the transaction. -/
theorem yields_issue_taken {cause : Failure} (h : Mirror b.rules f t copy drawn)
    (hr : b.rules.IsSound most) (hd : drawn < most) (hu : b.rules.isUser u.value = true)
    (hb : b.IsWithin slowest) (hi : t.insert u m = .error cause) :
    (issue u m).Yields b slowest 1 copy drawn (.error cause) .spoilt (drawn + 1) := by
  intro late next base left rest hleft
  obtain ⟨-, rfl⟩ := Table.insert_eq_error.mp hi
  obtain ⟨left', hleft', hplay⟩ := play_issue hb late next hleft ⟨base, drawn, .inside copy⟩ u m
  refine ⟨left', hleft', ?_⟩
  rw [hplay, Backend.execute_refused (h.issue_taken hr hd hu hi), ← hr.insertFailure_eq]
  rfl

/-- To revoke what is there is to go on without it. -/
theorem yields_revoke_some (h : Mirror b.rules f t copy drawn) (hb : b.IsWithin slowest)
    (hi : t.remove? u key = some (row, t'))
    (hw : work.Yields b slowest cost (t'.rows.map (Row.record f)) drawn outcome mode drawn') :
    (revoke u key work).Yields b slowest (cost + 1) copy drawn outcome mode drawn' := by
  intro late next base left rest hleft
  obtain ⟨⟨affected, hpos, hperform⟩, -⟩ := h.revoke_some hi
  obtain ⟨left₁, hleft₁, hplay⟩ :=
    play_revoke hb late next hleft ⟨base, drawn, .inside copy⟩ u key work
  obtain ⟨left₂, hleft₂, hwork⟩ := hw late next base left₁ rest hleft₁
  refine ⟨left₂, hleft₂, ?_⟩
  rw [hplay, Backend.execute_inside hperform, ← hwork]
  simp only [Reception.hasEffect, hpos, decide_true, if_true]

/-- To revoke what is not there is the end. -/
theorem yields_revoke_none (h : Mirror b.rules f t copy drawn) (hb : b.IsWithin slowest)
    (hi : t.remove? u key = none) :
    (revoke u key work).Yields b slowest 1 copy drawn (.error .credentialNotFound) (.inside copy)
      drawn := by
  intro late next base left rest hleft
  obtain ⟨left', hleft', hplay⟩ :=
    play_revoke hb late next hleft ⟨base, drawn, .inside copy⟩ u key work
  refine ⟨left', hleft', ?_⟩
  rw [hplay, Backend.execute_inside (h.revoke_none hi)]
  rfl

theorem yields_done (reply : Reply) :
    (done reply).Yields b slowest 0 copy drawn (.ok reply) (.inside copy) drawn :=
  fun _ _ _ left _ hleft => ⟨left, hleft, rfl⟩

end Work

/-! ### Requests over a database -/

namespace Request

variable {request : Request} {work : Work Reply} {mode : Mode}

/-- **A work that succeeds** is committed, whatever is reported of it. -/
theorem play_of_done {reply : Reply} (hw : request.work? = some work) (hb : b.IsWithin slowest)
    (hy : work.Yields b slowest cost records drawn (.ok reply) (.inside copy) drawn')
    (hlimit : (1 + cost + 1) * slowest ≤ limit) :
    (request.exchange (some limit)).play b.server ⟨records, drawn, .idle⟩ =
      (.ok reply, ⟨copy, drawn', .idle⟩) := by
  simp only [Request.exchange, hw, transaction]
  obtain ⟨left₁, hleft₁, hbegin⟩ := Backend.play_begin hb hlimit
  rw [hbegin]
  dsimp only
  rw [Exchange.play_report]
  obtain ⟨left₂, hleft₂, hwork⟩ := hy _ _ records left₁ 1 hleft₁
  rw [hwork]
  dsimp only
  obtain ⟨left₃, -, hcommit⟩ := Backend.play_commit (n := 0) hb (by simpa using hleft₂)
  rw [hcommit]
  dsimp only
  rw [Exchange.play_report, Exchange.play_foldr_report, Exchange.play_done]

/-- **A work that fails** is rolled back. -/
theorem play_of_fail {cause : Failure} (hw : request.work? = some work) (hb : b.IsWithin slowest)
    (hy : work.Yields b slowest cost records drawn (.error cause) mode drawn')
    (hlimit : (1 + cost + 1) * slowest ≤ limit) :
    (request.exchange (some limit)).play b.server ⟨records, drawn, .idle⟩ =
      (.error cause, ⟨records, drawn', .idle⟩) := by
  simp only [Request.exchange, hw, transaction]
  obtain ⟨left₁, hleft₁, hbegin⟩ := Backend.play_begin hb hlimit
  rw [hbegin]
  dsimp only
  rw [Exchange.play_report]
  obtain ⟨left₂, hleft₂, hwork⟩ := hy _ _ records left₁ 1 hleft₁
  rw [hwork]
  dsimp only
  rw [Exchange.play_report]
  obtain ⟨left₃, -, hrollback⟩ := Backend.play_rollback (n := 0) hb (by simpa using hleft₂) mode
  rw [hrollback]
  rfl

end Request

/-- **What comes of a request on both sides**: the same answer and the same rows, under a
renumbering that goes on from the one before. -/
structure Corresponds (b : Backend) (f : Int64 → Int64) (t : Table) (most : Nat)
    (f' : Int64 → Int64) (result : Except Failure Reply × Table)
    (result' : Except Failure Reply × Shelf) : Prop where
  answer : result'.1 = result.1.map (Reply.stored f')
  issued : ∀ c, result.1 = .ok (.issued c) → 1 ≤ c.id.value ∧ c.id.value ≤ result.2.lastId
  idle : result'.2.mode = .idle
  mirror : Mirror b.rules f' result.2 result'.2.records result'.2.drawn
  same : SameUpTo t.lastId f f'
  lastId : t.lastId ≤ result.2.lastId
  drawn : result'.2.drawn ≤ most

namespace Corresponds

variable {f : Int64 → Int64} {t t' : Table} {most : Nat} {u : UserId} {key : AccessKey}
  {m : KeyMaterial} {row : Row} {c : Credential}

/-- Where nothing is issued, the renumbering stays. -/
theorem of_plain {answer : Except Failure Reply} (h : Mirror b.rules f t' records drawn')
    (hid : t'.lastId = t.lastId) (hplain : ∀ c, answer ≠ .ok (.issued c)) :
    Corresponds b f t drawn' f (answer, t')
      (answer.map (Reply.stored f), ⟨records, drawn', .idle⟩) where
  answer := rfl
  issued c hc := absurd hc (hplain c)
  idle := rfl
  mirror := h
  same := .refl _ _
  lastId := hid ▸ Int64.le_refl _
  drawn := Nat.le_refl _

/-- Where something is issued, the renumbering goes on. -/
theorem of_insert (h : Mirror b.rules f t records drawn) (hr : b.rules.IsSound most)
    (hd : drawn < most) (hi : t.insert u m = .ok (c, t')) :
    let f' := Mirror.next b.rules f t drawn
    Corresponds b f t (drawn + 1) f' (.ok (.issued c), t')
      (.ok ((Reply.issued c).stored f'), ⟨t'.rows.map (Row.record f'), drawn + 1, .idle⟩) := by
  intro f'
  have hmirror := h.insert hr hd hi
  obtain ⟨-, rfl, rfl⟩ := Table.insert_eq_ok.mp hi
  refine ⟨rfl, ?_, rfl, hmirror, h.sameUpTo_next hr hd, Int64.le_of_lt (h.lastId_lt hr hd),
    Nat.le_refl _⟩
  intro c hc
  obtain rfl : (t.fresh u m).credential = c := by simpa using hc
  exact hmirror.numbered.bounds (List.mem_append_right _ (List.mem_singleton_self _))

theorem mono {most most' : Nat} {f' : Int64 → Int64} {result : Except Failure Reply × Table}
    {result' : Except Failure Reply × Shelf} (h : Corresponds b f t most f' result result')
    (hle : most ≤ most') : Corresponds b f t most' f' result result' :=
  { h with drawn := Nat.le_trans h.drawn hle }

/-- It matters only which numbers there were before. -/
theorem of_lastId {f' : Int64 → Int64} {result : Except Failure Reply × Table}
    {result' : Except Failure Reply × Shelf} (h : Corresponds b f t' most f' result result')
    (hid : t'.lastId = t.lastId) : Corresponds b f t most f' result result' :=
  { h with same := hid ▸ h.same, lastId := hid ▸ h.lastId }

/-! ### The requests of a store -/

section Requests

variable (h : Mirror b.rules f t records drawn) (hb : b.IsWithin slowest)
  (hlimit : 4 * slowest ≤ limit)

include h hb hlimit

theorem create (hr : b.rules.IsSound most) (hd : drawn < most)
    (hu : b.rules.isUser u.value = true) (m : KeyMaterial) :
    ∃ f', Corresponds b f t (drawn + 1) f' ((Request.create u m).perform {} t)
      (((Request.create u m).exchange (some limit)).play b.server ⟨records, drawn, .idle⟩) := by
  have hcost : (1 + 1 + 1) * slowest ≤ limit := by omega
  cases hi : t.insert u m with
  | error cause =>
    have hperform : (Request.create u m).perform {} t = (.error cause, t) := by
      simp [Request.perform_create, hi]
    rw [hperform, Request.play_of_fail rfl hb (Work.yields_issue_taken h hr hd hu hb hi) hcost]
    exact ⟨f, of_plain (h.mono (Nat.le_succ drawn)) rfl (by simp)⟩
  | ok result =>
    obtain ⟨c, t'⟩ := result
    have hperform : (Request.create u m).perform {} t = (.ok (.issued c), t') := by
      simp [Request.perform_create, hi]
    rw [hperform, Request.play_of_done rfl hb (Work.yields_issue_ok h hr hd hu hb hi) hcost]
    exact ⟨_, of_insert h hr hd hi⟩

theorem delete (u : UserId) (key : AccessKey) :
    ∃ f', Corresponds b f t drawn f' ((Request.delete u key).perform {} t)
      (((Request.delete u key).exchange (some limit)).play b.server ⟨records, drawn, .idle⟩) := by
  have hcost : (1 + 1 + 1) * slowest ≤ limit := by omega
  cases hi : t.remove? u key with
  | none =>
    have hperform : (Request.delete u key).perform {} t = (.error .credentialNotFound, t) := by
      simp [Request.perform_delete, hi]
    rw [hperform, Request.play_of_fail rfl hb (Work.yields_revoke_none h hb hi) hcost]
    exact ⟨f, of_plain h rfl (by simp)⟩
  | some result =>
    obtain ⟨row, t'⟩ := result
    have hperform : (Request.delete u key).perform {} t = (.ok .done, t') := by
      simp [Request.perform_delete, hi]
    obtain ⟨-, -, -, -, hid, -⟩ := Table.remove?_eq_some hi
    rw [hperform, Request.play_of_done rfl hb
      (Work.yields_revoke_some h hb hi (Work.yields_done .done)) hcost]
    exact ⟨f, of_plain (h.revoke_some hi).2 hid (by simp)⟩

/-- **To replace** is to revoke and then to issue; if either is refused, it comes to nothing on both
sides. -/
theorem rotate (hr : b.rules.IsSound most) (hd : drawn < most)
    (hu : b.rules.isUser u.value = true) (key : AccessKey) (m : KeyMaterial) :
    ∃ f', Corresponds b f t (drawn + 1) f' ((Request.rotate u key m).perform {} t)
      (((Request.rotate u key m).exchange (some limit)).play b.server
        ⟨records, drawn, .idle⟩) := by
  have hcost : (1 + 2 + 1) * slowest ≤ limit := by omega
  cases hi : t.remove? u key with
  | none =>
    have hperform : (Request.rotate u key m).perform {} t = (.error .credentialNotFound, t) := by
      simp [Request.perform_rotate, hi]
    have hcost : (1 + 1 + 1) * slowest ≤ limit := by omega
    rw [hperform, Request.play_of_fail rfl hb (Work.yields_revoke_none h hb hi) hcost]
    exact ⟨f, (of_plain h rfl (by simp)).mono (Nat.le_succ drawn)⟩
  | some result =>
    obtain ⟨row, rest⟩ := result
    obtain ⟨-, hrest⟩ := h.revoke_some hi
    obtain ⟨-, -, -, -, hid, -⟩ := Table.remove?_eq_some hi
    cases hi' : rest.insert u m with
    | error cause =>
      have hperform : (Request.rotate u key m).perform {} t = (.error cause, t) := by
        simp [Request.perform_rotate, Request.perform_create, hi, hi']
      rw [hperform, Request.play_of_fail rfl hb
        (Work.yields_revoke_some h hb hi (Work.yields_issue_taken hrest hr hd hu hb hi')) hcost]
      exact ⟨f, of_plain (h.mono (Nat.le_succ drawn)) rfl (by simp)⟩
    | ok result =>
      obtain ⟨c, t'⟩ := result
      have hperform : (Request.rotate u key m).perform {} t = (.ok (.issued c), t') := by
        simp [Request.perform_rotate, Request.perform_create, hi, hi']
      rw [hperform, Request.play_of_done rfl hb
        (Work.yields_revoke_some h hb hi (Work.yields_issue_ok hrest hr hd hu hb hi')) hcost]
      exact ⟨_, (of_insert hrest hr hd hi').of_lastId hid⟩

theorem list (u : UserId) :
    ∃ f', Corresponds b f t drawn f' ((Request.list u).perform {} t)
      (((Request.list u).exchange (some limit)).play b.server ⟨records, drawn, .idle⟩) := by
  have hcost : (0 + 1) * slowest ≤ limit := by omega
  have hperform : (Request.list u).perform {} t = (.ok (.summaries (t.summaries u)), t) := rfl
  obtain ⟨reception, hquery, hsummaries⟩ := h.ofOwner u
  obtain ⟨left, -, hplay⟩ := Backend.play_send (s := ⟨records, drawn, .idle⟩) hb hcost false
    (.listCredentials u) (Standing.cancel (Request.list u).operation (some limit))
    fun _ reception => .done (reception.summaries.map .summaries)
  refine ⟨f, ?_⟩
  rw [hperform]
  simp only [Request.exchange, Request.work?]
  rw [hplay, Backend.answer_listCredentials, Backend.execute_idle hquery, hsummaries]
  exact of_plain h rfl (by simp)

theorem stamp (key : AccessKey) (moment : Instant) :
    ∃ f', Corresponds b f t drawn f' ((Request.stamp key moment).perform {} t)
      (((Request.stamp key moment).exchange (some limit)).play b.server
        ⟨records, drawn, .idle⟩) := by
  have hcost : (0 + 1) * slowest ≤ limit := by omega
  obtain ⟨left, -, hplay⟩ := Backend.play_send (s := ⟨records, drawn, .idle⟩) hb hcost false
    (.stampCredential key moment)
    (Standing.cancel (Request.stamp key moment).operation (some limit)) fun _ reception =>
      .done ((reception.hasEffect.mapError
        (Fault.failure (Request.stamp key moment).operation)).map .found)
  refine ⟨f, ?_⟩
  simp only [Request.exchange, Request.work?]
  rw [hplay, Backend.answer_stampCredential]
  cases hs : t.stamp? key moment with
  | none =>
    have hperform : (Request.stamp key moment).perform {} t = (.ok (.found false), t) := by
      simp [Request.perform, Request.work?, hs]
    rw [hperform, Backend.execute_idle (h.stamp_none hs)]
    exact of_plain h rfl (by simp)
  | some t' =>
    have hperform : (Request.stamp key moment).perform {} t = (.ok (.found true), t') := by
      simp [Request.perform, Request.work?, hs]
    obtain ⟨⟨affected, hpos, hquery⟩, hmirror⟩ := h.stamp_some hs
    obtain ⟨-, rfl⟩ := Table.stamp?_eq_some.mp hs
    rw [hperform, Backend.execute_idle hquery]
    simp only [Reception.hasEffect, hpos, decide_true]
    exact of_plain hmirror rfl (by simp)

/-- **The request of a task** comes to the same on both sides, if the task is for a user. -/
theorem request {task : StoreTask} (htask : task ≠ .count) (hr : b.rules.IsSound most)
    (hd : task.draws = true → drawn < most)
    (hu : ∀ u ∈ task.owner?, b.rules.isUser u.value = true) (m : KeyMaterial) :
    ∃ f', Corresponds b f t (drawn + if task.draws then 1 else 0) f'
      ((task.request m).perform {} t)
      (((task.request m).exchange (some limit)).play b.server ⟨records, drawn, .idle⟩) := by
  cases task with
  | create u => exact create h hb hlimit hr (hd rfl) (hu u rfl) m
  | list u => exact list h hb hlimit u
  | delete u key => exact delete h hb hlimit u key
  | rotate u key => exact rotate h hb hlimit hr (hd rfl) (hu u rfl) key m
  | stamp key moment => exact stamp h hb hlimit key moment
  | count => exact absurd rfl htask

end Requests

end Corresponds

/-! ### Tasks in a session and over a database -/

/-- An answer from memory and what comes of the same task over the database. There is no answer if
the source of key material breaks down, and then on neither side. -/
inductive SameAnswer (f : Int64 → Int64) (most : Int64) :
    Progress (Except Failure Reply) → Option (Except Failure Reply) → Prop
  | answered (answer : Except Failure Reply)
      (hid : ∀ c, answer = .ok (.issued c) → 1 ≤ c.id.value ∧ c.id.value ≤ most) :
    SameAnswer f most (.finished answer) (some (answer.map (Reply.stored f)))
  | crashed : SameAnswer f most .crashed none

/-- **A session and a database hold the same rows**, and nothing is going on in either. -/
structure Alike (b : Backend) (f : Int64 → Int64) (s : Session) (shelf : Shelf) : Prop where
  free : s.vault.lock = .free
  plan : s.vault.plan = {}
  idle : shelf.mode = .idle
  mirror : Mirror b.rules f s.vault.table shelf.records shelf.drawn

/-- **What is left of a task on both sides**: the same answer and the same rows, under a renumbering
that goes on from the one before, and the same source of key material. -/
structure DoneAlike (b : Backend) (f : Int64 → Int64) (t : Table) (most : Nat) (f' : Int64 → Int64)
    (r : Progress (Except Failure Reply) × Session)
    (r' : (Option (Except Failure Reply) × Generator) × Shelf) : Prop where
  answer : SameAnswer f' r.2.vault.table.lastId r.1 r'.1.1
  generator : r'.1.2 = r.2.generator
  alike : Alike b f' r.2 r'.2
  same : SameUpTo t.lastId f f'
  lastId : t.lastId ≤ r.2.vault.table.lastId
  drawn : r'.2.drawn ≤ most

namespace StoreTask

variable {task : StoreTask}

theorem isBrisk_request (htask : task ≠ .count) (m : KeyMaterial) : (task.request m).IsBrisk := by
  cases task with
  | stamp key moment => exact ⟨by simp [request], by simp [request, Request.work?]⟩
  | count => exact absurd rfl htask
  | _ => exact (request_isOf rfl m).isBrisk

theorem price_request_le (htask : task ≠ .count) (m : KeyMaterial) (plan : FailurePlan)
    (t : Table) : (task.request m).price plan t ≤ Session.allowance := by
  cases task with
  | stamp key moment =>
    rw [Session.allowance]
    simp [request, Request.price, Request.entryPrice, Request.work?]
  | count => exact absurd rfl htask
  | _ => exact (request_isOf rfl m).price_le plan t

theorem limit?_of_ne_count (htask : task ≠ .count) (store : Store) :
    task.limit? store = some store.limit := by
  cases task with
  | count => exact absurd rfl htask
  | _ => rfl

end StoreTask

namespace Alike

variable {f : Int64 → Int64} {s : Session} {shelf : Shelf} {task : StoreTask} {store : Store}
  {patience : Span} {most : Nat}

/-- Nothing is asked of either side if there is no key material. -/
theorem doneAlike_of_idle (h : Alike b f s shelf) {p : Progress (Except Failure Reply)}
    {answer : Option (Except Failure Reply)} (hp : SameAnswer f s.vault.table.lastId p answer)
    (g : Generator) (hle : shelf.drawn ≤ most) :
    DoneAlike b f s.vault.table most f (p, { s with generator := g }) ((answer, g), shelf) :=
  ⟨hp, rfl, ⟨h.free, h.plan, h.idle, h.mirror⟩, .refl _ _, Int64.le_refl _, hle⟩

section Task

variable (h : Alike b f s shelf) (hr : b.rules.IsSound most) (hb : b.IsWithin slowest)
  (hlimit : 4 * slowest ≤ store.limit) (hpos : store.limit ≠ 0) (hpatience : patience ≠ 0)
  (htask : task ≠ .count) (hd : task.draws = true → shelf.drawn < most)
  (hu : ∀ u ∈ task.owner?, b.rules.isUser u.value = true)

include h hr hb hlimit hpos hpatience htask hd hu

/-- What becomes of the request of a task on both sides. -/
theorem ask (m : KeyMaterial) (g : Generator) :
    ∃ f', DoneAlike b f s.vault.table (shelf.drawn + if task.draws then 1 else 0) f'
      ({ s with generator := g }.perform (.ask (task.request m) (some store.limit) .done) patience)
      ((Procedure.exchange (.ask (task.request m) (some store.limit) .done) g).play b.server
        shelf) := by
  obtain ⟨v, hperform, htable, hplan, hlock⟩ :=
    Session.perform_alone (s := { s with generator := g }) (StoreTask.isBrisk_request htask m)
      h.free (StoreTask.price_request_le htask m _ _) (some store.limit) patience
  have hunhurried : some store.limit ≠ some 0 ∧ patience ≠ 0 := ⟨by simpa using hpos, hpatience⟩
  obtain ⟨hanswer, hfate⟩ := Request.fate_of_unhurried hunhurried (task.request m) s.vault.plan
    s.vault.table s.left
  obtain ⟨records, drawn, mode⟩ := shelf
  obtain rfl : mode = .idle := h.idle
  obtain ⟨f', hc⟩ := Corresponds.request h.mirror hb hlimit htask hr hd hu m
  refine ⟨f', ?_⟩
  have ht : v.table = ((task.request m).perform {} s.vault.table).2 :=
    htable.trans (hfate.trans (by rw [h.plan]))
  rw [hperform, Procedure.exchange, Exchange.play_bind, Procedure.exchange, Exchange.play_done,
    Fate.progress, hanswer, h.plan, hc.answer]
  refine ⟨.answered _ ?_, rfl, ⟨hlock, hplan.trans h.plan, hc.idle, ?_⟩, hc.same, ?_, hc.drawn⟩
  · simpa only [ht] using hc.issued
  · simpa only [ht] using hc.mirror
  · simpa only [ht] using hc.lastId

/-- **What becomes of a task on both sides.** -/
theorem perform :
    ∃ f', DoneAlike b f s.vault.table (shelf.drawn + if task.draws then 1 else 0) f'
      (s.perform (task.procedure store) patience)
      (((task.procedure store).exchange s.generator).play b.server shelf) := by
  have hask := h.ask hr hb hlimit hpos hpatience htask hd hu
  cases hdraws : task.draws with
  | false =>
    have hmaterial : KeyMaterial := ⟨⟨"k", by decide⟩, ⟨[]⟩⟩
    rw [StoreTask.procedure_of_not_draws hdraws store hmaterial,
      StoreTask.limit?_of_ne_count htask]
    simpa only [hdraws] using hask hmaterial s.generator
  | true =>
    have hidle : shelf.drawn ≤ shelf.drawn + if true then 1 else 0 := Nat.le_add_right _ _
    rw [StoreTask.procedure_of_draws hdraws]
    rcases hg : s.generator.generate with ⟨m | cause | _, next⟩
    · rw [Session.perform_drawing hg, Procedure.drawing, Procedure.exchange, hg]
      simpa only [hdraws] using hask m next
    · rw [Session.perform_of_run (Procedure.run_drawing_of_failed hg) rfl, Procedure.drawing,
        Procedure.exchange, hg]
      exact ⟨f, h.doneAlike_of_idle (.answered (.error cause) (by simp)) next hidle⟩
    · rw [Session.perform_of_run (Procedure.run_drawing_of_breakdown hg) rfl, Procedure.drawing,
        Procedure.exchange, hg]
      exact ⟨f, h.doneAlike_of_idle .crashed next hidle⟩

end Task

end Alike

/-! ### Many tasks -/

/-- **What is left of a call on both sides**: the same answer and the same rows in the same order,
but for the numbers of credentials, which correspond. -/
structure Matches (f : Int64 → Int64) (most : Int64)
    (r : Progress (Except Failure Reply) × Session)
    (r' : Option (Except Failure Reply) × Shelf) : Prop where
  answer : SameAnswer f most r.1 r'.1
  rows : r'.2.records = r.2.vault.table.rows.map (Row.record f)
  idle : r'.2.mode = .idle
  ids : ∀ row ∈ r.2.vault.table.rows, 1 ≤ row.id.value ∧ row.id.value ≤ most

variable {f g : Int64 → Int64} {last last' : Int64}

theorem Reply.stored_congr (h : SameUpTo last f g) {answer : Except Failure Reply}
    (hid : ∀ c, answer = .ok (.issued c) → 1 ≤ c.id.value ∧ c.id.value ≤ last) :
    answer.map (Reply.stored f) = answer.map (Reply.stored g) := by
  rcases answer with cause | reply
  · rfl
  · cases reply with
    | issued c =>
      obtain ⟨hone, hle⟩ := hid c rfl
      simp [Except.map, stored, h _ hone hle]
    | _ => rfl

/-- A renumbering that goes on leaves what has been numbered as it is. -/
theorem Matches.congr {r : Progress (Except Failure Reply) × Session}
    {r' : Option (Except Failure Reply) × Shelf} (h : Matches f last r r')
    (hsame : SameUpTo last f g) (hle : last ≤ last') : Matches g last' r r' where
  answer := by
    obtain ⟨hanswer, -, -, -⟩ := h
    obtain ⟨p, s⟩ := r
    obtain ⟨a, shelf⟩ := r'
    cases hanswer with
    | answered answer hid =>
      rw [Reply.stored_congr hsame hid]
      exact .answered answer fun c hc => ⟨(hid c hc).1, Int64.le_trans (hid c hc).2 hle⟩
    | crashed => exact .crashed
  rows := by
    rw [h.rows]
    refine List.map_congr_left fun row hrow => Row.record_congr ?_
    exact hsame _ (h.ids row hrow).1 (h.ids row hrow).2
  idle := h.idle
  ids row hrow := ⟨(h.ids row hrow).1, Int64.le_trans (h.ids row hrow).2 hle⟩

theorem DoneAlike.toMatches {t : Table} {most : Nat}
    {r : Progress (Except Failure Reply) × Session}
    {r' : (Option (Except Failure Reply) × Generator) × Shelf} (h : DoneAlike b f t most g r r') :
    Matches g r.2.vault.table.lastId r (r'.1.1, r'.2) where
  answer := h.answer
  rows := h.alike.mirror.rows
  idle := h.alike.idle
  ids _ hrow := h.alike.mirror.numbered.bounds hrow

/-- **Many calls on both sides.** -/
theorem Alike.serve {s : Session} {shelf : Shelf} {store : Store}
    {calls : List (StoreTask × Span)} {most : Nat} (h : Alike b f s shelf)
    (hr : b.rules.IsSound most) (hb : b.IsWithin slowest) (hlimit : 4 * slowest ≤ store.limit)
    (hpos : store.limit ≠ 0) (hdraws : shelf.drawn + Session.draws calls ≤ most)
    (hcalls : ∀ c ∈ calls, c.1 ≠ .count ∧ c.2 ≠ 0 ∧
      ∀ u ∈ c.1.owner?, b.rules.isUser u.value = true) :
    ∃ g last, SameUpTo s.vault.table.lastId f g ∧ s.vault.table.lastId ≤ last ∧
      KeepsOrder g last ∧
      List.Forall₂ (Matches g last) (Session.serve store calls s)
        (b.serve store (calls.map (·.1)) s.generator shelf) := by
  induction calls generalizing s shelf f with
  | nil => exact ⟨f, _, .refl _ _, Int64.le_refl _, h.mirror.keepsOrder, .nil⟩
  | cons c calls ih =>
    obtain ⟨task, patience⟩ := c
    obtain ⟨htask, hpatience, hu⟩ := hcalls _ List.mem_cons_self
    have hcount : Session.draws ((task, patience) :: calls) =
        Session.draws calls + if task.draws then 1 else 0 := by
      rw [Session.draws, List.countP_cons]
      rfl
    have hd : task.draws = true → shelf.drawn < most := by
      intro hd
      rw [hcount, if_pos hd] at hdraws
      omega
    obtain ⟨f₁, hone⟩ : ∃ f₁, DoneAlike b f s.vault.table
        (shelf.drawn + if task.draws then 1 else 0) f₁
        (s.perform (task.procedure store) patience)
        (((task.procedure store).exchange s.generator).play b.server shelf) :=
      h.perform hr hb hlimit hpos hpatience htask hd hu
    -- the rest is done with what is left on both sides
    have hrest := hone.drawn
    obtain ⟨g, last, hsame, hle, hkeeps, hall⟩ := ih hone.alike (by omega)
      (fun c hc => hcalls c (List.mem_cons_of_mem _ hc))
    refine ⟨g, last, hone.same.trans hsame hone.lastId, Int64.le_trans hone.lastId hle, hkeeps, ?_⟩
    refine .cons (hone.toMatches.congr hsame hle) ?_
    rw [← hone.generator] at hall
    exact hall

/-- **A database stands in for memory.** Take a server that executes statements by their meaning and
is quick enough for the four statements of the longest request to be answered within the limit. Any
tasks of users are done one after the other, and nobody who waits for an answer gives up at once: by
a session that begins with an empty table, where nothing is to fail, and over that server with an
empty table; the key material is the same. Then each task is answered the same on both sides, and
after each of them both hold the same rows in the same order, with moments in whole microseconds.
The numbers of credentials correspond by one renumbering for all of it, which keeps their order. -/
theorem database_mirrors_memory {b : Backend} {store : Store} {calls : List (StoreTask × Span)}
    {s : Session} (hsound : b.rules.IsSound (Session.draws calls))
    (hquick : ∀ statement, 4 * b.delay statement < store.limit)
    (hcalls : ∀ c ∈ calls, c.1 ≠ .count ∧ c.2 ≠ 0 ∧
      ∀ u ∈ c.1.owner?, b.rules.isUser u.value = true)
    (hfree : s.vault.lock = .free) (hplan : s.vault.plan = {}) (hempty : s.vault.table = .empty) :
    ∃ f last, KeepsOrder f last ∧
      List.Forall₂ (Matches f last) (Session.serve store calls s)
        (b.serve store (calls.map (·.1)) s.generator ⟨[], 0, .idle⟩) := by
  have hpos : 0 < store.limit := Nat.lt_of_le_of_lt (Nat.zero_le _) (hquick .begin)
  have hwithin : b.IsWithin ((store.limit - 1) / 4) := by
    intro statement
    have hone : b.delay statement * 4 ≤ store.limit - 1 :=
      Nat.le_sub_one_of_lt (Nat.mul_comm .. ▸ hquick statement)
    exact (Nat.le_div_iff_mul_le (by decide)).mpr hone
  have hlimit : 4 * ((store.limit - 1) / 4) ≤ store.limit :=
    Nat.le_trans (Nat.mul_div_le _ _) (Nat.sub_le _ _)
  have halike : Alike b id s ⟨[], 0, .idle⟩ :=
    ⟨hfree, hplan, rfl, hempty ▸ Mirror.empty b.rules id 0⟩
  obtain ⟨f, last, -, -, hkeeps, hall⟩ := halike.serve hsound hwithin hlimit (Nat.ne_of_gt hpos)
    (Nat.le_of_eq (Nat.zero_add _)) hcalls
  exact ⟨f, last, hkeeps, hall⟩

/-- A key is issued, is drawn a second time in vain, is replaced by another one, which is used, and
listed. The number that was drawn in vain is lost to the database alone. -/
theorem database_mirrors_memory_conflict_rotate_stamp :
    let a : KeyMaterial := ⟨⟨"a", by decide⟩, ⟨[1]⟩⟩
    let c : KeyMaterial := ⟨⟨"c", by decide⟩, ⟨[2]⟩⟩
    let rules : Rules := ⟨(· = 1), fun k => 7 * Int64.ofNat k + 5, fun
      | .unique _ => "duplicate key value violates unique constraint"
      | _ => "new row violates a constraint"⟩
    let b : Backend := ⟨rules, "current transaction is aborted", fun _ => 2, fun _ => .answer [] 0⟩
    let s : Session := .start .empty (.scripted [.ok a, .ok a, .ok c])
    let calls : List (StoreTask × Span) :=
      [(.create ⟨1⟩, 9), (.create ⟨1⟩, 9), (.rotate ⟨1⟩ a.key, 9),
        (.stamp c.key ⟨5, 1234567⟩, 9), (.list ⟨1⟩, 9)]
    let results := b.serve ⟨9⟩ (calls.map (·.1)) s.generator ⟨[], 0, .idle⟩
    (∃ f last, KeepsOrder f last ∧
      List.Forall₂ (Matches f last) (Session.serve ⟨9⟩ calls s) results) ∧
    results.map (fun r => r.2.records.map fun record =>
        [record .id, record .key, record .lastAuth]) =
      [[[some (.int 5), some (.text "a"), none]], [[some (.int 5), some (.text "a"), none]],
        [[some (.int 19), some (.text "c"), none]],
        [[some (.int 19), some (.text "c"), some (.moment 5001235)]],
        [[some (.int 19), some (.text "c"), some (.moment 5001235)]]] := by
  intro a c rules b s calls results
  have hincreasing : ∀ k < 3, ∀ j < k, rules.sequence j < rules.sequence k := by decide
  have hsound : b.rules.IsSound (Session.draws calls) :=
    ⟨by decide, fun j k hjk hk => hincreasing k hk j hjk, by decide +kernel⟩
  have hcalls : ∀ c ∈ calls, c.1 ≠ .count ∧ c.2 ≠ 0 ∧
      ∀ u ∈ c.1.owner?, b.rules.isUser u.value = true := by
    simp [calls, b, rules, StoreTask.owner?]
  refine ⟨database_mirrors_memory hsound (fun _ => (by decide : 4 * 2 < 9)) hcalls rfl rfl rfl, ?_⟩
  decide +kernel

end KeyLifecycle
