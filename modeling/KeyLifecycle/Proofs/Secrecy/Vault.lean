import KeyLifecycle.Proofs.Secrecy.Blind
import KeyLifecycle.Store.Vault.Poll
import Mathlib.Data.List.Forall2

/-!
# Vaults that differ in their secrets at most

Two vaults are `Vault.Alike` if they differ in their secrets at most: in those of their rows and of
the copies that are open, in the key material of requests and works, and in the credentials that
have been issued. They have reported the same events. Work that has been issued a credential may
hand it on, but what it does next is the same up to secrets (`Work.Alike`).

Whatever is done to both leaves them alike. The one thing to see is that every choice that a vault
makes – whether a call goes on, what its work comes to, what it is answered, what is reported – is
the same on both sides; `KeyLifecycle.Vault.Alike.step` goes through the phases of a call, and all
else is made of steps.
-/

namespace KeyLifecycle

/-! ### What may differ -/

/-- **Works that do the same up to secrets**, whatever secrets they are issued. -/
inductive Work.Alike : Work Reply → Work Reply → Prop
  | done {r r' : Reply} (h : r.blind = r'.blind) : Alike (.done r) (.done r')
  | fail (cause : Failure) : Alike (.fail cause) (.fail cause)
  | insert (owner : UserId) {m m' : KeyMaterial} {next next' : Credential → Work Reply}
      (hm : m.blind = m'.blind)
      (hn : ∀ c c' : Credential, c.blind = c'.blind → Alike (next c) (next' c')) :
    Alike (.insert owner m next) (.insert owner m' next')
  | delete (owner : UserId) (key : AccessKey) {next next' : Bool → Work Reply}
      (hn : ∀ yes, Alike (next yes) (next' yes)) :
    Alike (.delete owner key next) (.delete owner key next')
  | commit {next next' : Work Reply} (hn : Alike next next') : Alike (.commit next) (.commit next')
  | rollback {next next' : Work Reply} (hn : Alike next next') :
    Alike (.rollback next) (.rollback next')
  | pause (duration : Span) {next next' : Work Reply} (hn : Alike next next') :
    Alike (.pause duration next) (.pause duration next')

/-- Requests that ask for the same up to secrets. -/
inductive Request.Alike : Request → Request → Prop
  | create (owner : UserId) {m m' : KeyMaterial} (h : m.blind = m'.blind) :
    Alike (.create owner m) (.create owner m')
  | delete (owner : UserId) (key : AccessKey) : Alike (.delete owner key) (.delete owner key)
  | rotate (owner : UserId) (key : AccessKey) {m m' : KeyMaterial} (h : m.blind = m'.blind) :
    Alike (.rotate owner key m) (.rotate owner key m')
  | unit (name : String) {work work' : Work Reply} (h : work.Alike work') :
    Alike (.unit name work) (.unit name work')
  | list (owner : UserId) : Alike (.list owner) (.list owner)
  | stamp (key : AccessKey) (moment : Instant) : Alike (.stamp key moment) (.stamp key moment)
  | count : Alike .count .count
  | lease : Alike .lease .lease

/-- Answers that are the same up to secrets: the same failure, or replies that are the same. -/
def AnswersAlike (a a' : Except Failure Reply) : Prop := a.map Reply.blind = a'.map Reply.blind

/-- Calls that have come to the same up to secrets. -/
inductive Phase.Alike : Phase → Phase → Prop
  | checking : Alike .checking .checking
  | asking : Alike .asking .asking
  | waiting : Alike .waiting .waiting
  | working {work work' : Work Reply} {h h' : Handle} (hw : work.Alike work')
      (hh : h.blind = h'.blind) : Alike (.working work h) (.working work' h')
  | paused (wake : Nat) {work work' : Work Reply} {h h' : Handle} (hw : work.Alike work')
      (hh : h.blind = h'.blind) : Alike (.paused wake work h) (.paused wake work' h')
  | resting {a a' : Except Failure Reply} {h h' : Handle} (ha : AnswersAlike a a')
      (hh : h.blind = h'.blind) : Alike (.resting a h) (.resting a' h')
  | answered {a a' : Except Failure Reply} (ha : AnswersAlike a a') :
    Alike (.answered a) (.answered a')
  | dropped : Alike .dropped .dropped

/-- Calls that differ in secrets at most. -/
structure Call.Alike (c d : Call) : Prop where
  request : c.request.Alike d.request
  started : c.started = d.started
  limit : c.limit = d.limit
  phase : c.phase.Alike d.phase

/-- **Vaults that differ in secrets at most.** -/
structure Vault.Alike (v w : Vault) : Prop where
  table : v.table.blind = w.table.blind
  plan : v.plan = w.plan
  lock : v.lock = w.lock
  calls : List.Forall₂ Call.Alike v.calls w.calls
  now : v.now = w.now
  log : v.log = w.log

/-! ### Requests -/

/-- To issue a credential and to hand it on. -/
theorem Work.alike_issue (owner : UserId) {m m' : KeyMaterial} (hm : m.blind = m'.blind) :
    (issue owner m).Alike (issue owner m') := by
  refine .insert owner hm fun c c' hc => .done ?_
  rw [Reply.blind, Reply.blind, hc]

theorem Request.audit_blind (r : Request) (reply : Reply) :
    r.audit reply.blind = r.audit reply := by
  cases r <;> cases reply <;> rfl

namespace Request.Alike

variable {r r' : Request}

theorem operation (h : r.Alike r') : r.operation = r'.operation := by
  cases h <;> rfl

theorem firstPhase (h : r.Alike r') : r.firstPhase.Alike r'.firstPhase := by
  cases h <;> first | exact .checking | exact .asking

/-- The works of requests that are alike are alike, and so are those that have none. -/
theorem work? (h : r.Alike r') :
    (r.work? = none ∧ r'.work? = none ∧ r = r') ∨
      ∃ work work', r.work? = some work ∧ r'.work? = some work' ∧ work.Alike work' := by
  have revoke (owner : UserId) (key : AccessKey) {next next' : Work Reply}
      (hn : next.Alike next') :
      (Work.revoke owner key next).Alike (Work.revoke owner key next') := by
    refine .delete owner key fun yes => ?_
    cases yes with
    | true => exact hn
    | false => exact .fail _
  cases h with
  | create owner hm => exact Or.inr ⟨_, _, rfl, rfl, Work.alike_issue owner hm⟩
  | delete owner key => exact Or.inr ⟨_, _, rfl, rfl, revoke owner key (.done rfl)⟩
  | rotate owner key hm =>
    exact Or.inr ⟨_, _, rfl, rfl, revoke owner key (Work.alike_issue owner hm)⟩
  | unit name hw => exact Or.inr ⟨_, _, rfl, rfl, hw⟩
  | _ => exact Or.inl ⟨rfl, rfl, rfl⟩

/-- **What is reported of a request has no secret in it.** -/
theorem audit (h : r.Alike r') {reply reply' : Reply} (hr : reply.blind = reply'.blind) :
    r.audit reply = r'.audit reply' := by
  rw [← audit_blind r reply, hr, audit_blind]
  cases h <;> cases reply' <;> rfl

end Request.Alike

/-! ### Calls -/

namespace Call.Alike

variable {c d : Call}

theorem deadline? (h : c.Alike d) : c.deadline? = d.deadline? := by
  rw [Call.deadline?, Call.deadline?, h.limit, h.started]

theorem isDue (h : c.Alike d) (now : Nat) : c.isDue now = d.isDue now := by
  rw [Call.isDue, Call.isDue, h.deadline?]

theorem isRunning (h : c.Alike d) : c.isRunning = d.isRunning := by
  rw [Call.isRunning, Call.isRunning]
  have hp := h.phase
  generalize c.phase = p, d.phase = q at hp ⊢
  cases hp <;> rfl

theorem isLive (h : c.Alike d) : c.isLive = d.isLive := by
  rw [Call.isLive, Call.isLive]
  have hp := h.phase
  generalize c.phase = p, d.phase = q at hp ⊢
  cases hp <;> rfl

theorem next? (h : c.Alike d) : c.next? = d.next? := by
  rw [Call.next?, Call.next?, h.deadline?]
  have hp := h.phase
  generalize c.phase = p, d.phase = q at hp ⊢
  cases hp <;> rfl

/-- Calls that are alike have no answer, or answers that are alike. -/
theorem answer? (h : c.Alike d) :
    (c.answer? = none ∧ d.answer? = none) ∨
      ∃ a a', c.answer? = some a ∧ d.answer? = some a' ∧ AnswersAlike a a' := by
  rw [Call.answer?, Call.answer?]
  have hp := h.phase
  generalize c.phase = p, d.phase = q at hp ⊢
  cases hp with
  | resting ha _ => exact Or.inr ⟨_, _, rfl, rfl, ha⟩
  | answered ha => exact Or.inr ⟨_, _, rfl, rfl, ha⟩
  | _ => exact Or.inl ⟨rfl, rfl⟩

end Call.Alike

/-! ### Moves -/

namespace Vault.Alike

variable {v w : Vault} {i : Nat}

theorem length (h : v.Alike w) : v.calls.length = w.calls.length := h.calls.length_eq

/-- A call is there on both sides or on neither. -/
theorem call (h : v.Alike w) (i : Nat) :
    (v.calls[i]? = none ∧ w.calls[i]? = none) ∨
      ∃ c d, v.calls[i]? = some c ∧ w.calls[i]? = some d ∧ c.Alike d := by
  rcases Nat.lt_or_ge i v.calls.length with hi | hi
  · have hi' : i < w.calls.length := by rwa [← h.length]
    exact Or.inr ⟨v.calls[i], w.calls[i], List.getElem?_eq_getElem hi, List.getElem?_eq_getElem hi',
      h.calls.get hi hi'⟩
  · have hi' : w.calls.length ≤ i := by rwa [← h.length]
    exact Or.inl ⟨List.getElem?_eq_none hi, List.getElem?_eq_none hi'⟩

theorem note (h : v.Alike w) (event : Event) : (v.note event).Alike (w.note event) :=
  ⟨h.table, h.plan, h.lock, h.calls, h.now, by rw [Vault.note, Vault.note, h.log]⟩

theorem notes (h : v.Alike w) (events : List Event) : (v.notes events).Alike (w.notes events) :=
  ⟨h.table, h.plan, h.lock, h.calls, h.now, by rw [Vault.notes, Vault.notes, h.log]⟩

theorem release (h : v.Alike w) (i : Nat) : (v.release i).Alike (w.release i) :=
  ⟨h.table, h.plan, by rw [Vault.release, Vault.release, h.lock], h.calls, h.now, h.log⟩

theorem publish (h : v.Alike w) (i : Nat) {t t' : Table} (ht : t.blind = t'.blind) :
    (v.publish i t).Alike (w.publish i t') := by
  have htable : Vault.Alike { v with table := t } { w with table := t' } :=
    ⟨ht, h.plan, h.lock, h.calls, h.now, h.log⟩
  exact htable.release i

theorem setPlan (h : v.Alike w) (plan : FailurePlan) : (v.setPlan plan).Alike (w.setPlan plan) :=
  ⟨h.table, rfl, h.lock, h.calls, h.now, h.log⟩

theorem setPhase (h : v.Alike w) (i : Nat) {p q : Phase} (hp : p.Alike q) :
    (v.setPhase i p).Alike (w.setPhase i q) := by
  refine ⟨h.table, h.plan, h.lock, ?_, h.now, h.log⟩
  have hcalls := h.calls
  rw [Vault.setPhase, Vault.setPhase]
  dsimp only
  generalize v.calls = cs at hcalls
  generalize w.calls = ds at hcalls
  induction hcalls generalizing i with
  | nil => simp
  | cons hc hrest ih =>
    cases i with
    | zero =>
      refine .cons ?_ hrest
      exact ⟨hc.request, hc.started, hc.limit, hp⟩
    | succ i => exact .cons hc (ih i)

theorem settle (h : v.Alike w) (i : Nat) {a a' : Except Failure Reply} (ha : AnswersAlike a a') :
    (v.settle i a).Alike (w.settle i a') :=
  h.setPhase i (.answered ha)

theorem start (h : v.Alike w) {r r' : Request} (hr : r.Alike r') (limit : Option Span) :
    (v.start r limit).Alike (w.start r' limit) := by
  refine ⟨h.table, h.plan, h.lock, ?_, h.now, h.log⟩
  exact List.rel_append h.calls (.cons ⟨hr, h.now, rfl, hr.firstPhase⟩ .nil)

theorem check (h : v.Alike w) (i : Nat) : (v.check i).Alike (w.check i) := by
  rw [Vault.check, Vault.check, h.plan]
  split
  · exact h.settle i rfl
  · exact h.setPhase i .asking

theorem ask (h : v.Alike w) (i : Nat) : (v.ask i).Alike (w.ask i) := by
  have hlock : Vault.Alike { v with lock := v.lock.request i }
      { w with lock := w.lock.request i } :=
    ⟨h.table, h.plan, by rw [h.lock], h.calls, h.now, h.log⟩
  exact hlock.setPhase i .waiting

/-- **A look at the table shows no secret**, and a transaction begins with copies that are alike. -/
theorem enter (h : v.Alike w) (i : Nat) {r r' : Request} (hr : r.Alike r') :
    (v.enter i r).Alike (w.enter i r') := by
  rcases hr.work? with ⟨hw, hw', rfl⟩ | ⟨work, work', hw, hw', hwork⟩
  · cases r with
    | list owner =>
      have hs : v.table.summaries owner = w.table.summaries owner := by
        rw [← Table.summaries_blind, h.table, Table.summaries_blind]
      exact (h.release i).settle i (by rw [hs, AnswersAlike])
    | stamp key moment =>
      -- the row is found by its key, so on both sides or on neither
      have hs : (v.table.stamp? key moment).map Table.blind =
          (w.table.stamp? key moment).map Table.blind := by
        rw [← Table.stamp?_blind, h.table, Table.stamp?_blind]
      simp only [Vault.enter, Request.work?]
      cases hv : v.table.stamp? key moment with
      | none =>
        rw [hv] at hs
        rw [Option.map_eq_none_iff.mp hs.symm]
        exact (h.release i).settle i rfl
      | some t =>
        rw [hv] at hs
        obtain ⟨t', ht', hb⟩ := Option.map_eq_some_iff.mp hs.symm
        rw [ht']
        exact (h.publish i hb.symm).settle i rfl
    | count =>
      have hs : v.table.rows.length = w.table.rows.length := by
        rw [← Table.length_blind, h.table, Table.length_blind]
      exact (h.release i).settle i (by rw [hs, AnswersAlike])
    | lease =>
      refine h.setPhase i (.resting rfl ?_)
      rw [Handle.opened, Handle.opened, Handle.blind, Handle.blind, h.table]
    | _ => simp [Request.work?] at hw
  · unfold Vault.enter
    rw [hw, hw', hr.operation]
    refine (h.note _).setPhase i (.working hwork ?_)
    rw [Handle.opened, Handle.opened, Handle.blind, Handle.blind, h.table]

theorem succeed (h : v.Alike w) (i : Nat) {r r' : Request} (hr : r.Alike r') {reply reply' : Reply}
    (hy : reply.blind = reply'.blind) {handle handle' : Handle}
    (hh : handle.blind = handle'.blind) :
    (v.succeed i r reply handle).Alike (w.succeed i r' reply' handle') := by
  rw [Vault.succeed, Vault.succeed]
  rcases Handle.commit_agree hh with ⟨cause, hv, hw⟩ | ⟨t, t', _, _, hv, hw, ht, -⟩
  · rw [hv, hw]
    exact (h.release i).settle i rfl
  · rw [hv, hw, hr.operation, hr.audit hy]
    exact (((h.publish i ht).note _).notes _).settle i (congrArg Except.ok hy)

theorem giveUp (h : v.Alike w) (i : Nat) {r r' : Request} (hr : r.Alike r') (cause : Failure)
    {handle handle' : Handle} (hh : handle.blind = handle'.blind) :
    (v.giveUp i r cause handle).Alike (w.giveUp i r' cause handle') := by
  rw [Vault.giveUp, Vault.giveUp, hr.operation]
  rcases Handle.rollback_agree hh with ⟨second, hv, hw⟩ | ⟨_, _, hv, hw, -⟩
  · rw [hv, hw]
    exact (((h.note _).note _).release i).settle i rfl
  · rw [hv, hw]
    exact ((h.note _).release i).settle i rfl

/-- **The next thing in two works that are alike.** -/
theorem workStep (h : v.Alike w) (i : Nat) {r r' : Request} (hr : r.Alike r')
    {work work' : Work Reply} (hwork : work.Alike work') {handle handle' : Handle}
    (hh : handle.blind = handle'.blind) :
    (v.workStep i r work handle).Alike (w.workStep i r' work' handle') := by
  cases hwork with
  | done hy =>
    -- a lease comes to rest where others are committed, and it is one on both sides
    have hs := h.succeed i hr hy hh
    cases hr <;> first | exact hs | exact h.setPhase i (.resting (congrArg Except.ok hy) hh)
  | fail cause =>
    have hs := h.giveUp i hr cause hh
    cases hr <;> first | exact hs | exact h.setPhase i (.resting rfl hh)
  | insert owner hm hn =>
    rw [Vault.workStep, Vault.workStep, ← h.plan]
    rcases Handle.insert_agree hh v.plan owner hm with
      ⟨cause, hv, hw⟩ | ⟨c, c', s, s', hv, hw, hc, hs⟩
    · rw [hv, hw]
      exact h.setPhase i (.working (.fail cause) hh)
    · rw [hv, hw]
      exact h.setPhase i (.working (hn c c' hc) hs)
  | delete owner key hn =>
    rw [Vault.workStep, Vault.workStep, ← h.plan]
    rcases Handle.delete_agree hh v.plan owner key with
      ⟨cause, hv, hw⟩ | ⟨row, row', s, s', hv, hw, hrow, hs⟩
    · rw [hv, hw]
      exact h.setPhase i (.working (.fail cause) hh)
    · rw [hv, hw]
      cases row with
      | none =>
        obtain rfl := Option.map_eq_none_iff.mp hrow.symm
        exact h.setPhase i (.working (hn false) hs)
      | some row =>
        obtain ⟨row', rfl, hb⟩ := Option.map_eq_some_iff.mp hrow.symm
        -- the report names the row by its number, which is no secret
        have hid : row.id = row'.id := (congrArg Row.id hb).symm
        dsimp only
        rw [hid]
        exact (h.note _).setPhase i (.working (hn true) hs)
  | commit hn =>
    rw [Vault.workStep, Vault.workStep]
    rcases Handle.commit_agree hh with ⟨cause, hv, hw⟩ | ⟨t, t', s, s', hv, hw, ht, hs⟩
    · rw [hv, hw]
      exact h.setPhase i (.working (.fail cause) hh)
    · rw [hv, hw]
      exact (h.publish i ht).setPhase i (.working hn hs)
  | rollback hn =>
    rw [Vault.workStep, Vault.workStep]
    rcases Handle.rollback_agree hh with ⟨cause, hv, hw⟩ | ⟨s, s', hv, hw, hs⟩
    · rw [hv, hw]
      exact h.setPhase i (.working (.fail cause) hh)
    · rw [hv, hw]
      exact (h.release i).setPhase i (.working hn hs)
  | pause duration hn =>
    rw [Vault.workStep, Vault.workStep, h.now]
    exact h.setPhase i (.paused _ hn hh)

/-- **A step of the same call** leaves vaults that are alike alike. -/
theorem step (h : v.Alike w) (i : Nat) : (v.step i).Alike (w.step i) := by
  rcases h.call i with ⟨hv, hw⟩ | ⟨⟨r, _, _, p⟩, ⟨r', _, _, p'⟩, hv, hw, hr, -, -, hp⟩
  · simpa [Vault.step, hv, hw] using h
  · simp only [Vault.step, hv, hw]
    cases hp with
    | checking => exact h.check i
    | asking => exact h.ask i
    | waiting =>
      dsimp only
      rw [h.lock]
      split
      · exact h.enter i hr
      · exact h
    | working hwork hh => exact h.workStep i hr hwork hh
    | paused wake hwork hh =>
      dsimp only
      rw [h.now]
      split
      · exact h.setPhase i (.working hwork hh)
      · exact h
    | _ => exact h

theorem isOverdue (h : v.Alike w) (i : Nat) : v.isOverdue i = w.isOverdue i := by
  rw [Vault.isOverdue, Vault.isOverdue, h.now]
  rcases h.call i with ⟨hv, hw⟩ | ⟨c, d, hv, hw, hcd⟩
  · rw [hv, hw]
  · rw [hv, hw, Option.any_some, Option.any_some, hcd.isRunning, hcd.isDue]

theorem expire (h : v.Alike w) (i : Nat) : (v.expire i).Alike (w.expire i) := by
  rcases h.call i with ⟨hv, hw⟩ | ⟨c, d, hv, hw, hcd⟩
  · simpa [Vault.expire, hv, hw] using h
  · simp only [Vault.expire, hv, hw, hcd.limit, h.isOverdue i, hcd.request.operation]
    split
    · exact h
    · split
      · exact ((h.release i).note _).settle i rfl
      · exact h

theorem drop (h : v.Alike w) (i : Nat) : (v.drop i).Alike (w.drop i) := by
  rcases h.call i with ⟨hv, hw⟩ | ⟨c, d, hv, hw, hcd⟩
  · simpa [Vault.drop, hv, hw] using h
  · simp only [Vault.drop, hv, hw, hcd.isLive]
    split
    · exact (h.release i).setPhase i .dropped
    · exact h

theorem resume (h : v.Alike w) (i : Nat) {work work' : Work Reply} (hwork : work.Alike work') :
    (v.resume i work).Alike (w.resume i work') := by
  rcases h.call i with ⟨hv, hw⟩ | ⟨⟨_, _, _, p⟩, ⟨_, _, _, p'⟩, hv, hw, -, -, -, hp⟩
  · simpa [Vault.resume, hv, hw] using h
  · simp only [Vault.resume, hv, hw]
    cases hp with
    | resting _ hh => exact h.setPhase i (.working hwork hh)
    | _ => exact h

theorem interrupt (h : v.Alike w) (i : Nat) : (v.interrupt i).Alike (w.interrupt i) := by
  have hd := h.drop i
  rcases h.call i with ⟨hv, hw⟩ | ⟨⟨r, _, _, p⟩, ⟨r', _, _, p'⟩, hv, hw, hr, -, -, hp⟩
  · simpa [Vault.interrupt, hv, hw] using h
  · simp only [Vault.interrupt, hv, hw]
    cases hr with
    | lease =>
      cases hp with
      | working hwork hh => exact h.setPhase i (.resting rfl hh)
      | paused wake hwork hh => exact h.setPhase i (.resting rfl hh)
      | _ => exact hd
    | _ => exact hd

/-- A call has no answer on both sides, or answers that are alike. -/
theorem answer? (h : v.Alike w) (i : Nat) :
    (v.answer? i = none ∧ w.answer? i = none) ∨
      ∃ a a', v.answer? i = some a ∧ w.answer? i = some a' ∧ AnswersAlike a a' := by
  rw [Vault.answer?, Vault.answer?]
  rcases h.call i with ⟨hv, hw⟩ | ⟨c, d, hv, hw, hcd⟩
  · exact Or.inl ⟨by rw [hv, Option.bind_none], by rw [hw, Option.bind_none]⟩
  · rw [hv, hw, Option.bind_some, Option.bind_some]
    exact hcd.answer?

/-! ### Time -/

theorem isReady (h : v.Alike w) (i : Nat) {c d : Call} (hcd : c.Alike d) :
    v.isReady i c = w.isReady i d := by
  rw [Vault.isReady, Vault.isReady, h.lock, h.now, hcd.isDue]
  have hp := hcd.phase
  generalize c.phase = p, d.phase = q at hp ⊢
  cases hp <;> rfl

theorem isQuiet (h : v.Alike w) : v.isQuiet = w.isQuiet := by
  have all {cs ds : List Call} (hcs : List.Forall₂ Call.Alike cs ds) (k : Nat) :
      ((cs.zipIdx k).all fun c => !v.isReady c.2 c.1) =
        (ds.zipIdx k).all fun d => !w.isReady d.2 d.1 := by
    induction hcs generalizing k with
    | nil => rfl
    | cons hc _ ih =>
      rw [List.zipIdx_cons, List.zipIdx_cons, List.all_cons, List.all_cons, ih (k + 1)]
      dsimp only
      rw [h.isReady k hc]
  exact all h.calls 0

theorem next? (h : v.Alike w) : v.next? = w.next? := by
  rw [Vault.next?, Vault.next?]
  congr 1
  have hcalls := h.calls
  generalize v.calls = cs at hcalls
  generalize w.calls = ds at hcalls
  induction hcalls with
  | nil => rfl
  | cons hc _ ih => rw [List.filterMap_cons, List.filterMap_cons, hc.next?, ih]

/-- **Time passes alike.** -/
theorem advance (h : v.Alike w) (moment : Nat) : (v.advance moment).Alike (w.advance moment) := by
  rw [Vault.advance, Vault.advance, h.isQuiet, h.next?, h.now]
  split
  · exact ⟨h.table, h.plan, h.lock, h.calls, rfl, h.log⟩
  · exact h

end Vault.Alike

end KeyLifecycle
