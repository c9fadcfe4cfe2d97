import KeyLifecycle.Proofs.Secrecy.Turn
import KeyLifecycle.Session

/-!
# Sessions that differ in secrets at most

Two sessions are `Session.Alike` if their vaults are and their generators deliver the same but for
secrets: the same access keys, the same failures and breakdowns, each at the same call. Procedures
that are alike ask for the same, whatever secrets they have been answered.

From this and `KeyLifecycle.Vault.Alike.poll` it follows, one thing after the other, that
procedures that are alike come equally far in sessions that are alike: in one turn
(`KeyLifecycle.Procedure.Alike.run`), in a round of several
(`KeyLifecycle.Session.Alike.each`), and up to the end of patience
(`KeyLifecycle.Session.Alike.together`).
-/

namespace KeyLifecycle

/-! ### What may differ -/

/-- What a generator delivers when it is asked for the n-th time, counted from zero. -/
def Generator.nth (g : Generator) : Nat → Generated
  | 0 => g.generate.1
  | n + 1 => g.generate.2.nth n

/-- **Generators that differ in secrets at most**: whenever they are asked, they deliver the same
access key, or fail in the same way. -/
def Generator.Alike (g g' : Generator) : Prop := ∀ n, (g.nth n).blind = (g'.nth n).blind

/-- Scripts that differ in the secrets of their key material at most are generators that do. -/
theorem Generator.alike_scripted {items items' : List (Except Failure KeyMaterial)}
    (h : items.map (Except.map KeyMaterial.blind) = items'.map (Except.map KeyMaterial.blind)) :
    (scripted items).Alike (scripted items') := by
  intro n
  induction n generalizing items items' with
  | zero =>
    cases items with
    | nil =>
      obtain rfl := List.map_eq_nil_iff.mp h.symm
      rfl
    | cons item items =>
      cases items' with
      | nil => simp at h
      | cons item' items' =>
        have hi := (List.cons.inj h).1
        rcases Failure.eq_or_of_map_eq hi with ⟨cause, rfl, rfl⟩ | ⟨m, m', rfl, rfl, hm⟩
        · rfl
        · exact congrArg Generated.material hm
  | succ n ih =>
    cases items with
    | nil =>
      obtain rfl := List.map_eq_nil_iff.mp h.symm
      exact ih rfl
    | cons item items =>
      cases items' with
      | nil => simp at h
      | cons item' items' =>
        have hrest := ih (List.cons.inj h).2
        rcases Failure.eq_or_of_map_eq (List.cons.inj h).1 with
          ⟨cause, rfl, rfl⟩ | ⟨m, m', rfl, rfl, -⟩
        · exact hrest
        · exact hrest

/-- **Procedures that ask for the same up to secrets**, whatever secrets they are answered, and end
with values in some relation. -/
inductive Procedure.Alike {α : Type} (R : α → α → Prop) : Procedure α → Procedure α → Prop
  | done {a b : α} (h : R a b) : Alike R (.done a) (.done b)
  | report (event : Event) {next next' : Procedure α} (hn : Alike R next next') :
    Alike R (.report event next) (.report event next')
  | userById (id : UserId) {next next' : Except Failure (Option User) → Procedure α}
      (hn : ∀ answer, Alike R (next answer) (next' answer)) :
    Alike R (.userById id next) (.userById id next')
  | userBySlug (slug : String) {next next' : Except Failure (Option User) → Procedure α}
      (hn : ∀ answer, Alike R (next answer) (next' answer)) :
    Alike R (.userBySlug slug next) (.userBySlug slug next')
  | addUser (slug : Slug) (role : Role) {next next' : Except Failure User → Procedure α}
      (hn : ∀ answer, Alike R (next answer) (next' answer)) :
    Alike R (.addUser slug role next) (.addUser slug role next')
  | generate {next next' : Except Failure KeyMaterial → Procedure α}
      (hn : ∀ a a' : Except Failure KeyMaterial,
        a.map KeyMaterial.blind = a'.map KeyMaterial.blind → Alike R (next a) (next' a')) :
    Alike R (.generate next) (.generate next')
  | ask {r r' : Request} (hr : r.Alike r') (limit : Option Span)
      {next next' : Except Failure Reply → Procedure α}
      (hn : ∀ a a', AnswersAlike a a' → Alike R (next a) (next' a')) :
    Alike R (.ask r limit next) (.ask r' limit next')

/-- Procedures that have come equally far. -/
inductive Progress.Alike {α : Type} (R : α → α → Prop) : Progress α → Progress α → Prop
  | finished {a b : α} (h : R a b) : Alike R (.finished a) (.finished b)
  | ready {p q : Procedure α} (h : p.Alike R q) : Alike R (.ready p) (.ready q)
  | pending (call : Nat) {next next' : Except Failure Reply → Procedure α}
      (hn : ∀ a a', AnswersAlike a a' → (next a).Alike R (next' a')) :
    Alike R (.pending call next) (.pending call next')
  | crashed : Alike R .crashed .crashed
  | givenUp : Alike R .givenUp .givenUp

/-- **Sessions that differ in secrets at most.** -/
structure Session.Alike (s s' : Session) : Prop where
  directory : s.directory = s'.directory
  generator : s.generator.Alike s'.generator
  vault : s.vault.Alike s'.vault
  left : s.left = s'.left

variable {α : Type} {R : α → α → Prop} {s s' : Session}

/-! ### A turn -/

theorem Session.Alike.poll (h : s.Alike s') (call : Nat) : (s.poll call).Alike (s'.poll call) := by
  have hp := h.vault.poll call s.left
  rw [Session.poll, Session.poll, ← h.left]
  exact ⟨h.directory, h.generator, hp.2, hp.1⟩

theorem Session.Alike.call (h : s.Alike s') {r r' : Request} (hr : r.Alike r')
    (limit : Option Span) :
    (s.call r limit).1 = (s'.call r' limit).1 ∧ (s.call r limit).2.Alike (s'.call r' limit).2 := by
  rw [Session.call, Session.call, h.vault.length]
  have hs : Session.Alike { s with vault := s.vault.start r limit }
      { s' with vault := s'.vault.start r' limit } :=
    ⟨h.directory, h.generator, h.vault.start hr limit, h.left⟩
  exact ⟨rfl, hs.poll _⟩

/-- **Procedures that are alike come equally far in a turn.** -/
theorem Procedure.Alike.run {p q : Procedure α} (hp : p.Alike R q) (h : s.Alike s') :
    (p.run s).1.Alike R (q.run s').1 ∧ (p.run s).2.Alike (q.run s').2 := by
  induction hp generalizing s s' with
  | done hab => exact ⟨.finished hab, h⟩
  | report event hn ih =>
    exact ih ⟨h.directory, h.generator, h.vault.note event, h.left⟩
  | userById id hn ih =>
    rw [Procedure.run, Procedure.run, ← h.left, ← h.directory]
    split
    · exact ⟨.ready (.userById id hn), h⟩
    · exact ih _ ⟨rfl, h.generator, h.vault, rfl⟩
  | userBySlug slug hn ih =>
    rw [Procedure.run, Procedure.run, ← h.left, ← h.directory]
    split
    · exact ⟨.ready (.userBySlug slug hn), h⟩
    · exact ih _ ⟨rfl, h.generator, h.vault, rfl⟩
  | addUser slug role hn ih =>
    rw [Procedure.run, Procedure.run, ← h.left, ← h.directory]
    split
    · exact ⟨.ready (.addUser slug role hn), h⟩
    · split
      · exact ih _ ⟨rfl, h.generator, h.vault, rfl⟩
      · exact ih _ ⟨rfl, h.generator, h.vault, rfl⟩
  | generate hn ih =>
    have hnow : s.generator.generate.1.blind = s'.generator.generate.1.blind := h.generator 0
    -- both sources are asked as often, so they stay in step whatever they deliver
    have hnext : s.generator.generate.2.Alike s'.generator.generate.2 :=
      fun n => h.generator (n + 1)
    rw [Procedure.run, Procedure.run]
    generalize s.generator.generate = x at hnow hnext ⊢
    generalize s'.generator.generate = y at hnow hnext ⊢
    obtain ⟨out, g⟩ := x
    obtain ⟨out', g'⟩ := y
    have hs : Session.Alike { s with generator := g } { s' with generator := g' } :=
      ⟨h.directory, hnext, h.vault, h.left⟩
    cases out <;> cases out' <;> simp only [Generated.blind, reduceCtorEq] at hnow
    · rename_i m m'
      have hm : m.blind = m'.blind := Generated.material.inj hnow
      exact ih (.ok m) (.ok m') (congrArg Except.ok hm) hs
    · obtain rfl := Generated.failed.inj hnow
      exact ih _ _ rfl hs
    · exact ⟨.crashed, hs⟩
  | ask hr limit hn ih =>
    obtain ⟨hc, hs⟩ := h.call hr limit
    rw [Procedure.run, Procedure.run]
    generalize s.call _ limit = x at hc hs ⊢
    generalize s'.call _ limit = y at hc hs ⊢
    obtain ⟨call, t⟩ := x
    obtain ⟨call', t'⟩ := y
    obtain rfl : call = call' := hc
    dsimp only at hs ⊢
    rcases hs.vault.answer? call with ⟨ht, ht'⟩ | ⟨a, a', ht, ht', ha⟩
    · rw [ht, ht']
      exact ⟨.pending call hn, hs⟩
    · rw [ht, ht']
      exact ih a a' ha hs

/-! ### Turns, one after the other -/

namespace Progress.Alike

variable {p q : Progress α}

/-- **A turn takes procedures that have come equally far equally far.** -/
theorem poll (hp : p.Alike R q) (h : s.Alike s') :
    (p.poll s).1.Alike R (q.poll s').1 ∧ (p.poll s).2.Alike (q.poll s').2 := by
  cases hp with
  | ready hr => exact hr.run h
  | pending call hn =>
    have hs := h.poll call
    unfold Progress.poll
    dsimp only
    rcases hs.vault.answer? call with ⟨ht, ht'⟩ | ⟨a, a', ht, ht', ha⟩
    · rw [ht, ht']
      exact ⟨.pending call hn, hs⟩
    · rw [ht, ht']
      exact (hn a a' ha).run hs
  | finished hab => exact ⟨.finished hab, h⟩
  | crashed => exact ⟨.crashed, h⟩
  | givenUp => exact ⟨.givenUp, h⟩

theorem giveUp (hp : p.Alike R q) (h : s.Alike s') :
    (p.giveUp s).1.Alike R (q.giveUp s').1 ∧ (p.giveUp s).2.Alike (q.giveUp s').2 := by
  cases hp with
  | ready hr => exact ⟨.givenUp, h⟩
  | pending call hn =>
    exact ⟨.givenUp, h.directory, h.generator, h.vault.interrupt call, h.left⟩
  | finished hab => exact ⟨.finished hab, h⟩
  | crashed => exact ⟨.crashed, h⟩
  | givenUp => exact ⟨.givenUp, h⟩

theorem isReady (hp : p.Alike R q) : p.isReady = q.isReady := by
  cases hp <;> rfl

theorem isUnfinished (hp : p.Alike R q) : p.isUnfinished = q.isUnfinished := by
  cases hp <;> rfl

/-- What is so of one on both sides is so of some on both sides. -/
theorem any_congr {f : Progress α → Bool} (hf : ∀ {p q : Progress α}, p.Alike R q → f p = f q)
    {ps qs : List (Progress α)} (h : List.Forall₂ (Progress.Alike R) ps qs) :
    ps.any f = qs.any f := by
  induction h with
  | nil => rfl
  | cons hpq _ ih => rw [List.any_cons, List.any_cons, hf hpq, ih]

end Progress.Alike

namespace Session.Alike

variable {ps qs : List (Progress α)}

/-- **What keeps one procedure alike keeps all of them alike**, one after the other. -/
theorem each {turn : Progress α → Session → Progress α × Session}
    (hturn : ∀ {p q : Progress α} {s s' : Session}, p.Alike R q → s.Alike s' →
      (turn p s).1.Alike R (turn q s').1 ∧ (turn p s).2.Alike (turn q s').2)
    (hps : List.Forall₂ (Progress.Alike R) ps qs) (h : s.Alike s') :
    List.Forall₂ (Progress.Alike R) (Session.each turn ps s).1 (Session.each turn qs s').1 ∧
      (Session.each turn ps s).2.Alike (Session.each turn qs s').2 := by
  induction hps generalizing s s' with
  | nil => exact ⟨.nil, h⟩
  | cons hpq _ ih =>
    obtain ⟨hp, hs⟩ := hturn hpq h
    obtain ⟨hrest, ht⟩ := ih hs
    exact ⟨.cons hp hrest, ht⟩

theorem letGo (holder : Option Holder) (h : s.Alike s') :
    (Session.letGo holder s).1 = (Session.letGo holder s').1 ∧
      (Session.letGo holder s).2.Alike (Session.letGo holder s').2 := by
  cases holder with
  | none => exact ⟨rfl, h⟩
  | some holder =>
    rw [Session.letGo, Session.letGo, h.vault.now, h.left]
    split
    · exact ⟨rfl, h.directory, h.generator, h.vault.drop holder.call, rfl⟩
    · exact ⟨rfl, h⟩

theorem recover (last : Nat) (holder : Option Holder)
    (hps : List.Forall₂ (Progress.Alike R) ps qs) (h : s.Alike s') :
    (Session.recover last holder ps s).Alike (Session.recover last holder qs s') := by
  have hready : ps.any Progress.isReady = qs.any Progress.isReady :=
    Progress.Alike.any_congr Progress.Alike.isReady hps
  rw [Session.recover, Session.recover, hready, h.vault.next?]
  refine ⟨h.directory, h.generator, ?_, rfl⟩
  dsimp only
  split
  · exact h.vault
  · exact h.vault.advance _

/-- **Round by round**, up to the end of patience. -/
theorem rounds (last fuel : Nat) (holder : Option Holder)
    (hps : List.Forall₂ (Progress.Alike R) ps qs) (h : s.Alike s') :
    List.Forall₂ (Progress.Alike R) (Session.rounds last fuel holder ps s).1
        (Session.rounds last fuel holder qs s').1 ∧
      (Session.rounds last fuel holder ps s).2.Alike
        (Session.rounds last fuel holder qs s').2 := by
  induction fuel generalizing holder ps qs s s' with
  | zero => exact each Progress.Alike.giveUp hps h
  | succ fuel ih =>
    obtain ⟨hps', h'⟩ := each Progress.Alike.poll hps h
    rw [Session.rounds, Session.rounds]
    generalize Session.each Progress.poll ps s = x at hps' h' ⊢
    generalize Session.each Progress.poll qs s' = y at hps' h' ⊢
    obtain ⟨ps', t⟩ := x
    obtain ⟨qs', t'⟩ := y
    dsimp only at hps' h' ⊢
    obtain ⟨hholder, h''⟩ := letGo holder h'
    generalize Session.letGo holder t = x at hholder h'' ⊢
    generalize Session.letGo holder t' = y at hholder h'' ⊢
    obtain ⟨holder', u⟩ := x
    obtain ⟨holder'', u'⟩ := y
    obtain rfl : holder' = holder'' := hholder
    -- who is not through, the clock and the allowance decide how it goes on, all of them the same
    have hunfinished : ps'.any Progress.isUnfinished = qs'.any Progress.isUnfinished :=
      Progress.Alike.any_congr Progress.Alike.isUnfinished hps'
    dsimp only at h'' ⊢
    rw [hunfinished, h''.vault.now, h.left]
    split
    · exact ⟨hps', h''⟩
    · split
      · refine each Progress.Alike.giveUp hps' ⟨h''.directory, h''.generator, h''.vault, ?_⟩
        rw [h''.left]
      · exact ih holder' hps' (recover last holder' hps' h'')

theorem settle (patience : Span) (holder : Option Holder)
    (hps : List.Forall₂ (Progress.Alike R) ps qs) (h : s.Alike s') :
    List.Forall₂ (Progress.Alike R) (Session.settle patience holder ps s).1
        (Session.settle patience holder qs s').1 ∧
      (Session.settle patience holder ps s).2.Alike (Session.settle patience holder qs s').2 := by
  rw [Session.settle, Session.settle, h.vault.now]
  exact rounds _ _ holder hps h

theorem settleOne (patience : Span) {p q : Progress α} (hpq : p.Alike R q) (h : s.Alike s') :
    (Session.settleOne patience p s).1.Alike R (Session.settleOne patience q s').1 ∧
      (Session.settleOne patience p s).2.Alike (Session.settleOne patience q s').2 := by
  obtain ⟨hps, hs⟩ := settle patience none (.cons hpq .nil) h
  unfold Session.settleOne
  generalize Session.settle patience none [p] s = x at hps hs ⊢
  generalize Session.settle patience none [q] s' = y at hps hs ⊢
  obtain ⟨ps, t⟩ := x
  obtain ⟨qs, t'⟩ := y
  cases hps with
  | nil => exact ⟨.givenUp, hs⟩
  | cons hp _ => exact ⟨hp, hs⟩

/-- **One procedure**, for as long as patience lasts. -/
theorem perform {p q : Procedure α} (hp : p.Alike R q) (patience : Span) (h : s.Alike s') :
    (s.perform p patience).1.Alike R (s'.perform q patience).1 ∧
      (s.perform p patience).2.Alike (s'.perform q patience).2 :=
  settleOne patience (.ready hp) h

theorem drop (h : s.Alike s') (call : Nat) : (s.drop call).Alike (s'.drop call) :=
  ⟨h.directory, h.generator, h.vault.drop call, h.left⟩

theorem setPlan (h : s.Alike s') (plan : FailurePlan) :
    Session.Alike { s with vault := s.vault.setPlan plan }
      { s' with vault := s'.vault.setPlan plan } :=
  ⟨h.directory, h.generator, h.vault.setPlan plan, h.left⟩

/-- Asking for more work of a lease that is at rest on both sides. -/
theorem resume (h : s.Alike s') (call : Nat) {work work' : Work Reply} (hwork : work.Alike work')
    (patience : Span) :
    (s.resume call work patience).1.Alike AnswersAlike (s'.resume call work' patience).1 ∧
      (s.resume call work patience).2.Alike (s'.resume call work' patience).2 := by
  refine settleOne patience (.pending call fun a a' ha => .done ha) ?_
  exact ⟨h.directory, h.generator, h.vault.resume call hwork, h.left⟩

/-- A lease is granted on both sides or on neither. -/
theorem lease (h : s.Alike s') (patience : Span) :
    (s.lease patience).1 = (s'.lease patience).1 ∧
      (s.lease patience).2.Alike (s'.lease patience).2 := by
  have hask : (Operation.ask .lease none : Procedure _).Alike AnswersAlike
      (Operation.ask .lease none) := .ask .lease none fun a a' ha => .done ha
  obtain ⟨hp, hs⟩ := h.perform hask patience
  unfold Session.lease
  rw [h.vault.length]
  dsimp only
  generalize s.perform (Operation.ask .lease none) patience = x at hp hs ⊢
  generalize s'.perform (Operation.ask .lease none) patience = y at hp hs ⊢
  obtain ⟨p, t⟩ := x
  obtain ⟨q, t'⟩ := y
  cases hp <;> exact ⟨rfl, hs⟩

/-- **Several procedures side by side**, with or without somebody who holds the table. -/
theorem together {ps qs : List (Procedure α)} (hps : List.Forall₂ (Procedure.Alike R) ps qs)
    (hold : Option Span) (patience : Span) (h : s.Alike s') :
    List.Forall₂ (Progress.Alike R) (s.together ps hold patience).1
        (s'.together qs hold patience).1 ∧
      (s.together ps hold patience).2.Alike (s'.together qs hold patience).2 := by
  have hready : List.Forall₂ (Progress.Alike R) (ps.map Progress.ready)
      (qs.map Progress.ready) := by
    induction hps with
    | nil => exact .nil
    | cons hp _ ih => exact .cons (.ready hp) ih
  cases hold with
  | none => exact settle patience none hready h
  | some duration =>
    obtain ⟨hcall, hs⟩ := h.lease patience
    unfold Session.together
    dsimp only
    generalize s.lease patience = x at hcall hs ⊢
    generalize s'.lease patience = y at hcall hs ⊢
    obtain ⟨call, t⟩ := x
    obtain ⟨call', t'⟩ := y
    obtain rfl : call = call' := hcall
    cases call with
    | none => exact each Progress.Alike.giveUp hready hs
    | some call =>
      dsimp only at hs ⊢
      rw [hs.vault.now]
      obtain ⟨hqs, hu⟩ := settle patience (some ⟨call, t'.vault.now + duration⟩) hready hs
      exact ⟨hqs, hu.drop call⟩

end Session.Alike

end KeyLifecycle
