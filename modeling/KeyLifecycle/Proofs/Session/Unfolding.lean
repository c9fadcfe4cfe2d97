import KeyLifecycle.Proofs.Session.Solo
import KeyLifecycle.Proofs.Vault.Custody

/-!
# A procedure among others

How a procedure unfolds while others go on beside it. It has turns of its own, and between any two
of them anything may happen in the session (`Session.Meanwhile`): others have their turns, time
passes, there is a new allowance, users are added, key material is drawn. Only two things are ruled
out: that somebody else acts for the call of the procedure, and that other operations are to fail
from then on. `Progress.Unfolds` records the turns, each as the session before it and the session
after it; so a statement about them says what the procedure itself has done, and what it has found.

Nothing is assumed about who has a turn when, or about how fast time passes. What one procedure
comes to by itself, round after round, is one way to unfold
(`KeyLifecycle.Session.exists_unfolds_perform`).
-/

namespace KeyLifecycle

variable {α : Type}

/-- The call that a procedure waits for. -/
def Progress.call? : Progress α → Option Nat
  | pending call _ => some call
  | _ => none

/-- A move that has nothing to do with a call, nor with what is to fail. -/
def Move.Spares (own : Option Nat) (m : Move) : Prop :=
  (∀ i, own = some i → m.call? ≠ some i) ∧ ∀ plan, m ≠ .setPlan plan

namespace Vault

variable {v : Vault} {i : Nat} {call : Call} {moves : List Move}

/-- **A call is left as it is** by moves that have nothing to do with it. -/
theorem calls_run_of_spares (hc : v.calls[i]? = some call) (hm : ∀ m ∈ moves, m.Spares (some i)) :
    (v.run moves).calls[i]? = some call := by
  induction moves generalizing v with
  | nil => exact hc
  | cons m moves ih =>
    obtain ⟨hfirst, hrest⟩ := List.forall_mem_cons.mp hm
    refine ih ?_ hrest
    obtain ⟨call', hc', -⟩ := exists_call_move hc m
    rcases move_calls_cases (hfirst.1 i rfl) hc' with hsame | ⟨hnone, -⟩
    · rw [hc', ← hsame, hc]
    · simp [hc] at hnone

/-- A vault in order and looked after, where some operations are to fail all the time. -/
structure InOrder (plan : FailurePlan) (v : Vault) : Prop where
  orderly : v.Orderly (· = plan)
  attended : v.Attended

/-- A table with nobody at it is in order. -/
theorem inOrder_vacated (before : List Move) (plan : FailurePlan) :
    ((empty.run before).vacated plan).InOrder plan := by
  have hbefore : (empty.run before).Orderly fun _ => True := orderly_empty.run fun _ _ => trivial
  refine ⟨orderly_of_calls_nil rfl hbefore.distinct rfl, Lock.isSound_free, fun i => ?_⟩
  simp [vacated, Lock.free, Lock.line, claims]

namespace InOrder

variable {plan : FailurePlan} (h : v.InOrder plan)

include h

/-- **It stays so as long as nobody changes what is to fail.** -/
theorem run (hm : ∀ m ∈ moves, ∀ plan, m ≠ .setPlan plan) : (v.run moves).InOrder plan :=
  ⟨h.orderly.run fun plan' hplan => absurd rfl (hm _ hplan plan'), h.attended.run moves⟩

theorem move {m : Move} (hm : ∀ plan, m ≠ .setPlan plan) : (v.move m).InOrder plan := by
  have hone : ∀ m' ∈ [m], ∀ plan, m' ≠ .setPlan plan := by simpa using hm
  exact h.run hone

theorem notes (events : List Event) : (v.notes events).InOrder plan :=
  h.move (m := .report events) (by simp)

theorem start (request : Request) (limit : Option Span) : (v.start request limit).InOrder plan :=
  h.move (m := .start request limit) (by simp)

theorem interrupt (i : Nat) : (v.interrupt i).InOrder plan :=
  h.move (m := .interrupt i) (by simp)

theorem poll (i left : Nat) : (v.poll i left).2.InOrder plan := by
  obtain ⟨moves, ht, hm⟩ := follows_poll v i left
  rw [ht]
  refine h.run fun m hmem plan' => ?_
  rintro rfl
  cases hm _ hmem

end InOrder

end Vault

namespace Session

/-- **Anything that may happen meanwhile**, while a call is waited for or none is: to the vault, any
moves that have nothing to do with that call; to everything else, anything. -/
def Meanwhile (own : Option Nat) (s s' : Session) : Prop :=
  ∃ moves, s'.vault = s.vault.run moves ∧ ∀ m ∈ moves, m.Spares own

theorem meanwhile_of_vault {own : Option Nat} {s s' : Session} (h : s'.vault = s.vault) :
    s.Meanwhile own s' := ⟨[], h, by simp⟩

/-- The passing of time. -/
theorem meanwhile_advance (own : Option Nat) (s : Session) (moment : Nat) :
    s.Meanwhile own { s with vault := s.vault.advance moment } := by
  rw [Vault.advance]
  split
  · exact ⟨[.clock moment], rfl, by simp [Move.Spares, Move.call?]⟩
  · exact meanwhile_of_vault rfl

end Session

/-- A turn: the session before it and the session after it. -/
abbrev Session.Turn : Type := Session × Session

/-- **How a procedure unfolds** that has come so far in some session: its turns from then on, how
far it has come now, and the session now. -/
inductive Progress.Unfolds (p₀ : Progress α) (s₀ : Session) :
    List Session.Turn → Progress α → Session → Prop
  | start : Unfolds p₀ s₀ [] p₀ s₀
  /-- It has a turn, if it is not through. -/
  | turn {turns : List Session.Turn} {p : Progress α} {s : Session} (h : Unfolds p₀ s₀ turns p s)
      (hp : p.isUnfinished = true) :
    Unfolds p₀ s₀ (turns ++ [(s, (p.poll s).2)]) (p.poll s).1 (p.poll s).2
  /-- Something else happens. -/
  | others {turns : List Session.Turn} {p : Progress α} {s s' : Session}
      (h : Unfolds p₀ s₀ turns p s) (hs : s.Meanwhile p.call? s') : Unfolds p₀ s₀ turns p s'
  /-- It is given up. -/
  | giveUp {turns : List Session.Turn} {p : Progress α} {s : Session}
      (h : Unfolds p₀ s₀ turns p s) :
    Unfolds p₀ s₀ turns (p.giveUp s).1 (p.giveUp s).2

/-- **A procedure by itself unfolds** in this way. -/
theorem Session.exists_unfolds_perform (s : Session) (procedure : Procedure α) (patience : Span) :
    ∃ turns, (Progress.ready procedure).Unfolds s turns (s.perform procedure patience).1
      (s.perform procedure patience).2 := by
  refine perform_induction
    (P := fun p t => ∃ turns, (Progress.ready procedure).Unfolds s turns p t) ?_ ?_ ?_ ?_
    ⟨[], .start⟩ patience
  · rintro p t ⟨turns, h⟩
    by_cases hp : p.isUnfinished = true
    · exact ⟨_, h.turn hp⟩
    · cases p with
      | ready | pending => exact absurd rfl hp
      | _ => exact ⟨turns, h⟩
  · exact fun p t ⟨turns, h⟩ => ⟨turns, h.giveUp⟩
  · exact fun p t left ⟨turns, h⟩ => ⟨turns, h.others (meanwhile_of_vault rfl)⟩
  · exact fun p t moment ⟨turns, h⟩ => ⟨turns, h.others (meanwhile_advance _ t moment)⟩

end KeyLifecycle
