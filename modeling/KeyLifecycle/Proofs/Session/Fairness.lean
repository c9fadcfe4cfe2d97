import KeyLifecycle.Proofs.Session.Beats
import KeyLifecycle.Proofs.Vault.Progress
import Mathlib.Data.Nat.Pairing

/-!
# Fair courses

That a call is answered cannot be said of all courses of a session: there are those in which it
never has a turn, and those in which time stands still because there are new calls without end. A
course is *fair* (`Session.IsFair`) if nothing new is asked for from some beat on, all calls have
turns again and again, and again and again time passes as far as it may. Every course can go on
fairly, from wherever it has come to (`KeyLifecycle.Session.exists_isFair`).

In a fair course **every call with a limit comes to an end** (`KeyLifecycle.Session.IsFair.ends`).
Suppose that it does not. Then the clock never goes past its deadline, so it stops; no call goes on
for ever, so all come to stand still, and then everything does
(`KeyLifecycle.Session.IsFair.exists_still`). Now nobody is ready, since whoever is goes on in their
turn, and so time may pass up to the next moment of anybody. But the clock has stopped, so there is
no such moment (`KeyLifecycle.Session.IsFair.next?_eq_none`), not even the deadline of the call.
-/

namespace KeyLifecycle

/-- Whether a beat only serves the calls that there are. -/
def Beat.serves : Beat → Bool
  | turn _ => true
  | allow _ => true
  | pass _ => true
  | _ => false

namespace Session

/-- **Fairness.** -/
structure IsFair (s : Session) (beats : Nat → Beat) : Prop where
  /-- From some beat on nothing new is asked for. -/
  calm : ∃ n, ∀ m, n ≤ m → (beats m).serves = true
  /-- Every call has turns again and again in which something is left of the allowance. -/
  turns (n : Nat) {i : Nat} (hi : i < (s.course beats n).vault.calls.length) :
    ∃ m, n ≤ m ∧ beats m = .turn i ∧ 0 < (s.course beats m).left
  /-- Again and again time passes up to the next moment of anybody, if it may. -/
  time (n : Nat) :
    ∃ m, n ≤ m ∧ ∀ next, (s.course beats m).vault.next? = some next → beats m = .pass next

variable {s : Session} {beats : Nat → Beat} {b : Beat} {i j n : Nat} {call : Call} {limit : Span}

/-! ### Every course can go on fairly -/

/-- Serving all calls: a new allowance, a turn of somebody, the passing of time, and so on. -/
def service (s : Session) (k : Nat) : Beat :=
  match k % 3 with
  | 0 => .allow allowance
  | 1 => .turn (Nat.unpair (k / 3)).1
  | _ => .pass (s.vault.next?.getD s.vault.now)

/-- A session in which all calls have been served so many times. -/
def served (s : Session) : Nat → Session
  | 0 => s
  | k + 1 => (s.served k).beat ((s.served k).service k)

/-- Some beats, and then the serving of all calls. -/
def continued (s : Session) (beats : Nat → Beat) (n m : Nat) : Beat :=
  if m < n then beats m else ((s.course beats n).served (m - n)).service (m - n)

theorem service_allow (s : Session) (k : Nat) : s.service (3 * k) = .allow allowance := by
  rw [service, Nat.mul_mod_right]
  rfl

theorem service_turn (s : Session) (k : Nat) : s.service (3 * k + 1) = .turn k.unpair.1 := by
  have hmod : (3 * k + 1) % 3 = 1 := by omega
  have hdiv : (3 * k + 1) / 3 = k := by omega
  rw [service, hmod, hdiv]
  rfl

theorem service_pass (s : Session) (k : Nat) :
    s.service (3 * k + 2) = .pass (s.vault.next?.getD s.vault.now) := by
  have hmod : (3 * k + 2) % 3 = 2 := by omega
  rw [service, hmod]
  rfl

theorem serves_service (s : Session) (k : Nat) : (s.service k).serves = true := by
  rw [service]
  split <;> rfl

theorem course_congr {beats' : Nat → Beat} (h : ∀ m < n, beats m = beats' m) :
    s.course beats n = s.course beats' n := by
  induction n with
  | zero => rfl
  | succ n ih =>
    rw [course, course, ih fun m hm => h m (Nat.lt_succ_of_lt hm), h n (Nat.lt_succ_self n)]

theorem course_continued (s : Session) (beats : Nat → Beat) (n k : Nat) :
    s.course (s.continued beats n) (n + k) = (s.course beats n).served k := by
  induction k with
  | zero => exact course_congr fun m hm => if_pos hm
  | succ k ih =>
    have hbeat : s.continued beats n (n + k) = ((s.course beats n).served k).service k := by
      rw [continued, if_neg (by omega), Nat.add_sub_cancel_left]
    rw [← Nat.add_assoc, course, ih, hbeat, served]

/-- **Every course can go on fairly**, from wherever it has come to. -/
theorem exists_isFair (s : Session) (beats : Nat → Beat) (n : Nat) :
    ∃ fair, (∀ m < n, fair m = beats m) ∧ s.IsFair fair := by
  have hbeat (k : Nat) :
      s.continued beats n (n + k) = ((s.course beats n).served k).service k := by
    rw [continued, if_neg (by omega), Nat.add_sub_cancel_left]
  refine ⟨s.continued beats n, fun m hm => if_pos hm, ⟨n, fun m hm => ?_⟩, ?_, ?_⟩
  · rw [continued, if_neg (by omega)]
    exact serves_service _ _
  · intro early i hi
    -- the turns of all calls come in the order of a pairing, so each comes late enough once more
    have hlate : early ≤ Nat.pair i early := Nat.right_le_pair i early
    refine ⟨n + (3 * Nat.pair i early + 1), by omega, ?_, ?_⟩
    · rw [hbeat, service_turn, Nat.unpair_pair]
    · rw [course_continued, served, service_allow]
      exact Nat.zero_lt_succ 127
  · intro early
    refine ⟨n + (3 * early + 2), by omega, fun next hnext => ?_⟩
    rw [course_continued] at hnext
    rw [hbeat, service_pass, hnext, Option.getD_some]

/-! ### What stands still -/

/-- **What leads down in a well-founded order or stays as it is** stays as it is in the end. -/
theorem eventually_stays {α : Type*} {r : α → α → Prop} (hr : WellFounded r) {f : Nat → α}
    (h : ∀ m, n ≤ m → f (m + 1) = f m ∨ r (f (m + 1)) (f m)) :
    ∃ k, n ≤ k ∧ ∀ m, k ≤ m → f m = f k := by
  obtain ⟨_, ⟨k, hk, rfl⟩, hmin⟩ :=
    hr.has_min {x | ∃ m, n ≤ m ∧ f m = x} ⟨f n, n, Nat.le_refl n, rfl⟩
  refine ⟨k, hk, fun m hm => ?_⟩
  induction m, hm using Nat.le_induction with
  | base => rfl
  | succ m hm ih =>
    rcases h m (Nat.le_trans hk hm) with he | hlt
    · rw [he, ih]
    · rw [ih] at hlt
      exact absurd hlt (hmin _ ⟨m + 1, by omega, rfl⟩)

/-- The clock never goes back. -/
theorem now_beat (s : Session) (b : Beat) : s.vault.now ≤ (s.beat b).vault.now := by
  refine beat_induction (P := fun v => s.vault.now ≤ v.now) (fun _ _ _ h => h)
    (fun _ _ _ _ h _ _ => h) (fun _ _ _ h => h) (fun v moment _ h => ?_) (Nat.le_refl _)
  rcases v.advance_cases moment with he | ⟨he, hnow, -⟩
  · rwa [he]
  · rw [he]
    exact Nat.le_trans h hnow

/-- A beat that serves leaves a call as it is, or lets it go on. -/
theorem calls_beat_of_serves (hb : b.serves = true) (j : Nat) :
    (s.beat b).vault.calls[j]? = s.vault.calls[j]? ∨ s.vault.Advances j (s.beat b).vault := by
  cases b with
  | turn k =>
    rcases eq_or_ne j k with rfl | hne
    · rcases s.vault.poll_eq_or_advances j s.left with he | ha
      · exact Or.inl (congrArg (fun v : Vault => v.calls[j]?) he)
      · exact Or.inr ha
    · exact Or.inl (calls_beat_of_ne (b := .turn k) rfl hne)
  | allow left => exact Or.inl rfl
  | pass moment => exact Or.inl (by rw [beat, Vault.calls_advance])
  | _ => simp [Beat.serves] at hb

/-- **All calls come to stand still** where calls are only served. -/
theorem calls_stay (hb : ∀ m, n ≤ m → (beats m).serves = true) :
    ∃ k, n ≤ k ∧ ∀ m, k ≤ m →
      (s.course beats m).vault.calls = (s.course beats k).vault.calls := by
  have hone (m : Nat) (hm : n ≤ m) (j : Nat) := calls_beat_of_serves (s := s.course beats m)
    (hb m hm) j
  -- one call after the other, and nobody joins them
  have hsome (j : Nat) : ∃ k, n ≤ k ∧ ∀ m, k ≤ m →
      (s.course beats m).vault.calls[j]? = (s.course beats k).vault.calls[j]? := by
    refine eventually_stays (InvImage.wf (fun c : Option Call => c.elim Phase.dropped Call.phase)
      Phase.wellFounded_succeeds.transGen) (f := fun m => (s.course beats m).vault.calls[j]?) ?_
    intro m hm
    rcases hone m hm j with he | ⟨call, phase, hc, hc', hlong⟩
    · exact Or.inl he
    · refine Or.inr ?_
      rw [InvImage, hc, course, hc']
      exact hlong
  have hnone {j : Nat} (hj : (s.course beats n).vault.calls[j]? = none) (m : Nat) (hm : n ≤ m) :
      (s.course beats m).vault.calls[j]? = none := by
    induction m, hm using Nat.le_induction with
    | base => exact hj
    | succ m hm ih =>
      rcases hone m hm j with he | ⟨call, phase, hc, -⟩
      · rw [course, he, ih]
      · simp [ih] at hc
  have hall (count : Nat) : ∃ k, n ≤ k ∧ ∀ m, k ≤ m → ∀ j < count,
      (s.course beats m).vault.calls[j]? = (s.course beats k).vault.calls[j]? := by
    induction count with
    | zero => exact ⟨n, Nat.le_refl n, fun _ _ j hj => absurd hj (Nat.not_lt_zero j)⟩
    | succ count ih =>
      obtain ⟨k, hk, hbelow⟩ := ih
      obtain ⟨k', hk', hlast⟩ := hsome count
      refine ⟨max k k', by omega, fun m hm j hj => ?_⟩
      rcases Nat.lt_succ_iff_lt_or_eq.mp hj with hlt | rfl
      · rw [hbelow m (by omega) j hlt, hbelow (max k k') (by omega) j hlt]
      · rw [hlast m (by omega), hlast (max k k') (by omega)]
  obtain ⟨k, hk, hstay⟩ := hall (s.course beats n).vault.calls.length
  refine ⟨k, hk, fun m hm => List.ext_getElem? fun j => ?_⟩
  rcases Nat.lt_or_ge j (s.course beats n).vault.calls.length with hlt | hge
  · exact hstay m hm j hlt
  · have hj := List.getElem?_eq_none hge
    rw [hnone hj m (by omega), hnone hj k hk]

/-- A beat that serves and moves neither the clock nor a call changes nothing. -/
theorem vault_beat_of_still (hb : b.serves = true)
    (hcalls : (s.beat b).vault.calls = s.vault.calls)
    (hnow : (s.beat b).vault.now = s.vault.now) : (s.beat b).vault = s.vault := by
  cases b with
  | turn k =>
    rcases s.vault.poll_eq_or_advances k s.left with he | ha
    · exact he
    · exact absurd (by rw [← hcalls]; rfl) ha.ne
  | allow left => rfl
  | pass moment =>
    rcases s.vault.advance_cases moment with he | ⟨he, -⟩
    · exact he
    · rw [beat] at hnow ⊢
      rw [he] at hnow ⊢
      dsimp only at hnow ⊢
      rw [hnow]
  | _ => simp [Beat.serves] at hb

/-- **Everything comes to stand still** in a fair course, if the clock never goes past some
moment. -/
theorem IsFair.exists_still (h : s.IsFair beats) {bound : Nat}
    (hbound : ∀ m, n ≤ m → (s.course beats m).vault.now ≤ bound) :
    ∃ k, n ≤ k ∧ ∀ m, k ≤ m → (s.course beats m).vault = (s.course beats k).vault := by
  obtain ⟨k₁, hk₁, hclock⟩ := eventually_stays (r := (· < ·)) wellFounded_lt
    (f := fun m => bound - (s.course beats m).vault.now) (n := n) fun m hm => by
      have hnow : (s.course beats m).vault.now ≤ (s.course beats (m + 1)).vault.now := now_beat _ _
      have hle := hbound (m + 1) (by omega)
      omega
  obtain ⟨calm, hcalm⟩ := h.calm
  obtain ⟨k₂, hk₂, hcalls⟩ := calls_stay hcalm
  refine ⟨max k₁ k₂, by omega, fun m hm => ?_⟩
  induction m, hm using Nat.le_induction with
  | base => rfl
  | succ m hm ih =>
    rw [← ih]
    refine vault_beat_of_still (hcalm m (by omega)) ?_ ?_
    · rw [← course, hcalls (m + 1) (by omega), hcalls m (by omega)]
    · have h₁ := hclock m (by omega)
      have h₂ := hclock (m + 1) (by omega)
      have hle := hbound m (by omega)
      have hle' := hbound (m + 1) (by omega)
      rw [course] at h₂ hle'
      omega

section Still

variable {v : Vault} (hstill : ∀ m, n ≤ m → (s.course beats m).vault = v)

include hstill

/-- **Where everything stands still nobody is ready**: whoever is goes on in their next turn. -/
theorem IsFair.isReady_eq_false (h : s.IsFair beats) (hc : v.calls[j]? = some call) :
    v.isReady j call = false := by
  by_contra hready
  rw [Bool.not_eq_false] at hready
  have hlt : j < (s.course beats n).vault.calls.length := by
    rw [hstill n (Nat.le_refl n)]
    exact (List.getElem?_eq_some_iff.mp hc).1
  obtain ⟨m, hm, hturn, hleft⟩ := h.turns n hlt
  have hgoes := Vault.advances_poll hc hready hleft
  have hsame : (v.poll j (s.course beats m).left).2 = v := by
    have hafter := hstill (m + 1) (by omega)
    rwa [course, hturn, beat, poll, hstill m hm] at hafter
  rw [hsame] at hgoes
  exact hgoes.ne rfl

/-- **Where everything stands still nobody waits for a moment to come**: since nobody is ready, time
passes up to it. -/
theorem IsFair.next?_eq_none (h : s.IsFair beats) : v.next? = none := by
  cases hnext : v.next? with
  | none => rfl
  | some next =>
    obtain ⟨hlt, hadvance⟩ :=
      Vault.advance_next (fun _ _ hc => h.isReady_eq_false hstill hc) hnext
    obtain ⟨m, hm, hpass⟩ := h.time n
    have hafter := hstill (m + 1) (by omega)
    rw [course, hpass next (by rw [hstill m hm, hnext]), beat, hstill m hm, hadvance] at hafter
    have hnow : next = v.now := congrArg Vault.now hafter
    omega

end Still

/-- **Every call with a limit comes to an end** in a fair course, unless it is a lease. -/
theorem IsFair.ends (h : s.IsFair beats) (hs : s.vault.OnTime)
    (hc : (s.course beats n).vault.calls[i]? = some call) (hl : call.request ≠ .lease)
    (hd : call.limit = some limit) : ∃ m, (s.course beats m).vault.hasEnded i = true := by
  by_contra hnever
  push Not at hnever
  have hhere (m : Nat) (hm : n ≤ m) := exists_phase_course hm hc
  have hlive (m : Nat) {other : Call} (hc' : (s.course beats m).vault.calls[i]? = some other) :
      other.isLive = true := by
    simpa [Vault.hasEnded_eq hc'] using hnever m
  -- the clock stops at the deadline of the call at the latest
  have hbound (m : Nat) (hm : n ≤ m) : (s.course beats m).vault.now ≤ call.started + limit := by
    obtain ⟨phase, hp⟩ := hhere m hm
    have hdue := (onTime_course hs beats m).due hp hl (hlive m hp) hd
    exact hdue
  obtain ⟨k, hk, hstill⟩ := h.exists_still hbound
  -- but the call waits for a moment to come
  obtain ⟨phase, hp⟩ := hhere k hk
  obtain ⟨next, hnext⟩ : ∃ next, (s.course beats k).vault.next? = some next := by
    refine Vault.exists_next hp (h.isReady_eq_false hstill hp) hd (hlive k hp) fun _ _ hr => ?_
    have hlease := (onTime_course hs beats k).orderly.rests hp hr
    exact hl hlease
  simp [h.next?_eq_none hstill] at hnext

end Session

end KeyLifecycle
