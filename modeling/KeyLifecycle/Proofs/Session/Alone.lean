import KeyLifecycle.Proofs.Session.Solo
import KeyLifecycle.Proofs.Store.Asking
import KeyLifecycle.Proofs.Vault.Alone

/-!
# A request by itself

What becomes of a request that is made while nobody has the table: `Request.fate` is a plain
function of the table, of what is to fail, and of how much is left of the allowance, and
`KeyLifecycle.Session.perform_alone` says that this is what happens. If the rest of the allowance is
not enough for it, there are two ways in which the request may still come to nothing, and the table
is then as it was: it may take no time at all and is cancelled, or whoever makes it is without
patience and gives it up. In any other case it is answered what it comes to on a plain table.
-/

namespace KeyLifecycle

/-- **What a request may come to**: its answer, if there is one, and the table and the rest of the
allowance afterwards. -/
structure Fate where
  answer? : Option (Except Failure Reply)
  table : Table
  left : Nat

/-- How far whoever makes a request comes with it. -/
def Fate.progress (fate : Fate) : Progress (Except Failure Reply) :=
  match fate.answer? with
  | some answer => .finished answer
  | none => .givenUp

/-- **What a request comes to** that is made while nobody has the table. -/
def Request.fate (request : Request) (limit : Option Span) (patience : Span) (plan : FailurePlan)
    (t : Table) (left : Nat) : Fate :=
  let price := request.price plan t
  let (answer, t') := request.perform plan t
  if price ≤ left then ⟨some answer, t', left - price⟩
  else if 0 < left ∧ limit = some 0 then ⟨some (.error (.cancelled request.operation)), t, 0⟩
  else if 0 < left ∧ patience = 0 then ⟨none, t, 0⟩
  else ⟨some answer, t', left + Session.allowance - price⟩

namespace Session

open Vault (Solo)

variable {s : Session} {request : Request}

/-! ### The request as a call -/

/-- The call of a request that is made now. -/
def solo (s : Session) (request : Request) (limit : Option Span) : Solo :=
  ⟨s.vault.calls.length, request, limit, s.vault.plan, s.vault.now⟩

/-- A request that has just become a call is on its way, if nobody has the table. -/
theorem onWay_start (hl : s.vault.lock = .free) (request : Request) (limit : Option Span) :
    (s.solo request limit).OnWay s.vault.table (request.price s.vault.plan s.vault.table)
      (s.vault.start request limit) := by
  have hstands : (s.solo request limit).Stands request.firstPhase .free s.vault.table
      (s.vault.start request limit) := by
    refine ⟨?_, rfl, rfl, hl, rfl⟩
    rw [Vault.start, solo, List.getElem?_concat_length]
  cases request with
  | list owner => exact .checking rfl hstands
  | _ => exact .asking (by simp [solo]) hstands

theorem awaiting_of_answered {a : Solo} {answer : Except Failure Reply} {lock : Lock} {t : Table}
    {v : Vault} (h : a.Stands (.answered answer) lock t v) :
    Progress.awaiting v a.call = .finished answer := by
  rw [Progress.awaiting, Vault.answer?, h.call]
  rfl

theorem awaiting_of_onWay {a : Solo} {t : Table} {price : Nat} {v : Vault} (h : a.OnWay t price v) :
    Progress.awaiting v a.call = .pending a.call .done := by
  rw [Progress.awaiting, h.answer?_eq]

/-- The first turn of a request. -/
theorem run_ask_of_poll {limit : Option Span} {left : Nat} {v : Vault}
    (h : (s.vault.start request limit).poll (s.solo request limit).call s.left = (left, v)) :
    (Procedure.ask request limit .done).run s =
      (.awaiting v (s.solo request limit).call, { s with vault := v, left := left }) := by
  have hrun := Procedure.run_ask_eq request limit s
  dsimp only at hrun
  have hcall : s.vault.calls.length = (s.solo request limit).call := rfl
  rw [hcall, h] at hrun
  exact hrun

/-- **A request that was stopped** for want of an allowance comes to its end in its second turn, and
no time has passed. -/
theorem perform_of_stopped {limit : Option Span} {patience : Span} {price : Nat} {t : Table}
    {v : Vault} (hb : request.IsBrisk) (h : (s.solo request limit).OnWay t price v)
    (hrun : (Procedure.ask request limit .done).run s =
      (.pending (s.solo request limit).call .done, { s with vault := v, left := 0 }))
    (hprice : price ≤ allowance) (hpatience : ¬(0 < s.left ∧ patience = 0)) :
    ∃ w, s.perform (.ask request limit .done) patience =
        (.finished (request.perform s.vault.plan t).1,
          { s with vault := w, left := allowance - price }) ∧
      (s.solo request limit).Ended t w := by
  obtain ⟨w, hw, hend⟩ := Solo.poll_ended hb h hprice
  obtain ⟨phase, lock, hstands, -⟩ := h.stands
  have hnow : v.now = s.vault.now := hstands.now
  have hrecover : recover (s.vault.now + patience) none
      [Progress.pending (s.solo request limit).call Procedure.done]
      { s with vault := v, left := 0 } = { s with vault := v, left := allowance } := by
    rw [recover]
    simp [Progress.isReady, h.advance_eq]
  have hpoll : (Progress.pending (s.solo request limit).call Procedure.done).poll
      { s with vault := v, left := allowance } =
        (.finished (request.perform s.vault.plan t).1,
          { s with vault := w, left := allowance - price }) := by
    rw [Progress.poll_pending, poll]
    dsimp only
    rw [hw, awaiting_of_answered hend]
    rfl
  refine ⟨w, perform_of_second_turn hrun rfl ?_ (by rw [hrecover]; exact hpoll) rfl, hend⟩
  rcases Nat.eq_zero_or_pos s.left with hleft | hleft
  · exact Or.inl hleft
  · have hpos : 0 < patience := Nat.pos_of_ne_zero fun hzero => hpatience ⟨hleft, hzero⟩
    refine Or.inr ?_
    dsimp only
    rw [hnow]
    exact Nat.lt_add_of_pos_right hpos

/-- **What becomes of a request by itself** is its fate. -/
theorem perform_alone (hb : request.IsBrisk) (hl : s.vault.lock = .free)
    (hp : request.price s.vault.plan s.vault.table ≤ allowance) (limit : Option Span)
    (patience : Span) :
    let fate := request.fate limit patience s.vault.plan s.vault.table s.left
    ∃ v, s.perform (.ask request limit .done) patience =
        (fate.progress, { s with vault := v, left := fate.left }) ∧
      v.table = fate.table ∧ v.plan = s.vault.plan ∧ v.lock = .free := by
  intro fate
  have hway := onWay_start hl request limit
  by_cases hle : request.price s.vault.plan s.vault.table ≤ s.left
  · -- there is enough left for all of it
    have hfate : fate = ⟨_, _, _⟩ := if_pos hle
    obtain ⟨v, hv, hend⟩ := Solo.poll_ended hb hway hle
    have hrun := run_ask_of_poll hv
    rw [awaiting_of_answered hend] at hrun
    rw [hfate]
    exact ⟨v, perform_of_run hrun rfl patience, hend.table, hend.plan, hend.lock⟩
  · by_cases hcancel : 0 < s.left ∧ limit = some 0
    · -- there is too little left, and no time to wait for more
      have hfate : fate = ⟨_, _, _⟩ := (if_neg hle).trans (if_pos hcancel)
      obtain ⟨v, hv, hend⟩ := Solo.poll_cancelled hb hway (by omega) hcancel.1 hcancel.2
      have hrun := run_ask_of_poll hv
      rw [awaiting_of_answered hend] at hrun
      rw [hfate]
      exact ⟨v, perform_of_run hrun rfl patience, hend.table, hend.plan, hend.lock⟩
    · have hno : s.left = 0 ∨ limit ≠ some 0 := by
        rcases Nat.eq_zero_or_pos s.left with h | h
        · exact Or.inl h
        · exact Or.inr fun h' => hcancel ⟨h, h'⟩
      obtain ⟨v, hv, hway'⟩ := Solo.poll_stopped hb hway (by omega) hno
      have hrun := run_ask_of_poll hv
      rw [awaiting_of_onWay hway'] at hrun
      by_cases hpatience : 0 < s.left ∧ patience = 0
      · -- nobody waits for the next turn
        have hfate : fate = ⟨_, _, _⟩ :=
          (if_neg hle).trans ((if_neg hcancel).trans (if_pos hpatience))
        obtain ⟨hpos, rfl⟩ := hpatience
        have hdropped := hway'.interrupt hb.1
        obtain ⟨phase, lock, hstands, -⟩ := hway'.stands
        rw [hfate]
        exact ⟨_, perform_of_no_patience hrun rfl hpos (Nat.le_of_eq hstands.now.symm),
          hdropped.table, hdropped.plan, hdropped.lock⟩
      · -- the next turn brings the call to its end, and no time has passed
        have hfate : fate = ⟨_, _, _⟩ :=
          (if_neg hle).trans ((if_neg hcancel).trans (if_neg hpatience))
        obtain ⟨w, hw, hend⟩ := perform_of_stopped hb hway' hrun (by omega) hpatience
        have hleft : allowance - (request.price s.vault.plan s.vault.table - s.left) =
            s.left + allowance - request.price s.vault.plan s.vault.table := by omega
        rw [hleft] at hw
        rw [hfate]
        exact ⟨w, hw, hend.table, hend.plan, hend.lock⟩

end Session

end KeyLifecycle
