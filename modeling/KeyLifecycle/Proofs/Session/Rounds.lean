import KeyLifecycle.Proofs.Session.Beats

/-!
# What runs side by side is a course

`Session.together` runs procedures side by side, in rounds, while somebody else may hold the table
for some time. If each of them is an operation of the store (`Procedure.IsOperation`), every turn in
a round is one beat, and so is everything that happens between the rounds: a holder who lets go, a
new allowance, the passing of time, and the end of patience. So what operations come to side by side
is a stage of a course (`KeyLifecycle.Session.exists_course_together`), as is what one operation
comes to by itself (`KeyLifecycle.Session.comes_perform`). Whatever is said of all courses is said
of both.
-/

namespace KeyLifecycle

/-- **Operations of the store**: they make one request, for which they may draw key material
(`KeyLifecycle.Store.create_eq`, `KeyLifecycle.Store.rotate_eq`). -/
inductive Procedure.IsOperation : Procedure (Except Failure Reply) → Prop
  | ask (request : Request) (limit : Option Span) : IsOperation (.ask request limit .done)
  | drawing (request : KeyMaterial → Request) (limit : Option Span) :
    IsOperation (.drawing request limit)

/-- How far an operation of the store has come. -/
inductive Progress.IsOperation : Progress (Except Failure Reply) → Prop
  | ready {procedure : Procedure (Except Failure Reply)} (h : procedure.IsOperation) :
    IsOperation (.ready procedure)
  | pending (call : Nat) : IsOperation (.pending call .done)
  | finished (answer : Except Failure Reply) : IsOperation (.finished answer)
  | crashed : IsOperation .crashed
  | givenUp : IsOperation .givenUp

namespace Session

variable {s t u : Session} {p : Progress (Except Failure Reply)}
  {ps : List (Progress (Except Failure Reply))}

/-! ### Some beats -/

/-- A session goes over to another in some beats. -/
def Comes (s t : Session) : Prop := ∃ bs : List Beat, t = bs.foldl beat s

theorem comes_refl (s : Session) : s.Comes s := ⟨[], rfl⟩

theorem comes_beat (s : Session) (b : Beat) : s.Comes (s.beat b) := ⟨[b], rfl⟩

theorem Comes.trans (hst : s.Comes t) (htu : t.Comes u) : s.Comes u := by
  obtain ⟨before, rfl⟩ := hst
  obtain ⟨after, rfl⟩ := htu
  exact ⟨before ++ after, (List.foldl_append ..).symm⟩

/-- Beats in a row are the first ones of every course that begins with them. -/
theorem foldl_beat (s : Session) {beats : Nat → Beat} (bs : List Beat)
    (h : ∀ m b, bs[m]? = some b → beats m = b) : bs.foldl beat s = s.course beats bs.length := by
  induction bs using List.reverseRecOn with
  | nil => rfl
  | append_singleton bs b ih =>
    have hlast : beats bs.length = b := h _ _ List.getElem?_concat_length
    have hfirst := ih fun m b hm => h m b (by
      rw [List.getElem?_append_left (List.getElem?_eq_some_iff.mp hm).1, hm])
    rw [List.foldl_append, hfirst, List.length_append, List.length_singleton, course, hlast]
    rfl

/-- **Where a session comes to in some beats is a stage of a course.** -/
theorem Comes.exists_course (h : s.Comes t) : ∃ beats n, t = s.course beats n := by
  obtain ⟨bs, rfl⟩ := h
  refine ⟨fun m => bs[m]?.getD (.allow 0), bs.length, foldl_beat s bs fun m b hm => ?_⟩
  rw [hm, Option.getD_some]

/-! ### One turn -/

theorem isOperation_awaiting (v : Vault) (call : Nat) :
    (Progress.awaiting v call).IsOperation := by
  unfold Progress.awaiting
  split
  · exact .finished _
  · exact .pending call

/-- **A turn of an operation is a beat**, if it is one at all. -/
theorem comes_poll (h : p.IsOperation) (s : Session) :
    (p.poll s).1.IsOperation ∧ s.Comes (p.poll s).2 := by
  cases h with
  | ready h =>
    cases h with
    | ask request limit =>
      refine ⟨?_, s.comes_beat (.ask request limit)⟩
      rw [Progress.poll_ready, Procedure.run_ask_eq]
      exact isOperation_awaiting _ _
    | drawing request limit =>
      refine ⟨?_, s.comes_beat (.draw request limit)⟩
      rw [Progress.poll_ready]
      cases hg : s.generator.generate with
      | mk result next =>
        cases result with
        | material material =>
          rw [Procedure.run_drawing_of_material hg, Procedure.run_ask_eq]
          exact isOperation_awaiting _ _
        | failed cause =>
          rw [Procedure.run_drawing_of_failed hg]
          exact .finished _
        | breakdown =>
          rw [Procedure.run_drawing_of_breakdown hg]
          exact .crashed
  | pending call =>
    rw [Progress.poll_pending]
    exact ⟨isOperation_awaiting _ _, s.comes_beat (.turn call)⟩
  | finished answer => exact ⟨.finished answer, s.comes_refl⟩
  | crashed => exact ⟨.crashed, s.comes_refl⟩
  | givenUp => exact ⟨.givenUp, s.comes_refl⟩

/-- To give an operation up is to interrupt its call. -/
theorem comes_giveUp (h : p.IsOperation) (s : Session) :
    (p.giveUp s).1.IsOperation ∧ s.Comes (p.giveUp s).2 := by
  cases h with
  | ready h => exact ⟨.givenUp, s.comes_refl⟩
  | pending call => exact ⟨.givenUp, s.comes_beat (.interrupt call)⟩
  | finished answer => exact ⟨.finished answer, s.comes_refl⟩
  | crashed => exact ⟨.crashed, s.comes_refl⟩
  | givenUp => exact ⟨.givenUp, s.comes_refl⟩

/-! ### Rounds -/

/-- What is done with each of some operations is done one after the other. -/
theorem comes_each {turn : Progress (Except Failure Reply) → Session →
      Progress (Except Failure Reply) × Session}
    (hturn : ∀ {p}, p.IsOperation → ∀ s, (turn p s).1.IsOperation ∧ Comes s (turn p s).2)
    (hps : ∀ p ∈ ps, p.IsOperation) (s : Session) :
    (∀ p ∈ (each turn ps s).1, p.IsOperation) ∧ s.Comes (each turn ps s).2 := by
  induction ps generalizing s with
  | nil => exact ⟨hps, s.comes_refl⟩
  | cons p rest ih =>
    obtain ⟨hp, hrest⟩ := List.forall_mem_cons.mp hps
    obtain ⟨hafter, hcomes⟩ := hturn hp s
    obtain ⟨hothers, hmore⟩ := ih hrest (turn p s).2
    exact ⟨List.forall_mem_cons.mpr ⟨hafter, hothers⟩, hcomes.trans hmore⟩

/-- A holder whose moment has come is dropped. -/
theorem comes_letGo (holder : Option Holder) (s : Session) : s.Comes (letGo holder s).2 := by
  cases holder with
  | none => exact s.comes_refl
  | some h =>
    rw [letGo]
    split
    · exact (s.comes_beat (.drop h.call)).trans (comes_beat _ (.allow (s.left - 1)))
    · exact s.comes_refl

/-- Between two rounds time passes, if it does, and there is a new allowance. -/
theorem comes_recover (last : Nat) (holder : Option Holder)
    (ps : List (Progress (Except Failure Reply))) (s : Session) :
    s.Comes (recover last holder ps s) := by
  rw [recover]
  split
  · exact s.comes_beat (.allow allowance)
  · exact (s.comes_beat (.pass _)).trans (comes_beat _ (.allow allowance))

/-- **Rounds are beats**, however many there are. -/
theorem comes_rounds (last fuel : Nat) (holder : Option Holder)
    (hps : ∀ p ∈ ps, p.IsOperation) (s : Session) :
    s.Comes (rounds last fuel holder ps s).2 := by
  induction fuel generalizing holder ps s with
  | zero => exact (comes_each comes_giveUp hps s).2
  | succ fuel ih =>
    obtain ⟨hafter, hturns⟩ := comes_each comes_poll hps s
    have hround := hturns.trans (comes_letGo holder (each Progress.poll ps s).2)
    rw [rounds]
    dsimp only
    split
    · exact hround
    · split
      · exact hround.trans ((comes_beat _ (.allow _)).trans (comes_each comes_giveUp hafter _).2)
      · exact hround.trans ((comes_recover last _ _ _).trans (ih _ hafter _))

/-- To run one operation is to come by beats, too. -/
theorem comes_perform {procedure : Procedure (Except Failure Reply)}
    (h : procedure.IsOperation) (patience : Span) (s : Session) :
    s.Comes (s.perform procedure patience).2 := by
  have hone : ∀ p ∈ [Progress.ready procedure], p.IsOperation :=
    List.forall_mem_singleton.mpr (.ready h)
  have hrounds := comes_rounds (s.vault.now + patience) (roundsAtRest + patience) none hone s
  rw [perform, settleOne, settle]
  split
  · rename_i hs
    rwa [hs] at hrounds
  · rename_i hs
    rwa [hs] at hrounds

/-- **What operations come to side by side** is a stage of a course. -/
theorem exists_course_together {procedures : List (Procedure (Except Failure Reply))}
    (h : ∀ procedure ∈ procedures, procedure.IsOperation) (hold : Option Span) (patience : Span)
    (s : Session) :
    ∃ beats n, (s.together procedures hold patience).2 = s.course beats n := by
  have hready : ∀ p ∈ procedures.map Progress.ready, p.IsOperation := by
    rw [List.forall_mem_map]
    exact fun procedure hp => .ready (h procedure hp)
  refine Comes.exists_course ?_
  cases hold with
  | none => exact comes_rounds _ _ none hready s
  | some duration =>
    have hlease : s.Comes (s.lease patience).2 := by
      have hcomes : s.Comes (s.perform (Operation.ask .lease none) patience).2 :=
        comes_perform (.ask .lease none) patience s
      rw [lease]
      split
      · rename_i hs
        rwa [hs] at hcomes
      · rename_i hs
        rwa [hs] at hcomes
    rw [together]
    split
    · rename_i hl
      rw [hl] at hlease
      exact hlease.trans (comes_each comes_giveUp hready _).2
    · rename_i call t hl
      rw [hl] at hlease
      exact hlease.trans ((comes_rounds _ _ _ hready t).trans (comes_beat _ (.drop call)))

end Session

end KeyLifecycle
