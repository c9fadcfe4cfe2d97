import KeyLifecycle.Proofs.Vault.Poll
import KeyLifecycle.Session
import KeyLifecycle.Store

/-!
# An operation of the store is one call

What an operation of the store does in a session: it draws key material if it issues a credential,
and then makes one request, whose answer is its own. `Progress.awaiting` is how far whoever waits
for a call has come; `KeyLifecycle.Procedure.run_ask` says that to make a request is to start a call
and to give it a turn, and `KeyLifecycle.Store.create_eq` and `KeyLifecycle.Store.rotate_eq` that
without key material there is no call at all.
-/

namespace KeyLifecycle

/-- How far whoever waits for a call has come: to its answer, once there is one. -/
def Progress.awaiting (v : Vault) (call : Nat) : Progress (Except Failure Reply) :=
  match v.answer? call with
  | some answer => .finished answer
  | none => .pending call .done

/-- To make a request is to start a call, to give it a turn, and to wait for its answer. -/
theorem Procedure.run_ask_eq (request : Request) (limit : Option Span) (s : Session) :
    (Procedure.ask request limit .done).run s =
      let turn := (s.vault.start request limit).poll s.vault.calls.length s.left
      (Progress.awaiting turn.2 s.vault.calls.length,
        { s with vault := turn.2, left := turn.1 }) := by
  rw [run, Session.call]
  unfold Progress.awaiting
  dsimp only [Session.poll]
  cases ((s.vault.start request limit).poll s.vault.calls.length s.left).2.answer?
    s.vault.calls.length <;> rfl

/-- To go on waiting is to give the call another turn. -/
theorem Progress.poll_pending (i : Nat) (s : Session) :
    (Progress.pending i Procedure.done).poll s = (.awaiting (s.poll i).vault i, s.poll i) := by
  unfold Progress.poll Progress.awaiting
  dsimp only
  cases (s.poll i).vault.answer? i <;> rfl

/-- **To make a request is to start a call**, and to make moves of that call. -/
theorem Procedure.run_ask (request : Request) (limit : Option Span) (s : Session) :
    ∃ turn left, (∀ m ∈ turn, m.call? = some s.vault.calls.length) ∧
      (Procedure.ask request limit .done).run s =
        (Progress.awaiting (s.vault.run (.start request limit :: turn)) s.vault.calls.length,
          { s with vault := s.vault.run (.start request limit :: turn), left := left }) := by
  obtain ⟨turn, ht, hm⟩ :=
    Vault.follows_poll (s.vault.start request limit) s.vault.calls.length s.left
  refine ⟨turn, ((s.vault.start request limit).poll s.vault.calls.length s.left).1, hm, ?_⟩
  -- the turn is the rest of the run, after the start
  have hv : s.vault.run (.start request limit :: turn) =
      ((s.vault.start request limit).poll s.vault.calls.length s.left).2 := ht.symm
  rw [hv, run_ask_eq]

/-- **A call that is started** stays, and keeps its request. -/
theorem Vault.exists_call_of_start (v : Vault) (request : Request) (limit : Option Span)
    (moves : List Move) :
    ∃ call, (v.run (.start request limit :: moves)).calls[v.calls.length]? = some call ∧
      call.request = request := by
  have hstart : (v.start request limit).calls[v.calls.length]? =
      some ⟨request, v.now, limit, request.firstPhase⟩ := by
    rw [start, List.getElem?_concat_length]
  exact exists_call_run hstart moves

/-! ### Requests that issue a credential -/

namespace Procedure

/-- Draws key material and makes a request with it; without key material, that is all. -/
def drawing (request : KeyMaterial → Request) (limit : Option Span) :
    Procedure (Except Failure Reply) :=
  .generate fun
    | .ok material => .ask (request material) limit .done
    | .error cause => .done (.error cause)

variable {request : KeyMaterial → Request} {limit : Option Span} {s : Session} {next : Generator}

theorem run_drawing_of_breakdown (h : s.generator.generate = (.breakdown, next)) :
    (drawing request limit).run s = (.crashed, { s with generator := next }) := by
  rw [drawing, run, h]

theorem run_drawing_of_failed {cause : Failure}
    (h : s.generator.generate = (.failed cause, next)) :
    (drawing request limit).run s = (.finished (.error cause), { s with generator := next }) := by
  rw [drawing, run, h]
  dsimp only
  rw [run]

theorem run_drawing_of_material {material : KeyMaterial}
    (h : s.generator.generate = (.material material, next)) :
    (drawing request limit).run s =
      (ask (request material) limit done).run { s with generator := next } := by
  rw [drawing, run, h]

/-- **With key material** there is a call, and there are moves of that call. -/
theorem run_drawing {material : KeyMaterial} (request : KeyMaterial → Request)
    (limit : Option Span) (h : s.generator.generate = (.material material, next)) :
    ∃ turn left, (∀ m ∈ turn, m.call? = some s.vault.calls.length) ∧
      let v := s.vault.run (.start (request material) limit :: turn)
      (drawing request limit).run s =
        (Progress.awaiting v s.vault.calls.length, ⟨s.directory, next, v, left⟩) := by
  rw [run_drawing_of_material h]
  exact run_ask (request material) limit { s with generator := next }

end Procedure

/-- **To rotate is to draw key material and then to make one request.** -/
theorem Store.rotate_eq (store : Store) (owner : UserId) (key : AccessKey) :
    store.rotate owner key = Procedure.drawing (.rotate owner key) (some store.limit) := by
  change Procedure.generate _ = Procedure.generate _
  congr 1
  funext answer
  cases answer <;> rfl

/-- **To create is to draw key material and then to make one request.** -/
theorem Store.create_eq (store : Store) (owner : UserId) :
    store.create owner = Procedure.drawing (.create owner) (some store.limit) := by
  change Procedure.generate _ = Procedure.generate _
  congr 1
  funext answer
  cases answer <;> rfl

end KeyLifecycle
