import KeyLifecycle.Proofs.Int64
import KeyLifecycle.Proofs.Store.Asking
import KeyLifecycle.Proofs.Vault.Changes

/-!
# Rotation is one unbreakable unit

A rotation takes a row out and puts a new one in. The two halves are done on the copy of its
transaction, and the copy becomes the table in one move, that of the answer. So whoever looks at the
table finds that a rotation has done both or neither, and a rotation that comes to nothing – for
want of randomness, of the row, or of a place for the new key, because the store fails, because its
time is used up or because nobody waits for it any more – has changed nothing.

* `Table.Replaces` is what both halves come to, and `Work.Reached.rotating` finds it at the end of
  the work, through all that may fail on the way;
* `Vault.rotation_account` says what a rotation has done by the end of any run, and
  `Vault.view_of_answered` that whoever looks at the table sees it as it stands between two moves;
* `rotation_is_one_unit` puts them together for the operation of the store.
-/

namespace KeyLifecycle

/-- **One row gives way to another**: the row of an owner and an access key, the only one with that
key, is taken out, and the row of a credential comes to the end with the next number and no moment
of use. All other rows stay as they are and keep their order. -/
def Table.Replaces (t : Table) (owner : UserId) (key : AccessKey) (c : Credential) (t' : Table) :
    Prop :=
  ∃ before row after,
    t.rows = before ++ row :: after ∧ row.owner = owner ∧ row.key = key ∧
    (∀ other ∈ before ++ after, other.key ≠ key) ∧
    t'.rows = before ++ after ++ [⟨⟨t.lastId + 1⟩, owner, c.key, c.secret, none⟩] ∧
    t'.lastId = t.lastId + 1 ∧ c.id = ⟨t.lastId + 1⟩ ∧ c.owner = owner

/-! ### The work of a rotation -/

namespace Work

variable {plans : FailurePlan → Prop} {owner : UserId} {key : AccessKey} {material : KeyMaterial}
  {t : Table} {rest : Work Reply} {handle : Handle}

/-- What can have become of a rotation that began with a table: it is before the delete, between the
delete and the insert, after the insert, or failing. -/
inductive Rotating (owner : UserId) (key : AccessKey) (material : KeyMaterial) (t : Table) :
    Work Reply → Handle → Prop
  | whole : Rotating owner key material t (revoke owner key (issue owner material)) (.opened t)
  | half {row : Row} {t₁ : Table} (hr : t.remove? owner key = some (row, t₁)) :
    Rotating owner key material t (issue owner material) (.opened t₁)
  | both {row : Row} {t₁ t₂ : Table} {c : Credential} (hr : t.remove? owner key = some (row, t₁))
      (hi : t₁.insert owner material = .ok (c, t₂)) :
    Rotating owner key material t (.done (.issued c)) (.opened t₂)
  | failing (cause : Failure) (handle : Handle) :
    Rotating owner key material t (.fail cause) handle

/-- **The stages of a rotation**, whatever fails and whenever it does. -/
theorem Reached.rotating
    (h : Reached plans (revoke owner key (issue owner material)) t rest handle) :
    Rotating owner key material t rest handle := by
  induction h with
  | opened => exact .whole
  | fault h _ _ ih => exact .failing _ _
  | @insert owner' material' next before after plan c h hp hi ih =>
    -- an insert is the second half: the row has been taken out
    generalize hrest : Work.insert owner' material' next = rest at ih
    cases ih with
    | half hr =>
      obtain ⟨rfl, rfl, rfl⟩ := Work.insert.inj hrest
      obtain ⟨-, -, t₂, ht, rfl⟩ := Handle.insert_eq_ok.mp hi
      exact .both hr ht
    | _ => simp [revoke] at hrest
  | @delete owner' key' next before after plan row h hp hd ih =>
    -- a delete is the first half
    generalize hrest : Work.delete owner' key' next = rest at ih
    cases ih with
    | whole =>
      obtain ⟨rfl, rfl, rfl⟩ := Work.delete.inj hrest
      obtain ⟨-, -, ⟨rfl, -, rfl⟩ | ⟨found, t₁, rfl, hr, rfl⟩⟩ := Handle.delete_eq_ok.mp hd
      · exact .failing _ _
      · exact .half hr
    | _ => simp [issue] at hrest
  | @pause duration next handle h ih =>
    generalize hrest : Work.pause duration next = rest at ih
    cases ih <;> simp [revoke, issue] at hrest

end Work

/-- **A rotation that is granted an answer** is granted a credential of its key material, which has
taken the place of the old one. -/
theorem Request.Grants.replaces {plans : FailurePlan → Prop} {owner : UserId} {key : AccessKey}
    {material : KeyMaterial} {reply : Reply} {t t' : Table}
    (h : (Request.rotate owner key material).Grants plans t reply t') (ht : t.HasDistinctKeys) :
    ∃ c, reply = .issued c ∧ c.key = material.key ∧ c.secret = material.secret ∧
      t.Replaces owner key c t' := by
  cases h with
  | work hw h =>
    obtain rfl := Option.some.inj hw
    generalize hrest : Work.done reply = rest at h
    cases h.rotating with
    | @both row t₁ t₂ c hr hi =>
      obtain rfl := Work.done.inj hrest
      obtain ⟨-, rfl, rfl⟩ := Table.insert_eq_ok.mp hi
      obtain ⟨before, after, hrows, hrows', hid, ho, hk⟩ := Table.remove?_eq_some hr
      refine ⟨_, rfl, rfl, rfl, before, row, after, hrows, ho, hk, ?_, ?_, ?_, ?_, rfl⟩
      · rw [← hk]
        exact Table.key_ne_of_remove? ht hrows
      · simp [Handle.opened, hrows', Table.fresh, Row.credential, hid]
      · simp [Handle.opened, hid]
      · simp [Table.fresh, Row.credential, hid]
    | _ => simp [Work.revoke, Work.issue] at hrest
  | look h => simp [Request.view?] at h

/-- A row that gives way to another leaves its mark: the numbers go on. -/
theorem Table.Replaces.ne {t t' : Table} {owner : UserId} {key : AccessKey} {c : Credential}
    (h : t.Replaces owner key c t') : t' ≠ t := by
  obtain ⟨before, row, after, -, -, -, -, -, hid, -⟩ := h
  rintro rfl
  exact Int64.add_one_ne _ hid.symm

/-! ### What a rotation has done -/

/-- Whether a request does nothing but look at the table, or stamp what it finds there. -/
def Request.isLook : Request → Bool
  | list _ => true
  | stamp _ _ => true
  | count => true
  | _ => false

namespace Vault

variable {v : Vault} {i j : Nat} {call : Call} {moves : List Move}
  {owner : UserId} {key : AccessKey} {material : KeyMaterial} {reply : Reply}

/-- **All or nothing**: the changes that a rotation has made are none, or one row has given way to
another. -/
def IsWholeOrNothing (owner : UserId) (key : AccessKey) (changes : List (Table × Table)) : Prop :=
  changes = [] ∨ ∃ t c t', changes = [(t, t')] ∧ t.Replaces owner key c t'

/-- **The account of a rotation**, at the end of a run that began without it. -/
theorem rotation_account (hv : v.Orderly fun _ => True) (hn : v.calls[i]? = none)
    (hc : (v.run moves).calls[i]? = some call) (hr : call.request = .rotate owner key material) :
    (∃ c t t', call.phase = .answered (.ok (.issued c)) ∧ c.key = material.key ∧
        c.secret = material.secret ∧ v.changesBy i moves = [(t, t')] ∧ t.Replaces owner key c t') ∨
      ((∀ reply, call.phase ≠ .answered (.ok reply)) ∧ v.changesBy i moves = []) := by
  have hplain : call.request.IsPlain := by
    rw [hr]
    exact Request.isPlain_of_ne (by simp) (by simp)
  cases accounts hv (fun _ _ => trivial) hn hc hplain with
  | @granted reply before after m hp hs hi hg he =>
    rw [hr] at hg
    obtain ⟨c, rfl, hk, hsec, hrep⟩ := hg.replaces (hv.run fun _ _ => trivial).distinct
    refine Or.inl ⟨c, (v.run before).table, (v.run (before ++ [m])).table, hp, hk, hsec, ?_, hrep⟩
    have hne := hrep.ne
    rw [run_append, run_cons, run_nil] at hne ⊢
    rw [he, changeBy, if_pos ⟨hi, hne⟩]
  | idle hp he => exact Or.inr ⟨hp, he⟩

/-- **Whoever looks sees the table as it stands** between two moves. -/
theorem view_of_answered (hv : v.Orderly fun _ => True) (hn : v.calls[j]? = none)
    (hc : (v.run moves).calls[j]? = some call) (hl : call.request.isLook = true)
    (ha : (v.run moves).answer? j = some (.ok reply)) :
    ∃ seen rest, moves = seen ++ rest ∧
      call.request.view? (v.run seen).table = some reply := by
  have hlease : call.request ≠ .lease := by
    rintro h
    simp [h, Request.isLook] at hl
  have hwork : call.request.work? = none := by
    cases h : call.request <;> simp [h, Request.isLook] at hl <;> rfl
  have hplain : call.request.IsPlain := ⟨hlease, fun work hw => by simp [hwork] at hw⟩
  have hp := ((hv.run fun _ _ => trivial).answer?_eq_some hc hlease).mp ha
  cases accounts hv (fun _ _ => trivial) hn hc hplain with
  | granted hp' hs _ hg _ =>
    obtain rfl := Except.ok.inj (Phase.answered.inj (hp'.symm.trans hp))
    exact ⟨_, _, hs, hg.view hwork⟩
  | idle hp' _ => exact absurd hp (hp' reply)

/-- What a rotation has done before the end of a run is all or nothing, too. -/
theorem isWholeOrNothing_of_seen {seen rest : List Move} (hv : v.Orderly fun _ => True)
    (hn : v.calls[i]? = none) (hc : (v.run (seen ++ rest)).calls[i]? = some call)
    (hr : call.request = .rotate owner key material) :
    IsWholeOrNothing owner key (v.changesBy i seen) := by
  cases hs : (v.run seen).calls[i]? with
  | none => exact Or.inl (changesBy_of_absent hs)
  | some early =>
    -- the call was there already, and it was the same rotation
    obtain ⟨late, hlate, hreq⟩ := exists_call_run hs rest
    rw [run_append, hlate] at hc
    obtain rfl := Option.some.inj hc
    rcases rotation_account hv hn hs (hreq.symm.trans hr) with
      ⟨c, t, t', -, -, -, he, hrep⟩ | ⟨-, he⟩
    · exact Or.inr ⟨t, c, t', he, hrep⟩
    · exact Or.inl he

end Vault

/-- **Rotation is one unbreakable unit.** A session in which anything may have happened rotates a
key. Without key material nothing happens but the draw; with it there is one call. Whatever
happens after that – turns of that call and of others, the passing of time, a drop, other failures
to come – the call has changed the table, if it has been answered `ok`, by the replacement of the
one row by the row of the answer, and not at all if it has not. And whoever has been answered a
look at the table has seen a moment at which the rotation had done all or nothing. -/
theorem rotation_is_one_unit (store : Store) (owner : UserId) (key : AccessKey)
    (users : Directory) (generator : Generator) (left : Nat) (trail : List Move) :
    let s : Session := ⟨users, generator, Vault.empty.run trail, left⟩
    match generator.generate with
    | (.breakdown, next) =>
      Procedure.run (store.rotate owner key) s = (.crashed, { s with generator := next })
    | (.failed cause, next) =>
      Procedure.run (store.rotate owner key) s =
        (.finished (.error cause), { s with generator := next })
    | (.material material, next) =>
      let i := s.vault.calls.length
      ∃ turn left', (∀ m ∈ turn, m.call? = some i) ∧
        let trail' := trail ++ .start (.rotate owner key material) (some store.limit) :: turn
        Procedure.run (store.rotate owner key) s =
            (.awaiting (Vault.empty.run trail') i,
              ⟨users, next, Vault.empty.run trail', left'⟩) ∧
          ∀ future,
            let moves := trail' ++ future
            let v := Vault.empty.run moves
            (match v.answer? i with
              | some (.ok reply) => ∃ c t t', reply = .issued c ∧ c.key = material.key ∧
                  c.secret = material.secret ∧ Vault.empty.changesBy i moves = [(t, t')] ∧
                  t.Replaces owner key c t'
              | _ => Vault.empty.changesBy i moves = []) ∧
            ∀ j other reply, v.calls[j]? = some other → other.request.isLook = true →
              v.answer? j = some (.ok reply) →
                ∃ seen rest, moves = seen ++ rest ∧
                  other.request.view? (Vault.empty.run seen).table = some reply ∧
                  Vault.IsWholeOrNothing owner key (Vault.empty.changesBy i seen) := by
  intro s
  rw [Store.rotate_eq]
  split
  · rename_i next hg
    exact Procedure.run_drawing_of_breakdown hg
  · rename_i cause next hg
    exact Procedure.run_drawing_of_failed hg
  · rename_i material next hg
    intro i
    obtain ⟨turn, left', hturn, hrun⟩ := Procedure.run_ask (.rotate owner key material)
      (some store.limit) { s with generator := next }
    refine ⟨turn, left', hturn, ?_⟩
    intro trail'
    have htrail : Vault.empty.run trail' =
        (Vault.empty.run trail).run
          (.start (.rotate owner key material) (some store.limit) :: turn) :=
      Vault.run_append ..
    refine ⟨?_, ?_⟩
    · rw [Procedure.run_drawing_of_material hg, hrun, htrail]
    · intro future moves v
      have hv := Vault.orderly_empty
      obtain ⟨call, hc, hr⟩ : ∃ call, v.calls[i]? = some call ∧
          call.request = .rotate owner key material := by
        have hstart : (s.vault.start (.rotate owner key material) (some store.limit)).calls[i]? =
            some ⟨.rotate owner key material, s.vault.now, some store.limit, .asking⟩ := by
          rw [Vault.start, List.getElem?_concat_length]
          rfl
        obtain ⟨call, hc, hr⟩ := Vault.exists_call_run hstart (turn ++ future)
        refine ⟨call, ?_, hr⟩
        rw [← hc]
        simp [v, moves, trail', s, Vault.move]
      refine ⟨?_, ?_⟩
      · have horderly : v.Orderly fun _ => True := hv.run fun _ _ => trivial
        have hanswer (answer : Except Failure Reply) :
            v.answer? i = some answer ↔ call.phase = .answered answer :=
          horderly.answer?_eq_some hc (by simp [hr])
        rcases Vault.rotation_account hv rfl hc hr with
          ⟨c, t, t', hp, hk, hsec, he, hrep⟩ | ⟨hp, he⟩
        · rw [(hanswer _).mpr hp]
          exact ⟨c, t, t', rfl, hk, hsec, he, hrep⟩
        · split
          · rename_i reply ha
            exact absurd ((hanswer _).mp ha) (hp reply)
          · exact he
      · intro j other reply hj hl ha
        obtain ⟨seen, rest, hs, hview⟩ := Vault.view_of_answered hv rfl hj hl ha
        rw [show v = Vault.empty.run (seen ++ rest) by rw [← hs]] at hc
        exact ⟨seen, rest, hs, hview, Vault.isWholeOrNothing_of_seen hv rfl hc hr⟩

end KeyLifecycle
