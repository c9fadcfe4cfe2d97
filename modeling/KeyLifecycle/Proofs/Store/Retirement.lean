import KeyLifecycle.Proofs.Store.Rotation

/-!
# A key that has been replaced

After a rotation the key that was replaced is out of use, and comes back only if somebody issues it
again. That a key that is not in the table comes into it by being issued and in no other way is a
matter of following it back: through the moves of a run to the move that published it
(`Vault.reissues_of_mem_keys`), from there to the call whose copy that was, and through the steps of
its work to the insert (`Work.Reached.offers`).

One thing does not follow, since nobody looks for it: that the new key is another one. The key is
compared with those of the copy, from which the old row has been taken out by then. So a rotation
whose generator delivers the old key again succeeds, and the key that was to be replaced is still
there (`KeyLifecycle.rotated_key_may_stay_in_use`). This is the only way in which it can be
(`KeyLifecycle.rotated_key_is_out_of_use_unless_drawn_again`).
-/

namespace KeyLifecycle

/-! ### The keys of a table -/

namespace Table

variable {t t' : Table} {owner : UserId} {key other : AccessKey} {material : KeyMaterial}
  {c : Credential} {row : Row}

theorem keys_stamped (t : Table) (request : Request) : (request.stamped t).keys = t.keys := by
  cases request with
  | stamp key moment =>
    rw [Request.stamped]
    cases hs : t.stamp? key moment with
    | none => rfl
    | some table =>
      obtain ⟨-, rfl⟩ := stamp?_eq_some.mp hs
      exact map_stampRows _ (fun _ _ => rfl) key moment t.rows
  | _ => rfl

/-- **The keys after a rotation** are those before it without the old one, and the new one. -/
theorem Replaces.mem_keys (h : t.Replaces owner key c t') :
    other ∈ t'.keys ↔ (other ∈ t.keys ∧ other ≠ key) ∨ other = c.key := by
  obtain ⟨before, row, after, hrows, -, rfl, hne, hrows', -⟩ := h
  have hrest : other ∈ (before ++ after).map (·.key) ↔ other ∈ t.keys ∧ other ≠ row.key := by
    constructor
    · intro hk
      obtain ⟨old, hold, rfl⟩ := List.mem_map.mp hk
      refine ⟨?_, hne old hold⟩
      rw [keys, hrows]
      refine List.mem_map_of_mem ?_
      rw [List.mem_append] at hold
      rw [List.mem_append, List.mem_cons]
      exact hold.imp_right Or.inr
    · rintro ⟨hk, hother⟩
      rw [keys, hrows, List.map_append, List.map_cons, List.mem_append, List.mem_cons] at hk
      rw [List.map_append, List.mem_append]
      exact hk.imp_right fun hk => hk.resolve_left hother
  rw [keys, hrows', List.map_append, List.mem_append, hrest]
  simp

/-- The new key of a rotation is nobody's, unless it is the old one. -/
theorem Replaces.key_of_mem (h : t.Replaces owner key c t') (ht' : t'.HasDistinctKeys)
    (hk : c.key ∈ t.keys) : c.key = key := by
  obtain ⟨before, row, after, hrows, -, rfl, -, hrows', -⟩ := h
  rw [HasDistinctKeys, keys, hrows', List.map_append] at ht'
  have hnew : c.key ∉ (before ++ after).map (·.key) := by
    intro hold
    exact (List.nodup_append.mp ht').2.2 _ hold _ (List.mem_singleton_self _) rfl
  rw [List.map_append, List.mem_append, not_or] at hnew
  rw [keys, hrows, List.map_append, List.map_cons, List.mem_append, List.mem_cons] at hk
  exact (hk.resolve_left hnew.1).resolve_right hnew.2

end Table

/-! ### Who may issue a key -/

namespace Work

variable {plans : FailurePlan → Prop} {work rest : Work Reply} {t : Table} {handle : Handle}
  {key : AccessKey}

/-- **Work that may issue a key**, depending on what it is answered. -/
def Offers {α : Type} (key : AccessKey) : Work α → Prop
  | done _ => False
  | fail _ => False
  | insert _ material next => key = material.key ∨ ∃ credential, (next credential).Offers key
  | delete _ _ next => ∃ yes, (next yes).Offers key
  | commit next => next.Offers key
  | rollback next => next.Offers key
  | pause _ next => next.Offers key

/-- **Work comes by a key only by issuing it**: what is left of the work issues only what the work
may issue, and a key of the copy was there before or has been issued. -/
theorem Reached.offers (h : Reached plans work t rest handle) :
    (rest.Offers key → work.Offers key) ∧
      (key ∈ handle.staged.keys → key ∈ t.keys ∨ work.Offers key) := by
  induction h with
  | opened => exact ⟨id, Or.inl⟩
  | insert h hp hi ih =>
    obtain ⟨-, -, t', ht, rfl⟩ := Handle.insert_eq_ok.mp hi
    refine ⟨fun hrest => ih.1 (Or.inr ⟨_, hrest⟩), fun hk => ?_⟩
    rcases (Table.mem_keys_insert ht).mp hk with hold | hnew
    · exact ih.2 hold
    · exact Or.inr (ih.1 (Or.inl hnew))
  | delete h hp hd ih =>
    refine ⟨fun hrest => ih.1 ⟨_, hrest⟩, fun hk => ih.2 ?_⟩
    obtain ⟨-, -, ⟨-, -, rfl⟩ | ⟨found, t', -, ht, rfl⟩⟩ := Handle.delete_eq_ok.mp hd
    · exact hk
    · exact Table.mem_keys_of_remove? ht hk
  | fault h hp hf ih => exact ⟨False.elim, ih.2⟩
  | pause h ih => exact ih

end Work

/-- **A request that may issue a key.** Of a lease nobody knows what it will be asked. -/
def Request.Offers (key : AccessKey) : Request → Prop
  | create _ material => key = material.key
  | rotate _ _ material => key = material.key
  | unit _ work => work.Offers key
  | lease => True
  | _ => False

theorem Request.offers_of_work {request : Request} {work : Work Reply} {key : AccessKey}
    (hw : request.work? = some work) (h : work.Offers key) : request.Offers key := by
  cases request with
  | unit name work' =>
    obtain rfl := Option.some.inj hw
    exact h
  | create owner material | rotate owner key' material =>
    obtain rfl := Option.some.inj hw
    have hkey : key = material.key := by simpa [Work.revoke, Work.issue, Work.Offers] using h
    exact hkey
  | delete owner key' =>
    obtain rfl := Option.some.inj hw
    simp [Work.revoke, Work.Offers] at h
  | _ => simp [work?] at hw

namespace Vault

variable {v w : Vault} {i j : Nat} {call : Call} {e : Effect} {moves after : List Move}
  {key : AccessKey} {reply : Reply}

/-- **A key comes into the table** by a deed of a call that may issue it. -/
theorem Deed.offers (hd : v.Deed i call e) (hv : v.Orderly fun _ => True)
    (hc : v.calls[i]? = some call) (hk : key ∈ e.table.keys) :
    key ∈ v.table.keys ∨ call.request.Offers key := by
  -- what is published is the copy of a lease, or of work that has come that far
  have published {rest : Work Reply} {handle : Handle} (hp : call.phase = .working rest handle)
      (ho : handle.isOpen = true) (hk : key ∈ handle.staged.keys) :
      key ∈ v.table.keys ∨ call.request.Offers key := by
    have hi : call.phase.inside? = some (rest, handle) := by rw [hp, Phase.inside?]
    rcases hv.works hc hi with hl | ⟨work, hw⟩
    · exact Or.inr (by rw [hl]; trivial)
    · exact ((hv.copies hc hw hi ho).offers.2 hk).imp_right (Request.offers_of_work hw)
  cases hd with
  | look hp hl h =>
    rw [Table.keys_stamped] at hk
    exact Or.inl hk
  | commit hp ho => exact published hp ho hk
  | succeed hp _ ho => exact published hp ho hk
  | _ => exact Or.inl hk

/-- **A key has been issued in a run**: a call that may issue it has brought it into the table,
where it was not. -/
def Reissues (v : Vault) (moves : List Move) (key : AccessKey) : Prop :=
  ∃ i call t t', (v.run moves).calls[i]? = some call ∧ call.request.Offers key ∧
    (t, t') ∈ v.changesBy i moves ∧ key ∉ t.keys ∧ key ∈ t'.keys

theorem Reissues.append (h : v.Reissues moves key) (later : List Move) :
    v.Reissues (moves ++ later) key := by
  obtain ⟨i, call, t, t', hc, hr, hchange, hk, hk'⟩ := h
  obtain ⟨call', hc', hr'⟩ := exists_call_run hc later
  rw [← run_append] at hc'
  refine ⟨i, call', t, t', hc', hr' ▸ hr, ?_, hk, hk'⟩
  rw [changesBy_append]
  exact List.mem_append_left _ hchange

/-- **Where a key comes from**: if it was not in the table and now it is, it has been issued in the
meantime. -/
theorem reissues_of_mem_keys (hv : v.Orderly fun _ => True) (hk : key ∉ v.table.keys)
    (hk' : key ∈ (v.run moves).table.keys) : v.Reissues moves key := by
  induction moves using List.reverseRecOn with
  | nil => exact absurd hk' hk
  | append_singleton moves m ih =>
    by_cases hmem : key ∈ (v.run moves).table.keys
    · exact (ih hmem).append [m]
    -- the last move has issued it
    · have hw : (v.run moves).Orderly fun _ => True := hv.run fun _ _ => trivial
      rw [run_append, run_cons, run_nil] at hk'
      rcases move_cases (v.run moves) m with
        ⟨request, limit, rfl⟩ | ⟨-, ht⟩ | ⟨i, call, e, hi, hc, he, hd⟩
      · exact absurd hk' hmem
      · rw [ht] at hk'
        exact absurd hk' hmem
      · have hchanged : ((v.run moves).move m).table ≠ (v.run moves).table := by
          intro ht
          rw [ht] at hk'
          exact hmem hk'
        obtain ⟨call', hc', hr'⟩ := exists_call_move hc m
        refine ⟨i, call', (v.run moves).table, ((v.run moves).move m).table, ?_, ?_, ?_, hmem, hk'⟩
        · rw [run_append, run_cons, run_nil, hc']
        · rw [he, amend_table] at hk'
          rw [hr']
          exact (hd.offers hw hc hk').resolve_left hmem
        · rw [changesBy_concat, changeBy, if_pos ⟨hi, hchanged⟩]
          exact List.mem_append_right _ (List.mem_singleton_self _)

/-! ### Whoever looks later -/

/-- **Whoever has not been answered yet** and is answered a look at the table has looked at it
since. -/
theorem view_of_unanswered (hv : v.Orderly fun _ => True) (hn : v.answer? j = none)
    (hc : (v.run moves).calls[j]? = some call) (hl : call.request.isLook = true)
    (ha : (v.run moves).answer? j = some (.ok reply)) :
    ∃ seen rest, moves = seen ++ rest ∧ call.request.view? (v.run seen).table = some reply := by
  have hlease : call.request ≠ .lease := by
    intro h
    simp [h, Request.isLook] at hl
  have hwork : call.request.work? = none := by
    cases h : call.request <;> simp [h, Request.isLook] at hl <;> rfl
  have hplain : call.request.IsPlain := ⟨hlease, fun work hw => by simp [hwork] at hw⟩
  induction moves using List.reverseRecOn generalizing call with
  | nil =>
    rw [run_nil, hn] at ha
    simp at ha
  | append_singleton moves m ih =>
    have hw : (v.run moves).Orderly fun _ => True := hv.run fun _ _ => trivial
    have hp := ((hv.run fun _ _ => trivial).answer?_eq_some hc hlease).mp ha
    -- a call that had been answered so before
    have earlier (hc₀ : (v.run moves).calls[j]? = some call) :
        ∃ seen rest, moves ++ [m] = seen ++ rest ∧
          call.request.view? (v.run seen).table = some reply := by
      obtain ⟨seen, rest, hs, hview⟩ :=
        ih hc₀ hl ((hw.answer?_eq_some hc₀ hlease).mpr hp) hlease hwork hplain
      exact ⟨seen, rest ++ [m], by rw [hs, List.append_assoc], hview⟩
    rw [run_append, run_cons, run_nil] at hc
    by_cases hj : m.call? = some j
    · cases hc₀ : (v.run moves).calls[j]? with
      | none =>
        rw [move_of_absent hj hc₀, hc₀] at hc
        simp at hc
      | some call₀ =>
        rcases move_eq_or_deed hj hc₀ with he | ⟨e, he, hd⟩
        · rw [he] at hc
          exact earlier hc
        · rw [he, amend_calls_self hc₀] at hc
          obtain rfl := Option.some.inj hc
          have hphase : e.phase = .answered (.ok reply) := hp
          rcases hd.grants hw hc₀ hplain with ⟨reply', hp', hg⟩ | ⟨hno, -⟩
          · obtain rfl := Except.ok.inj (Phase.answered.inj (hp'.symm.trans hphase))
            exact ⟨moves, [m], rfl, hg.view hwork⟩
          · exact absurd hphase (hno reply)
    · rcases move_calls_cases hj hc with hc₀ | ⟨-, hfirst⟩
      · exact earlier hc₀
      · exact absurd (hfirst.symm.trans hp) (firstPhase_ne_answered _ _)

/-- **A key is out of use from a moment on**: it is in the table only after it has been issued
again, and until then nobody who has not been answered yet is told that it has been found. -/
def IsOutOfUse (w : Vault) (after : List Move) (key : AccessKey) : Prop :=
  ∀ seen rest, after = seen ++ rest →
    (key ∈ (w.run seen).table.keys → w.Reissues seen key) ∧
      ∀ j call moment reply, w.answer? j = none → (w.run seen).calls[j]? = some call →
        call.request = .stamp key moment → (w.run seen).answer? j = some (.ok reply) →
          reply = .found false ∨ (reply = .found true ∧ w.Reissues seen key)

/-- **What is not in the table is out of use.** -/
theorem isOutOfUse (hw : w.Orderly fun _ => True) (hk : key ∉ w.table.keys) (after : List Move) :
    w.IsOutOfUse after key := by
  intro seen rest hs
  refine ⟨reissues_of_mem_keys hw hk, ?_⟩
  intro j call moment reply hn hc hr ha
  obtain ⟨early, late, hs', hview⟩ := view_of_unanswered hw hn hc (by rw [hr]; rfl) ha
  rw [hr, Request.view?] at hview
  obtain rfl := Option.some.inj hview
  cases hfound : (w.run early).table.hasKey key with
  | false => exact Or.inl rfl
  | true =>
    have hmem : key ∈ (w.run early).table.keys := Table.hasKey_iff.mp hfound
    rw [hs']
    exact Or.inr ⟨rfl, (reissues_of_mem_keys hw hk hmem).append late⟩

end Vault

/-- **A key that has been rotated is out of use, unless it was drawn again.** A session in which
anything may have happened rotates a key. Without key material there is no answer but a failure.
With it there is one call; and whatever happens after that, if it is answered `ok`, it is answered a
credential of that material, and there is a move of the call in which the row of the old key has
given way to that of the new one. The new key is then nobody else's, and the old one is still there
only if it is the new one. Otherwise it is out of use from that moment on: it comes back only if a
call that may issue it does so, and until then whoever notes its use is told that it has not been
found. -/
theorem rotated_key_is_out_of_use_unless_drawn_again (store : Store) (owner : UserId)
    (key : AccessKey) (users : Directory) (generator : Generator) (left : Nat)
    (trail : List Move) :
    let s : Session := ⟨users, generator, Vault.empty.run trail, left⟩
    match generator.generate with
    | (.breakdown, next) =>
      Procedure.run (store.rotate owner key) s = (.crashed, { s with generator := next })
    | (.failed cause, next) =>
      Procedure.run (store.rotate owner key) s =
        (.finished (.error cause), { s with generator := next })
    | (.material material, next) =>
      let i := s.vault.calls.length
      ∃ turn left', (∀ m ∈ turn, m.call? = some i) ∧
        let trail' := trail ++ .start (.rotate owner key material) (some store.limit) :: turn
        Procedure.run (store.rotate owner key) s =
            (.awaiting (Vault.empty.run trail') i,
              ⟨users, next, Vault.empty.run trail', left'⟩) ∧
          ∀ future reply, (Vault.empty.run (trail' ++ future)).answer? i = some (.ok reply) →
            ∃ c before m after, reply = .issued c ∧ c.key = material.key ∧
              c.secret = material.secret ∧ trail' ++ future = before ++ m :: after ∧
              m.call? = some i ∧
              let v := Vault.empty.run before
              let w := v.move m
              v.table.Replaces owner key c w.table ∧ (c.key ∈ v.table.keys → c.key = key) ∧
                (key ∈ w.table.keys ↔ c.key = key) ∧ (c.key ≠ key → w.IsOutOfUse after key) := by
  intro s
  rw [Store.rotate_eq]
  split
  · rename_i next hg
    exact Procedure.run_drawing_of_breakdown hg
  · rename_i cause next hg
    exact Procedure.run_drawing_of_failed hg
  · rename_i material next hg
    intro i
    obtain ⟨turn, left', hturn, hrun⟩ := Procedure.run_drawing (s := s) (.rotate owner key)
      (some store.limit) hg
    refine ⟨turn, left', hturn, ?_⟩
    intro trail'
    have htrail : Vault.empty.run trail' =
        (Vault.empty.run trail).run
          (.start (.rotate owner key material) (some store.limit) :: turn) :=
      Vault.run_append ..
    refine ⟨?_, ?_⟩
    · rw [hrun, htrail]
    · intro future reply ha
      have hv := Vault.orderly_empty
      obtain ⟨call, hc, hr⟩ := Vault.exists_call_of_start (Vault.empty.run trail)
        (.rotate owner key material) (some store.limit) (turn ++ future)
      rw [← Vault.run_append, ← List.cons_append, ← List.append_assoc] at hc
      have horderly : (Vault.empty.run (trail' ++ future)).Orderly fun _ => True :=
        hv.run fun _ _ => trivial
      have hp := (horderly.answer?_eq_some hc (by simp [hr])).mp ha
      have hplain : call.request.IsPlain := by
        rw [hr]
        exact Request.isPlain_of_ne (by simp) (by simp)
      cases Vault.accounts hv (fun _ _ => trivial) rfl hc hplain with
      | idle hno => exact absurd hp (hno reply)
      | @granted reply' before after m hp' hs hi hgrant he =>
        obtain rfl := Except.ok.inj (Phase.answered.inj (hp'.symm.trans hp))
        rw [hr, Vault.run_append, Vault.run_cons, Vault.run_nil] at hgrant
        have hbefore : (Vault.empty.run before).Orderly fun _ => True := hv.run fun _ _ => trivial
        have hafter : ((Vault.empty.run before).move m).Orderly fun _ => True :=
          (hbefore.run fun _ _ => trivial : ((Vault.empty.run before).run [m]).Orderly _)
        obtain ⟨c, hreply, hkey, hsecret, hrep⟩ := hgrant.replaces hbefore.distinct
        have hold : key ∈ ((Vault.empty.run before).move m).table.keys ↔ c.key = key := by
          rw [hrep.mem_keys]
          simp [eq_comm]
        refine ⟨c, before, m, after, hreply, hkey, hsecret, hs, hi, hrep,
          hrep.key_of_mem hafter.distinct, hold, fun hne => ?_⟩
        exact Vault.isOutOfUse hafter (fun hk => hne (hold.mp hk)) after

/-- **A key that has been rotated may stay in use**: the generator delivers the same key material
twice. The rotation is answered a credential with the old key and the old secret, and the key is
found. -/
theorem rotated_key_may_stay_in_use :
    let k : AccessKey := ⟨"k", by decide⟩
    let store : Store := ⟨30000⟩
    let s : Session := .start .empty (.scripted [.ok ⟨k, ⟨[7]⟩⟩, .ok ⟨k, ⟨[7]⟩⟩])
    let created := s.perform (store.create ⟨1⟩) 9
    let rotated := created.2.perform (store.rotate ⟨1⟩ k) 9
    let found := rotated.2.perform (store.recordAuth k ⟨1700000000, 0⟩) 9
    created.1 = .finished (.ok (.issued ⟨⟨1⟩, ⟨1⟩, k, ⟨[7]⟩, none⟩)) ∧
      rotated.1 = .finished (.ok (.issued ⟨⟨2⟩, ⟨1⟩, k, ⟨[7]⟩, none⟩)) ∧
      found.1 = .finished (.ok (.found true)) := by
  refine ⟨?_, ?_, ?_⟩
  · with_unfolding_all rfl
  · with_unfolding_all rfl
  · with_unfolding_all rfl

end KeyLifecycle
