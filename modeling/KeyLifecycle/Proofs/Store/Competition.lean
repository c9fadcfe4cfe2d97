import KeyLifecycle.Proofs.Store.Isolation
import KeyLifecycle.Proofs.Vault.Ending

/-!
# One of many revocations wins

Any number of calls are to revoke or to replace the same key of the same owner; they are *rivals*.
Whatever happens in between, at most one of them is answered `ok`, and it is the one that decides
what the others are answered.

The whole of it is in two statements. At any moment **the key is there as long as no rival has won**
(`Vault.Contest.mem_keysOf_iff`): if nobody else issues or revokes it, a rival is the only one that
can take it away, and wins by doing so. And **what a rival is answered is decided by whether the key
is there** when it is answered (`Vault.Deed.verdict`): if it is, the rival wins, or fails for a
reason of its own; if it is not, the rival is told so, unless it did not come as far as to look. So
before the winner nobody is told that there is no such key, and after it nobody wins.

`Call.Verdict` lists what a rival may be answered, and `KeyLifecycle.Vault.rivals_have_one_winner`
puts all of it together.
-/

namespace KeyLifecycle

/-- Whether a request is to revoke or to replace a key of an owner. -/
def Request.isRival (owner : UserId) (key : AccessKey) : Request → Bool
  | delete owner' key' => owner' = owner ∧ key' = key
  | rotate owner' key' _ => owner' = owner ∧ key' = key
  | _ => false

/-- A rival is a delete or a rotation. -/
theorem Request.eq_of_isRival {owner : UserId} {key : AccessKey} {request : Request}
    (h : request.isRival owner key = true) :
    request = .delete owner key ∨ ∃ material, request = .rotate owner key material := by
  cases request with
  | delete owner' key' =>
    obtain ⟨rfl, rfl⟩ := of_decide_eq_true h
    exact Or.inl rfl
  | rotate owner' key' material =>
    obtain ⟨rfl, rfl⟩ := of_decide_eq_true h
    exact Or.inr ⟨material, rfl⟩
  | _ => simp [isRival] at h

theorem Request.isPlain_of_isRival {owner : UserId} {key : AccessKey} {request : Request}
    (h : request.isRival owner key = true) : request.IsPlain := by
  rcases eq_of_isRival h with rfl | ⟨material, rfl⟩
  · exact isPlain_of_ne (by simp) (by simp)
  · exact isPlain_of_ne (by simp) (by simp)

/-! ### The work of a rival -/

namespace Work

variable {plans : FailurePlan → Prop} {owner : UserId} {key : AccessKey} {material : KeyMaterial}
  {next rest : Work Reply} {t : Table} {handle : Handle}

/-- What can have become of the revocation of a key that began with a table: it has not come to the
row yet, was not to look for it, has not found it, or has taken it out and gone on. -/
inductive Revoking (plans : FailurePlan → Prop) (owner : UserId) (key : AccessKey)
    (next : Work Reply) (t : Table) : Work Reply → Handle → Prop
  | whole : Revoking plans owner key next t (revoke owner key next) (.opened t)
  | refused {plan : FailurePlan} (hp : plans plan) (hd : plan.delete = true) :
    Revoking plans owner key next t (.fail (FailurePlan.failure "delete api key")) (.opened t)
  | absent (hk : key ∉ t.keysOf owner) :
    Revoking plans owner key next t (.fail .credentialNotFound) (.opened t)
  | removed {row : Row} {t₁ : Table} {rest : Work Reply} {handle : Handle}
      (hr : t.remove? owner key = some (row, t₁)) (h : Reached plans next t₁ rest handle) :
    Revoking plans owner key next t rest handle

/-- **The stages of a revocation.** -/
theorem Reached.revoking (h : Reached plans (revoke owner key next) t rest handle) :
    Revoking plans owner key next t rest handle := by
  induction h with
  | opened => exact .whole
  | @insert owner' material' next' before after plan c h hp hi ih =>
    generalize hrest : Work.insert owner' material' next' = rest at ih
    cases ih with
    | removed hr hreached =>
      subst hrest
      exact .removed hr (hreached.insert hp hi)
    | _ => simp [revoke] at hrest
  | @delete owner' key' next' before after plan row h hp hd ih =>
    generalize hrest : Work.delete owner' key' next' = rest at ih
    cases ih with
    | whole =>
      obtain ⟨rfl, rfl, rfl⟩ := Work.delete.inj hrest
      obtain ⟨-, -, ⟨rfl, hr, rfl⟩ | ⟨found, t₁, rfl, hr, rfl⟩⟩ := Handle.delete_eq_ok.mp hd
      · exact .absent (Table.remove?_eq_none.mp hr)
      · exact .removed hr .opened
    | removed hr hreached =>
      subst hrest
      exact .removed hr (hreached.delete hp hd)
    | _ => simp at hrest
  | @fault rest' handle plan cause h hp hf ih =>
    cases ih with
    | whole =>
      -- with the transaction open, only the plan refuses a delete
      cases hd : plan.delete with
      | true =>
        have hcause : cause = FailurePlan.failure "delete api key" := by
          simpa [fault?, revoke, Handle.delete, Handle.opened, hd, eq_comm] using hf
        rw [hcause]
        exact .refused hp hd
      | false => cases hr : t.remove? owner key <;>
          simp [fault?, revoke, Handle.delete, Handle.opened, hd, hr] at hf
    | removed hr hreached => exact .removed hr (hreached.fault hp hf)
    | _ => simp [fault?] at hf
  | @pause duration next' handle h ih =>
    generalize hrest : Work.pause duration next' = rest at ih
    cases ih with
    | removed hr hreached =>
      subst hrest
      exact .removed hr hreached.pause
    | _ => simp [revoke] at hrest

/-- What can have become of issuing a credential. -/
inductive Issuing (plans : FailurePlan → Prop) (owner : UserId) (material : KeyMaterial)
    (t : Table) : Work Reply → Handle → Prop
  | whole : Issuing plans owner material t (issue owner material) (.opened t)
  | refused {plan : FailurePlan} (hp : plans plan) (hi : plan.insert = true) :
    Issuing plans owner material t (.fail (FailurePlan.failure "insert api key")) (.opened t)
  | taken (hk : material.key ∈ t.keys) :
    Issuing plans owner material t (.fail Table.taken) (.opened t)
  | issued {c : Credential} {t' : Table} (hi : t.insert owner material = .ok (c, t')) :
    Issuing plans owner material t (.done (.issued c)) (.opened t')

/-- **The stages of issuing.** -/
theorem Reached.issuing (h : Reached plans (issue owner material) t rest handle) :
    Issuing plans owner material t rest handle := by
  induction h with
  | opened => exact .whole
  | @insert owner' material' next' before after plan c h hp hi ih =>
    generalize hrest : Work.insert owner' material' next' = rest at ih
    cases ih with
    | whole =>
      obtain ⟨rfl, rfl, rfl⟩ := Work.insert.inj hrest
      obtain ⟨-, -, t', ht, rfl⟩ := Handle.insert_eq_ok.mp hi
      exact .issued ht
    | _ => simp at hrest
  | @delete owner' key' next' before after plan row h hp hd ih =>
    generalize hrest : Work.delete owner' key' next' = rest at ih
    cases ih <;> simp [issue] at hrest
  | @fault rest' handle plan cause h hp hf ih =>
    cases ih with
    | whole =>
      cases hi : plan.insert with
      | true =>
        have hcause : cause = FailurePlan.failure "insert api key" := by
          simpa [fault?, issue, Handle.insert, Handle.opened, hi, eq_comm] using hf
        rw [hcause]
        exact .refused hp hi
      | false =>
        cases ht : t.insert owner material with
        | ok result => simp [fault?, issue, Handle.insert, Handle.opened, hi, ht] at hf
        | error cause' =>
          obtain ⟨hk, rfl⟩ := Table.insert_eq_error.mp ht
          have hcause : cause = Table.taken := by
            simpa [fault?, issue, Handle.insert, Handle.opened, hi, ht, eq_comm] using hf
          rw [hcause]
          exact .taken hk
    | _ => simp [fault?] at hf
  | @pause duration next' handle h ih =>
    generalize hrest : Work.pause duration next' = rest at ih
    cases ih <;> simp [issue] at hrest

/-- Nothing becomes of work that is done. -/
theorem Reached.eq_done {reply : Reply} (h : Reached plans (.done reply) t rest handle) :
    rest = .done reply := by
  induction h with
  | opened => rfl
  | fault h hp hf ih =>
    rw [ih] at hf
    simp [fault?] at hf
  | insert h hp hi ih | delete h hp hi ih | pause h ih => simp at ih

theorem endsWithin_issue (owner : UserId) (material : KeyMaterial) :
    (issue owner material).EndsWithin 2 :=
  ⟨by decide, fun _ => Nat.one_pos⟩

theorem endsWithin_revoke {n : Nat} (hn : 0 < n) (h : next.EndsWithin n) :
    (revoke owner key next).EndsWithin (n + 1) := by
  refine ⟨Nat.succ_lt_succ hn, ?_⟩
  rintro (_ | _)
  · exact hn
  · exact h

end Work

/-- The work of a rival takes three steps at most. -/
theorem Request.endsWithin_of_isRival {owner : UserId} {key : AccessKey} {request : Request}
    (h : request.isRival owner key = true) :
    ∃ work, request.work? = some work ∧ work.EndsWithin 3 := by
  rcases eq_of_isRival h with rfl | ⟨material, rfl⟩
  · exact ⟨_, rfl, Work.endsWithin_revoke (by decide) (Nat.zero_lt_succ 1)⟩
  · exact ⟨_, rfl, Work.endsWithin_revoke (by decide) (Work.endsWithin_issue owner material)⟩

/-! ### What a rival is answered -/

/-- **What a rival may be answered** when the clock shows a moment and the table is what it is: it
wins, or fails with its key there, or the key is not there; or it has not come as far as to look. -/
inductive Call.Verdict (plans : FailurePlan → Prop) (owner : UserId) (key : AccessKey) (call : Call)
    (t : Table) (now : Nat) : Except Failure Reply → Prop
  | won {reply : Reply} (hk : key ∈ t.keysOf owner) : Verdict plans owner key call t now (.ok reply)
  | noInsert {material : KeyMaterial} {plan : FailurePlan} (hk : key ∈ t.keysOf owner)
      (hr : call.request = .rotate owner key material) (hp : plans plan) (hi : plan.insert = true) :
    Verdict plans owner key call t now (.error (FailurePlan.failure "insert api key"))
  | taken {material : KeyMaterial} (hk : key ∈ t.keysOf owner)
      (hr : call.request = .rotate owner key material) (hm : material.key ∈ t.keys) :
    Verdict plans owner key call t now (.error Table.taken)
  | notFound (hk : key ∉ t.keysOf owner) :
    Verdict plans owner key call t now (.error .credentialNotFound)
  | noDelete {plan : FailurePlan} (hp : plans plan) (hd : plan.delete = true) :
    Verdict plans owner key call t now (.error (FailurePlan.failure "delete api key"))
  | expired (h : call.isDue now = true) :
    Verdict plans owner key call t now (.error (.cancelled call.request.operation))

/-- What a rival is granted is a row taken out, and a new one in its place if it is a rotation. -/
theorem Request.Grants.rival {plans : FailurePlan → Prop} {owner : UserId} {key : AccessKey}
    {request : Request} {t t' : Table} {reply : Reply} (h : request.Grants plans t reply t')
    (hr : request.isRival owner key = true) :
    (request = .delete owner key ∧ ∃ row, t.remove? owner key = some (row, t')) ∨
      ∃ material row t₁ c, request = .rotate owner key material ∧ reply = .issued c ∧
        t.remove? owner key = some (row, t₁) ∧ t₁.insert owner material = .ok (c, t') := by
  have hperform := h.perform_eq
  rcases eq_of_isRival hr with rfl | ⟨material, rfl⟩
  · rw [perform_delete, if_neg (by simp)] at hperform
    cases hremove : t.remove? owner key with
    | none => simp [hremove] at hperform
    | some found =>
      obtain ⟨row, rest⟩ := found
      obtain ⟨-, rfl⟩ : Reply.done = reply ∧ rest = t' := by simpa [hremove] using hperform
      exact Or.inl ⟨rfl, row, rfl⟩
  · rw [perform_rotate, if_neg (by simp)] at hperform
    cases hremove : t.remove? owner key with
    | none => simp [hremove] at hperform
    | some found =>
      obtain ⟨row, rest⟩ := found
      cases hinsert : rest.insert owner material with
      | error cause => simp [hremove, perform_create, hinsert] at hperform
      | ok issued =>
        obtain ⟨c, t₂⟩ := issued
        obtain ⟨rfl, rfl⟩ : Reply.issued c = reply ∧ t₂ = t' := by
          simpa [hremove, perform_create, hinsert] using hperform
        exact Or.inr ⟨material, row, rest, c, rfl, rfl, rfl, hinsert⟩

namespace Table

variable {t t' t₁ : Table} {owner : UserId} {key : AccessKey} {row : Row} {c : Credential}
  {material : KeyMaterial}

theorem mem_keysOf_of_remove? (h : t.remove? owner key = some (row, t')) :
    key ∈ t.keysOf owner := by
  by_contra hk
  rw [remove?_eq_none.mpr hk] at h
  simp at h

/-- A row that is taken out was the only one with its key. -/
theorem not_mem_keysOf_of_remove? (hk : t.HasDistinctKeys)
    (h : t.remove? owner key = some (row, t')) : key ∉ t'.keysOf owner := by
  obtain ⟨before, after, hrows, hrows', -, -, hkey⟩ := remove?_eq_some h
  intro hmem
  obtain ⟨other, hother, -, ho⟩ := mem_keysOf.mp hmem
  rw [hrows'] at hother
  exact key_ne_of_remove? hk hrows other hother (ho.trans hkey.symm)

/-- How many credentials an owner has. -/
def countOf (owner : UserId) (t : Table) : Int := (t.summaries owner).length

theorem countOf_remove? (h : t.remove? owner key = some (row, t')) :
    t'.countOf owner = t.countOf owner - 1 := by
  have hmem := mem_keysOf_of_remove? h
  rw [keysOf, List.mem_map] at hmem
  obtain ⟨summary, hs, he⟩ := hmem
  have hlen :=
    List.length_eraseP_of_mem (p := fun s : Summary => s.key = key) hs (by simpa using he)
  have hpos := List.length_pos_of_mem hs
  rw [countOf, countOf, summaries_remove? h, hlen]
  omega

theorem countOf_insert (h : t.insert owner material = .ok (c, t')) :
    t'.countOf owner = t.countOf owner + 1 := by
  rw [countOf, countOf, summaries_insert h, List.length_append, List.length_singleton]
  omega

end Table

namespace Vault

variable {plans : FailurePlan → Prop} {owner : UserId} {key : AccessKey} {v : Vault} {i j : Nat}
  {call : Call} {e : Effect} {trail seen rest : List Move} {m : Move}
  {answer : Except Failure Reply}

/-- **The verdict on a rival**, read off the deed that answers it. -/
theorem Deed.verdict (hd : v.Deed i call e) (hv : v.Orderly plans) (hc : v.calls[i]? = some call)
    (hr : call.request.isRival owner key = true) (ha : e.phase = .answered answer) :
    call.Verdict plans owner key v.table v.now answer := by
  have hplain := Request.isPlain_of_isRival hr
  -- where a rival at work has come to
  have stage {left : Work Reply} {handle : Handle} (hp : call.phase = .working left handle) :
      ∃ next, Work.Revoking plans owner key next v.table left handle ∧
        (next = .done .done ∨ ∃ material, call.request = .rotate owner key material ∧
          next = .issue owner material) := by
    obtain ⟨-, -, work, hw, hreached⟩ := hv.inside hc hplain (by rw [hp, Phase.inside?])
    rcases Request.eq_of_isRival hr with hr | ⟨material, hr⟩
    · rw [hr] at hw
      obtain rfl := Option.some.inj hw
      exact ⟨_, hreached.revoking, Or.inl rfl⟩
    · rw [hr] at hw
      obtain rfl := Option.some.inj hw
      exact ⟨_, hreached.revoking, Or.inr ⟨material, hr, rfl⟩⟩
  cases hd with
  | refuse hp =>
    obtain ⟨owner', hlist⟩ := hv.checks hc hp
    simp [hlist, Request.isRival] at hr
  | look hp hl h =>
    rcases Request.eq_of_isRival hr with hr | ⟨material, hr⟩ <;> simp [hr, Request.view?] at h
  | late hp hl ho =>
    have hopen := (hv.inside hc hplain (by rw [hp, Phase.inside?])).1
    simp [ho] at hopen
  | @succeed reply handle hp =>
    obtain rfl := Phase.answered.inj ha
    obtain ⟨next, hstage, -⟩ := stage hp
    generalize hleft : Work.done reply = left at hstage
    cases hstage with
    | removed hremove => exact .won (Table.mem_keysOf_of_remove? hremove)
    | _ => simp [Work.revoke] at hleft
  | @giveUp cause handle hp =>
    obtain rfl := Phase.answered.inj ha
    obtain ⟨next, hstage, hnext⟩ := stage hp
    generalize hleft : Work.fail cause = left at hstage
    cases hstage with
    | whole => simp [Work.revoke] at hleft
    | refused hp' hd =>
      obtain rfl := Work.fail.inj hleft
      exact .noDelete hp' hd
    | absent hk =>
      obtain rfl := Work.fail.inj hleft
      exact .notFound hk
    | removed hremove hreached =>
      have hk := Table.mem_keysOf_of_remove? hremove
      rcases hnext with rfl | ⟨material, hrotate, rfl⟩
      · rw [hreached.eq_done] at hleft
        simp at hleft
      · cases hreached.issuing with
        | refused hp' hi =>
          obtain rfl := Work.fail.inj hleft
          exact .noInsert hk hrotate hp' hi
        | taken hmaterial =>
          obtain rfl := Work.fail.inj hleft
          exact .taken hk hrotate (Table.mem_keys_of_remove? hremove hmaterial)
        | _ => simp [Work.issue] at hleft
  | expire hl hrun hdue =>
    obtain rfl := Phase.answered.inj ha
    exact .expired hdue
  | _ => simp at ha

/-! ### A contest -/

/-- **The rivals of a run**: the calls that are to revoke or to replace a key of an owner, if they
were not over at its beginning. -/
def isRival (owner : UserId) (key : AccessKey) (v : Vault) (trail : List Move) (i : Nat) : Bool :=
  !v.hasEnded i && (v.run trail).calls[i]?.any fun call => call.request.isRival owner key

theorem isRival_iff : v.isRival owner key trail i = true ↔ v.hasEnded i = false ∧
    ∃ call, (v.run trail).calls[i]? = some call ∧ call.request.isRival owner key = true := by
  rw [isRival, Bool.and_eq_true, Bool.not_eq_true', Option.any_eq_true]

/-- A rival that is there at some moment of the run. -/
theorem isRival_of_call (hs : trail = seen ++ rest) (hi : v.isRival owner key trail i = true)
    (hc : (v.run seen).calls[i]? = some call) : call.request.isRival owner key = true := by
  obtain ⟨-, late, hlate, hr⟩ := isRival_iff.mp hi
  obtain ⟨call', hc', hreq⟩ := exists_call_run hc rest
  rw [← run_append, ← hs, hlate] at hc'
  obtain rfl := Option.some.inj hc'
  rwa [← hreq]

/-- The access key that an answer issues. -/
def issuedKey? : Except Failure Reply → Option AccessKey
  | .ok (.issued c) => some c.key
  | _ => none

/-- Why an answer says no. -/
def failure? : Except Failure Reply → Option Failure
  | .error cause => some cause
  | .ok _ => none

/-- **A contest for a key**: at the beginning its owner has it, whether the owner has it is changed
by nobody but the rivals, and no rival that wins issues it again. -/
structure Contest (plans : FailurePlan → Prop) (owner : UserId) (key : AccessKey) (v : Vault)
    (trail : List Move) : Prop where
  orderly : v.Orderly plans
  met : ∀ plan, .setPlan plan ∈ trail → plans plan
  held : key ∈ v.table.keysOf owner
  others {i : Nat} (hi : v.isRival owner key trail i = false) :
    ∀ change ∈ v.changesBy i trail, key ∈ change.2.keysOf owner ↔ key ∈ change.1.keysOf owner
  renews {i : Nat} {c : Credential} (hi : v.isRival owner key trail i = true)
    (ha : (v.run trail).answer? i = some (.ok (.issued c))) : c.key ≠ key

/-- What all calls but the rivals have added to the number of an owner's credentials. -/
def gainOfOthers (owner : UserId) (key : AccessKey) (v : Vault) (trail : List Move) : Int :=
  ∑ i ∈ Finset.range (v.run trail).calls.length with v.isRival owner key trail i = false,
    v.gain (Table.countOf owner) i trail

/-- **The balance of a contest**: what has been added to the number of the owner's credentials is
what all but the rivals have added, and what these have. -/
theorem countOf_run (owner : UserId) (key : AccessKey) (v : Vault) (trail : List Move) :
    (v.run trail).table.countOf owner = v.table.countOf owner +
      (v.gainOfOthers owner key trail +
        ∑ i ∈ Finset.range (v.run trail).calls.length with v.isRival owner key trail i = true,
          v.gain (Table.countOf owner) i trail) := by
  rw [balance (Table.countOf owner) v trail (Nat.le_refl _), gainOfOthers,
    Int.add_comm (∑ _ ∈ _, _),
    ← Finset.sum_filter_add_sum_filter_not _ fun i => v.isRival owner key trail i = true]
  simp only [Bool.not_eq_true]

namespace Contest

variable (h : Contest plans owner key v trail)

include h

theorem orderly_run (hs : trail = seen ++ rest) : (v.run seen).Orderly plans :=
  h.orderly.run fun plan hp => h.met plan (by rw [hs]; exact List.mem_append_left _ hp)

/-- **A rival that wins has had the key there, and leaves a table without it.** -/
theorem won (hs : trail = seen ++ m :: rest) (hi : v.isRival owner key trail i = true)
    (hc : (v.run seen).calls[i]? = some call) (hd : (v.run seen).Deed i call e)
    (hm : (v.run seen).move m = (v.run seen).amend i e) {reply : Reply}
    (ha : e.phase = .answered (.ok reply)) :
    key ∈ (v.run seen).table.keysOf owner ∧ key ∉ e.table.keysOf owner := by
  have hv := h.orderly_run hs
  have hr := isRival_of_call hs hi hc
  have hplain := Request.isPlain_of_isRival hr
  have hg : call.request.Grants plans (v.run seen).table reply e.table := by
    rcases hd.grants hv hc hplain with ⟨reply', hp, hg⟩ | ⟨hno, -⟩
    · obtain rfl := Except.ok.inj (Phase.answered.inj (hp.symm.trans ha))
      exact hg
    · exact absurd ha (hno reply)
  rcases hg.rival hr with ⟨-, row, hremove⟩ | ⟨material, row, t₁, c, -, rfl, hremove, hinsert⟩
  · exact ⟨Table.mem_keysOf_of_remove? hremove,
      Table.not_mem_keysOf_of_remove? hv.distinct hremove⟩
  · refine ⟨Table.mem_keysOf_of_remove? hremove, ?_⟩
    have hnew : c.key ≠ key := by
      refine h.renews hi ?_
      have hcall : (v.run (seen ++ [m])).calls[i]? = some { call with phase := e.phase } := by
        rw [run_append, run_cons, run_nil, hm, amend_calls_self hc]
      have hended : (v.run (seen ++ [m])).hasEnded i = true := by
        rw [hasEnded_eq hcall]
        simp [Call.isLive, ha]
      have htrail : trail = (seen ++ [m]) ++ rest := by rw [hs, List.append_assoc]; rfl
      have hlast : (v.run trail).calls[i]? = some { call with phase := e.phase } := by
        rw [htrail, run_append, calls_run_of_hasEnded hended, hcall]
      have hlease : call.request ≠ .lease := hplain.1
      exact ((h.orderly_run (List.append_nil trail).symm).answer?_eq_some hlast hlease).mpr ha
    have hkey : c.key = material.key := by
      obtain ⟨-, rfl, -⟩ := Table.insert_eq_ok.mp hinsert
      rfl
    rw [Table.keysOf, Table.summaries_insert hinsert, List.map_append, List.mem_append, not_or]
    refine ⟨Table.not_mem_keysOf_of_remove? hv.distinct hremove, ?_⟩
    intro hmem
    rw [List.map_singleton, List.mem_singleton] at hmem
    exact hnew (hkey.trans hmem.symm)

/-- **The key is there as long as no rival has won.** -/
theorem mem_keysOf_iff (hs : trail = seen ++ rest) :
    key ∈ (v.run seen).table.keysOf owner ↔
      ∀ i, v.isRival owner key trail i = true → ¬(v.run seen).IsGranted i := by
  induction seen using List.reverseRecOn generalizing rest with
  | nil =>
    refine ⟨fun _ i hi hg => ?_, fun _ => h.held⟩
    have hended := hg.hasEnded
    simp [(isRival_iff.mp hi).1] at hended
  | append_singleton seen m ih =>
    rw [List.append_assoc, List.cons_append, List.nil_append] at hs
    have hold := ih hs
    rw [run_append, run_cons, run_nil]
    -- where the rivals and the key are what they were, nothing is to be shown
    have same (hkey : key ∈ ((v.run seen).move m).table.keysOf owner ↔
          key ∈ (v.run seen).table.keysOf owner)
        (hcalls : ∀ i, v.isRival owner key trail i = true →
          (((v.run seen).move m).IsGranted i ↔ (v.run seen).IsGranted i)) :
        key ∈ ((v.run seen).move m).table.keysOf owner ↔
          ∀ i, v.isRival owner key trail i = true → ¬((v.run seen).move m).IsGranted i := by
      rw [hkey, hold]
      exact forall_congr' fun i => imp_congr_right fun hi => not_congr (hcalls i hi).symm
    cases hm : m.call? with
    | none =>
      refine same ?_ fun i _ => isGranted_move_of_ne (by simp [hm])
      rw [table_move_of_absent (v := v.run seen) fun i hi => by simp [hm] at hi]
    | some j =>
      cases hc : (v.run seen).calls[j]? with
      | none =>
        rw [move_of_absent hm hc]
        exact hold
      | some call =>
        rcases move_eq_or_deed hm hc with he | ⟨e, he, hd⟩
        · rw [he]
          exact hold
        · have hothers (i : Nat) (hne : i ≠ j) :
              ((v.run seen).move m).IsGranted i ↔ (v.run seen).IsGranted i :=
            isGranted_move_of_ne (by rw [hm]; exact fun hij => hne (Option.some.inj hij).symm)
          cases hj : v.isRival owner key trail j with
          | false =>
            refine same ?_ fun i hi => hothers i ?_
            · by_cases ht : ((v.run seen).move m).table = (v.run seen).table
              · rw [ht]
              · refine h.others hj ((v.run seen).table, ((v.run seen).move m).table) ?_
                rw [hs, changesBy_append, changesBy, changeBy, if_pos ⟨hm, ht⟩]
                simp
            · rintro rfl
              simp [hj] at hi
          | true =>
            have hplain := Request.isPlain_of_isRival (isRival_of_call hs hj hc)
            have hself := amend_calls_self hc e
            rcases hd.grants (h.orderly_run hs) hc hplain with ⟨reply, hp, -⟩ | ⟨hno, ht⟩
            -- a rival wins, and takes the key away
            · obtain ⟨-, hgone⟩ := h.won hs hj hc hd he hp
              rw [he, amend_table]
              exact ⟨fun hk => absurd hk hgone,
                fun hall => absurd ⟨_, reply, hself, hp⟩ (hall j hj)⟩
            -- a rival that does not win leaves the key where it is
            · refine same (by rw [he, amend_table, ht]) fun i _ => ?_
              by_cases hij : i = j
              · rw [hij, he]
                constructor
                · rintro ⟨call', reply, hc', hp⟩
                  obtain rfl := Option.some.inj (hself.symm.trans hc')
                  exact absurd hp (hno reply)
                · intro hg
                  have hended := hg.hasEnded
                  simp [hasEnded_eq hc, hd.isLive] at hended
              · exact hothers i hij

/-- **The verdict on a rival that has been answered**, at the moment before it was. -/
theorem verdict (hi : v.isRival owner key trail i = true)
    (ha : (v.run trail).answer? i = some answer) :
    ∃ before m after call, trail = before ++ m :: after ∧ m.call? = some i ∧
      (v.run before).calls[i]? = some call ∧ (v.run before).hasEnded i = false ∧
      ((v.run before).move m).hasEnded i = true ∧
      call.Verdict plans owner key (v.run before).table (v.run before).now answer := by
  obtain ⟨hn, late, hlate, hr⟩ := isRival_iff.mp hi
  have hw := h.orderly_run (List.append_nil trail).symm
  have hp := (hw.answer?_eq_some hlate (Request.isPlain_of_isRival hr).1).mp ha
  have hended : (v.run trail).hasEnded i = true := by simp [hasEnded_eq hlate, Call.isLive, hp]
  obtain ⟨before, m, after, call, e, hs, hm, hc, hd, hmove, hlast⟩ := exists_last_deed hn hended
  obtain rfl := Option.some.inj (hlast.symm.trans hlate)
  refine ⟨before, m, after, call, hs, hm, hc, ?_, ?_, ?_⟩
  · rw [hasEnded_eq hc, hd.isLive, Bool.not_true]
  · have hphase : e.phase = .answered answer := hp
    rw [hmove, hasEnded_eq (amend_calls_self hc e)]
    simp [Call.isLive, hphase]
  · exact hd.verdict (h.orderly_run hs) hc hr hp

/-- **At most one rival wins.** -/
theorem eq_of_isGranted (hi : v.isRival owner key trail i = true)
    (hj : v.isRival owner key trail j = true) (hgi : (v.run trail).IsGranted i)
    (hgj : (v.run trail).IsGranted j) : i = j := by
  -- whoever wins does so while the key is there
  have winning {k : Nat} (hk : v.isRival owner key trail k = true)
      (hg : (v.run trail).IsGranted k) :
      ∃ before m after, trail = before ++ m :: after ∧ m.call? = some k ∧
        (v.run before).hasEnded k = false ∧ ((v.run before).move m).hasEnded k = true ∧
        key ∈ (v.run before).table.keysOf owner := by
    obtain ⟨-, late, hlate, hr⟩ := isRival_iff.mp hk
    have hw := h.orderly_run (List.append_nil trail).symm
    obtain ⟨reply, ha⟩ := (hw.isGranted_iff hlate (Request.isPlain_of_isRival hr).1).mp hg
    obtain ⟨before, m, after, call, hs, hm, -, hlive, hended, hverdict⟩ := h.verdict hk ha
    cases hverdict with
    | won hheld => exact ⟨before, m, after, hs, hm, hlive, hended, hheld⟩
  -- so nobody has won before
  have earlier {k l : Nat} (hl : v.isRival owner key trail l = true)
      (hg : (v.run trail).IsGranted l) {before after : List Move} {m : Move}
      (hs : trail = before ++ m :: after) (hheld : key ∈ (v.run before).table.keysOf owner) :
      (v.run before).hasEnded l = false := by
    by_contra hended
    rw [Bool.not_eq_false] at hended
    rw [hs, run_append, isGranted_run hended] at hg
    exact (h.mem_keysOf_iff hs).mp hheld l hl hg
  obtain ⟨before, m, after, hs, hm, hlive, hended, hheld⟩ := winning hi hgi
  obtain ⟨before', m', after', hs', hm', hlive', hended', hheld'⟩ := winning hj hgj
  obtain ⟨between, hbetween⟩ :=
    exists_between (hs.symm.trans hs') (earlier (k := j) hi hgi hs' hheld') hended
  obtain ⟨between', hbetween'⟩ :=
    exists_between (hs'.symm.trans hs) (earlier (k := i) hj hgj hs hheld) hended'
  have hnil : between' = [] := by
    rw [hbetween, List.append_assoc] at hbetween'
    have hlen := congrArg List.length hbetween'
    simp only [List.length_append] at hlen
    exact List.length_eq_zero_iff.mp (by omega)
  rw [hnil, List.append_nil] at hbetween'
  rw [hbetween', hs] at hs'
  obtain ⟨rfl, -⟩ := List.cons.inj (List.append_cancel_left hs')
  exact Option.some.inj (hm.symm.trans hm')

/-- **After the winner** a rival that is not over yet is told that there is no such key, unless it
does not come as far as to look. -/
theorem answer_of_late (hs : trail = seen ++ rest) (hi : v.isRival owner key trail i = true)
    (hg : (v.run seen).IsGranted i) (hj : v.isRival owner key trail j = true)
    (hlive : (v.run seen).hasEnded j = false) (ha : (v.run trail).answer? j = some answer) :
    answer = .error .credentialNotFound ∨
      (∃ plan, plans plan ∧ plan.delete = true ∧
        answer = .error (FailurePlan.failure "delete api key")) ∨
      ∃ before after call, trail = before ++ after ∧ (v.run before).calls[j]? = some call ∧
        call.isDue (v.run before).now = true ∧
        answer = .error (.cancelled call.request.operation) := by
  obtain ⟨before, m, after, call, hs', -, hc, -, hended, hverdict⟩ := h.verdict hj ha
  obtain ⟨between, hbetween⟩ := exists_between (hs'.symm.trans hs) hlive hended
  have hgone : key ∉ (v.run before).table.keysOf owner := by
    intro hheld
    refine (h.mem_keysOf_iff hs').mp hheld i hi ?_
    rw [hbetween, run_append]
    exact hg.run between
  cases hverdict with
  | won hk | noInsert hk | taken hk => exact absurd hk hgone
  | notFound => exact Or.inl rfl
  | noDelete hp hd => exact Or.inr (Or.inl ⟨_, hp, hd, rfl⟩)
  | expired hdue => exact Or.inr (Or.inr ⟨before, m :: after, call, hs', hc, hdue, rfl⟩)

/-- **Whoever is told that there is no such key** has lost to somebody. -/
theorem exists_winner_of_notFound (hi : v.isRival owner key trail i = true)
    (ha : (v.run trail).answer? i = some (.error .credentialNotFound)) :
    ∃ j, v.isRival owner key trail j = true ∧ (v.run trail).IsGranted j := by
  obtain ⟨before, m, after, call, hs, -, -, -, -, hverdict⟩ := h.verdict hi ha
  have hgone : key ∉ (v.run before).table.keysOf owner := by
    generalize hanswer : (Except.error Failure.credentialNotFound : Except Failure Reply) = answer
      at hverdict
    cases hverdict with
    | notFound hk => exact hk
    | _ => simp [FailurePlan.failure, Table.taken] at hanswer
  have hwinner : ∃ j, v.isRival owner key trail j = true ∧ (v.run before).IsGranted j := by
    by_contra hnone
    exact hgone ((h.mem_keysOf_iff hs).mpr fun j hj hg => hnone ⟨j, hj, hg⟩)
  obtain ⟨j, hj, hg⟩ := hwinner
  refine ⟨j, hj, ?_⟩
  rw [hs, run_append]
  exact hg.run (m :: after)

/-- **A rival that has been given the table** is over after four steps of its own. -/
theorem hasEnded_of_holds (hs : trail = seen ++ rest) (hi : v.isRival owner key trail i = true)
    (hc : (v.run seen).calls[i]? = some call) (hp : call.phase = .waiting)
    (hl : (v.run seen).lock.holder = some i) (hsteps : 4 ≤ rest.countP (Move.isStep i)) :
    (v.run trail).hasEnded i = true := by
  obtain ⟨work, hw, hends⟩ := Request.endsWithin_of_isRival (isRival_of_call hs hi hc)
  have hnear : (v.run seen).Nears i work 4 call := by
    refine ⟨hc, hw, fun _ => hl, ?_⟩
    rw [hp]
    exact ⟨by decide, hends⟩
  rw [hs, run_append]
  refine Vault.hasEnded_of_holds hnear (h.orderly_run hs) (fun plan hplan => ?_) hsteps
  exact h.met plan (by rw [hs]; exact List.mem_append_right _ hplan)

/-- **What a rival has changed**: nothing if it has not won; otherwise its owner has one credential
less, or as many as before if the key was replaced. -/
theorem account (hi : v.isRival owner key trail i = true)
    (hc : (v.run trail).calls[i]? = some call) :
    (¬(v.run trail).IsGranted i → v.changesBy i trail = []) ∧
      ((v.run trail).IsGranted i →
        (call.request = .delete owner key ∧ v.gain (Table.countOf owner) i trail = -1) ∨
          ((∃ material, call.request = .rotate owner key material) ∧
            v.gain (Table.countOf owner) i trail = 0)) := by
  obtain ⟨hn, late, hlate, hr⟩ := isRival_iff.mp hi
  obtain rfl := Option.some.inj (hc.symm.trans hlate)
  have hlive : ∀ early, v.calls[i]? = some early → early.isLive = true := by
    intro early he
    simpa [hasEnded_eq he] using hn
  cases accounts_of_isLive h.orderly h.met hlive hc (Request.isPlain_of_isRival hr) with
  | idle hno hnil =>
    refine ⟨fun _ => hnil, ?_⟩
    rintro ⟨call', reply, hc', hp⟩
    obtain rfl := Option.some.inj (hc.symm.trans hc')
    exact absurd hp (hno reply)
  | @granted reply before after m hp hs hm hgrant hchange =>
    refine ⟨fun hno => absurd ⟨call, reply, hc, hp⟩ hno, fun _ => ?_⟩
    have hgain : v.gain (Table.countOf owner) i trail =
        (v.run (before ++ [m])).table.countOf owner - (v.run before).table.countOf owner := by
      rw [gain, hchange, sum_changeBy, if_pos hm, run_append, run_cons, run_nil]
    rw [hgain]
    rcases hgrant.rival hr with
      ⟨hdelete, row, hremove⟩ | ⟨material, row, t₁, c, hrotate, -, hremove, hinsert⟩
    · refine Or.inl ⟨hdelete, ?_⟩
      rw [Table.countOf_remove? hremove]
      omega
    · refine Or.inr ⟨⟨material, hrotate⟩, ?_⟩
      rw [Table.countOf_insert hinsert, Table.countOf_remove? hremove]
      omega

/-- A rival that has not won has added nothing. -/
theorem gain_of_not_isGranted (hi : v.isRival owner key trail i = true)
    (hno : ¬(v.run trail).IsGranted i) : v.gain (Table.countOf owner) i trail = 0 := by
  obtain ⟨-, call, hc, -⟩ := isRival_iff.mp hi
  exact gain_of_changesBy_eq_nil ((h.account hi hc).1 hno)

/-- The gain of the rivals is that of the winner. -/
theorem sum_gain_of_isGranted (hi : v.isRival owner key trail i = true)
    (hg : (v.run trail).IsGranted i) :
    ∑ j ∈ Finset.range (v.run trail).calls.length with v.isRival owner key trail j = true,
      v.gain (Table.countOf owner) j trail = v.gain (Table.countOf owner) i trail := by
  refine Finset.sum_eq_single i (fun j hj hne => ?_) (fun hno => ?_)
  · have hj' := (Finset.mem_filter.mp hj).2
    exact h.gain_of_not_isGranted hj' fun hgj => hne (h.eq_of_isGranted hj' hi hgj hg)
  · have hmem : i ∈ Finset.range (v.run trail).calls.length :=
      Finset.mem_range.mpr (lt_of_hasEnded hg.hasEnded)
    exact absurd (Finset.mem_filter.mpr ⟨hmem, hi⟩) hno

end Contest

/-- **Competing revocations of one key have exactly one winner.** Any vault in order in which an
owner has a key, and any run of it: calls are started or on their way, any number of them to revoke
or to replace this key, and they are interleaved in any way, run out of time, are given up, and
find operations that are to fail. Nobody but these rivals changes whether the owner has the key,
and no rival that wins issues it again. Then

* at most one rival is answered `ok`;
* whatever a rival is answered is a `Call.Verdict` on the table and the time of that moment;
* a rival that is not over when another one has won is told that there is no such key, unless
  deletes were to fail or its time was used up; and it is over after four steps of its own if it is
  given the table;
* if some rival is answered `ok` or that there is no such key, and so if none of those that are
  answered fails for another reason, then exactly one is answered `ok`;
* a rival that is not answered `ok` has changed nothing; and the owner has one credential less if a
  revocation has won, and as many as before if a replacement has, or none has, but for what the
  other calls have added;
* a rotation that gets no key material does not take part: it leaves the vault as it is. -/
theorem rivals_have_one_winner (h : Contest plans owner key v trail) :
    let w := v.run trail
    let others := v.gainOfOthers owner key trail
    (∀ i j, v.isRival owner key trail i = true → v.isRival owner key trail j = true →
        w.IsGranted i → w.IsGranted j → i = j) ∧
      (∀ i answer, v.isRival owner key trail i = true → w.answer? i = some answer →
        ∃ seen m rest call, trail = seen ++ m :: rest ∧ m.call? = some i ∧
          (v.run seen).calls[i]? = some call ∧
          call.Verdict plans owner key (v.run seen).table (v.run seen).now answer) ∧
      (∀ seen rest i j, trail = seen ++ rest → v.isRival owner key trail i = true →
        (v.run seen).IsGranted i → v.isRival owner key trail j = true →
        (v.run seen).hasEnded j = false → ∀ answer, w.answer? j = some answer →
          answer = .error .credentialNotFound ∨
            (∃ plan, plans plan ∧ plan.delete = true ∧
              answer = .error (FailurePlan.failure "delete api key")) ∨
            ∃ before after call, trail = before ++ after ∧ (v.run before).calls[j]? = some call ∧
              call.isDue (v.run before).now = true ∧
              answer = .error (.cancelled call.request.operation)) ∧
      (∀ seen rest i call, trail = seen ++ rest → v.isRival owner key trail i = true →
        (v.run seen).calls[i]? = some call → call.phase = .waiting →
        (v.run seen).lock.holder = some i → 4 ≤ rest.countP (Move.isStep i) →
          w.hasEnded i = true) ∧
      ((∃ i, v.isRival owner key trail i = true ∧
          (w.IsGranted i ∨ w.answer? i = some (.error .credentialNotFound))) →
        ∃! i, v.isRival owner key trail i = true ∧ w.IsGranted i) ∧
      (∀ i, v.isRival owner key trail i = true → ¬w.IsGranted i → v.changesBy i trail = []) ∧
      (∀ i call, v.isRival owner key trail i = true → w.IsGranted i → w.calls[i]? = some call →
        (call.request = .delete owner key ∧
            w.table.countOf owner = v.table.countOf owner - 1 + others) ∨
          ((∃ material, call.request = .rotate owner key material) ∧
            w.table.countOf owner = v.table.countOf owner + others)) ∧
      ((∀ i, v.isRival owner key trail i = true → ¬w.IsGranted i) →
        w.table.countOf owner = v.table.countOf owner + others) ∧
      ∀ (store : Store) (s : Session),
        (∀ material, s.generator.generate.1 ≠ .material material) →
          (Procedure.run (store.rotate owner key) s).2.vault = s.vault := by
  intro w others
  refine ⟨fun i j hi hj => h.eq_of_isGranted hi hj, ?_, ?_, ?_, ?_, ?_, ?_, ?_, ?_⟩
  · intro i answer hi ha
    obtain ⟨seen, m, rest, call, hs, hm, hc, -, -, hverdict⟩ := h.verdict hi ha
    exact ⟨seen, m, rest, call, hs, hm, hc, hverdict⟩
  · intro seen rest i j hs hi hg hj hlive answer ha
    exact h.answer_of_late hs hi hg hj hlive ha
  · intro seen rest i call hs hi hc hp hl hsteps
    exact h.hasEnded_of_holds hs hi hc hp hl hsteps
  · rintro ⟨i, hi, hanswer⟩
    have hwinner : ∃ j, v.isRival owner key trail j = true ∧ w.IsGranted j := by
      rcases hanswer with hg | ha
      · exact ⟨i, hi, hg⟩
      · exact h.exists_winner_of_notFound hi ha
    obtain ⟨j, hj, hg⟩ := hwinner
    exact ⟨j, ⟨hj, hg⟩, fun k hk => h.eq_of_isGranted hk.1 hj hk.2 hg⟩
  · intro i hi hno
    obtain ⟨-, call, hc, -⟩ := isRival_iff.mp hi
    exact (h.account hi hc).1 hno
  · intro i call hi hg hc
    have hcount : w.table.countOf owner = v.table.countOf owner +
        (others + v.gain (Table.countOf owner) i trail) := by
      rw [← h.sum_gain_of_isGranted hi hg]
      exact countOf_run owner key v trail
    rcases (h.account hi hc).2 hg with ⟨hdelete, hgain⟩ | ⟨hrotate, hgain⟩
    · exact Or.inl ⟨hdelete, by rw [hgain] at hcount; omega⟩
    · exact Or.inr ⟨hrotate, by rw [hgain] at hcount; omega⟩
  · intro hnone
    have hcount := countOf_run owner key v trail
    rwa [Finset.sum_eq_zero, Int.add_zero] at hcount
    intro i hi
    have hi' := (Finset.mem_filter.mp hi).2
    exact h.gain_of_not_isGranted hi' (hnone i hi')
  · intro store s hno
    rw [Store.rotate_eq]
    rcases hg : s.generator.generate with ⟨material | cause | _, next⟩
    · exact absurd (congrArg Prod.fst hg) (hno material)
    · rw [Procedure.run_drawing_of_failed hg]
    · rw [Procedure.run_drawing_of_breakdown hg]

/-- Two users have a key each. The key of the first is to be replaced and revoked at the same time,
while the second is issued another one. The replacement gets the table first, and wins. -/
theorem rivals_have_one_winner_rotate_delete_create :
    let a : AccessKey := ⟨"a", by decide⟩
    let b : AccessKey := ⟨"b", by decide⟩
    let c : AccessKey := ⟨"c", by decide⟩
    let d : AccessKey := ⟨"d", by decide⟩
    let v : Vault := Vault.empty.run [.start (.create ⟨1⟩ ⟨a, ⟨[1]⟩⟩) none, .step 0, .step 0,
      .step 0, .step 0, .start (.create ⟨2⟩ ⟨b, ⟨[2]⟩⟩) none, .step 1, .step 1, .step 1, .step 1]
    let trail : List Move := [.start (.rotate ⟨1⟩ a ⟨c, ⟨[3]⟩⟩) (some 30),
      .start (.delete ⟨1⟩ a) (some 30), .start (.create ⟨2⟩ ⟨d, ⟨[4]⟩⟩) (some 30), .step 2, .step 3,
      .step 4, .step 2, .step 3, .step 2, .step 2, .step 4, .step 2, .step 3, .step 3, .step 3,
      .step 4, .step 4, .step 4]
    Contest (fun _ => True) ⟨1⟩ a v trail ∧
      (v.run trail).answer? 3 = some (.error .credentialNotFound) ∧
      (∃! i, v.isRival ⟨1⟩ a trail i = true ∧ (v.run trail).IsGranted i) ∧
      (v.run trail).table.rows.map (·.key) = [b, c, d] := by
  intro a b c d v trail
  have hlen : (v.run trail).calls.length = 5 := by decide +kernel
  have hothers : ∀ i < 5, v.isRival ⟨1⟩ a trail i = false →
      ∀ change ∈ v.changesBy i trail, a ∈ change.2.keysOf ⟨1⟩ ↔ a ∈ change.1.keysOf ⟨1⟩ := by
    decide +kernel
  have hnew : ∀ i < 5, v.isRival ⟨1⟩ a trail i = true →
      ((v.run trail).answer? i).bind issuedKey? ≠ some a := by
    decide +kernel
  have hcontest : Contest (fun _ => True) ⟨1⟩ a v trail := by
    constructor
    · exact orderly_empty.run fun _ _ => trivial
    · exact fun _ _ => trivial
    · decide +kernel
    · intro i hi
      by_cases hlt : i < 5
      · exact hothers i hlt hi
      · rw [changesBy_of_absent (List.getElem?_eq_none (by omega))]
        simp
    · intro i credential hi ha
      obtain ⟨-, call, hc, -⟩ := isRival_iff.mp hi
      have hlt := (List.getElem?_eq_some_iff.mp hc).1
      have hkey := hnew i (by omega) hi
      rw [ha] at hkey
      simpa [issuedKey?] using hkey
  obtain ⟨-, -, -, -, hone, -⟩ := rivals_have_one_winner hcontest
  have hlost : (v.run trail).answer? 3 = some (.error .credentialNotFound) := by
    have htold : ((v.run trail).answer? 3).bind failure? = some .credentialNotFound := by
      decide +kernel
    obtain ⟨cause | reply, ha, hcause⟩ := Option.bind_eq_some_iff.mp htold
    · rw [ha, Option.some.inj hcause]
    · simp [failure?] at hcause
  exact ⟨hcontest, hlost, hone ⟨3, by decide +kernel, Or.inr hlost⟩, by decide +kernel⟩

end Vault

end KeyLifecycle
