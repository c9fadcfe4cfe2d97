import KeyLifecycle.Proofs.Generator.Stretches
import KeyLifecycle.Proofs.Session.Limits
import KeyLifecycle.Proofs.Store.Competition
import KeyLifecycle.Proofs.Store.Retirement
import KeyLifecycle.Service

/-!
# Issued keys

The access key that a generator issues is the base64 text of the bytes of its first draw
(`KeyLifecycle.Source.exists_firstDraw`), and any bytes that it draws make one
(`KeyLifecycle.Source.exists_answer_of_draws`). So it can be read back, as bytes and as an access
key, and two issued keys are the same exactly if their bytes are.

That a creation can be refused only because its eighteen bytes have been drawn before, or because
somebody has brought a key of the same text from elsewhere, is read backwards from the refusal: the
deed that refused it found the key in the table (`KeyLifecycle.Vault.Deed.mem_keys_of_taken`), some
other call has brought it there (`KeyLifecycle.Vault.exists_issuer`), and that call was made in
some beat, which has drawn the key or has not (`KeyLifecycle.Session.exists_clash`).
-/

namespace KeyLifecycle

/-! ### What is drawn for an access key -/

namespace Source

variable {source source' : Source} {n n' : Nat} {material material' : KeyMaterial}

/-- What a call, counted from zero, draws for the access key. -/
def firstDraw (source : Source) (n : Nat) : Draw :=
  ((source.after n).draw Generator.accessKeyBytes).1

/-- What it draws for the secret after that. -/
def secondDraw (source : Source) (n : Nat) : Draw :=
  (((source.after n).draw Generator.accessKeyBytes).2.draw Generator.secretBytes).1

/-- **A call that is answered key material** has drawn eighteen bytes, and the access key is their
text. -/
theorem exists_firstDraw (h : source.answer n = .material material) :
    ∃ bytes, source.firstDraw n = .bytes bytes ∧ material.key.IsTextOf bytes := by
  have hyields := source.yields_answer n
  rw [h] at hyields
  generalize source.after (n + 1) = next at hyields
  cases hyields with
  | material _ hk _ _ hkey =>
    exact ⟨_, congrArg Prod.fst hk, AccessKey.isTextOf (length_bytesAt ..) hkey⟩

/-- **Any eighteen bytes make an issued key**, with any bytes for the secret. -/
theorem exists_answer_of_draws {access secret : List UInt8} (hb : (source.after n).broken = false)
    (hk : source.firstDraw n = .bytes access) (hs : source.secondDraw n = .bytes secret) :
    ∃ key : AccessKey, source.answer n = .material ⟨key, ⟨secret⟩⟩ ∧ key.IsTextOf access := by
  have hyields := source.yields_answer n
  generalize source.answer n = result at hyields
  generalize source.after (n + 1) = next at hyields
  rw [firstDraw] at hk
  rw [secondDraw] at hs
  cases hyields with
  | poisoned hbroken => simp [hb] at hbroken
  | brokeAtKey _ hfirst | noKey _ hfirst => simp [hfirst] at hk
  | brokeAtSecret _ hfirst hsecond | noSecret _ hfirst hsecond => simp [hfirst, hsecond] at hs
  | @material key _ hfirst hsecond _ hkey =>
    rw [hfirst] at hk hs
    rw [hsecond] at hs
    obtain rfl := Draw.bytes.inj hk
    obtain rfl := Draw.bytes.inj hs
    exact ⟨key, rfl, AccessKey.isTextOf (length_bytesAt ..) hkey⟩

/-- **No call finds fault with its own key.** -/
theorem answer_ne_validation (source : Source) (n : Nat) (detail : String) :
    source.answer n ≠ .failed (.validation detail) := by
  intro h
  have hyields := source.yields_answer n
  rw [h] at hyields
  generalize hresult : Generated.failed (.validation detail) = result at hyields
  generalize source.after (n + 1) = next at hyields
  cases hyields <;> simp [poisoned, Generator.unavailable] at hresult

/-- **Two issued keys are the same exactly if they have been drawn alike.** -/
theorem key_eq_iff (h : source.answer n = .material material)
    (h' : source'.answer n' = .material material') :
    material.key = material'.key ↔ source.firstDraw n = source'.firstDraw n' := by
  obtain ⟨bytes, hdraw, htext⟩ := exists_firstDraw h
  obtain ⟨bytes', hdraw', htext'⟩ := exists_firstDraw h'
  rw [htext.inj htext', hdraw, hdraw', Draw.bytes.injEq]

end Source

/-- The generator of a source after so many calls. -/
theorem Generator.iterate_generate (source : Source) (n : Nat) :
    (fun g : Generator => g.generate.2)^[n] (.random source) = .random (source.after n) := by
  induction n with
  | zero => rfl
  | succ n ih =>
    rw [Function.iterate_succ_apply', ih]
    rfl

/-! ### Whose key is in the table -/

namespace Vault

variable {plans : FailurePlan → Prop} {v : Vault} {i : Nat} {call : Call} {e : Effect}
  {moves : List Move} {owner : UserId} {material : KeyMaterial} {detail : String}

/-- **A creation that is refused as a conflict** has found its key in the table. -/
theorem Deed.mem_keys_of_taken (hd : v.Deed i call e) (hv : v.Orderly plans)
    (hc : v.calls[i]? = some call) (hr : call.request = .create owner material)
    (ha : e.phase = .answered (.error (.conflict detail))) : material.key ∈ v.table.keys := by
  have hplain : call.request.IsPlain := by
    rw [hr]
    exact Request.isPlain_of_ne (by simp) (by simp)
  cases hd with
  | @giveUp cause handle hp =>
    obtain rfl : cause = .conflict detail := by simpa using ha
    obtain ⟨-, -, work, hw, hreached⟩ := hv.inside hc hplain (by rw [hp, Phase.inside?])
    rw [hr] at hw
    obtain rfl := Option.some.inj hw
    generalize hrest : Work.fail (.conflict detail) = rest at hreached
    cases hreached.issuing with
    | taken hk => exact hk
    | refused => simp [FailurePlan.failure] at hrest
    | _ => simp [Work.issue] at hrest
  | refuse | late | expire => simp [FailurePlan.failure, Handle.alreadyFinished] at ha
  | _ => simp at ha

/-- **Somebody else has brought the key there**, if it was not there in the beginning. -/
theorem exists_issuer (hv : v.Orderly fun _ => True) (hn : v.calls[i]? = none)
    (hk : material.key ∉ v.table.keys) (hc : (v.run moves).calls[i]? = some call)
    (hr : call.request = .create owner material)
    (hp : call.phase = .answered (.error (.conflict detail))) :
    ∃ j other, j ≠ i ∧ (v.run moves).calls[j]? = some other ∧
      other.request.Offers material.key := by
  have hbefore : v.hasEnded i = false := by simp [hasEnded, hn]
  have hended : (v.run moves).hasEnded i = true := by
    simp [hasEnded_eq hc, Call.isLive, hp]
  obtain ⟨before, m, after, call₀, e, hs, -, hc₀, hd, -, hlast⟩ := exists_last_deed hbefore hended
  obtain rfl := Option.some.inj (hc.symm.trans hlast)
  have hw : (v.run before).Orderly fun _ => True := hv.run fun _ _ => trivial
  obtain ⟨j, other, t, t', ho, hoffers, hchange, -⟩ :=
    reissues_of_mem_keys hv hk (hd.mem_keys_of_taken hw hc₀ hr hp)
  have hne : j ≠ i := by
    rintro rfl
    -- so far the call has changed nothing
    have hplain : call₀.request.IsPlain := by
      rw [show call₀.request = .create owner material from hr]
      exact Request.isPlain_of_ne (by simp) (by simp)
    cases accounts hv (fun _ _ => trivial) hn hc₀ hplain with
    | granted hgranted =>
      have hlive := hd.isLive
      simp [Call.isLive, hgranted] at hlive
    | idle _ hno => simp [hno] at hchange
  obtain ⟨other', ho', hrequest⟩ := exists_call_run ho (m :: after)
  refine ⟨j, other', hne, ?_, by rwa [hrequest]⟩
  rw [hs, run_append]
  exact ho'

end Vault

/-- A task of a store issues only the key that has been drawn for it. -/
theorem StoreTask.eq_of_offers {task : StoreTask} {material : KeyMaterial} {key : AccessKey}
    (h : (task.request material).Offers key) : key = material.key := by
  cases task with
  | create | rotate => exact h
  | _ => exact False.elim h

/-! ### Which beat has brought it there -/

namespace Session

variable {source : Source} {users : Directory} {beats : Nat → Beat} {i n t : Nat}

/-- How many draws there are before a beat. -/
def drawsBefore (beats : Nat → Beat) (t : Nat) : Nat :=
  (List.range t).countP fun m => (beats m).draws

/-- **Why the key that is drawn in a beat may be there already**: another beat has drawn the same
bytes, or has made a request that may issue a key of the same text without drawing it. -/
inductive Clash (source : Source) (beats : Nat → Beat) (t t' : Nat) : Prop
  | drawn {task : StoreTask} {limit : Option Span} {bytes : List UInt8}
      (hb : beats t' = .draw task.request limit)
      (h' : source.firstDraw (drawsBefore beats t') = .bytes bytes)
      (h : source.firstDraw (drawsBefore beats t) = .bytes bytes) : Clash source beats t t'
  | brought {request : Request} {limit : Option Span} {material : KeyMaterial}
      (hb : beats t' = .ask request limit)
      (h : source.answer (drawsBefore beats t) = .material material)
      (ho : request.Offers material.key) : Clash source beats t t'

/-- The generator at any moment. -/
theorem generator_course_start (users : Directory) (source : Source) (beats : Nat → Beat)
    (t : Nat) : ((start users (.random source)).course beats t).generator =
      .random (source.after (drawsBefore beats t)) := by
  rw [generator_course, start]
  exact Generator.iterate_generate source _

/-- **What is asked by a call that is made in a beat.** -/
theorem exists_request_of_beginsIn {call : Call}
    (hbegin : (start users (.random source)).BeginsIn beats i t)
    (hc : ((start users (.random source)).course beats n).vault.calls[i]? = some call) :
    (∃ limit, beats t = .ask call.request limit) ∨
      ∃ request limit material, beats t = .draw request limit ∧
        source.answer (drawsBefore beats t) = .material material ∧
        call.request = request material := by
  obtain ⟨hlength, hthere⟩ := hbegin
  have hafter := List.getElem?_eq_getElem hthere
  obtain ⟨later, hlater⟩ := exists_phase_eq hc hafter
  rw [hlater] at hafter
  have hnone : ((start users (.random source)).course beats t).vault.calls[i]? = none := by
    rw [List.getElem?_eq_none]
    exact Nat.le_of_eq hlength
  obtain ⟨-, -, turn, ht⟩ := exists_turn?_of_new hnone hafter
  obtain ⟨phase, hp⟩ := exists_call_of_turn? ht hafter
  -- the turn begins with the new call, which is the last one
  have hrequest {request : Request} {limit : Option Span}
      (hv : turn.2 = ((start users (.random source)).course beats t).vault.start request limit) :
      call.request = request := by
    rw [hv, Vault.start, ← hlength, List.getElem?_concat_length] at hp
    exact (congrArg Call.request (Option.some.inj hp)).symm
  cases hb : beats t with
  | ask request limit =>
    rw [hb, turn?] at ht
    obtain ⟨-, rfl⟩ := Prod.mk.inj (Option.some.inj ht)
    exact Or.inl ⟨limit, by rw [hrequest rfl]⟩
  | draw request limit =>
    have hgenerate : ((start users (.random source)).course beats t).generator.generate =
        (source.answer (drawsBefore beats t),
          .random (source.after (drawsBefore beats t + 1))) := by
      rw [generator_course_start]
      rfl
    rw [hb, turn?, hgenerate] at ht
    cases ha : source.answer (drawsBefore beats t) with
    | material material =>
      rw [ha] at ht
      obtain ⟨-, rfl⟩ := Prod.mk.inj (Option.some.inj ht)
      exact Or.inr ⟨request, limit, material, rfl, rfl, hrequest rfl⟩
    | failed | breakdown => simp [ha] at ht
  | turn other =>
    rw [hb, turn?] at ht
    obtain ⟨-, rfl⟩ := Prod.mk.inj (Option.some.inj ht)
    rw [hnone] at hp
    simp at hp
  | _ => simp [hb, turn?] at ht

/-- **A conflict comes from a clash.** -/
theorem exists_clash {owner : UserId} {limit : Option Span} {detail : String}
    (htasks : ∀ t request limit, beats t = .draw request limit →
      ∃ task : StoreTask, request = task.request)
    (hb : beats t = .draw (.create owner) limit)
    (hbegin : (start users (.random source)).BeginsIn beats i t)
    (ha : ((start users (.random source)).course beats n).vault.answer? i =
      some (.error (.conflict detail))) :
    ∃ t' < n, t' ≠ t ∧ Clash source beats t t' := by
  obtain ⟨moves, hrun⟩ :=
    exists_run_course (start users (.random source)) beats (Nat.zero_le n)
  have hrun : ((start users (.random source)).course beats n).vault = Vault.empty.run moves := hrun
  have horderly : (Vault.empty.run moves).Orderly fun _ => True :=
    Vault.orderly_empty.run fun _ _ => trivial
  cases hc : ((start users (.random source)).course beats n).vault.calls[i]? with
  | none => simp [Vault.answer?, hc] at ha
  | some call =>
    obtain ⟨limit', hask⟩ | ⟨request, limit', material, hdraw, hanswer, hrequest⟩ :=
      exists_request_of_beginsIn hbegin hc
    · simp [hb] at hask
    · obtain ⟨rfl, -⟩ := Beat.draw.inj (hb.symm.trans hdraw)
      have hlease : call.request ≠ .lease := by simp [hrequest]
      rw [hrun] at hc ha
      have hp := (horderly.answer?_eq_some hc hlease).mp ha
      obtain ⟨j, other, hne, ho, hoffers⟩ := Vault.exists_issuer Vault.orderly_empty rfl
        (by simp [Vault.empty, Table.empty, Table.keys]) hc hrequest hp
      rw [← hrun] at ho
      obtain ⟨t', ht', hbegin', -⟩ := exists_beginsIn rfl ho
      refine ⟨t', ht', ?_, ?_⟩
      · rintro rfl
        exact hne (hbegin'.1.symm.trans hbegin.1)
      · obtain ⟨limit'', hask⟩ | ⟨request, limit'', material', hdraw', hanswer', hrequest'⟩ :=
          exists_request_of_beginsIn hbegin' ho
        · exact .brought hask hanswer hoffers
        · obtain ⟨task, rfl⟩ := htasks t' request limit'' hdraw'
          rw [hrequest'] at hoffers
          have hkey : material.key = material'.key := StoreTask.eq_of_offers hoffers
          obtain ⟨bytes, hbytes, -⟩ := Source.exists_firstDraw hanswer
          exact .drawn hdraw' (((Source.key_eq_iff hanswer hanswer').mp hkey).symm.trans hbytes)
            hbytes

end Session

/-- **Issued keys encode their bytes, and are always accepted back.** Let there be any source, and
any call of its generator that is answered key material. The access key is the text of the eighteen
bytes that the call has drawn first, as `AccessKey.IsTextOf` says, and whoever hands this text back
hands back the access key: to the service it is the same whether it is given the one or the other.
Whatever the bytes are, a call that draws them, first those of the access key and then those of the
secret, is answered the key material that is made of them. No call is answered that its key has no
valid form, and any two issued keys are the same exactly if they have been drawn alike. So whatever
happens in a session that draws from the source for the tasks of a store, a creation in it is
refused as a conflict only if another beat has drawn the same bytes, or has brought a key of the
same text from elsewhere. A secret, of whatever length, can be read back from the text in which it
is issued. -/
theorem issued_keys_encode_their_bytes :
    (∀ (source : Source) (n : Nat) (material : KeyMaterial),
      source.answer n = .material material →
        (∃ bytes, source.firstDraw n = .bytes bytes ∧ material.key.IsTextOf bytes) ∧
        AccessKey.ofText material.key.text = .ok material.key ∧
        ∀ (service : Service) (caller : Caller) (target : Option String),
          (service.delete caller target material.key.text = do
            let owner ← service.authorize caller target .modifyCredentials
            service.store.delete owner material.key) ∧
          (service.rotate caller target material.key.text = do
            let owner ← service.authorize caller target .modifyCredentials
            service.store.rotate owner material.key)) ∧
    (∀ (source : Source) (n : Nat) (access secret : List UInt8),
      (source.after n).broken = false → source.firstDraw n = .bytes access →
        source.secondDraw n = .bytes secret →
          ∃ key : AccessKey, source.answer n = .material ⟨key, ⟨secret⟩⟩ ∧ key.IsTextOf access) ∧
    (∀ (source : Source) (n : Nat) (detail : String),
      source.answer n ≠ .failed (.validation detail)) ∧
    (∀ (source source' : Source) (n n' : Nat) (material material' : KeyMaterial),
      source.answer n = .material material → source'.answer n' = .material material' →
        (material.key = material'.key ↔ source.firstDraw n = source'.firstDraw n')) ∧
    (∀ (source : Source) (users : Directory) (beats : Nat → Beat),
      (∀ t request limit, beats t = .draw request limit →
        ∃ task : StoreTask, request = task.request) →
      let s := Session.start users (.random source)
      ∀ t n i owner limit detail, beats t = .draw (.create owner) limit → s.BeginsIn beats i t →
        (s.course beats n).vault.answer? i = some (.error (.conflict detail)) →
          ∃ t' < n, t' ≠ t ∧ Session.Clash source beats t t') ∧
    ∀ secret : Secret, Text.Base64.decode? .standard secret.base64 = some secret.bytes := by
  refine ⟨fun source n material h => ⟨Source.exists_firstDraw h, material.key.ofText_text, ?_⟩,
    fun _ _ _ _ hb hk hs => Source.exists_answer_of_draws hb hk hs,
    Source.answer_ne_validation, fun _ _ _ _ _ _ h h' => Source.key_eq_iff h h', ?_, ?_⟩
  · intro service caller target
    rw [Service.delete, Service.rotate, material.key.ofText_text]
    exact ⟨rfl, rfl⟩
  · exact fun source users beats htasks t n i owner limit detail hb hbegin ha =>
      Session.exists_clash htasks hb hbegin ha
  · exact fun secret => Text.Base64.decode?_encode Text.Base64.isReadable_standard secret.bytes

end KeyLifecycle
