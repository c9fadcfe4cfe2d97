import KeyLifecycle.Proofs.Service.Mediation

/-!
# Asking does not tell who is there

Somebody who is no administrator names a slug that is not their own, in order to find out whether
there is a user of that slug. They are turned away in any case: for want of a user, or for want of a
right. The two causes differ, but a client is shown the same view of both
(`KeyLifecycle.Failure.clientView_of_isAuthorization`), and in neither case has anything been looked
at but the users and the policy. So two worlds that have nothing in common answer alike, whatever is
asked for: `KeyLifecycle.probing_reveals_nothing`.
-/

namespace KeyLifecycle

/-- **All failures for want of a right look the same** to a client. -/
theorem Failure.clientView_of_isAuthorization {cause : Failure}
    (h : cause.isAuthorization = true) : cause.clientView = ⟨.unauthorized, "Unauthorized"⟩ := by
  cases cause with
  | targetNotFound slug => rfl
  | policyDenied action target reason => rfl
  | _ => exact absurd h Bool.false_ne_true

/-- **Whoever names a stranger is turned away** at once, and nothing comes of it but reports. -/
theorem Petition.attend_of_stranger {q : Petition} {s : Session} (store : Store)
    (hq : q.caller.isAdmin = false) (ho : q.owner? s.directory ≠ some q.caller.id) :
    ∃ cause t, q.attend store s = (.finished (.error cause), t) ∧ cause.isAuthorization = true ∧
      s.OnlyReports t := by
  cases hu : q.owner? s.directory with
  | none =>
    obtain ⟨ht, slug, -, -, hp⟩ := attend_of_unknown store hu
    exact ⟨.targetNotFound slug, (q.attend store s).2, Prod.ext hp rfl, rfl, ht⟩
  | some u =>
    have hreach : ¬q.Reaches u := by
      rintro (rfl | hadmin)
      · exact ho hu
      · exact absurd (hq.symm.trans hadmin) Bool.false_ne_true
    obtain ⟨ht, hp⟩ := attend_of_not_reaches store hu hreach
    exact ⟨q.refusal u, (q.attend store s).2, Prod.ext hp rfl, rfl, ht⟩

/-- **Asking does not tell who is there.** Somebody who is no administrator names a slug, and asks
for anything: to issue, to list, to revoke or to replace, with any text for an access key. Take any
two worlds: other users, other credentials and transactions, locks that are free or held, other
failures to come, other sources of key material, other limits. If the slug is the caller's own in
neither, both answer with failures of which a client is shown the same, and this without waiting:
however short the patience is, no time has passed, no call has been started, and users, key
material and credentials are left as they were, in transactions as well. -/
theorem probing_reveals_nothing {caller : Caller} (hcaller : caller.isAdmin = false)
    {slug : String} (hslug : slug ≠ "") (call : ServiceCall) {s₁ s₂ : Session}
    (h₁ : (s₁.directory.bySlug slug).map (·.id) ≠ some caller.id)
    (h₂ : (s₂.directory.bySlug slug).map (·.id) ≠ some caller.id) (store₁ store₂ : Store)
    (patience₁ patience₂ : Span) :
    ∃ cause₁ cause₂ t₁ t₂,
      Petition.attend ⟨caller, some slug, call, patience₁⟩ store₁ s₁ =
          (.finished (.error cause₁), t₁) ∧
        Petition.attend ⟨caller, some slug, call, patience₂⟩ store₂ s₂ =
          (.finished (.error cause₂), t₂) ∧
        cause₁.clientView = cause₂.clientView ∧ s₁.OnlyReports t₁ ∧ s₂.OnlyReports t₂ := by
  -- in either world the slug is that of a stranger
  have away (store : Store) (patience : Span) {s : Session}
      (h : (s.directory.bySlug slug).map (·.id) ≠ some caller.id) :
      ∃ cause t, Petition.attend ⟨caller, some slug, call, patience⟩ store s =
          (.finished (.error cause), t) ∧ cause.isAuthorization = true ∧ s.OnlyReports t := by
    refine Petition.attend_of_stranger store hcaller ?_
    rwa [Petition.owner?, ServiceCall.named?_eq_some.mpr ⟨rfl, hslug⟩]
  obtain ⟨cause₁, t₁, ha₁, hc₁, ht₁⟩ := away store₁ patience₁ h₁
  obtain ⟨cause₂, t₂, ha₂, hc₂, ht₂⟩ := away store₂ patience₂ h₂
  refine ⟨cause₁, cause₂, t₁, t₂, ha₁, ha₂, ?_, ht₁, ht₂⟩
  rw [Failure.clientView_of_isAuthorization hc₁, Failure.clientView_of_isAuthorization hc₂]

/-- Two worlds: one has a user `bob` with a credential, and somebody holds the table; in the other
there is nobody. A user with the number 1 would like to replace a key of `bob`, with a text that is
no access key. -/
theorem probing_reveals_nothing_rotate_bob :
    let q (patience : Span) : Petition := ⟨⟨⟨1⟩, false⟩, some "bob", .rotate "no key", patience⟩
    let crowded : Session :=
      ⟨.ofUsers [⟨⟨2⟩, ⟨"bob", by decide⟩, .standard⟩], .random (.seeded 7),
        Vault.empty.run [.start (.create ⟨2⟩ ⟨⟨"k", by decide⟩, ⟨[9]⟩⟩) none, .step 0, .step 0,
          .step 0, .step 0, .start .lease none, .step 1, .step 1], 3⟩
    let deserted : Session := .start .empty (.scripted [])
    ∃ cause₁ cause₂ t₁ t₂,
      (q 0).attend ⟨20⟩ crowded = (.finished (.error cause₁), t₁) ∧
        (q 5).attend ⟨0⟩ deserted = (.finished (.error cause₂), t₂) ∧
        cause₁.clientView = cause₂.clientView ∧ crowded.OnlyReports t₁ ∧
        deserted.OnlyReports t₂ := by
  intro q crowded deserted
  exact probing_reveals_nothing rfl (by decide) (.rotate "no key") (by decide) (by decide) ⟨20⟩ ⟨0⟩
    0 5

end KeyLifecycle
