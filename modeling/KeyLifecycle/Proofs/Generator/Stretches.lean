import KeyLifecycle.Proofs.AccessKey
import KeyLifecycle.Proofs.Session.Beats
import KeyLifecycle.Proofs.Store.Task

/-!
# A generator deals out its stream

A source is a stream of bytes with a mark that moves forward, and each call of its generator uses up
the positions between two places of the mark (`Source.used`). What the calls use up, one after the
other, is therefore *the* stream from the first place of the mark to the last, each position once
(`KeyLifecycle.Source.flatMap_used`): whatever is handed out, or lost in between, is never handed
out again.

What one call comes to is listed in `Source.Call`, outcome by outcome of its two draws, which leave
no choice in it (`KeyLifecycle.Source.Yields.ofSource_eq`). There are eighty-two positions for key
material, none where the first draw is refused or breaks down, the eighteen of the access key where
the second one does, and none at all for a source that has broken down before.

A session draws from its generator only where a credential is issued, so once the source has broken
down nothing is issued any more, and **everything else is as if nobody had asked for it**
(`KeyLifecycle.Session.foldl_beat_of_broken`).
-/

namespace KeyLifecycle

namespace Source

variable {source : Source} {m n : Nat}

/-! ### One draw -/

/-- The bytes at so many positions in a row. -/
def bytesAt (source : Source) (position count : Nat) : List UInt8 :=
  (List.range' position count).map source.byte

@[simp] theorem length_bytesAt (source : Source) (position count : Nat) :
    (source.bytesAt position count).length = count := by
  simp [bytesAt]

/-- A source of which so many more draws have been tried, and so many positions used up. -/
def onward (source : Source) (draws count : Nat) : Source :=
  { source with draws := source.draws + draws, position := source.position + count }

theorem onward_onward (source : Source) (draws draws' count count' : Nat) :
    (source.onward draws count).onward draws' count' =
      source.onward (draws + draws') (count + count') := by
  simp [onward, Nat.add_assoc]

/-- A source that has broken down. -/
def ruined (source : Source) : Source := { source with broken := true }

/-- **A draw** takes all the bytes that it asks for, which the source has, or none. -/
theorem draw_cases (source : Source) (count : Nat) :
    source.draw count = (.breakdown, (source.onward 1 0).ruined) ∨
      (∃ reason, source.draw count = (.refused reason, source.onward 1 0)) ∨
      (source.has count = true ∧
        source.draw count =
          (.bytes (source.bytesAt source.position count), source.onward 1 count)) := by
  rw [draw]
  dsimp only
  split
  · exact Or.inl rfl
  · split
    · exact Or.inr (Or.inl ⟨_, rfl⟩)
    · split
      · exact Or.inr (Or.inr ⟨‹_›, rfl⟩)
      · exact Or.inr (Or.inl ⟨_, rfl⟩)

/-! ### One call -/

/-- What a generator says whose source has broken down before. -/
def poisoned : Failure := .entropyUnavailable "Randomness source poisoned"

/-- **What a call comes to**, and the source after it, by what its two draws come to. -/
inductive Yields (source : Source) : Generated → Source → Prop
  | poisoned (hb : source.broken = true) : Yields source (.failed poisoned) source
  | brokeAtKey (hb : source.broken = false)
      (hk : source.draw Generator.accessKeyBytes = (.breakdown, (source.onward 1 0).ruined)) :
    Yields source .breakdown (source.onward 1 0).ruined
  | noKey {reason : String} (hb : source.broken = false)
      (hk : source.draw Generator.accessKeyBytes = (.refused reason, source.onward 1 0)) :
    Yields source (.failed (Generator.unavailable "access key" reason)) (source.onward 1 0)
  | brokeAtSecret (hb : source.broken = false)
      (hk : source.draw Generator.accessKeyBytes =
        (.bytes (source.bytesAt source.position Generator.accessKeyBytes),
          source.onward 1 Generator.accessKeyBytes))
      (hs : (source.onward 1 Generator.accessKeyBytes).draw Generator.secretBytes =
        (.breakdown, (source.onward 2 Generator.accessKeyBytes).ruined)) :
    Yields source .breakdown (source.onward 2 Generator.accessKeyBytes).ruined
  | noSecret {reason : String} (hb : source.broken = false)
      (hk : source.draw Generator.accessKeyBytes =
        (.bytes (source.bytesAt source.position Generator.accessKeyBytes),
          source.onward 1 Generator.accessKeyBytes))
      (hs : (source.onward 1 Generator.accessKeyBytes).draw Generator.secretBytes =
        (.refused reason, source.onward 2 Generator.accessKeyBytes)) :
    Yields source (.failed (Generator.unavailable "secret key" reason))
      (source.onward 2 Generator.accessKeyBytes)
  | material {key : AccessKey} (hb : source.broken = false)
      (hk : source.draw Generator.accessKeyBytes =
        (.bytes (source.bytesAt source.position Generator.accessKeyBytes),
          source.onward 1 Generator.accessKeyBytes))
      (hs : (source.onward 1 Generator.accessKeyBytes).draw Generator.secretBytes =
        (.bytes (source.bytesAt (source.position + Generator.accessKeyBytes) Generator.secretBytes),
          source.onward 2 (Generator.accessKeyBytes + Generator.secretBytes)))
      (hhas : source.has (Generator.accessKeyBytes + Generator.secretBytes) = true)
      (hkey : key.text =
        Text.Base64.encode .urlSafe (source.bytesAt source.position Generator.accessKeyBytes)) :
    Yields source
      (.material ⟨key, ⟨source.bytesAt (source.position + Generator.accessKeyBytes)
        Generator.secretBytes⟩⟩)
      (source.onward 2 (Generator.accessKeyBytes + Generator.secretBytes))

/-- **Eighteen bytes make an access key**, whatever they are. -/
theorem exists_materialOf {access : List UInt8} (h : access.length = Generator.accessKeyBytes)
    (secret : List UInt8) :
    ∃ key, Generator.materialOf access secret = .material ⟨key, ⟨secret⟩⟩ ∧
      key.text = Text.Base64.encode .urlSafe access := by
  obtain ⟨key, hkey, htext⟩ := AccessKey.exists_ofText_encode
    (List.ne_nil_of_length_pos (by rw [h]; decide)) (by rw [h]; decide)
  exact ⟨key, by rw [Generator.materialOf, hkey], htext⟩

/-- **No call comes to anything else**: what the draws come to leaves no choice. -/
theorem Yields.ofSource_eq {result : Generated} {next : Source} (h : source.Yields result next) :
    Generator.ofSource source = (result, next) := by
  cases h with
  | poisoned hb =>
    rw [Generator.ofSource, if_pos hb]
    rfl
  | brokeAtKey hb hk | noKey hb hk => simp [Generator.ofSource, hb, hk]
  | brokeAtSecret hb hk hs | noSecret hb hk hs => simp [Generator.ofSource, hb, hk, hs]
  | material hb hk hs hhas hkey =>
    obtain ⟨key, hmaterial, htext⟩ := exists_materialOf
      (source.length_bytesAt source.position Generator.accessKeyBytes)
      (source.bytesAt (source.position + Generator.accessKeyBytes) Generator.secretBytes)
    obtain rfl := AccessKey.text_inj.mp (hkey.trans htext.symm)
    simp [Generator.ofSource, hb, hk, hs, hmaterial]

/-- There is always something that it comes to. -/
theorem exists_yields (source : Source) : ∃ result next, source.Yields result next := by
  cases hb : source.broken with
  | true => exact ⟨_, _, .poisoned hb⟩
  | false =>
    rcases source.draw_cases Generator.accessKeyBytes with hk | ⟨reason, hk⟩ | ⟨-, hk⟩
    · exact ⟨_, _, .brokeAtKey hb hk⟩
    · exact ⟨_, _, .noKey hb hk⟩
    have hdraw := (source.onward 1 Generator.accessKeyBytes).draw_cases Generator.secretBytes
    simp only [onward_onward] at hdraw
    rcases hdraw with hs | ⟨reason, hs⟩ | ⟨hhas, hs⟩
    · exact ⟨_, _, .brokeAtSecret hb hk hs⟩
    · exact ⟨_, _, .noSecret hb hk hs⟩
    · obtain ⟨key, -, htext⟩ := exists_materialOf
        (source.length_bytesAt source.position Generator.accessKeyBytes) []
      refine ⟨_, _, .material hb hk hs ?_ htext⟩
      simpa [has, onward, Nat.add_assoc] using hhas

theorem yields (source : Source) :
    source.Yields (Generator.ofSource source).1 (Generator.ofSource source).2 := by
  obtain ⟨result, next, h⟩ := source.exists_yields
  rwa [h.ofSource_eq]

/-! ### One call after the other -/

/-- A source after so many calls. -/
def after (source : Source) : Nat → Source
  | 0 => source
  | n + 1 => (Generator.ofSource (source.after n)).2

/-- The answer of a call, counted from zero. -/
def answer (source : Source) (n : Nat) : Generated := (Generator.ofSource (source.after n)).1

/-- **The positions of the stream that a call uses up.** -/
def used (source : Source) (n : Nat) : List Nat :=
  List.range' (source.after n).position
    ((source.after (n + 1)).position - (source.after n).position)

theorem yields_answer (source : Source) (n : Nat) :
    (source.after n).Yields (source.answer n) (source.after (n + 1)) := (source.after n).yields

theorem after_add (source : Source) (m n : Nat) :
    source.after (m + n) = (source.after m).after n := by
  induction n with
  | zero => rfl
  | succ n ih => rw [← Nat.add_assoc, after, after, ih]

/-- A call leaves the stream as it is, and the mark where it is or further on. -/
theorem Yields.keeps {result : Generated} {next : Source} (h : source.Yields result next) :
    next.byte = source.byte ∧ next.size = source.size ∧ next.limit = source.limit ∧
      source.position ≤ next.position := by
  cases h with
  | poisoned => exact ⟨rfl, rfl, rfl, le_refl _⟩
  | _ => exact ⟨rfl, rfl, rfl, Nat.le_add_right _ _⟩

theorem after_keeps (source : Source) (n : Nat) :
    (source.after n).byte = source.byte ∧ (source.after n).size = source.size ∧
      (source.after n).limit = source.limit := by
  induction n with
  | zero => exact ⟨rfl, rfl, rfl⟩
  | succ n ih =>
    obtain ⟨hbyte, hsize, hlimit, -⟩ := (source.yields_answer n).keeps
    exact ⟨hbyte.trans ih.1, hsize.trans ih.2.1, hlimit.trans ih.2.2⟩

/-- The mark moves forward only. -/
theorem position_mono (source : Source) : Monotone fun n => (source.after n).position :=
  monotone_nat_of_le_succ fun n => (source.yields_answer n).keeps.2.2.2

/-- **The calls use up the stream without a gap**: what they use, one after the other, are the
positions that the mark has passed, each of them once. -/
theorem flatMap_used (source : Source) (n : Nat) :
    (List.range n).flatMap source.used =
      List.range' source.position ((source.after n).position - source.position) := by
  induction n with
  | zero => simp [after]
  | succ n ih =>
    have hfirst : source.position ≤ (source.after n).position :=
      source.position_mono (Nat.zero_le n)
    have hnext : (source.after n).position ≤ (source.after (n + 1)).position :=
      source.position_mono (Nat.le_succ n)
    have hstart : (source.after n).position =
        source.position + ((source.after n).position - source.position) := by omega
    rw [List.range_succ, List.flatMap_append, ih, List.flatMap_singleton, used]
    nth_rewrite 2 [hstart]
    rw [List.range'_append_1]
    congr 1
    omega

/-- **What one call uses up comes before all that later calls use up.** -/
theorem lt_of_mem_used {p q : Nat} (h : m < n) (hp : p ∈ source.used m) (hq : q ∈ source.used n) :
    p < q := by
  have hle : (source.after (m + 1)).position ≤ (source.after n).position := source.position_mono h
  rw [used, List.mem_range'_1] at hp hq
  omega

/-- A source that has broken down stays as it is, and every call of it fails. -/
theorem after_of_broken (h : source.broken = true) (n : Nat) :
    source.after n = source ∧ source.answer n = .failed poisoned := by
  have hone : Generator.ofSource source = (.failed poisoned, source) :=
    (Yields.poisoned h).ofSource_eq
  have hafter : source.after n = source := by
    induction n with
    | zero => rfl
    | succ n ih => rw [after, ih, hone]
  exact ⟨hafter, by rw [answer, hafter, hone]⟩

theorem Yields.broken {next : Source} (h : source.Yields .breakdown next) :
    next.broken = true := by
  cases h <;> rfl

/-- **A breakdown is for good.** -/
theorem of_breakdown (h : source.answer m = .breakdown) (hmn : m < n) :
    source.after n = source.after (m + 1) ∧ source.answer n = .failed poisoned ∧
      source.used n = [] := by
  have hbroken : (source.after (m + 1)).broken = true := by
    have hyields := source.yields_answer m
    rw [h] at hyields
    exact hyields.broken
  obtain ⟨k, rfl⟩ := Nat.exists_eq_add_of_le (Nat.succ_le_of_lt hmn)
  have hlast : source.after (m + 1 + k) = source.after (m + 1) := by
    rw [after_add, (after_of_broken hbroken k).1]
  have hnext : source.after (m + 1 + k + 1) = source.after (m + 1) := by
    rw [Nat.add_assoc, after_add, (after_of_broken hbroken (k + 1)).1]
  refine ⟨hlast, ?_, ?_⟩
  · rw [answer, after_add]
    exact (after_of_broken hbroken k).2
  · rw [used, hnext, hlast, Nat.sub_self, List.range'_zero]

/-- **What a call comes to**, by what its two draws come to: its answer, the source after it, and
the positions that it uses up. -/
inductive Call (source : Source) (n : Nat) : Prop
  /-- Both draws succeed: the access key is made of eighteen bytes of the stream, and the secret of
  the sixty-four that follow. -/
  | issued {material : KeyMaterial} (hb : (source.after n).broken = false)
      (hk : (source.after n).draw 18 =
        (.bytes (source.bytesAt (source.after n).position 18), (source.after n).onward 1 18))
      (hs : ((source.after n).onward 1 18).draw 64 =
        (.bytes (source.bytesAt ((source.after n).position + 18) 64), (source.after n).onward 2 82))
      (ha : source.answer n = .material material)
      (hkey : material.key.text = Text.Base64.encode .urlSafe
        (source.bytesAt (source.after n).position 18))
      (hsecret : material.secret.bytes = source.bytesAt ((source.after n).position + 18) 64)
      (hn : source.after (n + 1) = (source.after n).onward 2 82)
      (hu : source.used n = List.range' (source.after n).position 82)
      (hsize : ∀ size ∈ source.size, (source.after n).position + 82 ≤ size)
      (hlimit : ∀ limit ∈ source.limit, (source.after n).position + 82 ≤ limit)
  /-- The first draw is refused. -/
  | noKey {reason : String} (hb : (source.after n).broken = false)
      (hk : (source.after n).draw 18 = (.refused reason, (source.after n).onward 1 0))
      (ha : source.answer n =
        .failed (.entropyUnavailable ("Unable to generate access key: " ++ reason)))
      (hn : source.after (n + 1) = (source.after n).onward 1 0)
      (hu : source.used n = [])
  /-- The second draw is refused. -/
  | noSecret {reason : String} (hb : (source.after n).broken = false)
      (hk : (source.after n).draw 18 =
        (.bytes (source.bytesAt (source.after n).position 18), (source.after n).onward 1 18))
      (hs : ((source.after n).onward 1 18).draw 64 =
        (.refused reason, (source.after n).onward 2 18))
      (ha : source.answer n =
        .failed (.entropyUnavailable ("Unable to generate secret key: " ++ reason)))
      (hn : source.after (n + 1) = (source.after n).onward 2 18)
      (hu : source.used n = List.range' (source.after n).position 18)
  /-- The source breaks down in the first draw, which is the last one. -/
  | brokeAtKey (hb : (source.after n).broken = false)
      (hk : (source.after n).draw 18 = (.breakdown, ((source.after n).onward 1 0).ruined))
      (ha : source.answer n = .breakdown)
      (hn : source.after (n + 1) = ((source.after n).onward 1 0).ruined)
      (hu : source.used n = [])
      (later : ∀ m > n, source.answer m = .failed poisoned ∧ source.used m = [])
  /-- The source breaks down in the second draw, which is the last one. -/
  | brokeAtSecret (hb : (source.after n).broken = false)
      (hk : (source.after n).draw 18 =
        (.bytes (source.bytesAt (source.after n).position 18), (source.after n).onward 1 18))
      (hs : ((source.after n).onward 1 18).draw 64 =
        (.breakdown, ((source.after n).onward 2 18).ruined))
      (ha : source.answer n = .breakdown)
      (hn : source.after (n + 1) = ((source.after n).onward 2 18).ruined)
      (hu : source.used n = List.range' (source.after n).position 18)
      (later : ∀ m > n, source.answer m = .failed poisoned ∧ source.used m = [])
  /-- The source had broken down before. -/
  | poisoned (hb : (source.after n).broken = true) (ha : source.answer n = .failed poisoned)
      (hn : source.after (n + 1) = source.after n)
      (hu : source.used n = [])

/-- The positions between two places of the mark. -/
theorem used_eq {count : Nat}
    (h : (source.after (n + 1)).position = (source.after n).position + count) :
    source.used n = List.range' (source.after n).position count := by
  rw [used, h, Nat.add_sub_cancel_left]

theorem call (source : Source) (n : Nat) : source.Call n := by
  obtain ⟨hbyte, hsize, hlimit⟩ := source.after_keeps n
  have hbytes : (source.after n).bytesAt = source.bytesAt := by
    funext position count
    rw [bytesAt, bytesAt, hbyte]
  have hyields := source.yields_answer n
  generalize ha : source.answer n = result at hyields
  generalize hn : source.after (n + 1) = next at hyields
  cases hyields with
  | poisoned hb => exact .poisoned hb ha hn (used_eq (by rw [hn, Nat.add_zero]))
  | brokeAtKey hb hk =>
    exact .brokeAtKey hb hk ha hn (used_eq (by rw [hn]; rfl)) fun m hm => (of_breakdown ha hm).2
  | noKey hb hk => exact .noKey hb hk ha hn (used_eq (by rw [hn]; rfl))
  | brokeAtSecret hb hk hs =>
    rw [hbytes] at hk
    exact .brokeAtSecret hb hk hs ha hn (used_eq (by rw [hn]; rfl)) fun m hm =>
      (of_breakdown ha hm).2
  | noSecret hb hk hs =>
    rw [hbytes] at hk
    exact .noSecret hb hk hs ha hn (used_eq (by rw [hn]; rfl))
  | material hb hk hs hhas hkey =>
    rw [hbytes] at hk hs ha hkey
    rw [has, hsize, hlimit, Bool.and_eq_true] at hhas
    refine .issued hb hk hs ha hkey rfl hn (used_eq (by rw [hn]; rfl)) ?_ ?_
    · rintro size hs
      have hfits := hhas.1
      rw [Option.mem_def.mp hs] at hfits
      exact of_decide_eq_true hfits
    · rintro limit hl
      have hfits := hhas.2
      rw [Option.mem_def.mp hl] at hfits
      exact of_decide_eq_true hfits

end Source

/-! ### What a session makes of the answers -/

/-- Where a task that draws goes from the answer of its generator. -/
def StoreTask.answered (task : StoreTask) (store : Store) :
    Generated → Session → Progress (Except Failure Reply) × Session
  | .material material, s =>
    (Procedure.ask (task.request material) (some store.limit) .done).run s
  | .failed cause, s => (.finished (.error cause), s)
  | .breakdown, s => (.crashed, s)

namespace Session

variable {s : Session} {b : Beat}

/-- A session with another generator. -/
def withGenerator (s : Session) (g : Generator) : Session := { s with generator := g }

/-- **A task that draws** is one call of the generator, and goes from its answer. -/
theorem run_procedure_of_draws {source : Source} {n : Nat} {task : StoreTask}
    (hs : s.generator = .random (source.after n)) (hd : task.draws = true) (store : Store) :
    (task.procedure store).run s =
      task.answered store (source.answer n)
        (s.withGenerator (.random (source.after (n + 1)))) := by
  have hg : s.generator.generate = (source.answer n, .random (source.after (n + 1))) := by
    rw [hs]
    rfl
  rw [StoreTask.procedure_of_draws hd]
  cases ha : source.answer n with
  | material material => exact Procedure.run_drawing_of_material (ha ▸ hg)
  | failed cause => exact Procedure.run_drawing_of_failed (ha ▸ hg)
  | breakdown => exact Procedure.run_drawing_of_breakdown (ha ▸ hg)

/-! ### What is left without a source -/

/-- Whatever draws nothing does the same with any generator. -/
theorem beat_withGenerator (h : b.draws = false) (s : Session) (g : Generator) :
    (s.withGenerator g).beat b = (s.beat b).withGenerator g := by
  cases b with
  | draw request limit => simp [Beat.draws] at h
  | ask request limit =>
    rw [beat, beat, Procedure.run_ask_eq, Procedure.run_ask_eq]
    rfl
  | _ => rfl

/-- Whatever draws does nothing when the source has broken down. -/
theorem run_drawing_of_broken {source : Source} (hs : s.generator = .random source)
    (h : source.broken = true) (request : KeyMaterial → Request) (limit : Option Span) :
    (Procedure.drawing request limit).run s = (.finished (.error Source.poisoned), s) := by
  have hg : s.generator.generate = (.failed Source.poisoned, s.generator) := by
    rw [hs, Generator.generate, (Source.Yields.poisoned h).ofSource_eq]
  rw [Procedure.run_drawing_of_failed hg]

/-- **Without a source everything goes on as if nobody asked for a credential to be issued**: what
is played in the session is what would be played with any other generator, but for the beats that
draw from it. -/
theorem foldl_beat_of_broken {source : Source} (hs : s.generator = .random source)
    (h : source.broken = true) (beats : List Beat) (g : Generator) :
    beats.foldl beat s =
      ((beats.filter (!·.draws)).foldl beat (s.withGenerator g)).withGenerator s.generator := by
  induction beats generalizing s with
  | nil => rfl
  | cons b beats ih =>
    rw [List.foldl_cons]
    cases hb : b.draws with
    | true =>
      have hstill : s.beat b = s := by
        cases b with
        | draw request limit => rw [beat, run_drawing_of_broken hs h]
        | _ => simp [Beat.draws] at hb
      rw [hstill, List.filter_cons_of_neg (by simp [hb])]
      exact ih hs
    | false =>
      have hsame : (s.beat b).generator = s.generator := by
        rw [generator_beat, hb]
        rfl
      rw [List.filter_cons_of_pos (by simp [hb]), List.foldl_cons, beat_withGenerator hb,
        ih (hsame.trans hs), hsame]

/-- **The draws of a session are the calls of its generator**, one after the other, whoever makes
them. -/
theorem generator_foldl_beat {source : Source} (hs : s.generator = .random source)
    (beats : List Beat) :
    (beats.foldl beat s).generator = .random (source.after (beats.countP Beat.draws)) := by
  induction beats using List.reverseRecOn with
  | nil => exact hs
  | append_singleton beats b ih =>
    rw [List.foldl_append, List.foldl_cons, List.foldl_nil, generator_beat, ih, List.countP_append,
      List.countP_singleton]
    cases b.draws with
    | true => rfl
    | false => rfl

end Session

/-- **A generator deals out its stream.** Let there be any source, which may come to an end, be
limited, refuse any of its draws, or break down in any of them, and any number of calls of its
generator, one after the other. Each call comes to what `Source.Call` says of the outcomes of its
draws; together they use up the stream without a gap, and what one of them uses up comes before all
that later ones do. In a session the creations and rotations of all users, and nothing else, are
these calls, and each goes from the answer of its own (`StoreTask.answered`); once the source has
broken down they are refused and change nothing at all, and everything else goes on as if there had
been none of them, with any generator. -/
theorem generator_deals_out_stream (source : Source) :
    (∀ n, source.Call n) ∧
      (∀ n, (List.range n).flatMap source.used =
        List.range' source.position ((source.after n).position - source.position)) ∧
      (∀ m n, m < n → ∀ p ∈ source.used m, ∀ q ∈ source.used n, p < q) ∧
      ∀ (s : Session) (beats : List Beat), s.generator = .random source →
        let calls := beats.countP Beat.draws
        let now := beats.foldl Session.beat s
        now.generator = .random (source.after calls) ∧
          (∀ (store : Store) (task : StoreTask), task.draws = true →
            (task.procedure store).run now = task.answered store (source.answer calls)
              (now.withGenerator (.random (source.after (calls + 1))))) ∧
          ∀ m < calls, source.answer m = .breakdown →
            (∀ (store : Store) (task : StoreTask), task.draws = true →
              (task.procedure store).run now =
                (.finished (.error (.entropyUnavailable "Randomness source poisoned")), now)) ∧
            ∀ (more : List Beat) (g : Generator), more.foldl Session.beat now =
              ((more.filter (!·.draws)).foldl Session.beat (now.withGenerator g)).withGenerator
                now.generator := by
  refine ⟨source.call, source.flatMap_used, fun m n h p hp q hq => ?_, ?_⟩
  · exact Source.lt_of_mem_used h hp hq
  intro s beats hs calls now
  have hnow : now.generator = .random (source.after calls) := Session.generator_foldl_beat hs beats
  refine ⟨hnow, fun store task hd => Session.run_procedure_of_draws hnow hd store,
    fun m hm hbreak => ?_⟩
  have hbroken : (source.after calls).broken = true := by
    rw [(Source.of_breakdown hbreak hm).1]
    have hyields := source.yields_answer m
    rw [hbreak] at hyields
    exact hyields.broken
  refine ⟨fun store task hd => ?_, fun more g => ?_⟩
  · rw [StoreTask.procedure_of_draws hd]
    exact Session.run_drawing_of_broken hnow hbroken _ _
  · exact Session.foldl_beat_of_broken hnow hbroken more g

-- the limit is met inside the secret of the second call, whose access key is lost
example : { Source.seeded 0 with limit := some 120 }.used 1 = List.range' 82 18 := by
  decide +kernel

end KeyLifecycle
