import SpeechlyPlugin.Plugin.Fold
import SpeechlyPlugin.Plugin.Reading
import Mathlib.Data.List.Infix

/-!
# After the end of a segment

`slu.proto` has the receiver discard the messages of a segment that come after its `segment_end`.  `Tick` does not look at
`bIsFinal` before it changes a response, so what is stored of a segment that has ended stays as it is exactly as long as no
message for it says anything new.
-/

namespace SpeechlyPlugin.Plugin

open Engine Lib USpeechly Reading

/-- `Transcript`, `Entities` and `Intent`. -/
def content (out : FSpeechlyResponse) : FString × KeyMap FString FString × FString :=
  (out.transcript, out.entities, out.intent)

/-- The message says what is stored already: an empty word after no word, an entity with the value it has, the intent
there is. -/
def Repeats (out : FSpeechlyResponse) : Payload → Prop
  | .transcript t => out.transcript.isEmpty = true ∧ (FString.ofCStr t.word).isEmpty = true
  | .entity e => (FString.ofCStr e.entity, FString.ofCStr e.value) ∈ out.entities.entries
  | .intent i => FString.ofCStr i.intent = out.intent
  | _ => True

section

variable {out out' : FSpeechlyResponse} {key : FString} {r : SLUResponse}

theorem repeats_congr (h : content out = content out') (p : Payload) : Repeats out p ↔ Repeats out' p := by
  obtain ⟨htranscript, hentities, hintent⟩ : out.transcript = out'.transcript ∧ out.entities = out'.entities ∧
      out.intent = out'.intent := by simpa [content] using h
  cases p <;> simp [Repeats, htranscript, hentities, hintent]

theorem appendWord_eq_iff (w : FString) :
    (appendWord w out).transcript = out.transcript ↔ out.transcript.isEmpty = true ∧ w.isEmpty = true := by
  obtain ⟨⟨chars⟩, entities, intent, bIsFinal⟩ := out
  obtain ⟨word⟩ := w
  simp only [appendWord, FString.isEmpty, FString.append, FString.lit]
  cases chars with
  | nil => simp
  | cons x chars => simp

/-- One message changes nothing exactly when it says what is stored. -/
theorem content_update_iff {f : FSpeechlyResponse → FSpeechlyResponse} (hf : updateOf r.payload = some f) :
    content (f out) = content out ↔ Repeats out r.payload := by
  cases hp : r.payload <;> simp only [hp, updateOf, reduceCtorEq, Option.some.injEq] at hf <;> subst hf <;>
    simp only [content, Repeats, Prod.mk.injEq, true_and, and_true]
  case transcript t =>
    rw [appendWord_eq_iff]
    exact and_iff_left ⟨rfl, rfl⟩
  case entity e => exact KeyMap.emplace_eq_self_iff

end

namespace Reading

variable {s : Reading} {out : FSpeechlyResponse} {key : FString} {r : SLUResponse} {later : List TickStep}

/-- What a message does to the response of its key. -/
theorem stored_read_of_key {f : FSpeechlyResponse → FSpeechlyResponse} (hf : updateOf r.payload = some f)
    (hk : keyOf r ≈ key) (hout : s.stored key = some out) : (s.step (.read r)).stored key = some (f out) := by
  simp only [step, handleResponse_update hf, updateResponse, keyOfMessage, stored, KeyMap.find_findOrAdd, if_pos hk]
  rw [stored] at hout
  rw [hout]
  rfl

/-- Every other response leaves the content alone. -/
theorem stored_read_other (h : updateOf r.payload = none ∨ ¬keyOf r ≈ key) (hout : s.stored key = some out) :
    ∃ out', (s.step (.read r)).stored key = some out' ∧ content out' = content out := by
  rw [stored] at hout
  cases hf : updateOf r.payload with
  | some f =>
    have hk := h.resolve_left (by simp [hf])
    refine ⟨out, ?_, rfl⟩
    simp only [step, handleResponse_update hf, updateResponse, keyOfMessage, stored, KeyMap.find_findOrAdd, if_neg hk, hout]
  | none =>
    simp only [step, stored, handleResponse]
    cases hp : r.payload <;> simp only [hp, updateOf, reduceCtorEq] at hf
    case finished f =>
      simp only [(finishContext_fields s.plugin s.locals (FString.ofCStr r.audioContext) f).1, finalizeKeys]
      cases s.plugin.contextToKeys.find (FString.ofCStr r.audioContext) with
      | none => exact ⟨out, hout, rfl⟩
      | some keys =>
        simp only [(foldl_finalizeKey key keys.keys s.plugin.responses s.locals.changedKeys).1, hout]
        split
        · exact ⟨finalize out, rfl, rfl⟩
        · exact ⟨out, rfl, rfl⟩
    all_goals exact ⟨out, hout, rfl⟩

/-! ## From the end of the segment on -/

/-- The key is not taken away. -/
def Lives (key : FString) (s : Reading) (later : List TickStep) : Prop :=
  ∀ p, p <+: later → ((s.run p).stored key).isSome = true

instance : Decidable (Lives key s later) :=
  decidable_of_iff (∀ p ∈ later.inits, ((s.run p).stored key).isSome = true) (by simp only [List.mem_inits, Lives])

/-- What is stored for the key does not change. -/
def Unchanged (key : FString) (s : Reading) (later : List TickStep) : Prop :=
  ∀ p, p <+: later → ((s.run p).stored key).map content = (s.stored key).map content

/-- The messages for the key say what is stored already. -/
def Repeated (key : FString) (s : Reading) (later : List TickStep) : Prop :=
  ∀ p m out, p ++ [.read m] <+: later → keyOf m ≈ key → s.stored key = some out → Repeats out m.payload

/-- **One response more**, for a key whose content has not changed. -/
theorem content_step (hout : (s.stored key).map content = some (content out)) {x : TickStep}
    (hlives : ((s.step x).stored key).isSome = true) :
    ((s.step x).stored key).map content = some (content out) ↔
      ∀ m, x = .read m → keyOf m ≈ key → Repeats out m.payload := by
  obtain ⟨w, hw, hcontent⟩ := Option.map_eq_some_iff.mp hout
  cases x with
  | tickEnd =>
    refine iff_of_true ?_ (by simp)
    have hcases : (s.step .tickEnd).stored key = none ∨ (s.step .tickEnd).stored key = s.stored key := stored_tickEnd_cases
    rcases hcases with h | h
    · rw [h] at hlives
      cases hlives
    · rw [h, hout]
  | read m =>
    simp only [TickStep.read.injEq, forall_eq']
    by_cases h : updateOf m.payload = none ∨ ¬keyOf m ≈ key
    · obtain ⟨w', hw', hsame⟩ := stored_read_other h hw
      refine iff_of_true (by rw [hw', Option.map_some, hsame, hcontent]) fun hk => ?_
      have hnone := h.resolve_right (not_not_intro hk)
      cases hp : m.payload <;> simp only [hp, updateOf, reduceCtorEq] at hnone <;> trivial
    · obtain ⟨hf, hk⟩ := not_or.mp h
      obtain ⟨f, hf⟩ := Option.ne_none_iff_exists'.mp hf
      rw [stored_read_of_key hf (not_not.mp hk) hw, Option.map_some, Option.some_inj, ← hcontent,
        content_update_iff hf, repeats_congr hcontent]
      exact (true_imp_iff.symm.trans (imp_congr_left (iff_true_intro (not_not.mp hk)).symm))

theorem unchanged_iff_of_lives (h : Lives key s later) : Unchanged key s later ↔ Repeated key s later := by
  obtain ⟨out, hout⟩ : ∃ out, s.stored key = some out := Option.isSome_iff_exists.mp (h [] List.nil_prefix)
  have hstart : (s.stored key).map content = some (content out) := by rw [hout, Option.map_some]
  have hstep {p : List TickStep} {x : TickStep} (hp : p ++ [x] <+: later)
      (hsame : ((s.run p).stored key).map content = some (content out)) :
      ((s.run (p ++ [x])).stored key).map content = some (content out) ↔
        ∀ m, x = .read m → keyOf m ≈ key → Repeats out m.payload := by
    have hlives := h _ hp
    rw [run_concat] at hlives ⊢
    exact content_step hsame hlives
  constructor
  · intro hunchanged p m out' hp hk hout'
    obtain rfl : out = out' := Option.some.inj (hout.symm.trans hout')
    have hbefore := (hunchanged p ((List.prefix_append p _).trans hp)).trans hstart
    exact (hstep hp hbefore).mp ((hunchanged _ hp).trans hstart) m rfl hk
  · intro hrepeated p hp
    rw [hstart]
    induction p using List.reverseRecOn with
    | nil => exact hstart
    | append_singleton p x ih =>
      refine (hstep hp (ih ((List.prefix_append p _).trans hp))).mpr ?_
      rintro m rfl hk
      exact hrepeated p m out hp hk hout

end Reading

/-- The `segment_end` of a segment. -/
def segmentEndOf (c : StdString) (i : ℤ) : SLUResponse := ⟨c, i, .segmentEnd⟩

/-- The object when a `segment_end` has been handled. -/
def ended (u : USpeechly) (languageCode : StdString) (before : List TickStep) (c : StdString) (i : ℤ) : Reading :=
  (init (u.connect languageCode)).run (before ++ [.read (segmentEndOf c i)])

/-- **When a segment that has ended stays as it is**, for every run of ticks and everything that comes after its
`segment_end` while the key lives: exactly when no later message for it says anything but what is stored. -/
theorem unchanged_iff_repeated (u : USpeechly) (languageCode : StdString) (before : List TickStep) (c : StdString) (i : ℤ)
    {later : List TickStep} (hlives : Lives (keyOf (segmentEndOf c i)) (ended u languageCode before c i) later) :
    (∃ out, (ended u languageCode before c i).stored (keyOf (segmentEndOf c i)) = some out ∧ out.bIsFinal = true) ∧
      (Unchanged (keyOf (segmentEndOf c i)) (ended u languageCode before c i) later ↔
        Repeated (keyOf (segmentEndOf c i)) (ended u languageCode before c i) later) := by
  refine ⟨?_, unchanged_iff_of_lives hlives⟩
  rw [ended, run_concat]
  exact ⟨_, KeyMap.find_findOrAdd.trans (if_pos (Setoid.refl _)), rfl⟩

/-- The entity `y` has the value `z`. -/
def entityOf (c : StdString) (s : ℤ) : SLUResponse := ⟨c, s, .entity ⟨[121], [122], 0, 0⟩⟩

/-- A word, an entity and the end of a segment; in the next tick the entity comes once more, and a word for another segment. -/
theorem unchanged_iff_repeated_entity :
    Unchanged ((FString.ofCStr [97]).printKey 0)
      (ended .new [] [.read (transcriptOf [97] 0 [120]), .read (entityOf [97] 0)] [97] 0)
      [.tickEnd, .read (entityOf [97] 0), .read (transcriptOf [97] 1 [121])] := by
  refine (unchanged_iff_repeated .new [] _ [97] 0 (by decide +kernel)).2.mpr ?_
  intro p m out hp hk hout
  have hm : TickStep.read m ∈ [.tickEnd, .read (entityOf [97] 0), .read (transcriptOf [97] 1 [121])] :=
    hp.subset (by simp)
  have hstored : ((ended .new [] [.read (transcriptOf [97] 0 [120]), .read (entityOf [97] 0)] [97] 0).stored
      ((FString.ofCStr [97]).printKey 0)).map (fun out => out.entities.entries) =
        some [(FString.ofCStr [121], FString.ofCStr [122])] := by
    decide +kernel
  rw [show keyOf (segmentEndOf [97] 0) = (FString.ofCStr [97]).printKey 0 from rfl] at hk hout
  rw [hout, Option.map_some, Option.some.injEq] at hstored
  simp only [List.mem_cons, reduceCtorEq, TickStep.read.injEq, List.not_mem_nil, or_false, false_or] at hm
  rcases hm with rfl | rfl
  · show (FString.ofCStr [121], FString.ofCStr [122]) ∈ out.entities.entries
    rw [hstored]
    exact List.mem_singleton_self _
  · exact absurd hk (by decide)

/-- A word that comes in the tick after the `segment_end` is added to the transcript. -/
theorem changed_after_segmentEnd :
    ((USpeechly.new.connect []).ticks [[transcriptOf [97] 0 [120], segmentEndOf [97] 0]]).toOption.map
      (fun x => (x.1.responses.find ((FString.ofCStr [97]).printKey 0)).map FSpeechlyResponse.transcript) =
        some (some (FString.lit "x")) ∧
    ((USpeechly.new.connect []).ticks
        [[transcriptOf [97] 0 [120], segmentEndOf [97] 0], [transcriptOf [97] 0 [121]]]).toOption.map
      (fun x => (x.1.responses.find ((FString.ofCStr [97]).printKey 0)).map FSpeechlyResponse.transcript) =
        some (some (FString.lit "x y")) := by
  decide +kernel

end SpeechlyPlugin.Plugin
