import SpeechlyPlugin.Plugin.Tracking
import SpeechlyPlugin.Plugin.Keys
import Mathlib.Data.List.Induction
import Mathlib.Data.List.TakeWhile

/-!
# The last broadcast of a segment

What the listener is told last about a segment of a finished context is a function of the messages of that segment
alone: their words joined by blanks, the last value of every entity, the last intent, and final.
-/

namespace SpeechlyPlugin.Plugin

open Engine Lib USpeechly

/-! ## The reference -/

/-- The words of a list of messages. -/
def wordsOf (rs : List SLUResponse) : List FString :=
  rs.filterMap fun r =>
    match r.payload with
    | .transcript t => some (FString.ofCStr t.word)
    | _ => none

/-- The entities, with their values. -/
def entitiesOf (rs : List SLUResponse) : List (FString × FString) :=
  rs.filterMap fun r =>
    match r.payload with
    | .entity e => some (FString.ofCStr e.entity, FString.ofCStr e.value)
    | _ => none

def intentsOf (rs : List SLUResponse) : List FString :=
  rs.filterMap fun r =>
    match r.payload with
    | .intent i => some (FString.ofCStr i.intent)
    | _ => none

/-- Words, with one blank between two of them. -/
def joinWords (ws : List FString) : FString := ⟨List.intercalate [' '] (ws.map FString.chars)⟩

/-- The last value of an entity. -/
def lastValue (name : FString) (es : List (FString × FString)) : Option FString :=
  ((es.filter fun e => e.1 ≈ name).getLast?).map Prod.snd

/-- What a response says that has been built from the given messages. -/
structure Summary (out : FSpeechlyResponse) (rs : List SLUResponse) : Prop where
  transcript : out.transcript = joinWords (wordsOf rs)
  entities : ∀ name, out.entities.find name = lastValue name (entitiesOf rs)
  intent : out.intent = (intentsOf rs).getLast?.getD default

theorem intercalate_concat {α : Type} (sep x : List α) {l : List (List α)} (h : l ≠ []) :
    List.intercalate sep (l ++ [x]) = List.intercalate sep l ++ sep ++ x := by
  induction l with
  | nil => exact absurd rfl h
  | cons y l ih =>
    cases l with
    | nil => simp [List.intercalate]
    | cons z l =>
      rw [List.cons_append, List.cons_append, List.intercalate_cons_cons, List.intercalate_cons_cons,
        ← List.cons_append, ih (List.cons_ne_nil _ _)]
      simp only [List.append_assoc]

theorem joinWords_concat {ws : List FString} (w : FString) (h : ws ≠ []) :
    joinWords (ws ++ [w]) = ((joinWords ws).append (FString.lit " ")).append w := by
  have hne : ws.map FString.chars ≠ [] := by simpa using h
  simp only [joinWords, FString.append, List.map_append, List.map_cons, List.map_nil, intercalate_concat _ _ hne]
  rfl

/-- A transcript that begins with a word is not empty. -/
theorem joinWords_cons_isEmpty {w : FString} (h : w.isEmpty = false) (ws : List FString) :
    (joinWords (w :: ws)).isEmpty = false := by
  have hw : w.chars ≠ [] := by simpa [FString.isEmpty] using h
  cases ws with
  | nil => simpa [joinWords, FString.isEmpty, List.intercalate] using hw
  | cons w' ws =>
    simp only [joinWords, FString.isEmpty, List.map_cons, List.intercalate_cons_cons, List.append_assoc]
    simp [hw]

theorem lastValue_concat (name n v : FString) (es : List (FString × FString)) :
    lastValue name (es ++ [(n, v)]) = if n ≈ name then some v else lastValue name es := by
  simp only [lastValue, List.filter_append]
  by_cases hn : n ≈ name
  · simp only [hn, decide_true, List.filter_cons_of_pos, List.filter_nil, List.getLast?_concat, if_true]
    rfl
  · simp only [hn, decide_false, Bool.false_eq_true, not_false_eq_true, List.filter_cons_of_neg, List.filter_nil,
      List.append_nil, if_false]

/-! ## The fold -/

section

variable {context key : FString} {rs : List SLUResponse} {r : SLUResponse} {out : FSpeechlyResponse}

theorem wordsOf_append (a b : List SLUResponse) : wordsOf (a ++ b) = wordsOf a ++ wordsOf b := List.filterMap_append

theorem entitiesOf_append (a b : List SLUResponse) : entitiesOf (a ++ b) = entitiesOf a ++ entitiesOf b :=
  List.filterMap_append

theorem intentsOf_append (a b : List SLUResponse) : intentsOf (a ++ b) = intentsOf a ++ intentsOf b := List.filterMap_append

/-- What a response says that has been built from the given messages, whatever the words: no blank stands before the first
word that is not empty. -/
structure Digest (out : FSpeechlyResponse) (rs : List SLUResponse) : Prop where
  transcript : out.transcript = joinWords ((wordsOf rs).dropWhile FString.isEmpty)
  entities : ∀ name, out.entities.find name = lastValue name (entitiesOf rs)
  intent : out.intent = (intentsOf rs).getLast?.getD default

theorem Digest.summary (h : Digest out rs) (hwords : ∀ w ∈ wordsOf rs, w.isEmpty = false) : Summary out rs := by
  refine ⟨?_, h.entities, h.intent⟩
  rw [h.transcript, List.dropWhile_eq_self_iff.mpr fun hl => ?_]
  simpa using hwords _ (List.getElem_mem hl)

/-- The transcript with a word more. -/
theorem appendWord_transcript (w : FString) {ws : List FString}
    (h : out.transcript = joinWords (ws.dropWhile FString.isEmpty)) :
    (appendWord w out).transcript = joinWords ((ws ++ [w]).dropWhile FString.isEmpty) := by
  simp only [appendWord, h, List.dropWhile_append]
  cases hws : ws.dropWhile FString.isEmpty with
  | nil =>
    obtain ⟨chars⟩ := w
    cases chars <;> simp [joinWords, FString.append, List.intercalate, FString.isEmpty, List.dropWhile_cons]
  | cons w' ws' =>
    have hhead : w'.isEmpty = false := by
      have hnot := List.head_dropWhile_not FString.isEmpty (l := ws) (by rw [hws]; exact List.cons_ne_nil _ _)
      simpa [hws] using hnot
    rw [joinWords_cons_isEmpty hhead, if_neg Bool.false_ne_true, ← joinWords_concat w (List.cons_ne_nil _ _)]
    rfl

/-- One message more of the key. -/
theorem Digest.update {f : FSpeechlyResponse → FSpeechlyResponse} (h : Digest out rs)
    (hf : updateOf r.payload = some f) : Digest (f out) (rs ++ [r]) := by
  cases hr : r.payload <;> simp only [hr, updateOf, reduceCtorEq, Option.some.injEq] at hf <;> subst hf
  case transcript t =>
    refine ⟨?_, ?_, ?_⟩
    · rw [wordsOf_append, appendWord_transcript _ h.transcript]
      simp [wordsOf, hr]
    · simpa [entitiesOf_append, entitiesOf, hr, appendWord] using h.entities
    · simpa [intentsOf_append, intentsOf, hr, appendWord] using h.intent
  case entity e =>
    refine ⟨?_, fun name => ?_, ?_⟩
    · simpa [wordsOf_append, wordsOf, hr] using h.transcript
    · have he : entitiesOf [r] = [(FString.ofCStr e.entity, FString.ofCStr e.value)] := by simp [entitiesOf, hr]
      rw [entitiesOf_append, he, lastValue_concat, ← h.entities]
      exact KeyMap.find_emplace
    · simpa [intentsOf_append, intentsOf, hr] using h.intent
  case intent i =>
    refine ⟨?_, ?_, ?_⟩
    · simpa [wordsOf_append, wordsOf, hr] using h.transcript
    · simpa [entitiesOf_append, entitiesOf, hr] using h.entities
    · simp [intentsOf, hr]
  case segmentEnd =>
    refine ⟨?_, ?_, ?_⟩
    · simpa [wordsOf_append, wordsOf, hr] using h.transcript
    · simpa [entitiesOf_append, entitiesOf, hr] using h.entities
    · simpa [intentsOf_append, intentsOf, hr] using h.intent

/-- A message that changes no response. -/
theorem Digest.skip (h : Digest out rs) (hf : updateOf r.payload = none) : Digest out (rs ++ [r]) := by
  have hw : wordsOf [r] = [] := by cases hr : r.payload <;> simp [hr, updateOf, wordsOf] at hf ⊢
  have he : entitiesOf [r] = [] := by cases hr : r.payload <;> simp [hr, updateOf, entitiesOf] at hf ⊢
  have hi : intentsOf [r] = [] := by cases hr : r.payload <;> simp [hr, updateOf, intentsOf] at hf ⊢
  refine ⟨?_, ?_, ?_⟩
  · rw [wordsOf_append, hw, List.append_nil, h.transcript]
  · rw [entitiesOf_append, he, List.append_nil]
    exact h.entities
  · rw [intentsOf_append, hi, List.append_nil, h.intent]

/-- The messages of the key. -/
def ofKey (key : FString) (rs : List SLUResponse) : List SLUResponse := rs.filter fun r => keyOf r ≈ key

theorem ofKey_concat : ofKey key (rs ++ [r]) = if keyOf r ≈ key then ofKey key rs ++ [r] else ofKey key rs := by
  simp only [ofKey, List.filter_append]
  by_cases hk : keyOf r ≈ key
  · simp only [hk, decide_true, List.filter_cons_of_pos, List.filter_nil, if_true]
  · simp only [hk, decide_false, Bool.false_eq_true, not_false_eq_true, List.filter_cons_of_neg, List.filter_nil,
      List.append_nil, if_false]

/-- **The value of a key sums up the messages of the key.** -/
theorem track_digest : Digest ((rs.foldl (track context key) none).getD default) (ofKey key rs) := by
  induction rs using List.reverseRecOn with
  | nil => exact ⟨rfl, fun _ => rfl, rfl⟩
  | append_singleton rs r ih =>
    rw [List.foldl_append, List.foldl_cons, List.foldl_nil, ofKey_concat]
    cases hf : updateOf r.payload with
    | some f =>
      rw [track_update hf]
      by_cases hk : keyOf r ≈ key
      · simp only [hk, if_true, Option.getD_some]
        exact ih.update hf
      · simp only [hk, if_false]
        exact ih
    | none =>
      have hlater : Digest ((if Finishes context r then (rs.foldl (track context key) none).map finalize
          else rs.foldl (track context key) none).getD default) (ofKey key rs) := by
        split
        · cases hv : rs.foldl (track context key) none with
          | none => rw [hv] at ih; exact ih
          | some w => rw [hv] at ih; exact ⟨ih.transcript, ih.entities, ih.intent⟩
        · exact ih
      rw [track_skip hf]
      by_cases hk : keyOf r ≈ key
      · rw [if_pos hk]
        exact hlater.skip hf
      · rw [if_neg hk]
        exact hlater

/-! ## The end of a context -/

/-- No message of the context follows its `finished`. -/
def Ends (context : FString) (rs : List SLUResponse) : Prop :=
  rs.Pairwise fun r r' => Finishes context r → ¬FString.ofCStr r'.audioContext ≈ context

/-- The messages of the key are messages of the context. -/
def Keyed (context key : FString) (rs : List SLUResponse) : Prop :=
  ∀ r ∈ rs, (updateOf r.payload).isSome → keyOf r ≈ key → FString.ofCStr r.audioContext ≈ context

variable {v : Option FSpeechlyResponse}

/-- Messages of other contexts leave the value alone. -/
theorem foldl_track_other (hkey : Keyed context key rs) (h : ∀ r ∈ rs, ¬FString.ofCStr r.audioContext ≈ context) :
    rs.foldl (track context key) v = v := by
  induction rs with
  | nil => rfl
  | cons r rs ih =>
    have hr := h r (by simp)
    have hstep : track context key v r = v := by
      cases hf : updateOf r.payload with
      | some f => rw [track_update hf, if_neg fun hk => hr (hkey r (by simp) (by rw [hf]; rfl) hk)]
      | none => rw [track_skip hf, if_neg fun hfin => hr hfin.2]
    rw [List.foldl_cons, hstep]
    exact ih (fun x hx => hkey x (by simp [hx])) fun x hx => h x (by simp [hx])

/-- After the `finished` of the context nothing changes. -/
theorem track_finished (hkey : Keyed context key rs) (hends : Ends context rs) (hfin : ∃ r ∈ rs, Finishes context r) :
    ∃ w : Option FSpeechlyResponse, rs.foldl (track context key) v = w.map finalize := by
  obtain ⟨r, hr, hfin⟩ := hfin
  obtain ⟨pre, post, rfl⟩ := List.append_of_mem hr
  refine ⟨pre.foldl (track context key) v, ?_⟩
  have hnone : updateOf r.payload = none := by
    obtain ⟨h, -⟩ := hfin
    cases hp : r.payload <;> rw [hp] at h <;> first | rfl | exact absurd h Bool.false_ne_true
  have hpost := (List.pairwise_append.mp hends).2.1
  rw [List.pairwise_cons] at hpost
  rw [List.foldl_append, List.foldl_cons, foldl_track_other (fun x hx => hkey x (by simp [hx]))
    fun x hx => hpost.1 x hx hfin, track_skip hnone, if_pos hfin]

/-- A key that has had a message has a value. -/
theorem track_isSome (h : ∃ r ∈ rs, (updateOf r.payload).isSome ∧ keyOf r ≈ key) :
    (rs.foldl (track context key) v).isSome := by
  obtain ⟨r, hr, hf, hk⟩ := h
  obtain ⟨pre, post, rfl⟩ := List.append_of_mem hr
  obtain ⟨f, hf⟩ := Option.isSome_iff_exists.mp hf
  rw [List.foldl_append, List.foldl_cons]
  refine foldl_track_isSome ?_
  rw [track_update hf, if_pos hk]
  rfl

/-- A key without messages is never heard of. -/
theorem trackTick_none {rss : List (List SLUResponse)}
    (h : ∀ r ∈ rss.flatten, (updateOf r.payload).isSome → ¬keyOf r ≈ key) :
    rss.foldl (trackTick context key) (none, none) = (none, none) := by
  induction rss with
  | nil => rfl
  | cons rs rss ih =>
    have hrs : ∀ rs' : List SLUResponse, (∀ r ∈ rs', (updateOf r.payload).isSome → ¬keyOf r ≈ key) →
        rs'.foldl (track context key) none = none := by
      intro rs' h
      induction rs' with
      | nil => rfl
      | cons r rs' ih =>
        have hstep : track context key none r = none := by
          cases hf : updateOf r.payload with
          | some f => rw [track_update hf, if_neg (h r (by simp) (by rw [hf]; rfl))]
          | none => rw [track_skip hf, Option.map_none, ite_self]
        rw [List.foldl_cons, hstep]
        exact ih fun x hx => h x (by simp [hx])
    have hstep : trackTick context key (none, none) rs = (none, none) := by
      simp only [trackTick, hrs rs fun r hr => h r (by simp [hr]), ite_self, Option.or_none]
    rw [List.foldl_cons, hstep]
    exact ih fun r hr => h r (by rw [List.flatten_cons]; exact List.mem_append_right _ hr)

/-- Through a run of ticks the value is that of all messages so far, until the tick of the `finished`; that tick
broadcasts it, and it stays the last broadcast. -/
theorem trackTick_run {rss : List (List SLUResponse)} (hkey : Keyed context key rss.flatten)
    (hends : Ends context rss.flatten) :
    let x := rss.foldl (trackTick context key) (none, none)
    let value := rss.flatten.foldl (track context key) none
    if ∃ r ∈ rss.flatten, Finishes context r then x.1 = none ∧ (value.isSome → x.2 = value) else x.1 = value := by
  induction rss using List.reverseRecOn with
  | nil => simp
  | append_singleton rss rs ih =>
    have hflat : (rss ++ [rs]).flatten = rss.flatten ++ rs := by simp
    rw [hflat] at hkey hends ⊢
    have ih := ih (fun r hr => hkey r (List.mem_append_left _ hr)) (List.pairwise_append.mp hends).1
    simp only [List.foldl_append, List.foldl_cons, List.foldl_nil, List.mem_append, or_and_right, exists_or] at ih ⊢
    by_cases hold : ∃ r ∈ rss.flatten, Finishes context r
    · -- the context is finished: the rest is about other contexts
      rw [if_pos hold] at ih
      obtain ⟨hnone, hsent⟩ := ih
      have hother : ∀ r ∈ rs, ¬FString.ofCStr r.audioContext ≈ context := by
        obtain ⟨r, hr, hfin⟩ := hold
        exact fun r' hr' => (List.pairwise_append.mp hends).2.2 r hr r' hr' hfin
      have hkey : Keyed context key rs := fun r hr => hkey r (List.mem_append_right _ hr)
      have hnew : ¬∃ r ∈ rs, Finishes context r := fun ⟨r, hr, hfin⟩ => hother r hr hfin.2
      rw [if_pos (Or.inl hold)]
      simp only [trackTick, hnone, foldl_track_other hkey hother, hnew, if_false, Option.none_or, true_and]
      exact hsent
    · rw [if_neg hold] at ih
      simp only [hold, false_or, trackTick, ih]
      split
      · refine ⟨rfl, fun hsome => ?_⟩
        obtain ⟨w, hw⟩ := Option.isSome_iff_exists.mp hsome
        rw [hw]
        rfl
      · rfl

end

/-! ## The theorem -/

/-- Connected, with nothing read yet. -/
structure USpeechly.Fresh (u : USpeechly) : Prop where
  listening : u.Listening
  responses : u.responses = .empty
  contextToKeys : u.contextToKeys = .empty

theorem fresh_connect (u : USpeechly) (languageCode : StdString) : (u.connect languageCode).Fresh :=
  ⟨listening_connect u languageCode, rfl, rfl⟩

section

variable {context key : FString} {u : USpeechly} {rss : List (List SLUResponse)}

/-- Nothing is known of any key yet. -/
theorem USpeechly.Fresh.sim (hu : u.Fresh) : Sim context key none none u .new := by
  refine ⟨⟨by rw [hu.responses]; rfl, fun d => ?_⟩, fun _ => rfl, by simp⟩
  rw [hu.contextToKeys]
  simp

/-- A key of a finished context that has had a message: the last broadcast is final, and made of the messages of the key. -/
theorem finished_broadcast (hu : u.Fresh) (hkey : Keyed context key rss.flatten) (hends : Ends context rss.flatten)
    (hfin : ∃ r ∈ rss.flatten, Finishes context r)
    (hmsg : ∃ r ∈ rss.flatten, (updateOf r.payload).isSome ∧ keyOf r ≈ key) :
    ∃ out, lastResponse key (u.batches rss).2 = some out ∧ Digest out (ofKey key rss.flatten) ∧ out.bIsFinal = true := by
  have hrun := trackTick_run hkey hends
  rw [if_pos hfin] at hrun
  have hsome : (rss.flatten.foldl (track context key) none).isSome := track_isSome hmsg
  obtain ⟨out, hout⟩ := Option.isSome_iff_exists.mp hsome
  refine ⟨out, ?_, ?_, ?_⟩
  · have hlast := hu.sim.batches hkey
    rw [hrun.2 hsome, hout] at hlast
    simpa using hlast
  · have hdigest : Digest ((rss.flatten.foldl (track context key) none).getD default) (ofKey key rss.flatten) :=
      track_digest
    rwa [hout] at hdigest
  · obtain ⟨v, hv⟩ := track_finished hkey hends hfin
    rw [hout] at hv
    obtain ⟨w, -, rfl⟩ := Option.map_eq_some_iff.mp hv.symm
    rfl

end

/-- The messages of one segment. -/
def ofSegment (c : StdString) (s : ℤ) (rs : List SLUResponse) : List SLUResponse :=
  rs.filter fun r => r.audioContext = c ∧ r.segmentId = s

/-- What is asked of the messages for the segment `s` of the context `c`. -/
structure Regular (c : StdString) (s : ℤ) (rs : List SLUResponse) : Prop where
  /-- no message of the context follows its `finished` -/
  ends : rs.Pairwise fun r r' => r.audioContext = c ∧ isFinished r.payload = true → r'.audioContext ≠ c
  /-- other context ids differ from `c` also as `FString`s, in which letter case does not count, bytes from 0x80 on are `?` and
  the first NUL is the end -/
  differ : ∀ r ∈ rs, FString.ofCStr r.audioContext ≈ FString.ofCStr c → r.audioContext = c
  words : ∀ w ∈ wordsOf (ofSegment c s rs), w.isEmpty = false
  /-- no negative segment of another context has the key of the segment -/
  segments : ∀ r ∈ rs, (updateOf r.payload).isSome → r.segmentId < 0 → r.audioContext ≠ c →
    ¬keyOf r ≈ (FString.ofCStr c).printKey s

section

variable {c : StdString} {s : ℤ} {rs : List SLUResponse}

/-- The messages with the key of the segment are the messages of the segment. -/
theorem Regular.keyOf_iff (h : Regular c s rs) (hs : 0 ≤ s) {r : SLUResponse} (hr : r ∈ rs)
    (hf : (updateOf r.payload).isSome) :
    keyOf r ≈ (FString.ofCStr c).printKey s ↔ r.audioContext = c ∧ r.segmentId = s := by
  constructor
  · intro hk
    by_cases hc : r.audioContext = c
    · refine ⟨hc, eq_of_printKey_equiv ?_ hs hk⟩
      rw [hc]
    · have hneg : 0 ≤ r.segmentId := by
        by_contra hneg
        exact h.segments r hr hf (by omega) hc hk
      exact absurd (h.differ r hr ((printKey_equiv_iff hneg hs).mp hk).1) hc
  · rintro ⟨rfl, rfl⟩
    exact Setoid.refl _

theorem Regular.filterMap_ofKey (h : Regular c s rs) (hs : 0 ≤ s) {β : Type} {g : SLUResponse → Option β}
    (hg : ∀ r, updateOf r.payload = none → g r = none) :
    (ofKey ((FString.ofCStr c).printKey s) rs).filterMap g = (ofSegment c s rs).filterMap g := by
  rw [ofKey, ofSegment, List.filterMap_filter, List.filterMap_filter]
  refine List.filterMap_congr fun r hr => ?_
  cases hf : updateOf r.payload with
  | none => simp [hg r hf]
  | some f =>
    have hiff := h.keyOf_iff hs hr (by rw [hf]; rfl)
    simp only [hiff]

theorem Regular.wordsOf_ofKey (h : Regular c s rs) (hs : 0 ≤ s) :
    wordsOf (ofKey ((FString.ofCStr c).printKey s) rs) = wordsOf (ofSegment c s rs) :=
  h.filterMap_ofKey hs fun r hr => by cases hp : r.payload <;> simp [hp, updateOf] at hr ⊢

theorem Regular.summary (h : Regular c s rs) (hs : 0 ≤ s) {out : FSpeechlyResponse}
    (hsum : Summary out (ofKey ((FString.ofCStr c).printKey s) rs)) : Summary out (ofSegment c s rs) := by
  have hentities : entitiesOf (ofKey ((FString.ofCStr c).printKey s) rs) = entitiesOf (ofSegment c s rs) :=
    h.filterMap_ofKey hs fun r hr => by cases hp : r.payload <;> simp [hp, updateOf] at hr ⊢
  have hintents : intentsOf (ofKey ((FString.ofCStr c).printKey s) rs) = intentsOf (ofSegment c s rs) :=
    h.filterMap_ofKey hs fun r hr => by cases hp : r.payload <;> simp [hp, updateOf] at hr ⊢
  refine ⟨?_, ?_, ?_⟩
  · rw [← h.wordsOf_ofKey hs]
    exact hsum.transcript
  · rw [← hentities]
    exact hsum.entities
  · rw [← hintents]
    exact hsum.intent

/-- **The last broadcast of a segment**, for every run of ticks: what it says is made of the messages of the segment
alone. -/
theorem last_broadcast {u : USpeechly} (hu : u.Fresh) {rss : List (List SLUResponse)}
    (hlen : ∀ rs ∈ rss, rs.length ≤ 10) (hs : 0 ≤ s) (h : Regular c s rss.flatten)
    (hfin : ∃ r ∈ rss.flatten, r.audioContext = c ∧ isFinished r.payload = true)
    (hseg : ∃ r ∈ ofSegment c s rss.flatten, (updateOf r.payload).isSome = true) :
    ∃ u' broadcasts out, u.ticks rss = .ok (u', broadcasts) ∧
      lastResponse ((FString.ofCStr c).printKey s) broadcasts = some out ∧
      Summary out (ofSegment c s rss.flatten) ∧ out.bIsFinal = true := by
  have hkey : Keyed (FString.ofCStr c) ((FString.ofCStr c).printKey s) rss.flatten := by
    intro r hr hf hk
    rw [((h.keyOf_iff hs hr hf).mp hk).1]
  have hends : Ends (FString.ofCStr c) rss.flatten := by
    refine List.Pairwise.imp_of_mem (fun {r r'} hr hr' himp hfinishes hctx => ?_) h.ends
    exact himp ⟨h.differ r hr hfinishes.2, hfinishes.1⟩ (h.differ r' hr' hctx)
  have hfinishes : ∃ r ∈ rss.flatten, Finishes (FString.ofCStr c) r := by
    obtain ⟨r, hr, rfl, hfin⟩ := hfin
    exact ⟨r, hr, hfin, Setoid.refl _⟩
  have hmsg : ∃ r ∈ rss.flatten, (updateOf r.payload).isSome ∧ keyOf r ≈ (FString.ofCStr c).printKey s := by
    obtain ⟨r, hr, hf⟩ := hseg
    obtain ⟨hr, hcs⟩ := List.mem_filter.mp hr
    exact ⟨r, hr, hf, (h.keyOf_iff hs hr hf).mpr (by simpa using hcs)⟩
  obtain ⟨out, hlast, hdigest, hfinal⟩ := finished_broadcast hu hkey hends hfinishes hmsg
  refine ⟨_, _, out, ticks_eq hu.listening hlen, hlast, h.summary hs (hdigest.summary ?_), hfinal⟩
  rw [h.wordsOf_ofKey hs]
  exact h.words

end

/-- A response with one word. -/
def transcriptOf (c : StdString) (s : ℤ) (word : StdString) : SLUResponse := ⟨c, s, .transcript ⟨word, 0⟩⟩

/-- The `finished` of a context. -/
def finishedOf (c : StdString) : SLUResponse := ⟨c, 0, .finished ⟨none⟩⟩

/-- Two contexts and two ticks: segment 0 of the context `a` has the words `x` and `z`. -/
def twoTicks : List (List SLUResponse) :=
  [[transcriptOf [97] 0 [120], transcriptOf [98] 0 [121], finishedOf [98]],
    [transcriptOf [97] 0 [122], finishedOf [97]]]

theorem last_broadcast_two :
    ∃ u' broadcasts out, (USpeechly.new.connect []).ticks twoTicks = .ok (u', broadcasts) ∧
      lastResponse ((FString.ofCStr [97]).printKey 0) broadcasts = some out ∧
      Summary out (ofSegment [97] 0 twoTicks.flatten) ∧ out.bIsFinal = true :=
  last_broadcast (fresh_connect .new []) (by decide) (by decide) ⟨by decide, by decide, by decide, by decide⟩
    (by decide) (by decide)

/-- Segment `-5` of the context `a` and segment `5` of the context `a-` have one key: what is broadcast for the second
contains the word of the first. -/
theorem key_collision :
    ((USpeechly.new.connect []).ticks
        [[transcriptOf [97] (-5) [120], transcriptOf [97, 45] 5 [121], finishedOf [97, 45]]]).toOption.map
      (fun x => (lastResponse ((FString.ofCStr [97, 45]).printKey 5) x.2).map FSpeechlyResponse.transcript) =
      some (some (FString.lit "x y")) ∧
    joinWords (wordsOf (ofSegment [97, 45] 5
      [transcriptOf [97] (-5) [120], transcriptOf [97, 45] 5 [121], finishedOf [97, 45]])) = FString.lit "y" := by
  decide +kernel

end SpeechlyPlugin.Plugin
