import SpeechlyPlugin.Engine.Ascii
import SpeechlyPlugin.Plugin.Fold
import SpeechlyPlugin.Plugin.Reading

/-!
# Written text

`WLUSync` turns the reply to a written text into messages as the stream brings them, all with the segment id 1.  The
listener gets them back segment by segment exactly when there is not more than one segment.
-/

namespace SpeechlyPlugin.Plugin

open Engine Lib Client USpeechly

/-! ## What `WLUSync` enqueues -/

/-- The messages of one segment. -/
def segmentMessages (guid : StdString) (segment : WLUSegment) : List SLUResponse :=
  segment.tokens.map (fun token => ⟨guid, 1, .transcript ⟨token.word, token.index⟩⟩) ++
    segment.entities.map (fun e => ⟨guid, 1, .entity ⟨e.entity, e.value, e.startPosition, e.endPosition⟩⟩) ++
    segment.intent.toList.map fun i => ⟨guid, 1, .intent ⟨i.intent⟩⟩

/-- The message that ends the text. -/
def fakeEnding (guid : StdString) : SLUResponse := ⟨guid, 1, .finished ⟨none⟩⟩

theorem foldl_enqueueResponse {α : Type} (f : α → SLUResponse) (xs : List α) (c : SpeechlyClient) :
    xs.foldl (fun c x => c.enqueueResponse (f x)) c = { c with responseQueue := c.responseQueue ++ xs.map f } := by
  induction xs generalizing c with
  | nil => simp
  | cons x xs ih =>
    rw [List.foldl_cons, ih]
    simp [SpeechlyClient.enqueueResponse]

theorem enqueueSegment_eq (c : SpeechlyClient) (guid : StdString) (segment : WLUSegment) :
    c.enqueueSegment guid segment = { c with responseQueue := c.responseQueue ++ segmentMessages guid segment } := by
  unfold SpeechlyClient.enqueueSegment
  dsimp only
  rw [foldl_enqueueResponse, foldl_enqueueResponse]
  cases hi : segment.intent with
  | none => simp [segmentMessages, hi]
  | some i => simp [segmentMessages, hi, SpeechlyClient.enqueueResponse]

/-- **What `WLUSync` enqueues.** -/
theorem wluSync_eq (c : SpeechlyClient) (guid : StdString) (reply : WLUResponse) :
    c.wluSync (some reply) guid = ({ c with responseQueue :=
      c.responseQueue ++ (reply.segments.flatMap (segmentMessages guid) ++ [fakeEnding guid]) }, true) := by
  have hfold : ∀ (segments : List WLUSegment) (c : SpeechlyClient),
      segments.foldl (fun c segment => c.enqueueSegment guid segment) c =
        { c with responseQueue := c.responseQueue ++ segments.flatMap (segmentMessages guid) } := by
    intro segments
    induction segments with
    | nil => intro c; simp
    | cons segment segments ih =>
      intro c
      rw [List.foldl_cons, ih, enqueueSegment_eq]
      simp
  unfold SpeechlyClient.wluSync
  dsimp only
  rw [hfold, SpeechlyClient.enqueueResponse]
  simp [fakeEnding]

/-- What `WLUSync` puts into an empty queue. -/
def wluMessages (guid : StdString) (reply : WLUResponse) : List SLUResponse :=
  ((SpeechlyClient.new [] kSampleRate).wluSync (some reply) guid).1.responseQueue

theorem wluMessages_eq (guid : StdString) (reply : WLUResponse) :
    wluMessages guid reply = reply.segments.flatMap (segmentMessages guid) ++ [fakeEnding guid] := by
  rw [wluMessages, wluSync_eq]
  rfl

/-! ## What the listener should get -/

/-- The segment has a token, an entity or an intent. -/
def hasContent (segment : WLUSegment) : Bool :=
  !segment.tokens.isEmpty || !segment.entities.isEmpty || segment.intent.isSome

/-- The response says what the segment says: its words with one blank between two of them (none before the first that is
not empty), the last value of each entity, the intent. -/
structure Says (out : FSpeechlyResponse) (segment : WLUSegment) : Prop where
  transcript : out.transcript =
    joinWords ((segment.tokens.map fun token => FString.ofCStr token.word).dropWhile FString.isEmpty)
  entities : ∀ name, out.entities.find name =
    lastValue name (segment.entities.map fun e => (FString.ofCStr e.entity, FString.ofCStr e.value))
  intent : out.intent = (segment.intent.map fun i => FString.ofCStr i.intent).getD default

/-- Every segment with content has a final response of its own: a key of its own, last broadcast final and with what the
segment says. -/
def Delivered (guid : StdString) (segments : List WLUSegment) (broadcasts : List Broadcast) : Prop :=
  ∃ ids : ℕ → ℕ,
    (∀ m n s t, segments[m]? = some s → segments[n]? = some t → hasContent s = true → hasContent t = true →
      ids m = ids n → m = n) ∧
    ∀ n segment, segments[n]? = some segment → hasContent segment = true →
      ∃ out, lastResponse ((FString.ofCStr guid).printKey (ids n)) broadcasts = some out ∧ out.bIsFinal = true ∧
        Says out segment

/-- Not more than one segment has content. -/
def OneSegment (segments : List WLUSegment) : Prop :=
  segments.Pairwise fun s t => ¬(hasContent s = true ∧ hasContent t = true)

instance (segments : List WLUSegment) : Decidable (OneSegment segments) := inferInstanceAs (Decidable (List.Pairwise _ _))

/-- `FGuid::ToString()` gives 32 hexadecimal digits. -/
def IsGuid (guid : StdString) : Prop := guid.length = 32 ∧ ∀ b ∈ guid, (48 ≤ b ∧ b ≤ 57) ∨ (65 ≤ b ∧ b ≤ 70)

instance (guid : StdString) : Decidable (IsGuid guid) := inferInstanceAs (Decidable (_ ∧ _))

theorem IsGuid.dash_notMem {guid : StdString} (h : IsGuid guid) : '-' ∉ (FString.ofCStr guid).fold := by
  intro hmem
  obtain ⟨x, hx, hlower⟩ := List.mem_map.mp hmem
  obtain ⟨b, hb, rfl⟩ := List.mem_map.mp hx
  exact forall_byte (P := fun b => (48 ≤ b ∧ b ≤ 57) ∨ (65 ≤ b ∧ b ≤ 70) → (FString.ofByte b).toLower ≠ '-')
    (by decide +kernel) b (h.2 b (List.takeWhile_subset _ hb)) hlower

/-! ## The messages of the text -/

section

variable {guid : StdString} {segment : WLUSegment} {r : SLUResponse}

theorem context_of_segment (h : r ∈ segmentMessages guid segment) :
    r.audioContext = guid ∧ r.segmentId = 1 ∧ (updateOf r.payload).isSome = true := by
  simp only [segmentMessages, List.mem_append, List.mem_map] at h
  obtain ((⟨_, _, rfl⟩ | ⟨_, _, rfl⟩) | ⟨_, _, rfl⟩) := h <;> exact ⟨rfl, rfl, rfl⟩

theorem segmentMessages_eq_nil_iff : segmentMessages guid segment = [] ↔ hasContent segment = false := by
  simp [segmentMessages, hasContent, and_assoc]

theorem filterMap_segment {β : Type} (f : SLUResponse → Option β) : (segmentMessages guid segment).filterMap f =
    segment.tokens.filterMap (fun token => f ⟨guid, 1, .transcript ⟨token.word, token.index⟩⟩) ++
      segment.entities.filterMap (fun e => f ⟨guid, 1, .entity ⟨e.entity, e.value, e.startPosition, e.endPosition⟩⟩) ++
      segment.intent.toList.filterMap fun i => f ⟨guid, 1, .intent ⟨i.intent⟩⟩ := by
  simp only [segmentMessages, List.filterMap_append, List.filterMap_map]
  rfl

theorem wordsOf_segment :
    wordsOf (segmentMessages guid segment) = segment.tokens.map fun token => FString.ofCStr token.word := by
  rw [wordsOf, filterMap_segment]
  simp

theorem entitiesOf_segment : entitiesOf (segmentMessages guid segment) =
    segment.entities.map fun e => (FString.ofCStr e.entity, FString.ofCStr e.value) := by
  rw [entitiesOf, filterMap_segment]
  simp

theorem intentsOf_segment :
    intentsOf (segmentMessages guid segment) = segment.intent.toList.map fun i => FString.ofCStr i.intent := by
  rw [intentsOf, filterMap_segment]
  simp

/-- What is built from the messages of one segment says what the segment says. -/
theorem Digest.says {out : FSpeechlyResponse} (h : Digest out (segmentMessages guid segment ++ [fakeEnding guid])) :
    Says out segment := by
  have hwords : wordsOf [fakeEnding guid] = [] := rfl
  have hentities : entitiesOf [fakeEnding guid] = [] := rfl
  have hintents : intentsOf [fakeEnding guid] = [] := rfl
  refine ⟨?_, fun name => ?_, ?_⟩
  · rw [h.transcript, wordsOf_append, wordsOf_segment, hwords, List.append_nil]
  · rw [h.entities, entitiesOf_append, entitiesOf_segment, hentities, List.append_nil]
  · rw [h.intent, intentsOf_append, intentsOf_segment, hintents, List.append_nil]
    cases segment.intent <;> rfl

theorem context_of_wlu {reply : WLUResponse} (h : r ∈ wluMessages guid reply) :
    r.audioContext = guid ∧ r.segmentId = 1 := by
  rw [wluMessages_eq] at h
  rcases List.mem_append.mp h with h | h
  · obtain ⟨segment, -, hr⟩ := List.mem_flatMap.mp h
    exact ⟨(context_of_segment hr).1, (context_of_segment hr).2.1⟩
  · rw [List.mem_singleton.mp h]
    exact ⟨rfl, rfl⟩

/-- When one segment has content, the others add nothing. -/
theorem flatMap_of_oneSegment {segments : List WLUSegment} (h : OneSegment segments) {n : ℕ}
    (hn : segments[n]? = some segment) (hcontent : hasContent segment = true) :
    segments.flatMap (segmentMessages guid) = segmentMessages guid segment := by
  obtain ⟨hlt, rfl⟩ := List.getElem?_eq_some_iff.mp hn
  have hsplit : segments = segments.take n ++ segments[n] :: segments.drop (n + 1) := by simp
  rw [hsplit] at h
  obtain ⟨-, hafter, hbefore⟩ := List.pairwise_append.mp h
  rw [List.pairwise_cons] at hafter
  have hpre : (segments.take n).flatMap (segmentMessages guid) = [] := by
    refine List.flatMap_eq_nil_iff.mpr fun t ht => segmentMessages_eq_nil_iff.mpr ?_
    have := hbefore t ht _ (List.mem_cons_self ..)
    simpa [hcontent] using this
  have hpost : (segments.drop (n + 1)).flatMap (segmentMessages guid) = [] := by
    refine List.flatMap_eq_nil_iff.mpr fun t ht => segmentMessages_eq_nil_iff.mpr ?_
    have := hafter.1 t ht
    simpa [hcontent] using this
  conv_lhs => rw [hsplit]
  rw [List.flatMap_append, List.flatMap_cons, hpre, hpost, List.append_nil, List.nil_append]

end

/-! ## The run -/

section

variable {guid : StdString} {reply : WLUResponse} {rss : List (List SLUResponse)}

/-- The messages of the text are among the responses, in order, and there are no other messages of its context. -/
def Merged (guid : StdString) (reply : WLUResponse) (rs : List SLUResponse) : Prop :=
  (rs.filter fun r => FString.ofCStr r.audioContext ≈ FString.ofCStr guid) = wluMessages guid reply

instance (rs : List SLUResponse) : Decidable (Merged guid reply rs) := inferInstanceAs (Decidable (_ = _))

variable {rs : List SLUResponse}

theorem Merged.mem_iff (h : Merged guid reply rs) {r : SLUResponse} :
    r ∈ wluMessages guid reply ↔ r ∈ rs ∧ FString.ofCStr r.audioContext ≈ FString.ofCStr guid := by
  rw [← h, List.mem_filter, decide_eq_true_eq]

theorem IsGuid.keyed (h : IsGuid guid) (i : ℕ) : Keyed (FString.ofCStr guid) ((FString.ofCStr guid).printKey i) rs :=
  fun _ _ _ hk => context_of_printKey h.dash_notMem (by omega) hk

theorem Merged.finishes (h : Merged guid reply rs) : ∃ r ∈ rs, Finishes (FString.ofCStr guid) r := by
  have hmem : fakeEnding guid ∈ wluMessages guid reply := by
    rw [wluMessages_eq]
    exact List.mem_append_right _ (List.mem_singleton_self _)
  exact ⟨_, (h.mem_iff.mp hmem).1, rfl, Setoid.refl _⟩

theorem Merged.ends (h : Merged guid reply rs) : Ends (FString.ofCStr guid) rs := by
  have hnot : ∀ r ∈ reply.segments.flatMap (segmentMessages guid), ¬isFinished r.payload = true := by
    intro r hr
    obtain ⟨segment, -, hr⟩ := List.mem_flatMap.mp hr
    rw [isFinished_of_update (context_of_segment hr).2.2]
    exact Bool.false_ne_true
  have hwlu : (wluMessages guid reply).Pairwise fun r _ => ¬isFinished r.payload = true := by
    rw [wluMessages_eq, List.pairwise_append]
    exact ⟨List.pairwise_of_forall_mem_list fun r hr _ _ => hnot r hr, List.pairwise_singleton _ _,
      fun r hr _ _ => hnot r hr⟩
  rw [← h, List.pairwise_filter] at hwlu
  refine hwlu.imp fun {r r'} hpair hfin hctx => ?_
  exact hpair (decide_eq_true hfin.2) (decide_eq_true hctx) hfin.1

/-- The messages with the key of the text are those of the text. -/
theorem Merged.ofKey_eq (h : Merged guid reply rs) (hguid : IsGuid guid) :
    ofKey ((FString.ofCStr guid).printKey (1 : ℕ)) rs = wluMessages guid reply := by
  rw [← h, ofKey]
  refine List.filter_congr fun r hr => decide_eq_decide.mpr ⟨fun hk => ?_, fun hctx => ?_⟩
  · exact context_of_printKey hguid.dash_notMem (by omega) hk
  · obtain ⟨rfl, hid⟩ := context_of_wlu (h.mem_iff.mpr ⟨hr, hctx⟩)
    rw [keyOf, hid]
    exact Setoid.refl _

/-- No other key of the context is ever heard of. -/
theorem Merged.unheard (h : Merged guid reply rss.flatten) (hguid : IsGuid guid) {u : USpeechly} (hu : u.Fresh) {i : ℕ}
    (hi : i ≠ 1) : lastResponse ((FString.ofCStr guid).printKey i) (u.batches rss).2 = none := by
  have hkey : ∀ r ∈ rss.flatten, (updateOf r.payload).isSome → ¬keyOf r ≈ (FString.ofCStr guid).printKey i := by
    intro r hr hf hk
    have hctx := hguid.keyed i r hr hf hk
    obtain ⟨rfl, hid⟩ := context_of_wlu (h.mem_iff.mpr ⟨hr, hctx⟩)
    rw [keyOf, hid] at hk
    exact hi (by exact_mod_cast (eq_of_printKey_equiv (Setoid.refl _) (by omega) hk).symm)
  have hkeyed : Keyed (FString.ofCStr guid) ((FString.ofCStr guid).printKey i) rss.flatten := hguid.keyed i
  have hlast := hu.sim.batches hkeyed
  rw [trackTick_none hkey, Option.or_none] at hlast
  exact hlast

/-- One segment with content arrives. -/
theorem Merged.delivered (h : Merged guid reply rss.flatten) (hguid : IsGuid guid) {u : USpeechly} (hu : u.Fresh)
    (hone : OneSegment reply.segments) : Delivered guid reply.segments (u.batches rss).2 := by
  refine ⟨fun _ => 1, fun m n s t hm hn hs ht _ => ?_, fun n segment hn hcontent => ?_⟩
  · obtain ⟨hm', rfl⟩ := List.getElem?_eq_some_iff.mp hm
    obtain ⟨hn', rfl⟩ := List.getElem?_eq_some_iff.mp hn
    have hpair := List.pairwise_iff_getElem.mp hone
    by_contra hne
    rcases Nat.lt_or_gt_of_ne hne with hlt | hgt
    · exact hpair m n hm' hn' hlt ⟨hs, ht⟩
    · exact hpair n m hn' hm' hgt ⟨ht, hs⟩
  · have hwlu := wluMessages_eq guid reply
    rw [flatMap_of_oneSegment hone hn hcontent] at hwlu
    have hmsg : ∃ r ∈ rss.flatten, (updateOf r.payload).isSome ∧ keyOf r ≈ (FString.ofCStr guid).printKey (1 : ℕ) := by
      have hne : segmentMessages guid segment ≠ [] := fun hnil => by
        rw [segmentMessages_eq_nil_iff, hcontent] at hnil
        cases hnil
      obtain ⟨r, hr⟩ := List.exists_mem_of_ne_nil _ hne
      obtain ⟨rfl, hid, hf⟩ := context_of_segment hr
      refine ⟨r, (h.mem_iff.mp (by rw [hwlu]; exact List.mem_append_left _ hr)).1, hf, ?_⟩
      rw [keyOf, hid]
      exact Setoid.refl _
    obtain ⟨out, hlast, hdigest, hfinal⟩ := finished_broadcast hu (hguid.keyed 1) h.ends h.finishes hmsg
    rw [h.ofKey_eq hguid, hwlu] at hdigest
    exact ⟨out, hlast, hfinal, hdigest.says⟩

/-- More than one does not. -/
theorem Merged.oneSegment (h : Merged guid reply rss.flatten) (hguid : IsGuid guid) {u : USpeechly} (hu : u.Fresh)
    (hdelivered : Delivered guid reply.segments (u.batches rss).2) : OneSegment reply.segments := by
  obtain ⟨ids, hids, hdelivered⟩ := hdelivered
  -- a segment with content can only have been heard of under the key of segment 1
  have hone (n : ℕ) (hn : n < reply.segments.length) (hcontent : hasContent reply.segments[n] = true) : ids n = 1 := by
    obtain ⟨out, hlast, -, -⟩ := hdelivered n _ (List.getElem?_eq_getElem hn) hcontent
    by_contra hne
    rw [h.unheard hguid hu hne] at hlast
    cases hlast
  refine List.pairwise_iff_getElem.mpr fun m n hm hn hlt hboth => ?_
  have hsame := hids m n _ _ (List.getElem?_eq_getElem hm) (List.getElem?_eq_getElem hn) hboth.1 hboth.2
    ((hone m hm hboth.1).trans (hone n hn hboth.2).symm)
  omega

/-- **Written text, segment by segment.**  Whatever the reply, the ticks and the responses of other contexts in between:
every segment with content arrives as a final response of its own exactly when not more than one has content. -/
theorem delivered_iff_oneSegment (u : USpeechly) (languageCode : StdString) (hguid : IsGuid guid)
    (hlen : ∀ rs ∈ rss, rs.length ≤ 10) (hmerged : Merged guid reply rss.flatten) :
    ∃ u' broadcasts, (u.connect languageCode).ticks rss = .ok (u', broadcasts) ∧
      (Delivered guid reply.segments broadcasts ↔ OneSegment reply.segments) := by
  have hu := fresh_connect u languageCode
  exact ⟨_, _, ticks_eq hu.listening hlen, hmerged.oneSegment hguid hu, hmerged.delivered hguid hu⟩

/-- A reply with one segment, to two words. -/
def oneSegmentReply : WLUResponse := ⟨[⟨[⟨[98], 0⟩, ⟨[102], 1⟩], [], some ⟨[105]⟩⟩]⟩

theorem delivered_oneSegment :
    ∃ u' broadcasts, (USpeechly.new.connect []).ticks
        [[transcriptOf [97] 0 [120]], wluMessages (List.replicate 32 48) oneSegmentReply] = .ok (u', broadcasts) ∧
      (Delivered (List.replicate 32 48) oneSegmentReply.segments broadcasts ↔ OneSegment oneSegmentReply.segments) :=
  delivered_iff_oneSegment .new [] (by decide +kernel) (by decide +kernel) (by decide +kernel)

/-- A reply with two segments of one word, each with its intent. -/
def twoSegmentReply : WLUResponse := ⟨[⟨[⟨[98], 0⟩], [], some ⟨[105]⟩⟩, ⟨[⟨[114], 0⟩], [], some ⟨[106]⟩⟩]⟩

/-- Two segments arrive as one: the words are joined, and the second intent replaces the first. -/
theorem not_delivered_twoSegments :
    (∃ u' broadcasts, (USpeechly.new.connect []).ticks [wluMessages (List.replicate 32 48) twoSegmentReply] =
        .ok (u', broadcasts) ∧ ¬Delivered (List.replicate 32 48) twoSegmentReply.segments broadcasts) ∧
      ((USpeechly.new.connect []).ticks [wluMessages (List.replicate 32 48) twoSegmentReply]).toOption.map
        (fun x => (lastResponse ((FString.ofCStr (List.replicate 32 48)).printKey 1) x.2).map
          fun out => (out.transcript, out.intent, out.bIsFinal)) =
        some (some (FString.lit "b r", FString.lit "j", true)) := by
  have hu := fresh_connect .new []
  have hguid : IsGuid (List.replicate 32 48) := by decide +kernel
  have hmerged : Merged (List.replicate 32 48) twoSegmentReply [wluMessages (List.replicate 32 48) twoSegmentReply].flatten := by
    decide +kernel
  refine ⟨⟨_, _, ticks_eq hu.listening (by decide +kernel), fun hdelivered => ?_⟩, by decide +kernel⟩
  exact absurd (hmerged.oneSegment hguid hu hdelivered) (by decide +kernel)

end

end SpeechlyPlugin.Plugin
