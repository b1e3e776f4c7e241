import SpeechlyPlugin.Engine.Ascii
import SpeechlyPlugin.Plugin.Index

/-!
# Segments and their keys

The messages of the server are bytes, the keys are engine strings.  On ASCII the conversion loses nothing but what the
comparison ignores anyway, so two messages have one key exactly when they are of one segment: what one segment is told is
never stored for another, and the clean-up of a context takes nothing of another.
-/

namespace SpeechlyPlugin.Plugin

open Engine Lib USpeechly Reading

/-! ## Keys -/

/-- The two messages are of one segment. -/
def SameSegment (r r' : SLUResponse) : Prop := EqIgnoreCase r.audioContext r'.audioContext ∧ r.segmentId = r'.segmentId

variable {r r' : SLUResponse}

theorem keyOf_equiv_iff (hr : IsAscii r.audioContext) (hr' : IsAscii r'.audioContext) (hi : 0 ≤ r.segmentId)
    (hi' : 0 ≤ r'.segmentId) : keyOf r ≈ keyOf r' ↔ SameSegment r r' := by
  rw [keyOf, keyOf, printKey_equiv_iff hi hi', FString.ofCStr_equiv_iff hr hr']
  rfl

/-! ## What is stored for the other segments -/

/-- Only a `finished` changes a response without the key of the message. -/
theorem find_handleResponse {u : USpeechly} {locals : TickLocals} {key : FString} (hfin : isFinished r.payload = false)
    (hkey : ¬keyOf r ≈ key) : (u.handleResponse locals r).1.responses.find key = u.responses.find key := by
  cases hf : updateOf r.payload with
  | some f =>
    rw [handleResponse_update hf]
    simp only [updateResponse, keyOfMessage, KeyMap.find_findOrAdd, if_neg hkey]
  | none =>
    unfold handleResponse
    cases hp : r.payload <;> simp only [hp, updateOf, reduceCtorEq] at hf
    case finished f => simp [hp, isFinished] at hfin
    all_goals rfl

/-- The keys of a context are those of no other context. -/
theorem Reading.Formed.removeContext_find {u : USpeechly} (h : Formed u) {c d : FString} {i : ℤ} (hi : 0 ≤ i)
    (hcd : ¬c ≈ d) :
    (u.removeContext c).responses.find (d.printKey i) = u.responses.find (d.printKey i) ∧
      (u.removeContext c).contextToKeys.find d = u.contextToKeys.find d := by
  refine ⟨?_, by simp only [USpeechly.removeContext, KeyMap.find_remove, if_neg hcd]⟩
  unfold USpeechly.removeContext
  cases hc : u.contextToKeys.find c with
  | none => rfl
  | some keys =>
    have hnone : ¬∃ key ∈ keys.keys, key ≈ d.printKey i := by
      rintro ⟨key, hkey, hk⟩
      obtain ⟨c', j, hc', hj, rfl⟩ := h.printed c keys hc key hkey
      exact hcd (Setoid.trans (Setoid.symm hc') ((printKey_equiv_iff hj hi).mp hk).1)
    dsimp only
    rw [foldl_remove, if_neg hnone]

/-- **Keys identify segments**, for all contexts in ASCII and all segments that are not negative.  Whatever a message says,
the responses of the other segments stay as they are; and at every moment of every run, however many contexts the tick has
cleaned up already, the clean-up of a context leaves the responses and the keys of the others alone. -/
theorem keys_identify_segments (hr : IsAscii r.audioContext) (hr' : IsAscii r'.audioContext) (hi : 0 ≤ r.segmentId)
    (hi' : 0 ≤ r'.segmentId) :
    (∀ u v : USpeechly, (u.keyOfMessage r).2 ≈ (v.keyOfMessage r').2 ↔ SameSegment r r') ∧
    (¬SameSegment r r' → isFinished r.payload = false → ∀ (u : USpeechly) (locals : TickLocals),
      (u.handleResponse locals r).1.responses.find (keyOf r') = u.responses.find (keyOf r')) ∧
    (¬EqIgnoreCase r.audioContext r'.audioContext →
      ∀ (u : USpeechly) (languageCode : StdString) (rss : List (List SLUResponse)) (read : List SLUResponse),
        (∀ rs ∈ rss, rs.length ≤ 10) → (∀ q ∈ rss.flatten ++ read, 0 ≤ q.segmentId) →
        ∃ v sent, (u.connect languageCode).ticks rss = .ok (v, sent) ∧
          ∀ contexts : List FString,
            let w := contexts.foldl removeContext (v.handleAll .new read).1
            let w' := w.removeContext (FString.ofCStr r.audioContext)
            w'.responses.find (keyOf r') = w.responses.find (keyOf r') ∧
              w'.contextToKeys.find (FString.ofCStr r'.audioContext) =
                w.contextToKeys.find (FString.ofCStr r'.audioContext)) := by
  have hkey := keyOf_equiv_iff hr hr' hi hi'
  refine ⟨fun _ _ => hkey, fun hne hfin u locals => find_handleResponse hfin fun hk => hne (hkey.mp hk), ?_⟩
  intro hne u languageCode rss read hlen hseg
  have hstart := coherent_ticks u languageCode fun q hq => hseg q (List.mem_append_left _ hq)
  refine ⟨_, _, ticks_eq_run (listening_connect u languageCode) hlen, fun contexts => ?_⟩
  rw [handleAll_eq_run locals_stepsOf]
  have hmoment := (hstart.reads fun q hq => hseg q (List.mem_append_right _ hq)).formed.removeContexts contexts
  exact hmoment.removeContext_find hi' fun hcd => hne ((FString.ofCStr_equiv_iff hr hr').mp hcd)

/-- A word of segment 2 of the context `a-1`. -/
def dashed : SLUResponse := transcriptOf [97, 45, 49] 2 [120]

/-- A word of segment 12 of the context `A`. -/
def undashed : SLUResponse := transcriptOf [65] 12 [121]

/-- Neither segment touches the other. -/
theorem keys_identify_segments_dash :
    ¬(USpeechly.new.keyOfMessage dashed).2 ≈ (USpeechly.new.keyOfMessage undashed).2 ∧
      (∀ (u : USpeechly) (locals : TickLocals),
        (u.handleResponse locals dashed).1.responses.find (keyOf undashed) = u.responses.find (keyOf undashed)) ∧
      ∃ v sent, (USpeechly.new.connect []).ticks [[dashed]] = .ok (v, sent) ∧
        ((v.handleAll .new [undashed]).1.removeContext (FString.ofCStr dashed.audioContext)).responses.find
          (keyOf undashed) = (v.handleAll .new [undashed]).1.responses.find (keyOf undashed) := by
  obtain ⟨hkey, hstored, hclean⟩ := @keys_identify_segments dashed undashed (by decide) (by decide) (by decide) (by decide)
  have hne : ¬SameSegment dashed undashed := fun h => absurd h.2 (by decide)
  refine ⟨fun h => hne ((hkey _ _).mp h), hstored hne rfl, ?_⟩
  obtain ⟨v, sent, hticks, hrest⟩ := hclean (by decide) .new [] [[dashed]] [undashed] (by decide) (by decide)
  exact ⟨v, sent, hticks, (hrest []).1⟩

end SpeechlyPlugin.Plugin
