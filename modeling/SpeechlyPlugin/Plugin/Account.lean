import SpeechlyPlugin.Plugin.View

/-!
# What is right to tell about a segment

An account of a segment says everything that its messages say and nothing else.  After a run of ticks the last broadcast of
a segment is the account of all responses read so far, at whatever point of its context the run has stopped.
-/

namespace SpeechlyPlugin.Plugin

open Engine Lib USpeechly Reading

section

variable {context key : FString} {r : SLUResponse} {rs : List SLUResponse} {out : FSpeechlyResponse}

/-- The response makes the result of the key final. -/
def Closes (context key : FString) (r : SLUResponse) : Prop :=
  (r.payload = .segmentEnd ∧ keyOf r ≈ key) ∨ Finishes context r

/-- What is told about a key after the responses `read`: nothing as long as none of them is about it, else a result made of
all that are, which is final once the segment or its context has ended. -/
structure Account (context key : FString) (read : List SLUResponse) (told : Option FSpeechlyResponse) : Prop where
  silent : told = none ↔ ∀ r ∈ read, (updateOf r.payload).isSome → ¬keyOf r ≈ key
  digest : ∀ out, told = some out → Digest out (ofKey key read)
  final : ∀ out, told = some out → (out.bIsFinal = true ↔ ∃ r ∈ read, Closes context key r)

/-- Without a message there is no value. -/
theorem foldl_track_none (h : ∀ r ∈ rs, (updateOf r.payload).isSome → ¬keyOf r ≈ key) :
    rs.foldl (track context key) none = none := by
  have hquiet : ∀ r ∈ [rs].flatten, (updateOf r.payload).isSome → ¬keyOf r ≈ key := by simpa using h
  have htick := congrArg Prod.snd (@trackTick_none context key [rs] hquiet)
  simpa [trackTick] using htick

theorem track_none_iff :
    rs.foldl (track context key) none = none ↔ ∀ r ∈ rs, (updateOf r.payload).isSome → ¬keyOf r ≈ key := by
  constructor
  · intro hnone r hr hf hk
    have hsome : (rs.foldl (track context key) none).isSome := track_isSome ⟨r, hr, hf, hk⟩
    rw [hnone] at hsome
    cases hsome
  · exact foldl_track_none

/-- Which update makes a result final. -/
theorem final_update {f : FSpeechlyResponse → FSpeechlyResponse} (hf : updateOf r.payload = some f) :
    (f out).bIsFinal = true ↔ r.payload = .segmentEnd ∨ out.bIsFinal = true := by
  cases hp : r.payload <;> simp only [hp, updateOf, reduceCtorEq, Option.some.injEq] at hf <;> subst hf <;> simp [appendWord]

theorem closes_update {f : FSpeechlyResponse → FSpeechlyResponse} (hf : updateOf r.payload = some f) :
    Closes context key r ↔ r.payload = .segmentEnd ∧ keyOf r ≈ key := by
  refine or_iff_left fun hfin => ?_
  have hnot := isFinished_of_update (p := r.payload) (by rw [hf]; rfl)
  rw [hfin.1] at hnot
  cases hnot

theorem closes_skip (hf : updateOf r.payload = none) : Closes context key r ↔ Finishes context r := by
  refine or_iff_right fun h => ?_
  rw [h.1] at hf
  cases hf

/-- A result is final once the segment or its context has ended.  By induction on the responses; a response of the key that
would be the first after the end of its context does not come. -/
theorem track_final_iff (hkey : Keyed context key rs) (hends : Ends context rs)
    (hout : rs.foldl (track context key) none = some out) : out.bIsFinal = true ↔ ∃ r ∈ rs, Closes context key r := by
  induction rs using List.reverseRecOn generalizing out with
  | nil => cases hout
  | append_singleton rs r ih =>
    have hold : Keyed context key rs := fun r hr => hkey r (List.mem_append_left _ hr)
    have hpair := List.pairwise_append.mp hends
    have ih {out : FSpeechlyResponse} := @ih out hold hpair.1
    simp only [List.mem_append, List.mem_singleton, or_and_right, exists_or, exists_eq_left]
    rw [List.foldl_append, List.foldl_cons, List.foldl_nil] at hout
    cases hf : updateOf r.payload with
    | some f =>
      rw [track_update hf] at hout
      rw [closes_update hf]
      by_cases hk : keyOf r ≈ key
      · rw [if_pos hk, Option.some.injEq] at hout
        subst hout
        rw [final_update hf, and_iff_left hk, or_comm]
        refine or_congr_left ?_
        cases hv : rs.foldl (track context key) none with
        | some w => exact ih hv
        | none =>
          -- the first message of the key: neither the segment nor its context has ended
          refine iff_of_false Bool.false_ne_true ?_
          rintro ⟨r', hr', ⟨hend, hk'⟩ | hfin⟩
          · exact track_none_iff.mp hv r' hr' (by rw [hend]; rfl) hk'
          · have hctx := hkey r (by simp) (by rw [hf]; rfl) hk
            exact hpair.2.2 r' hr' r (by simp) hfin hctx
      · rw [if_neg hk] at hout
        rw [ih hout]
        exact (or_iff_left fun h => hk h.2).symm
    | none =>
      rw [track_skip hf] at hout
      rw [closes_skip hf]
      by_cases hfin : Finishes context r
      · rw [if_pos hfin] at hout
        obtain ⟨w, -, rfl⟩ := Option.map_eq_some_iff.mp hout
        exact iff_of_true rfl (Or.inr hfin)
      · rw [if_neg hfin] at hout
        rw [ih hout]
        exact (or_iff_left hfin).symm

/-- **The abstract run of a key is its account.** -/
theorem account_track (hkey : Keyed context key rs) (hends : Ends context rs) :
    Account context key rs (rs.foldl (track context key) none) where
  silent := track_none_iff
  digest out hout := by
    have hdigest : Digest ((rs.foldl (track context key) none).getD default) (ofKey key rs) := track_digest
    rwa [hout] at hdigest
  final _ hout := track_final_iff hkey hends hout

/-! ## Runs of ticks -/

/-- The last broadcast is made of all messages, whether or not the context has been finished. -/
theorem trackTick_sent {rss : List (List SLUResponse)} (hkey : Keyed context key rss.flatten)
    (hends : Ends context rss.flatten) :
    (rss.foldl (trackTick context key) (none, none)).2 = rss.flatten.foldl (track context key) none := by
  cases hv : rss.flatten.foldl (track context key) none with
  | none => rw [trackTick_none (track_none_iff.mp hv)]
  | some w =>
    have hrun := trackTick_run hkey hends
    dsimp only at hrun
    rw [hv] at hrun
    split at hrun
    · exact hrun.2 rfl
    · -- the last tick has broadcast the value it has left
      obtain ⟨rss, rs, rfl⟩ : ∃ rss' rs, rss = rss' ++ [rs] := by
        rcases List.eq_nil_or_concat rss with rfl | ⟨rss', rs, rfl⟩
        · cases hv
        · exact ⟨rss', rs, by simp⟩
      rw [List.foldl_append] at hrun ⊢
      simp only [List.foldl_cons, List.foldl_nil, trackTick] at hrun ⊢
      split at hrun
      · cases hrun
      · rw [hrun]
        rfl

end

namespace Reading

variable {rss : List (List SLUResponse)} {c : FString} {i : ℤ}

theorem sent_ticks (u : USpeechly) (languageCode : StdString) (hseg : ∀ r ∈ rss.flatten, 0 ≤ r.segmentId) (hi : 0 ≤ i) :
    ((init (u.connect languageCode)).run (stepsOf rss)).sent (c.printKey i) =
      (rss.foldl (trackTick c (c.printKey i)) (none, none)).2 := by
  have hsim : Sim c (c.printKey i) none none (u.connect languageCode) .new := (coherent_init u languageCode).sim c i hi
  rw [← hsim.batches (keyed hi hseg), run_stepsOf rfl, Option.or_none]
  rfl

/-- Every run is a run of whole ticks and the reads of one more. -/
theorem steps_eq (steps : List TickStep) : ∃ (rss : List (List SLUResponse)) (rs : List SLUResponse),
    steps = stepsOf rss ++ rs.map .read := by
  induction steps using List.reverseRecOn with
  | nil => exact ⟨[], [], rfl⟩
  | append_singleton steps x ih =>
    obtain ⟨rss, rs, rfl⟩ := ih
    cases x with
    | read r => exact ⟨rss, rs ++ [r], by simp⟩
    | tickEnd => exact ⟨rss ++ [rs], [], by simp [stepsOf]⟩

/-- **The listener has the account of every segment** between two ticks, and what is stored is the account until the context is
finished. -/
theorem account (u : USpeechly) (languageCode : StdString) (hseg : ∀ r ∈ rss.flatten, 0 ≤ r.segmentId)
    (hlate : NoneLate rss.flatten) (hi : 0 ≤ i) :
    let x := (init (u.connect languageCode)).run (stepsOf rss)
    Account c (c.printKey i) rss.flatten (x.sent (c.printKey i)) ∧
      x.stored (c.printKey i) = if ∃ r ∈ rss.flatten, Finishes c r then none else x.sent (c.printKey i) := by
  have hkey : Keyed c (c.printKey i) rss.flatten := keyed hi hseg
  have hends := hlate.ends c
  have hrun := trackTick_run hkey hends
  dsimp only at hrun ⊢
  rw [sent_ticks u languageCode hseg hi, stored_ticks u languageCode hseg hi, trackTick_sent hkey hends]
  refine ⟨account_track hkey hends, ?_⟩
  split at hrun
  · rw [if_pos ‹_›]
    exact hrun.1
  · rw [if_neg ‹_›]
    exact hrun

end Reading

end SpeechlyPlugin.Plugin
