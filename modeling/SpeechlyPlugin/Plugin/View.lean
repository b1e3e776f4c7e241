import SpeechlyPlugin.Plugin.Fold
import SpeechlyPlugin.Plugin.Reading

/-!
# What the listener knows

After every tick the listener has been told what is stored, of each key once; a key that is taken away has been told
complete and final before.
-/

namespace SpeechlyPlugin.Plugin

open Engine Lib USpeechly Reading

/-- No message of a context, or of one the engine does not tell from it, follows its `finished`. -/
def NoneLate (rs : List SLUResponse) : Prop :=
  rs.Pairwise fun r r' =>
    isFinished r.payload = true → ¬FString.ofCStr r'.audioContext ≈ FString.ofCStr r.audioContext

instance (rs : List SLUResponse) : Decidable (NoneLate rs) := inferInstanceAs (Decidable (List.Pairwise _ _))

theorem NoneLate.ends {rs : List SLUResponse} (h : NoneLate rs) (c : FString) : Ends c rs := by
  refine h.imp fun {r r'} hlate hfin hctx => ?_
  exact hlate hfin.1 (Setoid.trans hctx (Setoid.symm hfin.2))

/-- The keys `OnSpeechlyResponse` is broadcast for. -/
def responseKeys (broadcasts : List Broadcast) : List FString :=
  broadcasts.filterMap fun b =>
    match b with
    | .response key _ => some key
    | .error _ _ => none

theorem lastResponse_congr {k k' : FString} (h : k ≈ k') (broadcasts : List Broadcast) :
    lastResponse k broadcasts = lastResponse k' broadcasts := by
  unfold lastResponse
  congr 2
  funext b
  cases b with
  | error => rfl
  | response key out =>
    have hiff : key ≈ k ↔ key ≈ k' := ⟨fun hk => Setoid.trans hk h, fun hk => Setoid.trans hk (Setoid.symm h)⟩
    simp only [hiff]

/-- No key is broadcast twice in one tick. -/
theorem responseKeys_endTick (u : USpeechly) (locals : TickLocals) :
    (responseKeys (u.endTick locals).2).Pairwise fun k k' => ¬k ≈ k' := by
  have herrors : responseKeys (locals.errors.entries.map fun e => .error e.1 e.2) = [] := by
    rw [responseKeys, List.filterMap_map, List.filterMap_eq_nil_iff]
    exact fun _ _ => rfl
  have hkeys : (u.endTick locals).2 = u.changedResponses locals ++ locals.errors.entries.map fun e => .error e.1 e.2 := rfl
  rw [hkeys, responseKeys, List.filterMap_append, ← responseKeys, ← responseKeys, herrors, List.append_nil, responseKeys,
    changedResponses, List.filterMap_filterMap]
  refine List.Pairwise.filterMap _ (fun k k' hk x hx y hy => ?_) locals.changedKeys.keys_distinct
  obtain ⟨b, hb, hx⟩ := Option.bind_eq_some_iff.mp hx
  obtain ⟨b', hb', hy⟩ := Option.bind_eq_some_iff.mp hy
  obtain ⟨out, -, rfl⟩ := Option.map_eq_some_iff.mp hb
  obtain ⟨out', -, rfl⟩ := Option.map_eq_some_iff.mp hb'
  cases hx
  cases hy
  exact hk

/-- A final value stays final. -/
theorem track_final {context key : FString} {r : SLUResponse} {out : FSpeechlyResponse} (h : out.bIsFinal = true) :
    ∃ out', track context key (some out) r = some out' ∧ out'.bIsFinal = true := by
  cases hf : updateOf r.payload with
  | some f =>
    rw [track_update hf]
    split
    · refine ⟨_, rfl, ?_⟩
      cases hp : r.payload <;> simp only [hp, updateOf, reduceCtorEq, Option.some.injEq] at hf <;> subst hf <;>
        first | exact h | rfl
    · exact ⟨out, rfl, h⟩
  | none =>
    rw [track_skip hf]
    split
    · exact ⟨_, rfl, rfl⟩
    · exact ⟨out, rfl, h⟩

namespace Reading

variable {s : Reading} {r : SLUResponse} {rs : List SLUResponse} {key : FString} {out : FSpeechlyResponse}

theorem stored_congr {k k' : FString} (h : k ≈ k') : s.stored k = s.stored k' := KeyMap.find_congr h

/-- A key that is stored is the key of a segment. -/
theorem Coherent.segment (h : s.Coherent) (hout : s.stored key = some out) :
    ∃ (c : FString) (i : ℤ), 0 ≤ i ∧ key ≈ c.printKey i := h.formed.stored key (congrArg Option.isSome hout)

/-- After a tick, what is stored is what the listener was told last. -/
theorem Coherent.current (h : s.Coherent) (hlocals : s.locals = .new) (hout : s.stored key = some out) :
    s.sent key = some out := by
  obtain ⟨c, i, hi, hk⟩ := h.segment hout
  rw [stored_congr hk] at hout
  have hcurrent := (h.sim c i hi).current out hout
  rw [hlocals] at hcurrent
  rw [sent, lastResponse_congr hk]
  exact hcurrent.resolve_left Bool.false_ne_true

/-- While the key lives it stays final. -/
theorem Coherent.final_read (h : s.Coherent) (hr : 0 ≤ r.segmentId) (hout : s.stored key = some out)
    (hfinal : out.bIsFinal = true) : ∃ out', (s.step (.read r)).stored key = some out' ∧ out'.bIsFinal = true := by
  obtain ⟨c, i, hi, hk⟩ := h.segment hout
  rw [stored_congr hk] at hout ⊢
  rw [h.stored_read hr hi, hout]
  exact track_final hfinal

/-- What the listener was told last, after the tick. -/
theorem sent_tick (s : Reading) (rs : List SLUResponse) (key : FString) :
    let t := s.run (rs.map .read)
    (t.step .tickEnd).sent key = lastResponse key (s.broadcasts ++ (t.plugin.endTick t.locals).2) := by
  rw [run_reads]
  rfl

/-! ## What is stored is all there was -/

theorem keyed {c : FString} {i : ℤ} (hi : 0 ≤ i) (hseg : ∀ r ∈ rs, 0 ≤ r.segmentId) : Keyed c (c.printKey i) rs :=
  fun r hr _ hk => context_of_key (hseg r hr) hi hk

/-- After a run of ticks the abstract run of the key says what is stored. -/
theorem stored_ticks (u : USpeechly) (languageCode : StdString) {rss : List (List SLUResponse)}
    (hseg : ∀ r ∈ rss.flatten, 0 ≤ r.segmentId) {c : FString} {i : ℤ} (hi : 0 ≤ i) :
    ((init (u.connect languageCode)).run (stepsOf rss)).stored (c.printKey i) =
      (rss.foldl (trackTick c (c.printKey i)) (none, none)).1 := by
  induction rss using List.reverseRecOn with
  | nil => rfl
  | append_singleton rss rs ih =>
    have hflat : (rss ++ [rs]).flatten = rss.flatten ++ rs := by simp
    rw [hflat] at hseg
    have hold : ∀ r ∈ rss.flatten, 0 ≤ r.segmentId := fun r hr => hseg r (List.mem_append_left _ hr)
    have hnew : ∀ r ∈ rs, 0 ≤ r.segmentId := fun r hr => hseg r (List.mem_append_right _ hr)
    have hstart := coherent_ticks u languageCode hold
    have hsteps : stepsOf (rss ++ [rs]) = stepsOf rss ++ (rs.map .read ++ [.tickEnd]) := by simp [stepsOf]
    rw [hsteps, run_append, run_concat, (hstart.reads hnew).stored_tickEnd hi, hstart.stored_reads hnew hi, ih hold,
      List.foldl_append]
    simp only [finished_tick locals_stepsOf]
    rfl

variable {rss : List (List SLUResponse)} {c : FString} {i : ℤ}

/-- What is stored during a tick is made of all messages there have been. -/
theorem stored_all (u : USpeechly) (languageCode : StdString) (hseg : ∀ r ∈ rss.flatten ++ rs, 0 ≤ r.segmentId)
    (hlate : NoneLate (rss.flatten ++ rs)) (hi : 0 ≤ i)
    (hout : (((init (u.connect languageCode)).run (stepsOf rss)).run (rs.map .read)).stored (c.printKey i) = some out) :
    (rss.flatten ++ rs).foldl (track c (c.printKey i)) none = some out := by
  have hold : ∀ r ∈ rss.flatten, 0 ≤ r.segmentId := fun r hr => hseg r (List.mem_append_left _ hr)
  have hnew : ∀ r ∈ rs, 0 ≤ r.segmentId := fun r hr => hseg r (List.mem_append_right _ hr)
  have hends := List.pairwise_append.mp (hlate.ends c)
  have hrun := trackTick_run (keyed hi hold) hends.1
  rw [(coherent_ticks u languageCode hold).stored_reads hnew hi, stored_ticks u languageCode hold hi] at hout
  rw [List.foldl_append]
  split at hrun
  · -- the context was finished before this tick, and nothing of it is stored
    rename_i hfin
    obtain ⟨r, hr, hfinishes⟩ := hfin
    rw [hrun.1, foldl_track_other (keyed hi hnew) fun r' hr' => hends.2.2 r hr r' hr' hfinishes] at hout
    cases hout
  · rwa [← hrun]

/-- A key that is taken away at the end of the tick is final. -/
theorem final_of_gone (u : USpeechly) (languageCode : StdString) (hseg : ∀ r ∈ rss.flatten ++ rs, 0 ≤ r.segmentId)
    (hlate : NoneLate (rss.flatten ++ rs)) (hi : 0 ≤ i)
    (hout : (((init (u.connect languageCode)).run (stepsOf rss)).run (rs.map .read)).stored (c.printKey i) = some out)
    (hgone : ((((init (u.connect languageCode)).run (stepsOf rss)).run (rs.map .read)).step .tickEnd).stored
      (c.printKey i) = none) : out.bIsFinal = true := by
  have hold : ∀ r ∈ rss.flatten, 0 ≤ r.segmentId := fun r hr => hseg r (List.mem_append_left _ hr)
  have hnew : ∀ r ∈ rs, 0 ≤ r.segmentId := fun r hr => hseg r (List.mem_append_right _ hr)
  have hstart := coherent_ticks u languageCode hold
  rw [(hstart.reads hnew).stored_tickEnd hi, hout] at hgone
  split at hgone
  · rename_i hfin
    rw [finished_tick locals_stepsOf] at hfin
    have hends := (List.pairwise_append.mp (hlate.ends c)).2.1
    obtain ⟨w, hw⟩ := track_finished (keyed hi hnew) hends hfin
    rw [hstart.stored_reads hnew hi, hw] at hout
    obtain ⟨w', -, rfl⟩ := Option.map_eq_some_iff.mp hout
    rfl
  · cases hgone

end Reading

/-! ## The theorem -/

/-- **The listener is never behind.**  For every run of ticks, and the tick after it. -/
theorem view_current (u : USpeechly) (languageCode : StdString) {rss : List (List SLUResponse)}
    {rs : List SLUResponse} (hlen : ∀ rs ∈ rss, rs.length ≤ 10) (hrs : rs.length ≤ 10)
    (hseg : ∀ r ∈ rss.flatten ++ rs, 0 ≤ r.segmentId) (hlate : NoneLate (rss.flatten ++ rs)) :
    ∃ v sent w more, (u.connect languageCode).ticks rss = .ok (v, sent) ∧ (v.deliver rs).tick = .ok (w, more, true) ∧
      -- every key that is stored has been broadcast, last with the value that is stored
      (∀ key out, w.responses.find key = some out → lastResponse key (sent ++ more) = some out) ∧
      (responseKeys more).Pairwise (fun k k' => ¬k ≈ k') ∧
      -- a final response stays final, through every response and the end of the tick
      (∀ key out read r rest, rs = read ++ r :: rest → (v.handleAll .new read).1.responses.find key = some out →
        out.bIsFinal = true →
        ∃ out', (v.handleAll .new (read ++ [r])).1.responses.find key = some out' ∧ out'.bIsFinal = true) ∧
      (∀ key out, (v.handleAll .new rs).1.responses.find key = some out →
        w.responses.find key = none ∨ w.responses.find key = some out) ∧
      -- the changed responses are broadcast as they are before the finished contexts are taken away
      (∃ before locals, v.handleAll .new rs = (before, locals) ∧
        more = before.changedResponses locals ++ locals.errors.entries.map (fun e => .error e.1 e.2) ∧
        w = locals.finishedContexts.keys.foldl removeContext before) ∧
      -- a key that is taken away has been broadcast with all its messages, and final
      ∀ key out, (v.handleAll .new rs).1.responses.find key = some out → w.responses.find key = none →
        lastResponse key (sent ++ more) = some out ∧ out.bIsFinal = true ∧
          ∃ (c : FString) (i : ℤ), 0 ≤ i ∧ key ≈ c.printKey i ∧
            (rss.flatten ++ rs).foldl (track c (c.printKey i)) none = some out := by
  have hu := listening_connect u languageCode
  have hnew : ∀ r ∈ rs, 0 ≤ r.segmentId := fun r hr => hseg r (List.mem_append_right _ hr)
  have hstart := coherent_ticks u languageCode fun r hr => hseg r (List.mem_append_left _ hr)
  have hlocals : ((init (u.connect languageCode)).run (stepsOf rss)).locals = .new := locals_stepsOf
  refine ⟨_, _, _, _, ticks_eq_run hu hlen, tick_eq_run hu hrs, ?_, responseKeys_endTick _ _, ?_, ?_, ?_, ?_⟩
  · intro key out hout
    rw [← sent_tick]
    exact ((hstart.reads hnew).step (by simp)).current rfl hout
  · rintro key out read r rest rfl hout hfinal
    rw [handleAll_eq_run hlocals] at hout ⊢
    rw [List.map_append, List.map_singleton, run_concat]
    have hread : ∀ r ∈ read, 0 ≤ r.segmentId := fun r hr => hnew r (by simp [hr])
    exact (hstart.reads hread).final_read (hnew r (by simp)) hout hfinal
  · intro key out hout
    rw [handleAll_eq_run hlocals] at hout
    rw [← hout]
    exact stored_tickEnd_cases
  · refine ⟨_, _, rfl, ?_, ?_⟩
    · rw [run_reads, hlocals]
      rfl
    · rw [run_reads, hlocals]
      rfl
  · intro key out hout hgone
    rw [handleAll_eq_run hlocals] at hout
    obtain ⟨c, i, hi, hk⟩ := (hstart.reads hnew).segment hout
    have hout' := (stored_congr hk).symm.trans hout
    have hgone' := (stored_congr hk).symm.trans hgone
    have hsent := (hstart.reads hnew).sent_tickEnd (c := c) hi
    rw [hout'] at hsent
    refine ⟨?_, final_of_gone u languageCode hseg hlate hi hout' hgone', c, i, hi, hk,
      stored_all u languageCode hseg hlate hi hout'⟩
    rw [lastResponse_congr hk, ← sent_tick]
    exact hsent

/-- Two ticks, the second of which finishes one of two contexts. -/
theorem view_current_two :
    ∃ v sent w more, (USpeechly.new.connect []).ticks [[transcriptOf [97] 0 [120]]] = .ok (v, sent) ∧
      (v.deliver [transcriptOf [98] 0 [121], finishedOf [97]]).tick = .ok (w, more, true) ∧
      (∀ key out, w.responses.find key = some out → lastResponse key (sent ++ more) = some out) ∧
      (responseKeys more).Pairwise fun k k' => ¬k ≈ k' := by
  obtain ⟨v, sent, w, more, hticks, htick, hcurrent, honce, -⟩ := @view_current .new [] [[transcriptOf [97] 0 [120]]]
    [transcriptOf [98] 0 [121], finishedOf [97]] (by decide) (by decide) (by decide) (by decide)
  exact ⟨v, sent, w, more, hticks, htick, hcurrent, honce⟩

/-- The engine does not tell the context `a` from the context `A`, which is finished: a segment of `a` is taken away that
was never broadcast as final. -/
theorem view_not_final :
    ([finishedOf [65], transcriptOf [97] 1 [120]].Pairwise fun r r' =>
      isFinished r.payload = true → r'.audioContext ≠ r.audioContext) ∧
    ((USpeechly.new.connect []).ticks [[finishedOf [65], transcriptOf [97] 1 [120]]]).toOption.map
      (fun x => ((lastResponse ((FString.ofCStr [97]).printKey 1) x.2).map FSpeechlyResponse.bIsFinal,
        x.1.responses.contains ((FString.ofCStr [97]).printKey 1))) = some (some false, false) := by
  decide +kernel

end SpeechlyPlugin.Plugin
