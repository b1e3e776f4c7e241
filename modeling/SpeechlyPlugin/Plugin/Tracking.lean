import SpeechlyPlugin.Plugin.Ticks

/-!
# One key through a run of ticks

What the maps, the sets of a tick and the broadcasts say about one key is followed by two optional responses: the value
the key has now, and the value it was last broadcast with.  `Sim` relates them to the object; it is kept by every
response `Tick` handles and by the end of the tick, whatever the other contexts do.
-/

namespace SpeechlyPlugin.Plugin

open Engine Lib USpeechly

/-! ## The abstract run of one key -/

/-- What a payload does to the response of its key. -/
def updateOf : Payload → Option (FSpeechlyResponse → FSpeechlyResponse)
  | .transcript t => some (appendWord (FString.ofCStr t.word))
  | .entity e => some fun out =>
      { out with entities := out.entities.emplace (FString.ofCStr e.entity) (FString.ofCStr e.value) }
  | .intent i => some fun out => { out with intent := FString.ofCStr i.intent }
  | .segmentEnd => some fun out => { out with bIsFinal := true }
  | _ => none

/-- A payload that changes a response is no `finished`. -/
theorem isFinished_of_update {p : Payload} (h : (updateOf p).isSome) : isFinished p = false := by
  cases p <;> first | rfl | cases h

/-- The response is the `finished` of the context. -/
def Finishes (context : FString) (r : SLUResponse) : Prop :=
  isFinished r.payload = true ∧ FString.ofCStr r.audioContext ≈ context

instance (context : FString) (r : SLUResponse) : Decidable (Finishes context r) :=
  inferInstanceAs (Decidable (_ ∧ _))

def finalize (out : FSpeechlyResponse) : FSpeechlyResponse := { out with bIsFinal := true }

/-- The value of a key of the context after one more response. -/
def track (context key : FString) (v : Option FSpeechlyResponse) (r : SLUResponse) : Option FSpeechlyResponse :=
  match updateOf r.payload with
  | some f => if keyOf r ≈ key then some (f (v.getD default)) else v
  | none => if Finishes context r then v.map finalize else v

theorem track_update {context key : FString} {v : Option FSpeechlyResponse} {r : SLUResponse}
    {f : FSpeechlyResponse → FSpeechlyResponse} (h : updateOf r.payload = some f) :
    track context key v r = if keyOf r ≈ key then some (f (v.getD default)) else v := by
  simp only [track, h]

theorem track_skip {context key : FString} {v : Option FSpeechlyResponse} {r : SLUResponse}
    (h : updateOf r.payload = none) : track context key v r = if Finishes context r then v.map finalize else v := by
  simp only [track, h]

/-- A value stays. -/
theorem foldl_track_isSome {context key : FString} {v : Option FSpeechlyResponse} {rs : List SLUResponse} (h : v.isSome) :
    (rs.foldl (track context key) v).isSome := by
  induction rs generalizing v with
  | nil => exact h
  | cons r rs ih =>
    refine ih ?_
    cases hf : updateOf r.payload with
    | some f =>
      rw [track_update hf]
      split
      · rfl
      · exact h
    | none =>
      rw [track_skip hf]
      split
      · rwa [Option.isSome_map]
      · exact h

/-- The value of the key and its last broadcast, after one more tick. -/
def trackTick (context key : FString) (x : Option FSpeechlyResponse × Option FSpeechlyResponse)
    (rs : List SLUResponse) : Option FSpeechlyResponse × Option FSpeechlyResponse :=
  let v := rs.foldl (track context key) x.1
  (if ∃ r ∈ rs, Finishes context r then none else v, v.or x.2)

/-- The last broadcast of a key. -/
def lastResponse (key : FString) (broadcasts : List Broadcast) : Option FSpeechlyResponse :=
  (broadcasts.filterMap fun b =>
    match b with
    | .response k out => if k ≈ key then some out else none
    | .error _ _ => none).getLast?

theorem lastResponse_append (key : FString) (a b : List Broadcast) :
    lastResponse key (a ++ b) = (lastResponse key b).or (lastResponse key a) := by
  rw [lastResponse, List.filterMap_append, List.getLast?_append]
  rfl

/-! ## The simulation -/

/-- What the two maps of the object say about the key. -/
structure Stored (context key : FString) (v : Option FSpeechlyResponse) (u : USpeechly) : Prop where
  value : u.responses.find key = v
  holds : ∀ c, (∃ keys, u.contextToKeys.find c = some keys ∧ keys.contains key = true) ↔ c ≈ context ∧ v.isSome

/-- … and what the tick and the broadcasts so far say. -/
structure Sim (context key : FString) (v sent : Option FSpeechlyResponse) (u : USpeechly) (locals : TickLocals) : Prop
    extends Stored context key v u where
  quiet : v = none → locals.changedKeys.contains key = false
  current : ∀ w, v = some w → locals.changedKeys.contains key = true ∨ sent = some w

section

variable {context key : FString} {v sent : Option FSpeechlyResponse} {u : USpeechly} {locals : TickLocals}
  {r : SLUResponse} {rs : List SLUResponse}

/-- A key set that is not there holds nothing. -/
theorem contains_getD {x : Option (KeySet FString)} :
    (x.getD default).contains key = true ↔ ∃ keys, x = some keys ∧ keys.contains key = true := by
  cases x with
  | none => simp only [Option.getD_none, reduceCtorEq, false_and, exists_false, iff_false]; exact Bool.false_ne_true
  | some keys => simp

/-- One of the four branches that change the response of a key. -/
theorem Sim.update (h : Sim context key v sent u locals)
    (hkey : keyOf r ≈ key → FString.ofCStr r.audioContext ≈ context) (f : FSpeechlyResponse → FSpeechlyResponse) :
    Sim context key (if keyOf r ≈ key then some (f (v.getD default)) else v) sent (u.updateResponse locals r f).1
      (u.updateResponse locals r f).2 := by
  by_cases hk : keyOf r ≈ key
  · have hr := hkey hk
    rw [if_pos hk]
    refine ⟨⟨?_, fun c => ?_⟩, nofun, fun w hw => Or.inl ?_⟩
    · simp only [updateResponse, keyOfMessage, KeyMap.find_findOrAdd, if_pos hk, h.value]
    · simp only [updateResponse, keyOfMessage, KeyMap.find_findOrAdd, Option.isSome_some, and_true]
      by_cases hc : FString.ofCStr r.audioContext ≈ c
      · simp only [if_pos hc, Option.some.injEq, exists_eq_left', KeySet.contains_add, hk, true_or, true_iff]
        exact Setoid.trans (Setoid.symm hc) hr
      · simp only [if_neg hc]
        refine ⟨fun hx => ((h.holds c).mp hx).1, fun hx => ?_⟩
        exact absurd (Setoid.trans hr (Setoid.symm hx)) hc
    · simp only [updateResponse, keyOfMessage, KeySet.contains_add, hk, true_or]
  · rw [if_neg hk]
    have hchanged : (u.updateResponse locals r f).2.changedKeys.contains key = locals.changedKeys.contains key := by
      rw [Bool.eq_iff_iff]
      simp only [updateResponse, keyOfMessage, KeySet.contains_add, hk, false_or]
    refine ⟨⟨?_, fun c => ?_⟩, fun hv => by rw [hchanged, h.quiet hv], fun w hw => by rw [hchanged]; exact h.current w hw⟩
    · simp only [updateResponse, keyOfMessage, KeyMap.find_findOrAdd, if_neg hk, h.value]
    · rw [← h.holds c]
      simp only [updateResponse, keyOfMessage, KeyMap.find_findOrAdd]
      by_cases hc : FString.ofCStr r.audioContext ≈ c
      · simp only [if_pos hc, Option.some.injEq, exists_eq_left', KeySet.contains_add, hk, false_or, contains_getD]
      · simp only [if_neg hc]

/-! ## `finished` -/

theorem finalize_of_final {out : FSpeechlyResponse} (h : out.bIsFinal = true) : finalize out = out := by
  cases out
  cases h
  rfl

/-- The body of the loop, at the key. -/
theorem finalizeKey_at (m : KeyMap FString FSpeechlyResponse) (changed : KeySet FString) {k : FString} (hk : k ≈ key) :
    (finalizeKey (m, changed) k).1.find key = (m.find key).map finalize ∧
      ((finalizeKey (m, changed) k).2.contains key = true ↔
        changed.contains key = true ∨ ∃ w, m.find key = some w ∧ w.bIsFinal = false) := by
  simp only [finalizeKey, KeyMap.find_congr hk]
  cases hm : m.find key with
  | none => simp [hm]
  | some w =>
    cases hw : w.bIsFinal with
    | false =>
      simp only [hw, Bool.not_false, if_true, KeyMap.find_modify, hk, hm, Option.map_some, KeySet.contains_add, true_or,
        Option.some.injEq, exists_eq_left', or_true, and_true]
      rfl
    | true => simp [hw, hm, finalize_of_final hw]

/-- The body of the loop, at another key. -/
theorem finalizeKey_other (m : KeyMap FString FSpeechlyResponse) (changed : KeySet FString) {k : FString}
    (hk : ¬k ≈ key) :
    (finalizeKey (m, changed) k).1.find key = m.find key ∧
      ((finalizeKey (m, changed) k).2.contains key = true ↔ changed.contains key = true) := by
  simp only [finalizeKey]
  split
  · split
    · simp only [KeyMap.find_modify, hk, if_false, KeySet.contains_add, false_or, and_self]
    · exact ⟨rfl, Iff.rfl⟩
  · exact ⟨rfl, Iff.rfl⟩

/-- The loop over the keys of a finished context. -/
theorem foldl_finalizeKey (key : FString) (keys : List FString) : ∀ (m : KeyMap FString FSpeechlyResponse) (changed : KeySet FString),
    (keys.foldl finalizeKey (m, changed)).1.find key =
        (if ∃ k ∈ keys, k ≈ key then (m.find key).map finalize else m.find key) ∧
      ((keys.foldl finalizeKey (m, changed)).2.contains key = true ↔
        changed.contains key = true ∨ (∃ k ∈ keys, k ≈ key) ∧ ∃ w, m.find key = some w ∧ w.bIsFinal = false) := by
  induction keys with
  | nil => intro m changed; simp
  | cons k keys ih =>
    intro m changed
    obtain ⟨hfind, hcont⟩ := ih (finalizeKey (m, changed) k).1 (finalizeKey (m, changed) k).2
    rw [List.foldl_cons]
    by_cases hk : k ≈ key
    · obtain ⟨hf, hc⟩ := finalizeKey_at m changed hk
      rw [hfind, hcont, hf, hc]
      have hex : ∃ x ∈ k :: keys, x ≈ key := ⟨k, by simp, hk⟩
      rw [if_pos hex]
      refine ⟨?_, ?_⟩
      · split
        · cases m.find key <;> rfl
        · rfl
      · -- once final, the response is not final again
        simp only [hex, true_and]
        refine ⟨fun hx => hx.elim id fun hx => ?_, Or.inl⟩
        obtain ⟨-, w, hw, hw'⟩ := hx
        obtain ⟨w', -, rfl⟩ := Option.map_eq_some_iff.mp hw
        cases hw'
    · obtain ⟨hf, hc⟩ := finalizeKey_other m changed hk
      rw [hfind, hcont, hf, hc]
      simp only [List.mem_cons, exists_eq_or_imp, hk, false_or, true_and]

/-- The responses and the changed keys after the keys of the context are made final. -/
def finalizeKeys (u : USpeechly) (locals : TickLocals) (c : FString) : KeyMap FString FSpeechlyResponse × KeySet FString :=
  match u.contextToKeys.find c with
  | some keys => keys.keys.foldl finalizeKey (u.responses, locals.changedKeys)
  | none => (u.responses, locals.changedKeys)

theorem finishContext_fields (u : USpeechly) (locals : TickLocals) (c : FString) (f : SLUFinished) :
    (u.finishContext locals c f).1.responses = (finalizeKeys u locals c).1 ∧
      (u.finishContext locals c f).1.contextToKeys = u.contextToKeys ∧
      (u.finishContext locals c f).2.changedKeys = (finalizeKeys u locals c).2 ∧
      (u.finishContext locals c f).2.finishedContexts = locals.finishedContexts.add c := by
  simp only [finishContext, finalizeKeys]
  cases f.error <;> cases u.isActive c <;> exact ⟨rfl, rfl, rfl, rfl⟩

/-- A loop over the keys of a context meets the key exactly when it is of this context and there is a value. -/
theorem Stored.visit (h : Stored context key v u) (c : FString) {g : Option FSpeechlyResponse → Option FSpeechlyResponse}
    (hg : g none = none) {m : KeyMap FString FSpeechlyResponse}
    (hnone : u.contextToKeys.find c = none → m.find key = u.responses.find key)
    (hsome : ∀ keys, u.contextToKeys.find c = some keys →
      m.find key = if ∃ k ∈ keys.keys, k ≈ key then g (u.responses.find key) else u.responses.find key) :
    m.find key = if c ≈ context then g v else v := by
  have hholds := h.holds c
  rw [h.value] at hnone
  simp only [h.value] at hsome
  cases hc : u.contextToKeys.find c with
  | none =>
    simp only [hc, reduceCtorEq, false_and, exists_false, false_iff, not_and] at hholds
    rw [hnone hc]
    split
    · rename_i hcc
      cases v with
      | none => exact hg.symm
      | some w => exact absurd rfl (hholds hcc)
    · rfl
  | some keys =>
    simp only [hc, Option.some.injEq, exists_eq_left', KeyMap.contains_iff] at hholds
    rw [hsome keys hc]
    by_cases hcc : c ≈ context
    · rw [if_pos hcc]
      cases v with
      | none => rw [hg, ite_self]
      | some w => rw [if_pos (hholds.mpr ⟨hcc, rfl⟩)]
    · rw [if_neg hcc, if_neg fun hx => hcc (hholds.mp hx).1]

theorem Stored.finalizeKeys (h : Stored context key v u) (locals : TickLocals) (c : FString) :
    (finalizeKeys u locals c).1.find key = (if c ≈ context then v.map finalize else v) ∧
      ((finalizeKeys u locals c).2.contains key = true ↔
        locals.changedKeys.contains key = true ∨ c ≈ context ∧ ∃ w, v = some w ∧ w.bIsFinal = false) := by
  refine ⟨h.visit c (g := Option.map finalize) rfl (fun hc => by simp only [Plugin.finalizeKeys, hc]) fun keys hc => ?_, ?_⟩
  · simp only [Plugin.finalizeKeys, hc]
    exact (foldl_finalizeKey key keys.keys u.responses locals.changedKeys).1
  · have hholds := h.holds c
    simp only [Plugin.finalizeKeys]
    cases hc : u.contextToKeys.find c with
    | none =>
      simp only [hc, reduceCtorEq, false_and, exists_false, false_iff, not_and] at hholds
      refine ⟨Or.inl, fun hx => hx.elim id fun ⟨hcc, w, hw, _⟩ => ?_⟩
      exact absurd (by rw [hw]; rfl) (hholds hcc)
    | some keys =>
      simp only [hc, Option.some.injEq, exists_eq_left', KeyMap.contains_iff] at hholds
      dsimp only
      rw [(foldl_finalizeKey key keys.keys u.responses locals.changedKeys).2, h.value, hholds]
      refine or_congr_right ⟨fun hx => ⟨hx.1.1, hx.2⟩, fun hx => ⟨⟨hx.1, ?_⟩, hx.2⟩⟩
      obtain ⟨w, rfl, -⟩ := hx.2
      rfl

/-- The branch for a `finished` response. -/
theorem Sim.finish (h : Sim context key v sent u locals) (c : FString) (f : SLUFinished) :
    Sim context key (if c ≈ context then v.map finalize else v) sent (u.finishContext locals c f).1
      (u.finishContext locals c f).2 := by
  obtain ⟨hresp, hctx, hchanged, -⟩ := finishContext_fields u locals c f
  obtain ⟨hfind, hcont⟩ := h.toStored.finalizeKeys locals c
  have hsome : (if c ≈ context then v.map finalize else v).isSome = v.isSome := by
    split <;> simp
  refine ⟨⟨by rw [hresp, hfind], fun d => by rw [hctx, h.holds d, hsome]⟩, fun hv => ?_, fun w hw => ?_⟩
  · have hnone : v = none := by
      rw [← Option.isNone_iff_eq_none, ← Option.not_isSome, ← hsome, hv]
      rfl
    rw [hchanged, ← Bool.not_eq_true, hcont, h.quiet hnone, hnone]
    simp
  · rw [hchanged, hcont]
    by_cases hcc : c ≈ context
    · rw [if_pos hcc] at hw
      obtain ⟨w', hw', rfl⟩ := Option.map_eq_some_iff.mp hw
      cases hfinal : w'.bIsFinal with
      | false => exact Or.inl (Or.inr ⟨hcc, w', hw', hfinal⟩)
      | true =>
        rw [finalize_of_final hfinal]
        exact (h.current w' hw').imp_left Or.inl
    · rw [if_neg hcc] at hw
      exact (h.current w hw).imp_left Or.inl

/-! ## One response -/

theorem handleResponse_update {f : FSpeechlyResponse → FSpeechlyResponse} (h : updateOf r.payload = some f) :
    u.handleResponse locals r = u.updateResponse locals r f := by
  unfold handleResponse
  cases hr : r.payload <;> rw [hr] at h <;> cases h <;> rfl

/-- **One response.** -/
theorem Sim.handle (h : Sim context key v sent u locals)
    (hkey : (updateOf r.payload).isSome → keyOf r ≈ key → FString.ofCStr r.audioContext ≈ context) :
    Sim context key (track context key v r) sent (u.handleResponse locals r).1 (u.handleResponse locals r).2 := by
  cases hf : updateOf r.payload with
  | some f =>
    rw [handleResponse_update hf, track_update hf]
    exact h.update (hkey (by rw [hf]; rfl)) f
  | none =>
    rw [track_skip hf]
    unfold handleResponse
    cases hr : r.payload <;> simp only [hr, updateOf, reduceCtorEq] at hf
    case finished f =>
      have hfin : Finishes context r ↔ FString.ofCStr r.audioContext ≈ context := by simp [Finishes, hr, isFinished]
      simp only [hfin]
      exact h.finish _ f
    all_goals
      have hfin : ¬Finishes context r := by simp [Finishes, hr, isFinished]
      simp only [hfin, if_false]
      exact ⟨⟨h.value, h.holds⟩, h.quiet, h.current⟩

theorem contains_finishedContexts :
    (u.handleResponse locals r).2.finishedContexts.contains context = true ↔
      locals.finishedContexts.contains context = true ∨ Finishes context r := by
  cases hf : updateOf r.payload with
  | some f =>
    have hfin : ¬Finishes context r := fun h => by
      rw [Finishes, isFinished_of_update (by rw [hf]; rfl)] at h
      cases h.1
    rw [handleResponse_update hf]
    simp only [hfin, or_false]
    rfl
  | none =>
    unfold handleResponse
    cases hr : r.payload <;> simp only [hr, updateOf, reduceCtorEq] at hf
    case finished f =>
      obtain ⟨-, -, -, hadd⟩ := finishContext_fields u locals (FString.ofCStr r.audioContext) f
      have hfin : Finishes context r ↔ FString.ofCStr r.audioContext ≈ context := by simp [Finishes, hr, isFinished]
      rw [hadd, KeySet.contains_add, hfin, or_comm]
    all_goals
      have hfin : ¬Finishes context r := by simp [Finishes, hr, isFinished]
      simp only [hfin, or_false]

theorem Sim.handleAll (hkey : ∀ r ∈ rs, (updateOf r.payload).isSome → keyOf r ≈ key →
      FString.ofCStr r.audioContext ≈ context) :
    ∀ {v : Option FSpeechlyResponse} {u : USpeechly} {locals : TickLocals}, Sim context key v sent u locals →
      Sim context key (rs.foldl (track context key) v) sent (u.handleAll locals rs).1 (u.handleAll locals rs).2 ∧
        ((u.handleAll locals rs).2.finishedContexts.contains context = true ↔
          locals.finishedContexts.contains context = true ∨ ∃ r ∈ rs, Finishes context r) := by
  induction rs with
  | nil => intro v u locals h; exact ⟨h, by simp [USpeechly.handleAll]⟩
  | cons r rs ih =>
    intro v u locals h
    obtain ⟨hsim, hfin⟩ := ih (fun x hx => hkey x (by simp [hx])) (h.handle (hkey r (by simp)))
    refine ⟨hsim, hfin.trans ?_⟩
    rw [contains_finishedContexts, or_assoc]
    simp only [List.mem_cons, exists_eq_or_imp]

/-! ## The end of a tick -/

theorem foldl_remove (keys : List FString) : ∀ m : KeyMap FString FSpeechlyResponse,
    (keys.foldl KeyMap.remove m).find key = if ∃ k ∈ keys, k ≈ key then none else m.find key := by
  induction keys with
  | nil => intro m; simp
  | cons k keys ih =>
    intro m
    rw [List.foldl_cons, ih, KeyMap.find_remove]
    by_cases hk : k ≈ key
    · rw [if_pos hk, if_pos (⟨k, by simp, hk⟩ : ∃ x ∈ k :: keys, x ≈ key)]
      split <;> rfl
    · simp only [List.mem_cons, exists_eq_or_imp, hk, false_or, if_false]

theorem Stored.removeContext (h : Stored context key v u) (c : FString) :
    Stored context key (if c ≈ context then none else v) (u.removeContext c) where
  value := by
    refine h.visit c (g := fun _ => none) rfl (fun hc => ?_) fun keys hc => ?_
    · simp only [USpeechly.removeContext, hc]
    · simp only [USpeechly.removeContext, hc, foldl_remove]
  holds d := by
    simp only [USpeechly.removeContext, KeyMap.find_remove]
    by_cases hcd : c ≈ d
    · simp only [if_pos hcd, reduceCtorEq, false_and, exists_false, false_iff, not_and]
      intro hd
      rw [if_pos (Setoid.trans hcd hd)]
      exact Bool.false_ne_true
    · rw [if_neg hcd, h.holds d]
      by_cases hcc : c ≈ context
      · have hd : ¬d ≈ context := fun hd => hcd (Setoid.trans hcc (Setoid.symm hd))
        simp only [hd, false_and]
      · rw [if_neg hcc]

theorem Stored.removeContexts (contexts : List FString) :
    ∀ {v : Option FSpeechlyResponse} {u : USpeechly}, Stored context key v u →
      Stored context key (if ∃ c ∈ contexts, c ≈ context then none else v) (contexts.foldl USpeechly.removeContext u) := by
  induction contexts with
  | nil => intro v u h; simpa using h
  | cons c contexts ih =>
    intro v u h
    have h' := ih (h.removeContext c)
    rw [List.foldl_cons]
    by_cases hc : c ≈ context
    · rw [if_pos (⟨c, by simp, hc⟩ : ∃ x ∈ c :: contexts, x ≈ context)]
      rw [if_pos hc, ite_self] at h'
      exact h'
    · simp only [List.mem_cons, exists_eq_or_imp, hc, false_or]
      rw [if_neg hc] at h'
      exact h'

theorem getLast?_filterMap_key (x : Option FSpeechlyResponse) (keys : List FString) :
    (keys.filterMap fun k => if k ≈ key then x else none).getLast? = if ∃ k ∈ keys, k ≈ key then x else none := by
  induction keys with
  | nil => simp
  | cons k keys ih =>
    simp only [List.filterMap_cons, List.mem_cons, exists_eq_or_imp]
    by_cases hk : k ≈ key
    · simp only [hk, if_true, true_or]
      cases x with
      | none => simp
      | some w =>
        rw [List.getLast?_cons, ih]
        split <;> rfl
    · simp only [hk, if_false, false_or]
      exact ih

/-- The broadcasts of a tick carry the key with its value if it has changed, and not otherwise. -/
theorem lastResponse_endTick :
    lastResponse key (u.endTick locals).2 =
      if locals.changedKeys.contains key then u.responses.find key else none := by
  have herrors : lastResponse key (locals.errors.entries.map fun e => .error e.1 e.2) = none := by
    rw [lastResponse, List.getLast?_eq_none_iff, List.filterMap_map, List.filterMap_eq_nil_iff]
    exact fun _ _ => rfl
  have hkey (k : FString) : (((u.responses.find k).map (Broadcast.response k)).bind fun b =>
      match b with
      | .response k out => if k ≈ key then some out else none
      | .error _ _ => none) = if k ≈ key then u.responses.find key else none := by
    by_cases hk : k ≈ key
    · rw [if_pos hk, KeyMap.find_congr hk]
      cases u.responses.find key with
      | none => rfl
      | some w => exact if_pos hk
    · rw [if_neg hk]
      cases u.responses.find k with
      | none => rfl
      | some w => exact if_neg hk
  simp only [endTick, lastResponse_append, herrors, Option.none_or]
  rw [lastResponse, changedResponses, List.filterMap_filterMap]
  simp only [hkey, getLast?_filterMap_key, ← KeyMap.contains_iff]

/-- What was last broadcast is the value there is, whether or not the tick has changed it. -/
theorem Sim.lastResponse_endTick (h : Sim context key v sent u locals) :
    (lastResponse key (u.endTick locals).2).or sent = v.or sent := by
  rw [Plugin.lastResponse_endTick, h.value]
  cases v with
  | none => simp
  | some w =>
    by_cases hc : locals.changedKeys.contains key = true
    · rw [if_pos hc]
    · rw [if_neg hc, (h.current w rfl).resolve_left hc]
      rfl

/-- The end of the tick: the keys of finished contexts go. -/
theorem Sim.endTick (h : Sim context key v sent u locals) :
    Sim context key (if locals.finishedContexts.contains context = true then none else v) (v.or sent)
      (u.endTick locals).1 .new := by
  have hstored := h.toStored.removeContexts locals.finishedContexts.keys
  simp only [← KeyMap.contains_iff] at hstored
  refine ⟨hstored, fun _ => rfl, fun w hw => Or.inr ?_⟩
  split at hw
  · cases hw
  · rw [hw]
    rfl

/-- **One tick.** -/
theorem Sim.batch (h : Sim context key v sent u .new) (hkey : ∀ r ∈ rs, (updateOf r.payload).isSome →
      keyOf r ≈ key → FString.ofCStr r.audioContext ≈ context) :
    Sim context key (trackTick context key (v, sent) rs).1 (trackTick context key (v, sent) rs).2 (u.batch rs).1 .new ∧
      (lastResponse key (u.batch rs).2).or sent = (trackTick context key (v, sent) rs).2 := by
  obtain ⟨hsim, hfin⟩ := Sim.handleAll hkey h
  have hfin : (u.handleAll .new rs).2.finishedContexts.contains context = true ↔ ∃ r ∈ rs, Finishes context r := by
    rw [hfin]
    simp [TickLocals.new]
  have hend := hsim.endTick
  simp only [hfin] at hend
  exact ⟨hend, hsim.lastResponse_endTick⟩

/-- **A run of ticks.** -/
theorem Sim.batches {rss : List (List SLUResponse)} (hkey : ∀ r ∈ rss.flatten, (updateOf r.payload).isSome →
      keyOf r ≈ key → FString.ofCStr r.audioContext ≈ context) :
    ∀ {v sent : Option FSpeechlyResponse} {u : USpeechly}, Sim context key v sent u .new →
      (lastResponse key (u.batches rss).2).or sent = (rss.foldl (trackTick context key) (v, sent)).2 := by
  induction rss with
  | nil => intro v sent u _; rfl
  | cons rs rss ih =>
    intro v sent u h
    have hrs : ∀ r ∈ rs, (updateOf r.payload).isSome → keyOf r ≈ key → FString.ofCStr r.audioContext ≈ context :=
      fun r hr => hkey r (by simp [hr])
    obtain ⟨hsim, hlast⟩ := h.batch hrs
    have hnext := ih (fun r hr => hkey r (by rw [List.flatten_cons]; exact List.mem_append_right _ hr)) hsim
    rw [List.foldl_cons, ← hnext, ← hlast]
    simp only [USpeechly.batches, lastResponse_append, Option.or_assoc]

end

end SpeechlyPlugin.Plugin
