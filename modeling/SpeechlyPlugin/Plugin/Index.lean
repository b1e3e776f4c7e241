import SpeechlyPlugin.Plugin.Fold
import SpeechlyPlugin.Plugin.Reading

/-!
# The index of the responses

`ContextToKeys` says which responses belong to a context.  At every moment it lists every response once, under its own
context; the clean-up of a tick takes what the finished contexts have, and nothing else.
-/

namespace SpeechlyPlugin.Plugin

open Engine Lib USpeechly Reading

/-- `ContextToKeys` is an index of `Responses`. -/
structure Indexed (u : USpeechly) : Prop where
  /-- the keys of the responses are those of the sets -/
  union : ∀ key, u.responses.contains key = true ↔
    ∃ c keys, u.contextToKeys.find c = some keys ∧ keys.contains key = true
  disjoint : ∀ c d keys keys' key, u.contextToKeys.find c = some keys → u.contextToKeys.find d = some keys' →
    keys.contains key = true → keys'.contains key = true → c ≈ d
  nonempty : ∀ c keys, u.contextToKeys.find c = some keys → keys.keys ≠ []
  /-- a key is the context, a dash and a segment id -/
  printed : ∀ c keys, u.contextToKeys.find c = some keys →
    ∀ key ∈ keys.keys, ∃ (d : FString) (i : ℤ), d ≈ c ∧ 0 ≤ i ∧ key = d.printKey i

/-- Neither map holds anything of the context. -/
def Gone (c : FString) (u : USpeechly) : Prop :=
  u.contextToKeys.find c = none ∧ ∀ i : ℤ, 0 ≤ i → u.responses.contains (c.printKey i) = false

/-- What `u` has of the context is still there in `w`. -/
def Kept (c : FString) (u w : USpeechly) : Prop :=
  ∀ keys, u.contextToKeys.find c = some keys → ∃ keys', w.contextToKeys.find c = some keys' ∧
    ∀ key, keys.contains key = true → keys'.contains key = true ∧ w.responses.contains key = true

namespace Reading

variable {s : Reading} {rs : List SLUResponse} {c key : FString} {keys : KeySet FString}

/-- A key of the set of a context is printed from the context itself, up to letter case. -/
theorem Coherent.printed_iff (h : s.Coherent) (hc : s.plugin.contextToKeys.find c = some keys)
    (hkey : keys.contains key = true) : ∃ i : ℤ, 0 ≤ i ∧ key ≈ c.printKey i := by
  obtain ⟨x, hx, hxk⟩ := KeyMap.contains_iff.mp hkey
  obtain ⟨d, i, hd, hi, rfl⟩ := h.formed.printed c keys hc x hx
  exact ⟨i, hi, Setoid.trans (Setoid.symm hxk) ((printKey_equiv_iff hi hi).mpr ⟨hd, rfl⟩)⟩

/-- A segment is in the set of its context exactly when it has a response. -/
theorem Coherent.listed_iff (h : s.Coherent) {i : ℤ} (hi : 0 ≤ i) :
    (∃ keys, s.plugin.contextToKeys.find c = some keys ∧ keys.contains (c.printKey i) = true) ↔
      s.plugin.responses.contains (c.printKey i) = true := by
  rw [(h.sim c i hi).holds c]
  exact ⟨And.right, fun hsome => ⟨Setoid.refl c, hsome⟩⟩

theorem Coherent.indexed (h : s.Coherent) : Indexed s.plugin where
  union key := by
    constructor
    · intro hkey
      obtain ⟨c, i, hi, hk⟩ := h.formed.stored key hkey
      rw [KeyMap.contains_congr hk] at hkey
      obtain ⟨keys, hc, hmem⟩ := (h.listed_iff hi).mpr hkey
      exact ⟨c, keys, hc, by rwa [KeyMap.contains_congr hk]⟩
    · rintro ⟨c, keys, hc, hmem⟩
      obtain ⟨i, hi, hk⟩ := h.printed_iff hc hmem
      rw [KeyMap.contains_congr hk] at hmem ⊢
      exact (h.listed_iff hi).mp ⟨keys, hc, hmem⟩
  disjoint c d keys keys' key hc hd hkey hkey' := by
    obtain ⟨i, hi, hk⟩ := h.printed_iff hc hkey
    obtain ⟨j, hj, hk'⟩ := h.printed_iff hd hkey'
    exact ((printKey_equiv_iff hi hj).mp (Setoid.trans (Setoid.symm hk) hk')).1
  nonempty := h.formed.nonempty
  printed := h.formed.printed

/-- The clean-up takes what a finished context has. -/
theorem Coherent.gone (h : s.Coherent) (hfin : s.locals.finishedContexts.contains c = true) :
    Gone c (s.step .tickEnd).plugin := by
  have hnext := h.step (x := .tickEnd) (by simp)
  have hnone (i : ℤ) (hi : 0 ≤ i) : (s.step .tickEnd).plugin.responses.contains (c.printKey i) = false := by
    have hstored := h.stored_tickEnd (c := c) hi
    rw [if_pos hfin] at hstored
    exact congrArg Option.isSome hstored
  refine ⟨?_, hnone⟩
  by_contra hsome
  obtain ⟨keys, hkeys⟩ := Option.ne_none_iff_exists'.mp hsome
  obtain ⟨key, hkey⟩ := List.exists_mem_of_ne_nil _ (hnext.formed.nonempty c keys hkeys)
  have hmem : keys.contains key = true := KeyMap.contains_iff.mpr ⟨key, hkey, Setoid.refl key⟩
  obtain ⟨i, hi, hk⟩ := hnext.printed_iff hkeys hmem
  rw [KeyMap.contains_congr hk] at hmem
  have hthere := (hnext.listed_iff hi).mp ⟨keys, hkeys, hmem⟩
  rw [hnone i hi] at hthere
  cases hthere

/-- The clean-up leaves the other contexts alone. -/
theorem Coherent.kept (h : s.Coherent) (hseg : ∀ r ∈ rs, 0 ≤ r.segmentId)
    (hfin : (s.run (rs.map .read)).locals.finishedContexts.contains c = false) :
    Kept c s.plugin ((s.run (rs.map .read)).step .tickEnd).plugin := by
  have hreads := h.reads hseg
  have hnext := hreads.step (x := .tickEnd) (by simp)
  intro keys hkeys
  -- every key of the set has a response after the tick, so it is listed
  have hthere (key : FString) (hkey : keys.contains key = true) :
      ∃ keys', ((s.run (rs.map .read)).step .tickEnd).plugin.contextToKeys.find c = some keys' ∧
        keys'.contains key = true ∧
        ((s.run (rs.map .read)).step .tickEnd).plugin.responses.contains key = true := by
    obtain ⟨i, hi, hk⟩ := h.printed_iff hkeys hkey
    rw [KeyMap.contains_congr hk] at hkey
    have hstored := hreads.stored_tickEnd (c := c) hi
    rw [hfin, if_neg Bool.false_ne_true, h.stored_reads hseg hi] at hstored
    have hresp : ((s.run (rs.map .read)).step .tickEnd).plugin.responses.contains (c.printKey i) = true := by
      refine (congrArg Option.isSome hstored).trans (foldl_track_isSome ?_)
      exact (h.listed_iff hi).mp ⟨keys, hkeys, hkey⟩
    obtain ⟨keys', hkeys', hmem⟩ := (hnext.listed_iff hi).mpr hresp
    exact ⟨keys', hkeys', by rwa [KeyMap.contains_congr hk], by rwa [KeyMap.contains_congr hk]⟩
  obtain ⟨key, hkey⟩ := List.exists_mem_of_ne_nil _ (h.formed.nonempty c keys hkeys)
  obtain ⟨keys', hkeys', -, -⟩ := hthere key (KeyMap.contains_iff.mpr ⟨key, hkey, Setoid.refl key⟩)
  refine ⟨keys', hkeys', fun key hkey => ?_⟩
  obtain ⟨keys₂, hkeys₂, hboth⟩ := hthere key hkey
  obtain rfl : keys' = keys₂ := Option.some.inj (hkeys'.symm.trans hkeys₂)
  exact hboth

end Reading

/-- **The index is consistent and nothing leaks**: at every moment between two responses and after every tick, whatever
the server sends for segments that are not negative. -/
theorem index_consistent (u : USpeechly) (languageCode : StdString) {rss : List (List SLUResponse)}
    {rs : List SLUResponse} (hlen : ∀ rs ∈ rss, rs.length ≤ 10) (hrs : rs.length ≤ 10)
    (hseg : ∀ r ∈ rss.flatten ++ rs, 0 ≤ r.segmentId) :
    ∃ v sent w more, (u.connect languageCode).ticks rss = .ok (v, sent) ∧ (v.deliver rs).tick = .ok (w, more, true) ∧
      Indexed w ∧
      (∀ read rest, rs = read ++ rest → Indexed (v.handleAll .new read).1) ∧
      ∀ c, ((∃ r ∈ rs, Finishes c r) → Gone c w) ∧
        ((¬∃ r ∈ rs, Finishes c r) → ∀ read rest, rs = read ++ rest → Kept c (v.handleAll .new read).1 w) := by
  have hu := listening_connect u languageCode
  have hstart := coherent_ticks u languageCode fun r hr => hseg r (List.mem_append_left _ hr)
  have hlocals : ((init (u.connect languageCode)).run (stepsOf rss)).locals = .new := locals_stepsOf
  refine ⟨_, _, _, _, ticks_eq_run hu hlen, tick_eq_run hu hrs, ?_⟩
  generalize (init (u.connect languageCode)).run (stepsOf rss) = s at hstart hlocals ⊢
  have hrs₀ : ∀ r ∈ rs, 0 ≤ r.segmentId := fun r hr => hseg r (List.mem_append_right _ hr)
  refine ⟨((hstart.reads hrs₀).step (by simp)).indexed, ?_, fun c => ⟨fun hfin => ?_, fun hfin => ?_⟩⟩
  · rintro read rest rfl
    rw [handleAll_eq_run hlocals]
    exact (hstart.reads fun r hr => hrs₀ r (List.mem_append_left _ hr)).indexed
  · exact (hstart.reads hrs₀).gone ((finished_tick hlocals).mpr hfin)
  · rintro read rest rfl
    have hnot : (s.run ((read ++ rest).map .read)).locals.finishedContexts.contains c = false := by
      rwa [← Bool.not_eq_true, finished_tick hlocals]
    rw [handleAll_eq_run hlocals]
    rw [List.map_append, run_append] at hnot ⊢
    exact (hstart.reads fun r hr => hrs₀ r (List.mem_append_left _ hr)).kept
      (fun r hr => hrs₀ r (List.mem_append_right _ hr)) hnot

/-- Two contexts in one tick, one of them finished. -/
theorem index_consistent_two :
    ∃ v sent w more, (USpeechly.new.connect []).ticks [[transcriptOf [97] 0 [120]]] = .ok (v, sent) ∧
      (v.deliver [transcriptOf [98] 0 [121], finishedOf [97]]).tick = .ok (w, more, true) ∧ Indexed w ∧
      Gone (FString.ofCStr [97]) w := by
  obtain ⟨v, sent, w, more, hticks, htick, hindexed, -, hgone⟩ := @index_consistent .new []
    [[transcriptOf [97] 0 [120]]] [transcriptOf [98] 0 [121], finishedOf [97]] (by decide) (by decide) (by decide)
  exact ⟨v, sent, w, more, hticks, htick, hindexed, (hgone _).1 (by decide)⟩

end SpeechlyPlugin.Plugin
