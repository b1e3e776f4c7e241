import SpeechlyPlugin.Recorder.Stream

/-!
# Whole rate ratios: the stream is the one-shot filter

When `SampleRatio` is a whole number nothing is ever rounded: the windows begin at the multiples of the ratio, in
whatever pieces the signal arrives.  The carried-over length stays in `(F - R, F]`, which is what the next capture needs
for its output count not to be negative.
-/

namespace SpeechlyPlugin.Recorder

open Engine Lib SpeechRecorder

/-- **The one-shot filter.**  All windows of the signal at the multiples of `ratio`, as many as `OnAudioCapture` would
compute for a buffer holding the whole signal. -/
def oneShot (filter : List ℚ) (ratio : ℕ) (S : List ℚ) : List ℚ :=
  (List.range ⌈((S.length : ℚ) - filter.length) / ratio⌉.toNat).map fun k =>
    ∑ j ∈ Finset.range filter.length, S.getD (ratio * k + j) 0 * filter.getD j 0

theorem windowOffset_natCast (ratio i : ℕ) : windowOffset (ratio : ℚ) i = ratio * i := by
  unfold windowOffset
  rw [roundToInt_eq_round, show ((ratio : ℚ) * i) = ((ratio * i : ℕ) : ℚ) by push_cast; ring, round_natCast]
  exact Int.toNat_natCast _

section Whole

variable {filter : List ℚ} {ratio : ℕ} {S : List ℚ} {t : Trace}

theorem remainingOffset_natCast {r : SpeechRecorder} (h : r.sampleRatio = ratio) (num : ℕ) :
    r.remainingOffset num = ratio * r.outputLength num := by
  unfold remainingOffset
  rw [roundToInt_eq_round, h, show (ratio : ℚ) * (r.outputLength num : ℚ) = ((ratio * r.outputLength num : ℤ) : ℚ) by
    push_cast; ring, round_intCast]

/-- The remaining offset is less than a ratio past the last window that does not fit. -/
theorem remainingOffset_lt_natCast {r : SpeechRecorder} (h : r.sampleRatio = ratio) (h0 : 0 < ratio) (num : ℕ) :
    r.remainingOffset num < num - r.filter.length + ratio := by
  have hr0 : 0 < r.sampleRatio := by rw [h]; exact_mod_cast h0
  have hlt := (r.lt_outputLength_iff hr0 num (r.outputLength num - 1)).mp (by omega)
  rw [remainingOffset_natCast h]
  rw [h] at hlt
  have hlt' : (ratio : ℤ) * (r.outputLength num - 1) < num - r.filter.length := by exact_mod_cast hlt
  linarith

/-- What a run of captures at a whole ratio has done: the windows so far begin at the first multiples of the ratio, and
the next one is at the front of the buffer. -/
structure Whole (ratio : ℕ) (t : Trace) : Prop where
  starts_eq : t.starts = (List.range t.starts.length).map (ratio * ·)
  base_eq : t.base = ratio * t.starts.length

/-- **One capture at a whole ratio**, with enough samples for a count that is not negative. -/
theorem whole_capture (hF : Follows filter ratio S t) (hW : Whole ratio t) (h0 : 0 < ratio)
    (hR : ratio ≤ filter.length) (c : Capture)
    (hn : filter.length < t.recorder.buffer.length + c.numFrames + ratio) :
    ∃ t', t.capture c = .ok t' ∧ Follows filter ratio (S ++ c.firstChannel) t' ∧ Whole ratio t' ∧
      filter.length < t'.recorder.buffer.length + ratio ∧ t'.recorder.buffer.length ≤ filter.length := by
  set num := t.recorder.buffer.length + c.numFrames with hnum
  have hr0 : (0 : ℚ) < ratio := by exact_mod_cast h0
  have hr0' : 0 < t.recorder.sampleRatio := by rw [hF.ratio_eq]; exact hr0
  have hK : 0 ≤ t.recorder.outputLength num := by
    rw [outputLength_nonneg_iff _ hr0', hF.filter_eq, hF.ratio_eq]
    have : (filter.length : ℚ) < num + ratio := by exact_mod_cast hn
    linarith
  have hlow := t.recorder.carry_le hr0' num
  have hhigh := remainingOffset_lt_natCast hF.ratio_eq h0 num
  have hoff := remainingOffset_natCast hF.ratio_eq num
  rw [hF.filter_eq] at hlow hhigh
  obtain ⟨t', hcap, hF', hstarts, hbase, hbuf⟩ := hF.capture hr0 c hK (by rw [← hnum]; omega)
  rw [← hnum] at hstarts hbase hbuf
  obtain ⟨k, hk⟩ := Int.eq_ofNat_of_zero_le hK
  have hlen : t'.starts.length = t.starts.length + k := by
    simp [hstarts, SpeechRecorder.offsets, hk]
  have hoff' : t.recorder.remainingOffset num = ((ratio * k : ℕ) : ℤ) := by rw [hoff, hk]; push_cast; ring
  refine ⟨t', hcap, hF', ⟨?_, ?_⟩, by omega, by omega⟩
  · have hnew : (t.recorder.offsets num).map (t.base + ·) =
        ((List.range k).map (t.starts.length + ·)).map (ratio * ·) := by
      unfold SpeechRecorder.offsets
      rw [hk, hF.ratio_eq, List.map_map, List.map_map]
      refine List.map_congr_left fun i _ => ?_
      show t.base + windowOffset (ratio : ℚ) i = ratio * (t.starts.length + i)
      rw [windowOffset_natCast, hW.base_eq]
      ring
    rw [hlen, hstarts, hnew, List.range_add, List.map_append, ← hW.starts_eq]
  · rw [hlen, Nat.mul_add, ← hW.base_eq]
    omega

/-- A run of captures, once the buffer holds more than `F - R` samples. -/
theorem whole_run (h0 : 0 < ratio) (hR : ratio ≤ filter.length) {done : List Capture} (cs : List Capture)
    (hF : Follows filter ratio (signal done) t) (hW : Whole ratio t)
    (h1 : filter.length < t.recorder.buffer.length + ratio) (h2 : t.recorder.buffer.length ≤ filter.length) :
    ∃ t', t.run cs = .ok t' ∧ Follows filter ratio (signal (done ++ cs)) t' ∧ Whole ratio t' ∧
      filter.length < t'.recorder.buffer.length + ratio ∧ t'.recorder.buffer.length ≤ filter.length := by
  have hstep : ∀ done t c, True → Follows filter ratio (signal done) t ∧ Whole ratio t ∧
      filter.length < t.recorder.buffer.length + ratio ∧ t.recorder.buffer.length ≤ filter.length →
      ∃ t', t.capture c = .ok t' ∧ Follows filter ratio (signal (done ++ [c])) t' ∧ Whole ratio t' ∧
        filter.length < t'.recorder.buffer.length + ratio ∧ t'.recorder.buffer.length ≤ filter.length := by
    intro done t c _ h
    obtain ⟨hF, hW, h1, -⟩ := h
    rw [signal_concat]
    exact whole_capture hF hW h0 hR c (by omega)
  exact Trace.run_inv hstep (fun _ _ => trivial) ⟨hF, hW, h1, h2⟩

/-- The number of windows is the one-shot count: what is left over is too short for another one. -/
theorem whole_count (hF : Follows filter ratio S t) (hW : Whole ratio t) (h0 : 0 < ratio)
    (h1 : filter.length < t.recorder.buffer.length + ratio) (h2 : t.recorder.buffer.length ≤ filter.length) :
    ⌈((S.length : ℚ) - filter.length) / ratio⌉.toNat = t.starts.length := by
  have hr0 : (0 : ℚ) < ratio := by exact_mod_cast h0
  have hb := hW.base_eq
  have hle := hF.buffer_le
  have hS : S.length = ratio * t.starts.length + t.recorder.buffer.length := by
    unfold Trace.base at hb
    rw [hF.heard_eq] at hb
    omega
  have hceil : ⌈((S.length : ℚ) - filter.length) / ratio⌉ = t.starts.length := by
    rw [Int.ceil_eq_iff, lt_div_iff₀ hr0, div_le_iff₀ hr0, hS]
    push_cast
    have h1' : (filter.length : ℚ) < t.recorder.buffer.length + ratio := by exact_mod_cast h1
    have h2' : (t.recorder.buffer.length : ℚ) ≤ filter.length := by exact_mod_cast h2
    constructor <;> nlinarith
  rw [hceil, Int.toNat_natCast]

end Whole

/-- What a run after `Start` hands on, when its first capture fills the filter. -/
theorem run_eq_oneShot {r : SpeechRecorder} (hcap : r.bIsCapturing = true) (hbuf : r.buffer = []) {ratio : ℕ}
    (hratio : r.sampleRatio = ratio) (h1 : 1 ≤ ratio) (hF : ratio ≤ r.filter.length) {c : Capture}
    (hc : r.filter.length ≤ c.numFrames) (cs : List Capture) :
    ∃ t, (Trace.begin r).run (c :: cs) = .ok t ∧ delivered t.calls = oneShot r.filter ratio (signal (c :: cs)) := by
  have hbegin := follows_begin hcap hbuf
  rw [hratio] at hbegin
  have hlen0 : (Trace.begin r).recorder.buffer.length = 0 := by simp [Trace.begin, hbuf]
  have hW₀ : Whole ratio (Trace.begin r) := ⟨rfl, by simp [Trace.base, Trace.begin]⟩
  obtain ⟨t₁, hcap₁, hF₁, hW₁, h1₁, h2₁⟩ := whole_capture hbegin hW₀ h1 hF c (by omega)
  rw [List.nil_append, ← signal_singleton] at hF₁
  obtain ⟨t, hrun, hF', hW', h1', h2'⟩ := whole_run h1 hF cs hF₁ hW₁ h1₁ h2₁
  refine ⟨t, Trace.run_cons hcap₁ hrun, ?_⟩
  rw [hF'.delivered_eq, hW'.starts_eq, ← whole_count hF' hW' h1 h1' h2']
  unfold oneShot windows windowSum
  rw [List.map_map]
  rfl

/-- **Streaming is one-shot filtering** at a whole rate ratio: however the signal is cut into captures, the samples handed
to `OnSpeechAudio` are the windows of the whole signal at the multiples of the ratio. -/
theorem streaming_eq_oneShot {p : Platform} {r₀ r : SpeechRecorder} (hstart : r₀.start p = .ok r)
    (hbuf : r₀.buffer = []) {ratio : ℕ} (hratio : r.sampleRatio = ratio) (h1 : 1 ≤ ratio)
    (hF : ratio ≤ r.filter.length) :
    (∀ (c : Capture) (cs : List Capture), r.filter.length ≤ c.numFrames →
      ∃ t, (Trace.begin r).run (c :: cs) = .ok t ∧
        delivered t.calls = oneShot r.filter ratio (signal (c :: cs))) ∧
    ∀ (c c' : Capture) (cs cs' : List Capture), r.filter.length ≤ c.numFrames → r.filter.length ≤ c'.numFrames →
      signal (c :: cs) = signal (c' :: cs') →
      ∃ t t', (Trace.begin r).run (c :: cs) = .ok t ∧ (Trace.begin r).run (c' :: cs') = .ok t' ∧
        delivered t.calls = delivered t'.calls := by
  obtain ⟨hcap, hbuf'⟩ := start_ok hstart
  rw [hbuf] at hbuf'
  refine ⟨fun c cs hc => run_eq_oneShot hcap hbuf' hratio h1 hF hc cs, fun c c' cs cs' hc hc' hS => ?_⟩
  obtain ⟨t, ht, e⟩ := run_eq_oneShot hcap hbuf' hratio h1 hF hc cs
  obtain ⟨t', ht', e'⟩ := run_eq_oneShot hcap hbuf' hratio h1 hF hc' cs'
  exact ⟨t, t', ht, ht', by rw [e, e', hS]⟩

/-- A ramp on a 48 kHz device, whose ratio is `3`, in captures of 30, 0 and 7 frames. -/
theorem streaming_eq_oneShot_48000 :
    ∃ t, (Trace.begin (started 48000)).run
        [Capture.mono ((List.range 30).map (· / 30)), Capture.mono [], Capture.mono [1, 0, 1, 0, 1, 0, 1]] = .ok t ∧
      delivered t.calls = oneShot (started 48000).filter 3 (signal
        [Capture.mono ((List.range 30).map (· / 30)), Capture.mono [], Capture.mono [1, 0, 1, 0, 1, 0, 1]]) :=
  (@streaming_eq_oneShot _ _ _ (start_device 48000) rfl 3 (by rw [started_ratio]; norm_num) (by norm_num)
    (by rw [started_filter]; norm_num)).1 _ _ (by rw [started_filter]; decide)

end SpeechlyPlugin.Recorder
