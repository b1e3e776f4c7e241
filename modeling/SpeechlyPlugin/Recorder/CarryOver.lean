import SpeechlyPlugin.Recorder.Drift

/-!
# The carry-over

What a capture leaves in the buffer, at every rate ratio the filter can follow.  Between two captures the buffer is
shorter than the filter by less than the ratio and half a sample, and never longer than it: enough for the next capture to
have a non-negative count, and short enough never to grow.
-/

namespace SpeechlyPlugin.Recorder

open Engine Lib SpeechRecorder

/-- What the capture `c` carries over from `r` to `r'`.  `num` is the number of samples in the buffer with the new ones. -/
structure CarriesOver (r r' : SpeechRecorder) (c : Capture) (num : ℕ) : Prop where
  num_eq : num = (r.buffer ++ c.firstChannel).length
  count_nonneg : 0 ≤ r.outputLength num
  /-- `OutputLength` counts the grid points below `Buffer.Num() - Filter.Num()` -/
  count : {i : ℕ | r.sampleRatio * i < num - r.filter.length}.encard = (r.outputLength num).toNat
  /-- the convolution reads inside the buffer -/
  reads : ∀ i j : ℕ, (i : ℤ) < r.outputLength num → j < r.filter.length →
    0 ≤ roundToInt (r.sampleRatio * i) + j ∧ roundToInt (r.sampleRatio * i) + j < num
  offset_nonneg : 0 ≤ r.remainingOffset num
  offset_lt : r.remainingOffset num < num
  /-- the rest of the buffer is moved to its front as it is -/
  buffer_eq : r'.buffer = (r.buffer ++ c.firstChannel).drop (r.remainingOffset num).toNat
  lower : (r.filter.length : ℚ) - r.sampleRatio - 1 / 2 < r'.buffer.length
  upper : r'.buffer.length ≤ r.filter.length
  /-- the windows that are still to come begin in what is left -/
  kept : ∀ i : ℕ, r.outputLength num ≤ i → r.remainingOffset num ≤ roundToInt (r.sampleRatio * i)

theorem roundToInt_mono {x y : ℚ} (h : x ≤ y) : roundToInt x ≤ roundToInt y := Int.floor_le_floor (by linarith)

/-- **One capture** at a ratio the filter can follow, with more than `Filter.Num() - SampleRatio` samples. -/
theorem carriesOver_capture {r : SpeechRecorder} (hcap : r.bIsCapturing = true) (h0 : 0 < r.sampleRatio)
    (hR : r.sampleRatio ≤ r.filter.length - 1) (c : Capture)
    (hn : (r.filter.length : ℚ) - r.sampleRatio < (r.buffer.length + c.numFrames : ℕ)) :
    ∃ r' call, r.onAudioCapture c = .ok (r', some call) ∧ CarriesOver r r' c (r.buffer.length + c.numFrames) := by
  have hnum : r.buffer.length + c.numFrames = (r.buffer ++ c.firstChannel).length := by simp
  have hK := (outputLength_nonneg_iff r h0 _).mpr hn
  have hoff := r.remainingOffset_nonneg h0.le hK
  have hlow := r.carry_le h0 (r.buffer.length + c.numFrames)
  have hhigh := r.lt_carry h0 (r.buffer.length + c.numFrames)
  have hlt : r.remainingOffset (r.buffer.length + c.numFrames) < (r.buffer.length + c.numFrames : ℕ) := by
    have : (r.remainingOffset (r.buffer.length + c.numFrames) : ℚ) < ((r.buffer.length + c.numFrames : ℕ) : ℤ) := by
      push_cast at hhigh ⊢
      linarith
    exact_mod_cast this
  have hstep := onAudioCapture_ok hcap h0 c (by rw [← hnum]; exact hK)
  simp only [← hnum] at hstep
  refine ⟨_, _, hstep, ?_⟩
  -- the length of what is left, as an integer
  have hlen : (((r.buffer ++ c.firstChannel).drop (r.remainingOffset (r.buffer.length + c.numFrames)).toNat).length : ℤ) =
      (r.buffer.length + c.numFrames : ℕ) - r.remainingOffset (r.buffer.length + c.numFrames) := by
    rw [List.length_drop, ← hnum]
    omega
  constructor
  case num_eq => exact hnum
  case count_nonneg => exact hK
  case count =>
    rw [outputLength_eq, ← encard_grid h0]
    push_cast
    rfl
  case reads =>
    intro i j hi hj
    have hcast := windowOffset_cast h0.le i
    have hin := r.window_inside h0 hi
    omega
  case offset_nonneg => exact hoff
  case offset_lt => exact hlt
  case buffer_eq => rfl
  case lower =>
    have hlen' : (((r.buffer ++ c.firstChannel).drop
        (r.remainingOffset (r.buffer.length + c.numFrames)).toNat).length : ℚ) =
        (r.buffer.length + c.numFrames : ℕ) - r.remainingOffset (r.buffer.length + c.numFrames) := by
      exact_mod_cast hlen
    dsimp only
    rw [hlen']
    linarith
  case upper =>
    dsimp only
    omega
  case kept =>
    intro i hi
    have hi' : (r.outputLength (r.buffer.length + c.numFrames) : ℚ) ≤ i := by exact_mod_cast hi
    exact roundToInt_mono (mul_le_mul_of_nonneg_left hi' h0.le)

/-! ## Runs -/

section Run

variable {r : SpeechRecorder}

/-- What is known of the recorder between two captures of a run. -/
structure BetweenCaptures (r : SpeechRecorder) (t : Trace) : Prop where
  capturing : t.recorder.bIsCapturing = true
  filter_eq : t.recorder.filter = r.filter
  ratio_eq : t.recorder.sampleRatio = r.sampleRatio
  lower : (r.filter.length : ℚ) - r.sampleRatio - 1 / 2 < t.recorder.buffer.length

theorem Trace.capture_eq {t : Trace} {c : Capture} {r' : SpeechRecorder} {call : SpeechAudio}
    (h : t.recorder.onAudioCapture c = .ok (r', some call)) :
    ∃ t', t.capture c = .ok t' ∧ t'.recorder = r' ∧ t'.calls = t.calls ++ [call] := by
  unfold Trace.capture
  rw [h]
  exact ⟨_, rfl, rfl, rfl⟩

theorem BetweenCaptures.capture {t : Trace} (h : BetweenCaptures r t) (h0 : 0 < r.sampleRatio)
    (hR : r.sampleRatio ≤ r.filter.length - 1) {c : Capture} (hc : 1 ≤ c.numFrames) :
    ∃ t', t.capture c = .ok t' ∧ BetweenCaptures r t' ∧
      CarriesOver t.recorder t'.recorder c (t.recorder.buffer.length + c.numFrames) := by
  have hn : (t.recorder.filter.length : ℚ) - t.recorder.sampleRatio < (t.recorder.buffer.length + c.numFrames : ℕ) := by
    have hlow := h.lower
    have hc' : (1 : ℚ) ≤ c.numFrames := by exact_mod_cast hc
    rw [h.filter_eq, h.ratio_eq]
    push_cast
    linarith
  obtain ⟨r', call, hcap, hcarries⟩ := carriesOver_capture h.capturing (by rw [h.ratio_eq]; exact h0)
    (by rw [h.ratio_eq, h.filter_eq]; exact hR) c hn
  obtain ⟨hfilter, hratio, hcapturing, -, -⟩ := onAudioCapture_frame hcap
  obtain ⟨t', ht', rfl, -⟩ := Trace.capture_eq hcap
  refine ⟨t', ht', ⟨by rw [hcapturing, h.capturing], by rw [hfilter, h.filter_eq], by rw [hratio, h.ratio_eq], ?_⟩,
    hcarries⟩
  have hlow := hcarries.lower
  rwa [h.filter_eq, h.ratio_eq] at hlow

theorem BetweenCaptures.run {t : Trace} (h : BetweenCaptures r t) (h0 : 0 < r.sampleRatio)
    (hR : r.sampleRatio ≤ r.filter.length - 1) {cs : List Capture} (hcs : ∀ d ∈ cs, 1 ≤ d.numFrames) :
    ∃ t', t.run cs = .ok t' ∧ BetweenCaptures r t' := by
  have hstep : ∀ (done : List Capture) t c, 1 ≤ c.numFrames → BetweenCaptures r t →
      ∃ t', t.capture c = .ok t' ∧ BetweenCaptures r t' := by
    intro done t c hc h
    obtain ⟨t', hcap, h', -⟩ := h.capture h0 hR hc
    exact ⟨t', hcap, h'⟩
  exact @Trace.run_inv (fun _ t => BetweenCaptures r t) _ hstep cs [] t hcs h

/-- The first capture after `Start`, with enough samples. -/
theorem betweenCaptures_first (hcap : r.bIsCapturing = true) (h0 : 0 < r.sampleRatio)
    (hR : r.sampleRatio ≤ r.filter.length - 1) {c : Capture}
    (hn : (r.filter.length : ℚ) - r.sampleRatio < (r.buffer.length + c.numFrames : ℕ)) :
    ∃ t, (Trace.begin r).capture c = .ok t ∧ BetweenCaptures r t ∧
      CarriesOver r t.recorder c (r.buffer.length + c.numFrames) := by
  obtain ⟨r', call, hfirst, hcarries⟩ := carriesOver_capture hcap h0 hR c hn
  obtain ⟨hfilter, hratio, hcapturing, -, -⟩ := onAudioCapture_frame hfirst
  obtain ⟨t, ht, rfl, -⟩ := Trace.capture_eq (t := Trace.begin r) hfirst
  exact ⟨t, ht, ⟨by rw [hcapturing, hcap], hfilter, hratio, hcarries.lower⟩, hcarries⟩

/-- **The carry-over law.**  At every capture of every run after `Start` whose first capture fills the filter, and whose
later captures are not empty. -/
theorem carry_over_law {p : Platform} {r₀ r : SpeechRecorder} (hstart : r₀.start p = .ok r) (hbuf : r₀.buffer = [])
    (h0 : 0 < r.sampleRatio) (hR : r.sampleRatio ≤ r.filter.length - 1) {c : Capture} {cs : List Capture}
    (hc : r.filter.length ≤ c.numFrames) (hcs : ∀ d ∈ cs, 1 ≤ d.numFrames) {pre post : List Capture} {d : Capture}
    (hsplit : c :: cs = pre ++ d :: post) :
    ∃ t t', (Trace.begin r).run pre = .ok t ∧ t.capture d = .ok t' ∧ t.recorder.filter = r.filter ∧
      t.recorder.sampleRatio = r.sampleRatio ∧
      CarriesOver t.recorder t'.recorder d (t.recorder.buffer.length + d.numFrames) := by
  obtain ⟨hcap, hbuf'⟩ := start_ok hstart
  have hn : (r.filter.length : ℚ) - r.sampleRatio < (r.buffer.length + c.numFrames : ℕ) := by
    have hc' : (r.filter.length : ℚ) ≤ c.numFrames := by exact_mod_cast hc
    rw [hbuf', hbuf]
    push_cast
    linarith
  obtain ⟨t₁, ht₁, h₁, hcarries⟩ := betweenCaptures_first hcap h0 hR hn
  cases pre with
  | nil =>
    obtain ⟨rfl, -⟩ := List.cons.inj hsplit
    exact ⟨Trace.begin r, t₁, rfl, ht₁, rfl, rfl, hcarries⟩
  | cons c' pre =>
    obtain ⟨rfl, rfl⟩ := List.cons.inj hsplit
    have hpre : ∀ d ∈ pre, 1 ≤ d.numFrames := fun d hd => hcs d (by simp [hd])
    obtain ⟨t, hrun, h⟩ := h₁.run h0 hR hpre
    obtain ⟨t', ht', -, hcarries'⟩ := h.capture h0 hR (hcs d (by simp))
    exact ⟨t, t', Trace.run_cons ht₁ hrun, ht', h.filter_eq, h.ratio_eq, hcarries'⟩

/-- The second capture of a 44.1 kHz device. -/
theorem carry_over_44100 :
    ∃ t t', (Trace.begin (started 44100)).run [Capture.silence 24] = .ok t ∧ t.capture (Capture.silence 3) = .ok t' ∧
      t.recorder.filter = (started 44100).filter ∧ t.recorder.sampleRatio = (started 44100).sampleRatio ∧
      CarriesOver t.recorder t'.recorder (Capture.silence 3) (t.recorder.buffer.length + (Capture.silence 3).numFrames) := by
  have hc : (started 44100).filter.length ≤ (Capture.silence 24).numFrames := by
    rw [started_filter]
    decide
  have hcs : ∀ d ∈ [Capture.silence 3], 1 ≤ d.numFrames := by decide
  exact carry_over_law (start_device 44100) rfl (by rw [started_ratio]; norm_num)
    (by rw [started_ratio, started_filter]; norm_num) hc hcs rfl

end Run

end SpeechlyPlugin.Recorder
