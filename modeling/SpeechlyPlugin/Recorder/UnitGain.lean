import SpeechlyPlugin.Recorder.CarryOver
import Mathlib.Algebra.BigOperators.Field

/-!
# Unit gain

The taps are the values of an even function, divided by their sum.  So the filter is symmetric and its taps sum to one,
whatever `sin` is as long as it is odd; and a constant signal passes the resampler unchanged, at every rate ratio the
filter can follow and however it is cut into captures.
-/

namespace SpeechlyPlugin.Recorder

open Engine Lib SpeechRecorder

/-! ## The filter -/

section Filter

variable {p : Platform} {r : SpeechRecorder}

theorem sinc_neg (hodd : ∀ x, p.sin (-x) = -p.sin x) (x : ℚ) : sinc p (-x) = sinc p x := by
  unfold sinc
  rw [mul_neg, hodd, neg_div_neg_eq]
  simp only [neg_eq_zero]

/-- The centre is tap 11. -/
theorem rawTap_symm (hodd : ∀ x, p.sin (-x) = -p.sin x) {i : ℕ} (hi : i ≤ 22) :
    rawTap p r 23 i = rawTap p r 23 (22 - i) := by
  unfold rawTap
  rw [← sinc_neg hodd]
  congr 1
  rw [Nat.cast_sub hi]
  ring

theorem filter_generateFilter : (generateFilter p r).filter =
    (List.range 23).map fun i => rawTap p r 23 i / ∑ j ∈ Finset.range 23, rawTap p r 23 j := by
  simp only [generateFilter, foldl_addRawTap, List.map_map]
  rfl

theorem getD_generateFilter {i : ℕ} (hi : i < 23) : (generateFilter p r).filter.getD i 0 =
    rawTap p r 23 i / ∑ j ∈ Finset.range 23, rawTap p r 23 j := by
  rw [filter_generateFilter, List.getD_eq_getElem _ _ (by simpa using hi), List.getElem_map, List.getElem_range]

theorem symm_generateFilter (hodd : ∀ x, p.sin (-x) = -p.sin x) {i : ℕ} (hi : i ≤ 22) :
    (generateFilter p r).filter.getD i 0 = (generateFilter p r).filter.getD (22 - i) 0 := by
  rw [getD_generateFilter (by omega), getD_generateFilter (by omega), rawTap_symm hodd hi]

theorem sum_generateFilter (hsum : ∑ i ∈ Finset.range 23, rawTap p r 23 i ≠ 0) : (generateFilter p r).filter.sum = 1 := by
  rw [filter_generateFilter]
  show ∑ i ∈ Finset.range 23, rawTap p r 23 i / ∑ j ∈ Finset.range 23, rawTap p r 23 j = 1
  rw [← Finset.sum_div, div_self hsum]

/-- A `Start` that opens the stream leaves this filter and the ratio of the two rates. -/
theorem start_closed {r' : SpeechRecorder} (hclosed : r.isStreamOpen = false) (hstart : r.start p = .ok r') :
    r'.filter = (generateFilter p r).filter ∧ r'.sampleRatio = (p.preferredSampleRate : ℚ) / r.sampleRate := by
  unfold start at hstart
  obtain ⟨r₁, h₁, hstart⟩ := bind_eq_ok (check_bind_eq_ok hstart).2
  cases (check_bind_eq_ok (check_bind_eq_ok hstart).2).2
  rw [hclosed, if_neg Bool.false_ne_true] at h₁
  unfold openCaptureStream at h₁
  rw [← Except.ok.inj (check_bind_eq_ok h₁).2]
  refine ⟨?_, by simp only [generateFilter]⟩
  show (generateFilter p { r with sampleRatio := (p.preferredSampleRate : ℚ) / r.sampleRate }).filter = _
  rw [filter_generateFilter, filter_generateFilter]
  rfl

end Filter

/-! ## A constant signal -/

/-- Nothing but the constant is in the buffer or has been handed on. -/
structure Level (level : ℚ) (t : Trace) : Prop where
  buffered : ∀ x ∈ t.recorder.buffer, x = level
  handed : ∀ x ∈ delivered t.calls, x = level

section Run

variable {level : ℚ} {t t' : Trace} {c : Capture}

/-- **One capture**: every window reads the constant only, at the seam of the captures too. -/
theorem Level.capture (h : Level level t) (hcap : t.recorder.bIsCapturing = true) (h0 : 0 < t.recorder.sampleRatio)
    (hgain : t.recorder.filter.sum = 1) (hc : ∀ x ∈ c.firstChannel, x = level) {num : ℕ} (ht : t.capture c = .ok t')
    (hcarries : CarriesOver t.recorder t'.recorder c num) : Level level t' ∧ t'.calls.length = t.calls.length + 1 := by
  have hnum := hcarries.num_eq
  have hall : ∀ x ∈ t.recorder.buffer ++ c.firstChannel, x = level := by
    intro x hx
    rcases List.mem_append.mp hx with hx | hx
    · exact h.buffered x hx
    · exact hc x hx
  have hstep := onAudioCapture_ok hcap h0 c (by rw [← hnum]; exact hcarries.count_nonneg)
  dsimp only at hstep
  obtain ⟨t₁, ht₁, -, hcalls⟩ := Trace.capture_eq hstep
  obtain rfl : t₁ = t' := Except.ok.inj (ht₁.symm.trans ht)
  refine ⟨⟨fun x hx => hall x ?_, fun x hx => ?_⟩, by rw [hcalls, List.length_append]; rfl⟩
  · rw [hcarries.buffer_eq] at hx
    exact List.mem_of_mem_drop hx
  · rw [hcalls, delivered, List.flatMap_append, List.flatMap_singleton, List.mem_append] at hx
    rcases hx with hx | hx
    · exact h.handed x hx
    · obtain ⟨p, hp, rfl⟩ := List.mem_map.mp (List.mem_of_mem_take hx)
      rw [windowSum_const hall (mem_offsets h0 hp), hgain, mul_one]

theorem Level.run {r : SpeechRecorder} (h0 : 0 < r.sampleRatio) (hR : r.sampleRatio ≤ r.filter.length - 1)
    (hgain : r.filter.sum = 1) (done : List Capture) {cs : List Capture} (hcs : ∀ d ∈ cs, 1 ≤ d.numFrames)
    (hsignal : ∀ d ∈ cs, ∀ x ∈ d.firstChannel, x = level) (hb : BetweenCaptures r t) (h : Level level t)
    (hlen : t.calls.length = done.length) :
    ∃ t', t.run cs = .ok t' ∧ Level level t' ∧ t'.calls.length = (done ++ cs).length := by
  have hstep : ∀ done t c, 1 ≤ c.numFrames ∧ (∀ x ∈ c.firstChannel, x = level) →
      BetweenCaptures r t ∧ Level level t ∧ t.calls.length = done.length → ∃ t', t.capture c = .ok t' ∧
        BetweenCaptures r t' ∧ Level level t' ∧ t'.calls.length = (done ++ [c]).length := by
    intro done t c hc h
    obtain ⟨hb, h, hlen⟩ := h
    obtain ⟨t', ht', hb', hcarries⟩ := hb.capture h0 hR hc.1
    obtain ⟨h', hlen'⟩ := h.capture hb.capturing (by rw [hb.ratio_eq]; exact h0) (by rw [hb.filter_eq]; exact hgain)
      hc.2 ht' hcarries
    exact ⟨t', ht', hb', h', by rw [hlen', hlen, List.length_append]; rfl⟩
  obtain ⟨t', hrun, -, h', hlen'⟩ := Trace.run_inv hstep (fun d hd => ⟨hcs d hd, hsignal d hd⟩) ⟨hb, h, hlen⟩
  exact ⟨t', hrun, h', hlen'⟩

/-- A filter whose taps sum to one passes a constant on, once the first capture fills it. -/
theorem constant_passes {r : SpeechRecorder} (hcap : r.bIsCapturing = true) (h0 : 0 < r.sampleRatio)
    (hR : r.sampleRatio ≤ r.filter.length - 1) (hgain : r.filter.sum = 1) (hbuf : ∀ x ∈ r.buffer, x = level)
    {cs : List Capture} (hc : r.filter.length ≤ c.numFrames) (hcs : ∀ d ∈ cs, 1 ≤ d.numFrames)
    (hsignal : ∀ x ∈ signal (c :: cs), x = level) :
    ∃ t, (Trace.begin r).run (c :: cs) = .ok t ∧ Level level t ∧ t.calls.length = (c :: cs).length := by
  obtain ⟨t₁, ht₁, hb₁, hcarries⟩ := betweenCaptures_first hcap h0 hR (r.enough_of_fills h0 r.buffer.length hc)
  have hbegin : Level level (Trace.begin r) := ⟨hbuf, by simp [Trace.begin, delivered]⟩
  have hchannel : ∀ d ∈ c :: cs, ∀ x ∈ d.firstChannel, x = level :=
    fun d hd x hx => hsignal x (List.mem_flatMap.mpr ⟨d, hd, hx⟩)
  obtain ⟨h₁, hlen₁⟩ := hbegin.capture (t := Trace.begin r) hcap h0 hgain (hchannel c (by simp)) ht₁ hcarries
  obtain ⟨t, hrun, h, hlen⟩ := Level.run h0 hR hgain [c] hcs (fun d hd => hchannel d (by simp [hd])) hb₁ h₁ hlen₁
  exact ⟨t, Trace.run_cons ht₁ hrun, h, hlen⟩

end Run

/-- **Unit gain.**  For every pair of positive rates the filter has 23 taps, is symmetric and sums to one; `Start` sets it
when it opens the stream, and a recorder with it hands a constant signal on as it is, however the signal is cut. -/
theorem unit_gain {p : Platform} {r₀ : SpeechRecorder} (hodd : ∀ x, p.sin (-x) = -p.sin x)
    (hrate : 0 < r₀.sampleRate) (hpreferred : 0 < p.preferredSampleRate)
    (hsum : ∑ i ∈ Finset.range 23, rawTap p r₀ 23 i ≠ 0) :
    let filter := (generateFilter p r₀).filter
    filter.length = 23 ∧ (∀ i ≤ 22, filter.getD i 0 = filter.getD (22 - i) 0) ∧ filter.sum = 1 ∧
      (∀ r, r₀.isStreamOpen = false → r₀.start p = .ok r → r.bIsCapturing = true ∧ r.filter = filter ∧
        r.sampleRatio = (p.preferredSampleRate : ℚ) / r₀.sampleRate ∧ 0 < r.sampleRatio ∧ r.buffer = r₀.buffer) ∧
      ∀ (r : SpeechRecorder) (level : ℚ) (c : Capture) (cs : List Capture), r.bIsCapturing = true → r.filter = filter →
        0 < r.sampleRatio → r.sampleRatio ≤ 22 → (∀ x ∈ r.buffer, x = level) → 23 ≤ c.numFrames →
        (∀ d ∈ cs, 1 ≤ d.numFrames) → (∀ x ∈ signal (c :: cs), x = level) →
        ∃ t, (Trace.begin r).run (c :: cs) = .ok t ∧ t.calls.length = (c :: cs).length ∧
          ∀ x ∈ delivered t.calls, x = level := by
  have hlength := length_generateFilter p r₀
  have hgain := sum_generateFilter hsum
  refine ⟨hlength, fun i hi => symm_generateFilter hodd hi, hgain, fun r hclosed hstart => ?_, ?_⟩
  · obtain ⟨hcap, hbuf⟩ := start_ok hstart
    obtain ⟨hfilter, hratio⟩ := start_closed hclosed hstart
    refine ⟨hcap, hfilter, hratio, ?_, hbuf⟩
    rw [hratio]
    exact div_pos (by exact_mod_cast hpreferred) (by exact_mod_cast hrate)
  · intro r level c cs hcap hfilter h0 hR hbuf hc hcs hsignal
    rw [← hfilter] at hlength hgain
    have hR' : r.sampleRatio ≤ r.filter.length - 1 := by
      rw [hlength]
      norm_num
      exact hR
    obtain ⟨t, hrun, h, hlen⟩ := constant_passes hcap h0 hR' hgain hbuf (by rw [hlength]; exact hc) hcs hsignal
    exact ⟨t, hrun, hlen, h.handed⟩

/-- A 48 kHz device on a platform whose `sin` is the identity. -/
def linearDevice : Platform := { device 48000 with sin := id }

/-- Half of the full scale, in captures of 30 frames and of one. -/
theorem unit_gain_linear : ∃ r t, (SpeechRecorder.new 1024 16000).start linearDevice = .ok r ∧
    (Trace.begin r).run [Capture.mono (List.replicate 30 (1 / 2)), Capture.mono [1 / 2]] = .ok t ∧ t.calls.length = 2 ∧
    ∀ x ∈ delivered t.calls, x = 1 / 2 := by
  have hsum : ∑ i ∈ Finset.range 23, rawTap linearDevice (SpeechRecorder.new 1024 16000) 23 i ≠ 0 := by decide +kernel
  obtain ⟨-, -, -, hstart, hrun⟩ := @unit_gain linearDevice (SpeechRecorder.new 1024 16000) (fun _ => rfl) (by decide)
    (by decide) hsum
  obtain ⟨r, hr⟩ : ∃ r, (SpeechRecorder.new 1024 16000).start linearDevice = .ok r := ⟨_, rfl⟩
  obtain ⟨hcap, hfilter, hratio, h0, hbuf⟩ := hstart r rfl hr
  have hR : r.sampleRatio ≤ 22 := by
    rw [hratio]
    norm_num [linearDevice, device, SpeechRecorder.new]
  obtain ⟨t, ht, hcalls, hlevel⟩ := hrun r (1 / 2) (Capture.mono (List.replicate 30 (1 / 2))) [Capture.mono [1 / 2]] hcap
    hfilter h0 hR (by rw [hbuf]; decide) (by decide) (by decide) (by decide +kernel)
  exact ⟨r, t, hr, ht, hcalls, hlevel⟩

end SpeechlyPlugin.Recorder
