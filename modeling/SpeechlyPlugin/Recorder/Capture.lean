import SpeechlyPlugin.Recorder.Defs
import SpeechlyPlugin.Lib.Hop
import SpeechlyPlugin.Lib.Window

/-!
# What one capture does

`onAudioCapture_ok` is the equation of a capture whose output count is not negative: the windows at the rounded
offsets are handed on, and the buffer keeps its end from the remaining offset on.  Everything else about the recorder is
derived from it and from the two bounds on the carry-over, `carry_le` and `lt_carry`.
-/

namespace SpeechlyPlugin.Recorder

open Engine Lib

namespace SpeechRecorder

/-! ## The loops -/

/-- The start of the `i`-th window inside the buffer. -/
def windowOffset (sampleRatio : ℚ) (i : ℕ) : ℕ := (roundToInt (sampleRatio * i)).toNat

theorem roundToInt_nonneg {x : ℚ} (h : 0 ≤ x) : 0 ≤ roundToInt x := by
  rw [roundToInt_eq_round]
  exact intCast_le_round (by simpa using h)

theorem windowOffset_cast {sampleRatio : ℚ} (h : 0 ≤ sampleRatio) (i : ℕ) :
    (windowOffset sampleRatio i : ℤ) = roundToInt (sampleRatio * i) :=
  Int.toNat_of_nonneg (roundToInt_nonneg (by positivity))

/-- The loop over the taps adds up the window, one product a round. -/
theorem addTap_rounds {buffer filter : List ℚ} {p : ℕ} (hp : p + filter.length ≤ buffer.length) (out : List ℚ) :
    ∀ t : ℕ, t ≤ filter.length →
      (List.range t).foldlM (addTap buffer filter out.length p) (out ++ [0]) =
        .ok (out ++ [∑ j ∈ Finset.range t, buffer.getD (p + j) 0 * filter.getD j 0]) := by
  intro t
  induction t with
  | zero => intro _; simp [pure, Except.pure]
  | succ t ih =>
    intro ht
    have e : (p : ℤ) + (t : ℤ) = ((p + t : ℕ) : ℤ) := by push_cast; ring
    rw [foldlM_range_succ, ih (by omega), ok_bind, addTap, e, load_getD (by omega) 0, ok_bind,
      load_getD (by omega) 0, ok_bind, load_nat (by simp), ok_bind, store_nat (by simp), Finset.sum_range_succ]
    simp

theorem addSample_ok {buffer filter : List ℚ} {sampleRatio : ℚ} (h0 : 0 ≤ sampleRatio) (out : List ℚ)
    (hp : windowOffset sampleRatio out.length + filter.length ≤ buffer.length) :
    addSample buffer filter sampleRatio out out.length =
      .ok (out ++ [windowSum filter buffer (windowOffset sampleRatio out.length)]) := by
  unfold addSample
  rw [← windowOffset_cast h0]
  exact addTap_rounds hp out _ le_rfl

theorem convolve_rounds {buffer filter : List ℚ} {sampleRatio : ℚ} (h0 : 0 ≤ sampleRatio) :
    ∀ n : ℕ, (∀ i < n, windowOffset sampleRatio i + filter.length ≤ buffer.length) →
      (List.range n).foldlM (addSample buffer filter sampleRatio) [] =
        .ok (windows filter buffer ((List.range n).map (windowOffset sampleRatio))) := by
  intro n
  induction n with
  | zero => intro _; rfl
  | succ n ih =>
    intro h
    have hlen : (windows filter buffer ((List.range n).map (windowOffset sampleRatio))).length = n := by
      simp [windows]
    have hn := h n (by omega)
    rw [← hlen] at hn
    have hs := addSample_ok h0 _ hn
    rw [hlen] at hs
    rw [foldlM_range_succ, ih fun i hi => h i (by omega), ok_bind, hs, List.range_succ, List.map_append,
      windows_append]
    rfl

theorem carryOver_ok (buffer : List ℚ) {off : ℤ} (h : 0 ≤ off) :
    carryOver buffer off = .ok (buffer.drop off.toNat) := by
  obtain ⟨n, rfl⟩ := Int.eq_ofNat_of_zero_le h
  unfold carryOver
  split
  · rename_i hlt
    obtain ⟨b, hb, htake, hlen⟩ := moveDown_ok (show n ≤ buffer.length by omega)
    have e : (b.length : ℤ) - (n : ℤ) = ((buffer.length - n : ℕ) : ℤ) := by omega
    rw [hb, ok_bind, e, setNum_le (by omega), htake]
    rfl
  · rename_i hge
    rw [List.drop_of_length_le (by omega)]
    rfl

/-! ## The output count -/

section Count

variable (r : SpeechRecorder)

theorem outputLength_eq (num : ℕ) :
    r.outputLength num = ⌈(((num : ℤ) - r.filter.length : ℤ) : ℚ) / r.sampleRatio⌉ := by
  unfold outputLength ceilToInt
  push_cast
  rfl

theorem outputLength_nonneg_iff (h0 : 0 < r.sampleRatio) (num : ℕ) :
    0 ≤ r.outputLength num ↔ (r.filter.length : ℚ) - r.sampleRatio < num := by
  rw [outputLength_eq, ceil_div_nonneg h0]
  push_cast
  constructor <;> intro h <;> linarith

/-- A capture that fills the filter brings enough for a count that is not negative. -/
theorem enough_of_fills (h0 : 0 < r.sampleRatio) (held : ℕ) {n : ℕ} (hn : r.filter.length ≤ n) :
    (r.filter.length : ℚ) - r.sampleRatio < (held + n : ℕ) := by
  have hn' : (r.filter.length : ℚ) ≤ n := by exact_mod_cast hn
  have hheld : (0 : ℚ) ≤ held := Nat.cast_nonneg _
  push_cast
  linarith

theorem lt_outputLength_iff (h0 : 0 < r.sampleRatio) (num : ℕ) (i : ℤ) :
    i < r.outputLength num ↔ r.sampleRatio * i < num - r.filter.length := by
  rw [outputLength_eq, lt_ceil_div h0]
  push_cast
  rfl

/-- Every window the convolution loop reads ends inside the buffer. -/
theorem window_inside (h0 : 0 < r.sampleRatio) {num i : ℕ} (hi : (i : ℤ) < r.outputLength num) :
    windowOffset r.sampleRatio i + r.filter.length ≤ num := by
  have h := (r.lt_outputLength_iff h0 num i).mp hi
  have hround : roundToInt (r.sampleRatio * i) ≤ (num : ℤ) - r.filter.length := by
    rw [roundToInt_eq_round]
    exact round_le_intCast (by push_cast; push_cast at h; exact h.le)
  have := windowOffset_cast h0.le i
  omega

/-- `RemainingOffset`. -/
def remainingOffset (num : ℕ) : ℤ := roundToInt (r.sampleRatio * r.outputLength num)

theorem remainingOffset_nonneg (h0 : 0 ≤ r.sampleRatio) {num : ℕ} (h : 0 ≤ r.outputLength num) :
    0 ≤ r.remainingOffset num :=
  roundToInt_nonneg (mul_nonneg h0 (by exact_mod_cast h))

/-- At most `Filter.Num()` samples are carried over … -/
theorem carry_le (h0 : 0 < r.sampleRatio) (num : ℕ) : (num : ℤ) - r.filter.length ≤ r.remainingOffset num := by
  unfold remainingOffset
  rw [roundToInt_eq_round, outputLength_eq]
  exact round_hop_ge h0 _

/-- … and more than `Filter.Num() - SampleRatio - 1/2`. -/
theorem lt_carry (h0 : 0 < r.sampleRatio) (num : ℕ) :
    (r.remainingOffset num : ℚ) < num - r.filter.length + r.sampleRatio + 1 / 2 := by
  have h := round_hop_lt h0 ((num : ℤ) - r.filter.length : ℤ)
  unfold remainingOffset
  rw [roundToInt_eq_round, outputLength_eq]
  push_cast at h ⊢
  exact h

end Count

/-! ## The capture -/

/-- The offsets of the windows of one capture. -/
def offsets (r : SpeechRecorder) (num : ℕ) : List ℕ :=
  (List.range (r.outputLength num).toNat).map (windowOffset r.sampleRatio)

theorem mem_offsets {r : SpeechRecorder} {num p : ℕ} (h0 : 0 < r.sampleRatio) (h : p ∈ r.offsets num) :
    p + r.filter.length ≤ num := by
  obtain ⟨i, hi, rfl⟩ := List.mem_map.mp h
  exact r.window_inside h0 (by have := List.mem_range.mp hi; omega)

theorem onAudioCapture_idle {r : SpeechRecorder} (h : r.bIsCapturing = false) (c : Capture) :
    r.onAudioCapture c = .ok (r, none) := by
  unfold onAudioCapture
  rw [h]
  rfl

/-- **One capture**, when the output count is not negative. -/
theorem onAudioCapture_ok {r : SpeechRecorder} (hcap : r.bIsCapturing = true) (h0 : 0 < r.sampleRatio) (c : Capture)
    (hlen : 0 ≤ r.outputLength (r.buffer ++ c.firstChannel).length) :
    let buffer := r.buffer ++ c.firstChannel
    let output := windows r.filter buffer (r.offsets buffer.length)
    r.onAudioCapture c =
      .ok ({ r with buffer := buffer.drop (r.remainingOffset buffer.length).toNat, output := output },
        some ⟨output, r.outputLength buffer.length⟩) := by
  intro buffer output
  have hconv : convolve buffer r.filter r.sampleRatio (r.outputLength buffer.length) = .ok output :=
    convolve_rounds h0.le _ fun i hi => r.window_inside h0 (by omega)
  have hcarry := carryOver_ok buffer (r.remainingOffset_nonneg h0.le hlen)
  unfold onAudioCapture
  rw [hcap]
  simp only [Bool.not_true, Bool.false_eq_true, if_false]
  show (convolve buffer r.filter r.sampleRatio (r.outputLength buffer.length) >>= _) = _
  rw [hconv, ok_bind]
  show (carryOver buffer (r.remainingOffset buffer.length) >>= _) = _
  rw [hcarry, ok_bind]
  rfl

/-- A capture never touches the configuration of the recorder. -/
theorem onAudioCapture_frame {r r' : SpeechRecorder} {c : Capture} {out : Option SpeechAudio}
    (h : r.onAudioCapture c = .ok (r', out)) :
    r'.filter = r.filter ∧ r'.sampleRatio = r.sampleRatio ∧ r'.bIsCapturing = r.bIsCapturing ∧
      r'.sampleRate = r.sampleRate ∧ r'.isStreamOpen = r.isStreamOpen := by
  unfold onAudioCapture at h
  split at h
  · cases h
    exact ⟨rfl, rfl, rfl, rfl, rfl⟩
  · obtain ⟨output, -, h⟩ := bind_eq_ok h
    obtain ⟨buffer, -, h⟩ := bind_eq_ok h
    cases h
    exact ⟨rfl, rfl, rfl, rfl, rfl⟩

end SpeechRecorder

end SpeechlyPlugin.Recorder
