import SpeechlyPlugin.Plugin.Speech
import SpeechlyPlugin.Recorder.Stream
import Mathlib.Tactic.Linarith
import Mathlib.Tactic.NormNum

/-!
# From captured samples to 16 bits

The filter bounds what it hands on, the bound keeps the conversion to `int32` in its range, and the conversion is monotone,
keeps the sign and is within one quantisation step.
-/

namespace SpeechlyPlugin.Plugin

open Engine Lib Recorder SpeechRecorder

/-! ## One sample -/

/-- The factor of the scaling, the reciprocal of the quantisation step. -/
def fullScale (y : ℚ) : ℚ := if y < 0 then 32768 else 32767

theorem fullScale_pos (y : ℚ) : 0 < fullScale y := by
  unfold fullScale
  split <;> norm_num

theorem fullScale_le (y : ℚ) : fullScale y ≤ 32768 := by
  unfold fullScale
  split <;> norm_num

theorem scale_eq (y : ℚ) : scale y = y * fullScale y := rfl

theorem truncate_mono {x y : ℚ} (h : x ≤ y) : truncate x ≤ truncate y := by
  unfold truncate
  rcases lt_or_ge x 0 with hx | hx
  · rw [if_pos hx]
    rcases lt_or_ge y 0 with hy | hy
    · rw [if_pos hy]
      exact Int.ceil_le_ceil h
    · have hx' : ⌈x⌉ ≤ 0 := Int.ceil_le.mpr (by simpa using hx.le)
      rw [if_neg hy.not_gt]
      exact hx'.trans (Int.floor_nonneg.mpr hy)
  · rw [if_neg hx.not_gt, if_neg (hx.trans h).not_gt]
    exact Int.floor_le_floor h

@[simp] theorem truncate_intCast (n : ℤ) : truncate n = n := by
  unfold truncate
  split
  · exact Int.ceil_intCast n
  · exact Int.floor_intCast n

theorem abs_sub_truncate_lt (x : ℚ) : |x - truncate x| < 1 := by
  unfold truncate
  rw [abs_lt]
  split
  · have h1 := Int.le_ceil x
    have h2 := Int.ceil_lt_add_one x
    constructor <;> linarith
  · have h1 := Int.floor_le x
    have h2 := Int.lt_floor_add_one x
    constructor <;> linarith

theorem scale_mono {x y : ℚ} (h : x ≤ y) : scale x ≤ scale y := by
  unfold scale
  split <;> split <;> linarith

theorem saturate_mono {m n : ℤ} (h : m ≤ n) : saturate m ≤ saturate n := by
  unfold saturate
  omega

/-- **The sample does not fall when the value rises.** -/
theorem toSample_mono {x y : ℚ} (h : x ≤ y) : toSample x ≤ toSample y := saturate_mono (truncate_mono (scale_mono h))

theorem toSample_zero : toSample 0 = 0 := by norm_num [toSample, truncate, scale, saturate]

/-- Values between `-1` and `1` are not saturated. -/
theorem toSample_of_abs_le {y : ℚ} (h : |y| ≤ 1) : toSample y = truncate (scale y) := by
  obtain ⟨h1, h2⟩ := abs_le.mp h
  have hlow : ((-32768 : ℤ) : ℚ) ≤ scale y := by
    unfold scale
    push_cast
    split <;> linarith
  have hhigh : scale y ≤ ((32767 : ℤ) : ℚ) := by
    unfold scale
    push_cast
    split <;> linarith
  have hlow' := truncate_mono hlow
  have hhigh' := truncate_mono hhigh
  rw [truncate_intCast] at hlow' hhigh'
  unfold toSample saturate
  omega

/-- The sample is within one quantisation step. -/
theorem abs_sub_toSample_lt {y : ℚ} (h : |y| ≤ 1) : |y - toSample y / fullScale y| < 1 / fullScale y := by
  have hpos := fullScale_pos y
  have heq : y - toSample y / fullScale y = (scale y - truncate (scale y)) / fullScale y := by
    rw [toSample_of_abs_le h, sub_div]
    congr 1
    rw [scale_eq, mul_div_cancel_right₀ _ hpos.ne']
  rw [heq, abs_div, abs_of_pos hpos]
  exact div_lt_div_of_pos_right (abs_sub_truncate_lt _) hpos

/-- Below `65535` in absolute value, the cast before the clamp is safe. -/
theorem castInt32_scale {y : ℚ} (h : |y| ≤ 65535) : castInt32 (scale y) = .ok (truncate (scale y)) := by
  have hbound : |scale y| ≤ 2147450880 := by
    rw [scale_eq, abs_mul, abs_of_pos (fullScale_pos y)]
    have := mul_le_mul h (fullScale_le y) (fullScale_pos y).le (by norm_num)
    linarith
  obtain ⟨h1, h2⟩ := abs_le.mp hbound
  have hlow := truncate_mono (show ((-2147450880 : ℤ) : ℚ) ≤ scale y by push_cast; linarith)
  have hhigh := truncate_mono (show scale y ≤ ((2147450880 : ℤ) : ℚ) by push_cast; linarith)
  rw [truncate_intCast] at hlow hhigh
  unfold castInt32
  rw [if_pos ⟨by omega, by omega⟩]

/-! ## The conversion loop -/

theorem setShort_ok {bytes : List UInt8} {i : ℕ} (h : 2 * i + 2 ≤ bytes.length) (sample : ℤ) :
    ∃ bytes', setShort bytes i sample = .ok bytes' ∧ bytes'.length = bytes.length := by
  unfold setShort
  dsimp only
  rw [store_nat (by omega), ok_bind, store_nat (by rw [List.length_set]; omega)]
  exact ⟨_, rfl, by simp⟩

/-- The loop goes through when every sample can be cast and the array is long enough. -/
theorem convert_ok {audio : List ℚ} {bytes : List UInt8} (hbytes : 2 * audio.length ≤ bytes.length)
    (hcast : ∀ y ∈ audio, castInt32 (scale y) = .ok (truncate (scale y))) :
    ∀ {n : ℕ}, n ≤ audio.length →
      ∃ acc, (List.range n).foldlM (convertSample audio) (bytes, false) = .ok acc ∧ acc.1.length = bytes.length := by
  intro n
  induction n with
  | zero => exact fun _ => ⟨_, rfl, rfl⟩
  | succ n ih =>
    intro hn
    obtain ⟨acc, hacc, hlen⟩ := ih (by omega)
    have hsample := hcast audio[n] (List.getElem_mem _)
    have hlong : 2 * n + 2 ≤ acc.1.length := by omega
    obtain ⟨bytes', hset, hlen'⟩ := setShort_ok hlong (saturate (truncate (scale audio[n])))
    rw [foldlM_range_succ, hacc, ok_bind, convertSample, load_nat (by omega), ok_bind, hsample, ok_bind, hset, ok_bind]
    exact ⟨_, rfl, by rw [hlen', hlen]⟩

theorem readShorts_getElem {bytes rest : List UInt8} {audio : List ℚ} (h : bytes = encode audio ++ rest) {i : ℕ} {y : ℚ}
    (hy : audio[i]? = some y) :
    ∃ low high, bytes[2 * i]? = some low ∧ bytes[2 * i + 1]? = some high ∧ readShorts [low, high] = [toSample y] := by
  obtain ⟨hi, rfl⟩ := List.getElem?_eq_some_iff.mp hy
  have hsplit : bytes = encode (audio.take i) ++ (shortBytes (toSample audio[i]) ++ (encode (audio.drop (i + 1)) ++ rest)) := by
    have haudio : audio = audio.take i ++ audio[i] :: audio.drop (i + 1) := by simp
    have hencode : encode (audio[i] :: audio.drop (i + 1)) =
        shortBytes (toSample audio[i]) ++ encode (audio.drop (i + 1)) := rfl
    conv_lhs => rw [h, haudio]
    rw [encode_append, hencode, List.append_assoc, List.append_assoc]
  have hlen : (encode (audio.take i)).length = 2 * i := by
    rw [length_encode, List.length_take, Nat.min_eq_left hi.le]
  have hread := readShorts_shortBytes (saturate_bounds (truncate (scale audio[i]))) []
  refine ⟨_, _, ?_, ?_, hread⟩
  · rw [hsplit, List.getElem?_append_right (by omega), hlen, Nat.sub_self]
    rfl
  · rw [hsplit, List.getElem?_append_right (by omega), hlen, Nat.add_sub_cancel_left]
    rfl

/-- `CharAudio` is long enough for the loop. -/
theorem USpeechly.grow_ok (u : USpeechly) (n : ℤ) :
    ∃ charAudio, (if u.charAudio.length < n * 2 then setNum u.charAudio (n * 2) else .ok u.charAudio) = .ok charAudio ∧
      2 * n.toNat ≤ charAudio.length := by
  split
  · refine ⟨_, by rw [setNum, if_pos (by omega)], ?_⟩
    rw [List.length_append, List.length_take, List.length_replicate]
    omega
  · exact ⟨_, rfl, by omega⟩

/-- `OnSpeechAudio` converts what it can cast. -/
theorem USpeechly.convertAudio_ok (u : USpeechly) {call : SpeechAudio} (hlen : call.audioLength = call.audio.length)
    (hcast : ∀ y ∈ call.audio, castInt32 (scale y) = .ok (truncate (scale y))) :
    ∃ u' rest, u.convertAudio call = .ok u' ∧ u'.charAudio = encode call.audio ++ rest := by
  obtain ⟨charAudio, hgrow, hlong⟩ := u.grow_ok call.audioLength
  have hnum : call.audioLength.toNat = call.audio.length := by omega
  rw [hnum] at hlong
  obtain ⟨acc, hacc, -⟩ := convert_ok hlong hcast (n := call.audio.length) le_rfl
  obtain ⟨-, hbytes⟩ := convert_rounds hacc
  rw [List.take_length] at hbytes
  refine ⟨{ u with charAudio := acc.1, silenceCount := u.countSilence acc.2 call.audioLength }, _, ?_, hbytes⟩
  unfold convertAudio
  dsimp only
  rw [hgrow, ok_bind, hnum, hacc, ok_bind]
  rfl

/-! ## A run of captures -/

section Run

variable {r : SpeechRecorder}

/-- The sum of the taps' absolute values. -/
def tapSum (filter : List ℚ) : ℚ := ∑ j ∈ Finset.range filter.length, |filter.getD j 0|

/-- What is known between two captures of samples between `-1` and `1`. -/
structure Levelled (r : SpeechRecorder) (t : Trace) : Prop where
  capturing : t.recorder.bIsCapturing = true
  filter_eq : t.recorder.filter = r.filter
  ratio_eq : t.recorder.sampleRatio = r.sampleRatio
  buffer : ∀ x ∈ t.recorder.buffer, |x| ≤ 1
  calls : ∀ call ∈ t.calls, call.audioLength = call.audio.length ∧ ∀ y ∈ call.audio, |y| ≤ tapSum r.filter

theorem Levelled.capture {t : Trace} (h : Levelled r t) (h0 : 0 < r.sampleRatio) {c : Capture}
    (hc : ∀ x ∈ c.inAudio, |x| ≤ 1) (hlen : 0 ≤ t.recorder.outputLength (t.recorder.buffer.length + c.numFrames)) :
    ∃ t', t.capture c = .ok t' ∧ Levelled r t' := by
  have hnum : (t.recorder.buffer ++ c.firstChannel).length = t.recorder.buffer.length + c.numFrames := by simp
  have hstep := onAudioCapture_ok h.capturing (by rw [h.ratio_eq]; exact h0) c (by rw [hnum]; exact hlen)
  have hbuf : ∀ x ∈ t.recorder.buffer ++ c.firstChannel, |x| ≤ 1 := by
    intro x hx
    rcases List.mem_append.mp hx with hx | hx
    · exact h.buffer x hx
    · obtain ⟨i, rfl⟩ := List.mem_ofFn.mp hx
      exact hc _ (List.get_mem _ _)
  simp only at hstep
  refine ⟨_, by unfold Trace.capture; rw [hstep]; rfl, ?_⟩
  refine ⟨h.capturing, h.filter_eq, h.ratio_eq, fun x hx => hbuf x (List.mem_of_mem_drop hx), fun call hcall => ?_⟩
  rcases List.mem_append.mp hcall with hcall | hcall
  · exact h.calls call hcall
  · rw [List.mem_singleton.mp hcall]
    refine ⟨?_, fun y hy => ?_⟩
    · rw [hnum]
      simp only [windows, SpeechRecorder.offsets, List.length_map, List.length_range]
      omega
    · obtain ⟨p, -, rfl⟩ := List.mem_map.mp hy
      rw [h.filter_eq]
      exact abs_windowSum_le r.filter hbuf p

/-- No capture of the run has a negative output length. -/
def NoNegativeLength (t : Trace) : List Capture → Prop
  | [] => True
  | c :: cs =>
    0 ≤ t.recorder.outputLength (t.recorder.buffer.length + c.numFrames) ∧
      ∀ t', t.capture c = .ok t' → NoNegativeLength t' cs

theorem Levelled.run (h0 : 0 < r.sampleRatio) {cs : List Capture} :
    ∀ {t : Trace}, Levelled r t → (∀ c ∈ cs, ∀ x ∈ c.inAudio, |x| ≤ 1) → NoNegativeLength t cs →
      ∃ t', t.run cs = .ok t' ∧ Levelled r t' := by
  induction cs with
  | nil => exact fun h _ _ => ⟨_, rfl, h⟩
  | cons c cs ih =>
    intro t h hcs hlen
    obtain ⟨t₁, hcap, h₁⟩ := h.capture h0 (hcs c (by simp)) hlen.1
    obtain ⟨t', hrun, h'⟩ := ih h₁ (fun d hd => hcs d (by simp [hd])) (hlen.2 t₁ hcap)
    exact ⟨t', Trace.run_cons hcap hrun, h'⟩

/-- **From the microphone to 16 bits.**  Whatever is captured, every value handed to `OnSpeechAudio` is within the sum of the
taps, can be cast, and is stored as the scaled value truncated toward zero and saturated, the low byte first; that sample
is monotone in the value, has its sign, and is within one quantisation step of it. -/
theorem sample_accuracy {p : Platform} {r₀ : SpeechRecorder} (hstart : r₀.start p = .ok r)
    (hbuf : ∀ x ∈ r₀.buffer, |x| ≤ 1) (h0 : 0 < r.sampleRatio) (hfilter : tapSum r.filter ≤ 65535) {cs : List Capture}
    (hcs : ∀ c ∈ cs, ∀ x ∈ c.inAudio, |x| ≤ 1) (hlen : NoNegativeLength (Trace.begin r) cs) :
    (∃ t, (Trace.begin r).run cs = .ok t ∧ ∀ call ∈ t.calls, ∀ u : USpeechly, ∃ u', u.convertAudio call = .ok u' ∧
      ∀ (i : ℕ) (y : ℚ), call.audio[i]? = some y →
        |y| ≤ tapSum r.filter ∧ castInt32 (scale y) = .ok (truncate (scale y)) ∧
          ∃ low high, u'.charAudio[2 * i]? = some low ∧ u'.charAudio[2 * i + 1]? = some high ∧
            readShorts [low, high] = [saturate (truncate (scale y))]) ∧
      (∀ x y, x ≤ y → toSample x ≤ toSample y) ∧ (∀ y, 0 ≤ y → 0 ≤ toSample y) ∧ (∀ y, y ≤ 0 → toSample y ≤ 0) ∧
      ∀ y, |y| ≤ 1 → |y - toSample y / fullScale y| < 1 / fullScale y := by
  obtain ⟨hcap, hbuf'⟩ := start_ok hstart
  have hbegin : Levelled r (Trace.begin r) := ⟨hcap, rfl, rfl, by simpa [Trace.begin, hbuf'] using hbuf, by simp [Trace.begin]⟩
  obtain ⟨t, hrun, ht⟩ := hbegin.run h0 hcs hlen
  refine ⟨⟨t, hrun, fun call hcall u => ?_⟩, fun x y h => toSample_mono h, fun y h => ?_, fun y h => ?_,
    fun y h => abs_sub_toSample_lt h⟩
  · obtain ⟨hnum, hbound⟩ := ht.calls call hcall
    have hcast : ∀ y ∈ call.audio, castInt32 (scale y) = .ok (truncate (scale y)) :=
      fun y hy => castInt32_scale ((hbound y hy).trans hfilter)
    obtain ⟨u', rest, hok, hbytes⟩ := u.convertAudio_ok hnum hcast
    refine ⟨u', hok, fun i y hy => ?_⟩
    have hmem := List.mem_of_getElem? hy
    exact ⟨hbound y hmem, hcast y hmem, readShorts_getElem hbytes hy⟩
  · rw [← toSample_zero]
    exact toSample_mono h
  · rw [← toSample_zero]
    exact toSample_mono h

/-- A full-scale tone on a 16 kHz device. -/
theorem sample_accuracy_tone :
    ∃ t, (Trace.begin (started 16000)).run [Capture.mono (List.replicate 24 (-1))] = .ok t ∧
      ∀ call ∈ t.calls, ∀ u : USpeechly, ∃ u', u.convertAudio call = .ok u' ∧
        ∀ (i : ℕ) (y : ℚ), call.audio[i]? = some y →
          |y| ≤ tapSum (started 16000).filter ∧ castInt32 (scale y) = .ok (truncate (scale y)) ∧
            ∃ low high, u'.charAudio[2 * i]? = some low ∧ u'.charAudio[2 * i + 1]? = some high ∧
              readShorts [low, high] = [saturate (truncate (scale y))] := by
  have hlen : NoNegativeLength (Trace.begin (started 16000)) [Capture.mono (List.replicate 24 (-1))] :=
    ⟨by decide +kernel, fun _ _ => trivial⟩
  exact (sample_accuracy (start_device 16000) (by decide) (by rw [started_ratio]; norm_num) (by decide +kernel)
    (by decide +kernel) hlen).1

end Run

end SpeechlyPlugin.Plugin
