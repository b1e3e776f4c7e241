import SpeechlyPlugin.Recorder.Drift

/-!
# Bounds of the buffer

A capture is *safe* when every index of its loops lies inside the array it is used on, and the length it passes to
`OnSpeechAudio` is that of the array it passes.  Nothing in `OnAudioCapture` looks at the sign of `OutputLength`, so a
capture is safe exactly when the buffer is long enough for it not to be negative.
-/

namespace SpeechlyPlugin.Recorder

open Engine Lib SpeechRecorder

/-! ## Histories -/

/-- What is done to a recorder. -/
inductive RecorderOp where
  | start (p : Platform)
  | stop
  | capture (c : Capture)

def RecorderOp.apply (r : SpeechRecorder) : RecorderOp → Except Fault SpeechRecorder
  | .start p => r.start p
  | .stop => .ok r.stop
  | .capture c => (r.onAudioCapture c).map Prod.fst

/-- `P` holds at every capture of a history; a history ends at a fault. -/
def AtCaptures (P : SpeechRecorder → Capture → Prop) : SpeechRecorder → List RecorderOp → Prop
  | _, [] => True
  | r, op :: ops =>
    (∀ c, op = .capture c → P r c) ∧ ∀ r', op.apply r = .ok r' → AtCaptures P r' ops

theorem AtCaptures.imp {P Q : SpeechRecorder → Capture → Prop} {R : SpeechRecorder → Capture → Prop}
    (h : ∀ r c, R r c → P r c → Q r c) :
    ∀ {ops : List RecorderOp} {r : SpeechRecorder}, AtCaptures R r ops → AtCaptures P r ops → AtCaptures Q r ops
  | [], _, _, _ => trivial
  | _ :: _, _, hR, hP =>
    ⟨fun c hc => h _ _ (hR.1 c hc) (hP.1 c hc), fun r' hr' => AtCaptures.imp h (hR.2 r' hr') (hP.2 r' hr')⟩

/-! ## Safe captures -/

/-- The capture stays inside its arrays, and the length it passes on is that of its output. -/
def SafeCapture (r : SpeechRecorder) (c : Capture) : Prop :=
  ∃ r' out, r.onAudioCapture c = .ok (r', out) ∧
    ∀ a, out = some a → 0 ≤ a.audioLength ∧ a.audioLength = a.audio.length

/-- The buffer is long enough for the capture, or nothing is captured. -/
def EnoughBuffered (r : SpeechRecorder) (c : Capture) : Prop :=
  r.bIsCapturing = true → (r.filter.length : ℚ) - r.sampleRatio < (r.buffer.length + c.numFrames : ℕ)

/-- A rate ratio the filter can follow. -/
def RatioInRange (r : SpeechRecorder) (_ : Capture) : Prop :=
  r.bIsCapturing = true → 0 < r.sampleRatio ∧ r.sampleRatio ≤ r.filter.length - 1

theorem onAudioCapture_length {r r' : SpeechRecorder} {c : Capture} {out : Option SpeechAudio}
    (hcap : r.bIsCapturing = true) (h : r.onAudioCapture c = .ok (r', out)) :
    ∃ a, out = some a ∧ a.audioLength = r.outputLength (r.buffer.length + c.numFrames) := by
  unfold onAudioCapture at h
  rw [hcap, if_neg (by simp)] at h
  obtain ⟨output, -, h⟩ := bind_eq_ok h
  obtain ⟨buffer, -, h⟩ := bind_eq_ok h
  cases h
  exact ⟨_, rfl, by simp⟩

theorem safeCapture_iff {r : SpeechRecorder} {c : Capture} (hratio : RatioInRange r c) :
    SafeCapture r c ↔ EnoughBuffered r c := by
  constructor
  · rintro ⟨r', out, hok, hout⟩ hcap
    obtain ⟨a, rfl, ha⟩ := onAudioCapture_length hcap hok
    have h0 := (hout a rfl).1
    rw [ha, outputLength_nonneg_iff _ (hratio hcap).1] at h0
    exact h0
  · intro h
    cases hcap : r.bIsCapturing with
    | false => exact ⟨r, none, onAudioCapture_idle hcap c, by simp⟩
    | true =>
      have hnum : (r.buffer ++ c.firstChannel).length = r.buffer.length + c.numFrames := by simp
      have hK : 0 ≤ r.outputLength (r.buffer ++ c.firstChannel).length := by
        rw [outputLength_nonneg_iff _ (hratio hcap).1, hnum]
        exact h hcap
      refine ⟨_, _, onAudioCapture_ok hcap (hratio hcap).1 c hK, ?_⟩
      intro a ha
      cases ha
      refine ⟨hK, ?_⟩
      simp [windows, SpeechRecorder.offsets] at hK ⊢
      omega

/-- **When the recorder stays inside its buffers.**  For every history of starts, stops and captures at ratios the filter
can follow, all captures are safe if and only if each finds more than `Filter.Num() - SampleRatio` samples in the
buffer, its own included. -/
theorem captures_safe_iff (r : SpeechRecorder) (ops : List RecorderOp) (hratio : AtCaptures RatioInRange r ops) :
    AtCaptures SafeCapture r ops ↔ AtCaptures EnoughBuffered r ops :=
  ⟨AtCaptures.imp (fun _ _ hr => (safeCapture_iff hr).mp) hratio,
    AtCaptures.imp (fun _ _ hr => (safeCapture_iff hr).mpr) hratio⟩

/-- The first capture after `Start`, with 30 frames of a 48 kHz device, leaves 21 samples: one frame more is enough for the
second. -/
theorem captures_safe_48000 :
    AtCaptures SafeCapture (started 48000) [.capture (Capture.silence 30), .capture (Capture.silence 1)] := by
  have hfirst : ((RecorderOp.apply (started 48000) (.capture (Capture.silence 30))).toOption.map fun r =>
      (r.buffer.length, r.sampleRatio, r.filter.length)) = some (21, 3, 23) := by decide +kernel
  have hsecond {r : SpeechRecorder} (hr : RecorderOp.apply (started 48000) (.capture (Capture.silence 30)) = .ok r) :
      r.buffer.length = 21 ∧ r.sampleRatio = 3 ∧ r.filter.length = 23 := by
    rw [hr] at hfirst
    simpa [Except.toOption] using hfirst
  have hratio : AtCaptures RatioInRange (started 48000) [.capture (Capture.silence 30), .capture (Capture.silence 1)] := by
    refine ⟨fun c _ _ => ?_, fun r hr => ⟨fun c _ _ => ?_, fun _ _ => trivial⟩⟩
    · rw [started_ratio, started_filter]
      norm_num
    · obtain ⟨-, hr3, hr23⟩ := hsecond hr
      rw [hr3, hr23]
      norm_num
  refine (captures_safe_iff _ _ hratio).mpr ⟨fun c hc _ => ?_, fun r hr => ⟨fun c hc _ => ?_, fun _ _ => trivial⟩⟩
  · cases hc
    rw [started_ratio, started_filter, Capture.numFrames_silence]
    have : (0 : ℚ) ≤ ((started 48000).buffer.length : ℕ) := Nat.cast_nonneg _
    push_cast
    linarith
  · cases hc
    obtain ⟨hlength, hr3, hr23⟩ := hsecond hr
    rw [hlength, hr3, hr23, Capture.numFrames_silence]
    norm_num

/-- The first capture after `Start`, with 10 frames of a 48 kHz device: `OutputLength` is `-4`, and the loop that moves the
rest of the buffer begins at index `-12`. -/
theorem capture_unsafe_48000 :
    (started 48000).outputLength 10 = -4 ∧ ¬ SafeCapture (started 48000) (Capture.silence 10) := by
  have hfault : ((started 48000).onAudioCapture (Capture.silence 10)).toOption.isNone = true := by decide +kernel
  refine ⟨by decide +kernel, ?_⟩
  rintro ⟨r', out, hok, -⟩
  rw [hok] at hfault
  cases hfault

end SpeechlyPlugin.Recorder
