import SpeechlyPlugin.Recorder.Capture

/-!
# Runs of captures

A `Trace` is a recorder together with what it has done since `Start`: the calls of `OnSpeechAudio`, how many samples of
the first channel it has heard, and where in that signal the window of each output sample began.  `Follows S t` ties the
trace to the signal `S`: the buffer is the end of `S`, and the samples handed on are the windows of `S` at the recorded
starts.
-/

namespace SpeechlyPlugin.Recorder

open Engine Lib

/-- A recorder and its history since `Start`. -/
structure Trace where
  recorder : SpeechRecorder
  calls : List SpeechAudio
  heard : ℕ
  starts : List ℕ

namespace Trace

def begin (r : SpeechRecorder) : Trace := ⟨r, [], 0, []⟩

/-- One capture.  The first cell of the buffer the windows are read from holds the sample number
`heard + numFrames - Buffer.Num()` of the signal. -/
def capture (t : Trace) (c : Capture) : Except Fault Trace := do
  let (r, out) ← t.recorder.onAudioCapture c
  match out with
  | none => return { t with recorder := r }
  | some call =>
    let num := (t.recorder.buffer ++ c.firstChannel).length
    let heard := t.heard + c.numFrames
    return { recorder := r, calls := t.calls ++ [call], heard := heard,
             starts := t.starts ++ (t.recorder.offsets num).map (heard - num + ·) }

def run (t : Trace) (cs : List Capture) : Except Fault Trace := cs.foldlM capture t

theorem run_cons {t t₁ t' : Trace} {c : Capture} {cs : List Capture} (hcap : t.capture c = .ok t₁)
    (hrun : t₁.run cs = .ok t') : t.run (c :: cs) = .ok t' := by
  unfold run
  rw [List.foldlM_cons, hcap]
  exact hrun

/-- **The rule for runs**: what every capture under `P` keeps, the captures so far in view. -/
theorem run_inv {I : List Capture → Trace → Prop} {P : Capture → Prop}
    (hstep : ∀ done t c, P c → I done t → ∃ t', t.capture c = .ok t' ∧ I (done ++ [c]) t') :
    ∀ {cs done : List Capture} {t : Trace}, (∀ c ∈ cs, P c) → I done t → ∃ t', t.run cs = .ok t' ∧ I (done ++ cs) t' := by
  intro cs
  induction cs with
  | nil =>
    intro done t _ h
    exact ⟨t, rfl, by rwa [List.append_nil]⟩
  | cons c cs ih =>
    intro done t hcs h
    obtain ⟨t₁, hcap, h₁⟩ := hstep done t c (hcs c (by simp)) h
    obtain ⟨t', hrun, h'⟩ := ih (fun d hd => hcs d (by simp [hd])) h₁
    refine ⟨t', run_cons hcap hrun, ?_⟩
    rwa [List.append_assoc] at h'

end Trace

/-- The samples a list of calls hands on. -/
def delivered (calls : List SpeechAudio) : List ℚ := calls.flatMap SpeechAudio.samples

/-- The signal of a list of captures: their first channels, one after the other. -/
def signal (cs : List Capture) : List ℚ := cs.flatMap Capture.firstChannel

theorem signal_concat (cs : List Capture) (c : Capture) : signal (cs ++ [c]) = signal cs ++ c.firstChannel := by
  simp [signal]

theorem signal_singleton (c : Capture) : signal [c] = c.firstChannel := List.append_nil _

theorem openCaptureStream_ok {p : Platform} {r r' : SpeechRecorder}
    (h : SpeechRecorder.openCaptureStream p r = .ok r') : r'.buffer = r.buffer := by
  unfold SpeechRecorder.openCaptureStream at h
  rw [← Except.ok.inj (check_bind_eq_ok h).2]
  simp only [SpeechRecorder.generateFilter]

theorem start_ok {p : Platform} {r₀ r : SpeechRecorder} (h : r₀.start p = .ok r) :
    r.bIsCapturing = true ∧ r.buffer = r₀.buffer := by
  unfold SpeechRecorder.start at h
  obtain ⟨r₁, h₁, h⟩ := bind_eq_ok (check_bind_eq_ok h).2
  have h₂ := (check_bind_eq_ok (check_bind_eq_ok h).2).2
  cases h₂
  refine ⟨rfl, ?_⟩
  split at h₁
  · cases h₁
    rfl
  · exact @openCaptureStream_ok _ _ r₁ h₁

/-! ## A device to try the recorder on -/

/-- A platform that grants everything, with a capture device of the given rate. -/
def device (preferredSampleRate : ℤ) : Platform where
  pi := 3
  sin := fun _ => 0
  hasAudioPermission := true
  preferredSampleRate := preferredSampleRate
  opensCaptureStream := true
  isCapturing := true

/-- The plugin's recorder, `Recorder{1024, 16000}`, after its first `Start` on such a device. -/
def started (preferredSampleRate : ℤ) : SpeechRecorder :=
  { SpeechRecorder.generateFilter (device preferredSampleRate)
      { SpeechRecorder.new 1024 16000 with sampleRatio := preferredSampleRate / (16000 : ℤ) } with
    isStreamOpen := true
    bIsCapturing := true }

theorem start_device (preferredSampleRate : ℤ) :
    (SpeechRecorder.new 1024 16000).start (device preferredSampleRate) = .ok (started preferredSampleRate) := rfl

/-- A capture of the given samples on one channel. -/
def Capture.mono (samples : List ℚ) : Capture where
  inAudio := samples
  numFrames := samples.length
  numChannels := 1
  channels_pos := le_rfl
  length_eq := by simp

theorem foldl_addRawTap (p : Platform) (r : SpeechRecorder) (filterLength n : ℕ) :
    (List.range n).foldl (SpeechRecorder.addRawTap p r filterLength) ([], 0) =
      ((List.range n).map (SpeechRecorder.rawTap p r filterLength),
        ∑ i ∈ Finset.range n, SpeechRecorder.rawTap p r filterLength i) := by
  induction n with
  | zero => rfl
  | succ n ih =>
    rw [List.range_succ, List.foldl_append, ih, List.map_append, Finset.sum_range_succ]
    rfl

theorem length_generateFilter (p : Platform) (r : SpeechRecorder) :
    (SpeechRecorder.generateFilter p r).filter.length = 23 := by
  simp only [SpeechRecorder.generateFilter, foldl_addRawTap, List.length_map, List.length_range]

theorem started_filter (preferredSampleRate : ℤ) : (started preferredSampleRate).filter.length = 23 := by
  simp only [started, length_generateFilter]

theorem started_ratio (preferredSampleRate : ℤ) :
    (started preferredSampleRate).sampleRatio = preferredSampleRate / 16000 := by
  simp [started, SpeechRecorder.generateFilter]

/-! ## The trace follows the signal -/

/-- The trace of a capturing recorder that has heard the signal `S`. -/
structure Follows (filter : List ℚ) (ratio : ℚ) (S : List ℚ) (t : Trace) : Prop where
  capturing : t.recorder.bIsCapturing = true
  filter_eq : t.recorder.filter = filter
  ratio_eq : t.recorder.sampleRatio = ratio
  heard_eq : t.heard = S.length
  buffer_le : t.recorder.buffer.length ≤ S.length
  buffer_eq : t.recorder.buffer = S.drop (S.length - t.recorder.buffer.length)
  inside : ∀ p ∈ t.starts, p + filter.length ≤ S.length
  delivered_eq : delivered t.calls = windows filter S t.starts

/-- How much of the signal has left the buffer. -/
def Trace.base (t : Trace) : ℕ := t.heard - t.recorder.buffer.length

section Step

variable {filter : List ℚ} {ratio : ℚ} {S : List ℚ} {t : Trace}

theorem follows_begin {r : SpeechRecorder} (hcap : r.bIsCapturing = true) (hbuf : r.buffer = []) :
    Follows r.filter r.sampleRatio [] (Trace.begin r) where
  capturing := hcap
  filter_eq := rfl
  ratio_eq := rfl
  heard_eq := rfl
  buffer_le := by simp [Trace.begin, hbuf]
  buffer_eq := by simp [Trace.begin, hbuf]
  inside := by simp [Trace.begin]
  delivered_eq := rfl

/-- The buffer a capture filters is the end of the longer signal. -/
theorem Follows.buffer_append (h : Follows filter ratio S t) (c : Capture) :
    t.recorder.buffer ++ c.firstChannel = (S ++ c.firstChannel).drop t.base := by
  have hb := h.buffer_le
  have hh := h.heard_eq
  rw [List.drop_append_of_le_length (by unfold Trace.base; omega)]
  congr 1
  unfold Trace.base
  rw [hh]
  exact h.buffer_eq

/-- **One step of a run.**  A capture whose output count is not negative and whose carry-over stays inside the buffer
extends the signal; the base of the buffer moves by the remaining offset. -/
theorem Follows.capture (h : Follows filter ratio S t) (h0 : 0 < ratio) (c : Capture)
    (hK : 0 ≤ t.recorder.outputLength (t.recorder.buffer.length + c.numFrames))
    (hcarry : t.recorder.remainingOffset (t.recorder.buffer.length + c.numFrames) ≤
      t.recorder.buffer.length + c.numFrames) :
    ∃ t', t.capture c = .ok t' ∧ Follows filter ratio (S ++ c.firstChannel) t' ∧
      t'.starts = t.starts ++ (t.recorder.offsets (t.recorder.buffer.length + c.numFrames)).map (t.base + ·) ∧
      (t'.base : ℤ) = t.base + t.recorder.remainingOffset (t.recorder.buffer.length + c.numFrames) ∧
      (t'.recorder.buffer.length : ℤ) = t.recorder.buffer.length + c.numFrames -
        t.recorder.remainingOffset (t.recorder.buffer.length + c.numFrames) := by
  have hr0 : 0 < t.recorder.sampleRatio := by rw [h.ratio_eq]; exact h0
  have hnum : (t.recorder.buffer ++ c.firstChannel).length = t.recorder.buffer.length + c.numFrames := by simp
  have hoff := t.recorder.remainingOffset_nonneg hr0.le hK
  have hstep := SpeechRecorder.onAudioCapture_ok h.capturing hr0 c (by rw [hnum]; exact hK)
  have hbuf := h.buffer_append c
  have hb := h.buffer_le
  have hh := h.heard_eq
  have hin : ∀ p ∈ t.recorder.offsets (t.recorder.buffer.length + c.numFrames),
      p + filter.length ≤ t.recorder.buffer.length + c.numFrames := by
    intro p hp
    rw [← h.filter_eq]
    exact SpeechRecorder.mem_offsets hr0 hp
  simp only [hnum] at hstep
  set num := t.recorder.buffer.length + c.numFrames with hnum'
  set off := t.recorder.remainingOffset num
  have hbase : t.heard + c.numFrames - num = t.base := by unfold Trace.base; omega
  set output := windows t.recorder.filter (t.recorder.buffer ++ c.firstChannel) (t.recorder.offsets num) with houtput
  refine ⟨{ recorder := { t.recorder with buffer := (t.recorder.buffer ++ c.firstChannel).drop off.toNat, output },
            calls := t.calls ++ [⟨output, t.recorder.outputLength num⟩], heard := t.heard + c.numFrames,
            starts := t.starts ++ (t.recorder.offsets num).map (t.base + ·) }, ?_, ?_, rfl, ?_, ?_⟩
  · unfold Trace.capture
    rw [hstep, ok_bind]
    simp only [hnum, hbase]
    rfl
  · constructor
    · exact h.capturing
    · exact h.filter_eq
    · exact h.ratio_eq
    · simp [hh]
    · simp only [List.length_drop, List.length_append, Capture.length_firstChannel]
      omega
    · simp only [hbuf, List.drop_drop, List.length_drop, List.length_append, Capture.length_firstChannel]
      congr 1
      unfold Trace.base
      omega
    · intro p hp
      simp only [List.length_append, Capture.length_firstChannel, List.mem_append, List.mem_map] at hp ⊢
      rcases hp with hp | ⟨q, hq, rfl⟩
      · have := h.inside p hp
        omega
      · have := hin q hq
        omega
    · have hold : windows filter (S ++ c.firstChannel) t.starts = windows filter S t.starts :=
        windows_append_signal h.inside _
      have hnew : output = windows filter (S ++ c.firstChannel) ((t.recorder.offsets num).map (t.base + ·)) := by
        rw [houtput, hbuf, windows_drop, h.filter_eq]
      have htake : SpeechAudio.samples ⟨output, t.recorder.outputLength num⟩ = output :=
        List.take_of_length_le (by simp [houtput, windows, SpeechRecorder.offsets])
      have hcalls : delivered (t.calls ++ [⟨output, t.recorder.outputLength num⟩]) = delivered t.calls ++ output := by
        simp [delivered, htake]
      rw [hcalls, windows_append, hold, ← hnew, h.delivered_eq]
  · unfold Trace.base
    simp only [List.length_drop, List.length_append, Capture.length_firstChannel]
    omega
  · simp only [List.length_drop, List.length_append, Capture.length_firstChannel]
    omega

end Step

end SpeechlyPlugin.Recorder
