import SpeechlyPlugin.Engine.Array
import Mathlib.Data.Rat.Floor
import Mathlib.Algebra.Order.Round

/-!
# The recorder: `FSpeechRecorder`

The recorder keeps the capture stream running all the time and lets `bIsCapturing` decide what is passed on.  While it
is set, every capture is appended to `buffer`, filtered down to the requested rate, handed to `OnSpeechAudio`, and the
unused end of the buffer is moved to its front for the next round.  Sample values, taps and the rate ratio are exact
rationals; `sin` and `π` belong to the platform.
-/

namespace SpeechlyPlugin.Recorder

open Engine

/-- What the recorder asks of the platform: the mathematics library, the permission, and the default capture device. -/
structure Platform where
  pi : ℚ
  sin : ℚ → ℚ
  hasAudioPermission : Bool
  preferredSampleRate : ℤ
  opensCaptureStream : Bool
  isCapturing : Bool

/-- `FSpeechRecorder`. -/
structure SpeechRecorder where
  numFramesDesired : ℤ
  sampleRate : ℤ
  filter : List ℚ
  sampleRatio : ℚ
  buffer : List ℚ
  output : List ℚ
  bIsCapturing : Bool
  isStreamOpen : Bool

/-- One call of the capture callback: interleaved samples, one for each frame and channel. -/
structure Capture where
  inAudio : List ℚ
  numFrames : ℕ
  numChannels : ℕ
  channels_pos : 1 ≤ numChannels
  length_eq : inAudio.length = numFrames * numChannels

/-- A call of `OnSpeechAudio(Audio, AudioLength)`. -/
structure SpeechAudio where
  audio : List ℚ
  audioLength : ℤ
  deriving DecidableEq

/-- The samples `OnSpeechAudio` is given. -/
def SpeechAudio.samples (a : SpeechAudio) : List ℚ := a.audio.take a.audioLength.toNat

/-- `FGenericPlatformMath::CeilToInt`. -/
def ceilToInt (x : ℚ) : ℤ := ⌈x⌉

/-- `FGenericPlatformMath::RoundToInt`: the floor of `x + 0.5`. -/
def roundToInt (x : ℚ) : ℤ := ⌊x + 1 / 2⌋

theorem roundToInt_eq_round (x : ℚ) : roundToInt x = round x := (round_eq x).symm

namespace SpeechRecorder

/-- The constructor. -/
def new (numFramesDesired sampleRate : ℤ) : SpeechRecorder where
  numFramesDesired := numFramesDesired
  sampleRate := sampleRate
  filter := []
  sampleRatio := 0
  buffer := []
  output := []
  bIsCapturing := false
  isStreamOpen := false

/-! ## Start and stop -/

/-- The lambda `Sinc` of `generateFilter`. -/
def sinc (p : Platform) (x : ℚ) : ℚ :=
  if x = 0 then 1 else p.sin (p.pi * x) / (p.pi * x)

/-- The tap `generateFilter` adds at index `i`, before the taps are divided by their sum. -/
def rawTap (p : Platform) (r : SpeechRecorder) (filterLength i : ℕ) : ℚ :=
  sinc p (((r.sampleRate : ℚ) / p.preferredSampleRate) * (i - ((filterLength : ℚ) - 1) / 2))

/-- One round of the loop that adds the taps and sums them up. -/
def addRawTap (p : Platform) (r : SpeechRecorder) (filterLength : ℕ) (acc : List ℚ × ℚ) (i : ℕ) : List ℚ × ℚ :=
  let x := rawTap p r filterLength i
  (acc.1 ++ [x], acc.2 + x)

/-- `generateFilter`: the taps and their sum, then the division in place. -/
@[irreducible] def generateFilter (p : Platform) (r : SpeechRecorder) : SpeechRecorder :=
  let filterLength := 23
  let taps := (List.range filterLength).foldl (addRawTap p r filterLength) ([], 0)
  { r with filter := taps.1.map (· / taps.2) }

/-- The body of `if (!AudioCapture.IsStreamOpen())` in `Start`: the rate ratio and the filter are those of the device the
stream is opened on. -/
def openCaptureStream (p : Platform) (r : SpeechRecorder) : Except Fault SpeechRecorder := do
  let r := { r with sampleRatio := (p.preferredSampleRate : ℚ) / r.sampleRate }
  let r := generateFilter p r
  check p.opensCaptureStream
  return { r with isStreamOpen := true }

/-- `FSpeechRecorder::Start`. -/
def start (p : Platform) (r : SpeechRecorder) : Except Fault SpeechRecorder := do
  check p.hasAudioPermission
  let r ← (if r.isStreamOpen then .ok r else openCaptureStream p r)
  check r.isStreamOpen
  check p.isCapturing
  return { r with bIsCapturing := true }

/-- `FSpeechRecorder::Stop`. -/
def stop (r : SpeechRecorder) : SpeechRecorder :=
  { r with bIsCapturing := false, buffer := [] }

end SpeechRecorder

/-! ## One capture -/

theorem Capture.index_lt (c : Capture) (i : Fin c.numFrames) : i * c.numChannels < c.inAudio.length := by
  rw [c.length_eq]
  exact Nat.mul_lt_mul_of_pos_right i.isLt c.channels_pos

/-- The samples `InAudio[i * NumChannels]`, `i < NumFrames`, which the first loop adds to the buffer. -/
def Capture.firstChannel (c : Capture) : List ℚ :=
  List.ofFn fun i : Fin c.numFrames => c.inAudio.get ⟨i * c.numChannels, c.index_lt i⟩

@[simp] theorem Capture.length_firstChannel (c : Capture) : c.firstChannel.length = c.numFrames := by
  simp [Capture.firstChannel]

namespace SpeechRecorder

/-- `Output[i] += Buffer[Offset + j] * Filter[j]`. -/
def addTap (buffer filter : List ℚ) (i : ℕ) (offset : ℤ) (output : List ℚ) (j : ℕ) : Except Fault (List ℚ) := do
  let b ← load buffer (offset + j)
  let f ← load filter j
  let o ← load output i
  store output i (o + b * f)

/-- One round of the convolution loop: a new output sample, and the loop over the taps. -/
def addSample (buffer filter : List ℚ) (sampleRatio : ℚ) (output : List ℚ) (i : ℕ) : Except Fault (List ℚ) :=
  let output := output ++ [0]
  let offset := roundToInt (sampleRatio * i)
  (List.range filter.length).foldlM (addTap buffer filter i offset) output

/-- The convolution loop; it makes no round when `OutputLength` is negative. -/
def convolve (buffer filter : List ℚ) (sampleRatio : ℚ) (outputLength : ℤ) : Except Fault (List ℚ) :=
  (List.range outputLength.toNat).foldlM (addSample buffer filter sampleRatio) []

/-- `OutputLength`, from the number of samples in the buffer. -/
def outputLength (r : SpeechRecorder) (num : ℕ) : ℤ :=
  ceilToInt (((num : ℚ) - r.filter.length) / r.sampleRatio)

/-- What is left in the buffer: the samples from `RemainingOffset` on, moved to the front, or nothing. -/
def carryOver (buffer : List ℚ) (remainingOffset : ℤ) : Except Fault (List ℚ) := do
  if remainingOffset < buffer.length then
    let moved ← moveDown buffer remainingOffset
    setNum moved (moved.length - remainingOffset)
  else
    return []

/-- `FSpeechRecorder::OnAudioCapture`: the recorder it leaves and the call of `OnSpeechAudio` it ends with. -/
def onAudioCapture (r : SpeechRecorder) (c : Capture) : Except Fault (SpeechRecorder × Option SpeechAudio) := do
  if !r.bIsCapturing then
    return (r, none)
  let buffer := r.buffer ++ c.firstChannel
  let outputLength := r.outputLength buffer.length
  let output ← convolve buffer r.filter r.sampleRatio outputLength
  let remainingOffset := roundToInt (r.sampleRatio * outputLength)
  let buffer ← carryOver buffer remainingOffset
  return ({ r with buffer := buffer, output := output }, some ⟨output, outputLength⟩)

end SpeechRecorder

end SpeechlyPlugin.Recorder
