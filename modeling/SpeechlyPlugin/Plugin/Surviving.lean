import SpeechlyPlugin.Lib.TwoRun
import SpeechlyPlugin.Plugin.App
import SpeechlyPlugin.Plugin.Accuracy
import SpeechlyPlugin.Plugin.Events

/-!
# What survives `Connect`

`Connect` leaves `LastAudioContext`, `bIsBuffering`, `AudioBuffer`, `CharAudio` and the capture stream as they are.  Two objects
are alike when they differ in these at most, in a way the plugin cannot tell: what it does with one it does with the other.
-/

namespace SpeechlyPlugin.Plugin

open Engine Lib Client Recorder

/-! ## The recorder -/

/-- The capture stream is open on a device with this ratio and this filter, if it is open. -/
def OnDevice (sampleRatio : ℚ) (filter : List ℚ) (r : SpeechRecorder) : Prop :=
  r.isStreamOpen = true → r.sampleRatio = sampleRatio ∧ r.filter = filter

/-- The filter `Start` generates when it opens the stream. -/
def deviceFilter (p : Platform) : List ℚ := (SpeechRecorder.generateFilter p (.new 1024 16000)).filter

/-- A platform whose capture device can be opened, with this ratio and this filter. -/
structure Device (sampleRatio : ℚ) (filter : List ℚ) (p : Platform) : Prop where
  opens : p.opensCaptureStream = true
  ratio : (p.preferredSampleRate : ℚ) / 16000 = sampleRatio
  filter : deviceFilter p = filter

section

variable (sampleRatio : ℚ) (filter : List ℚ)

/-- Two recorders of the plugin that a capture cannot tell apart. -/
structure RecorderAlike (r r' : SpeechRecorder) : Prop where
  sampleRate : r.sampleRate = 16000
  sampleRate' : r'.sampleRate = 16000
  buffer : r'.buffer = r.buffer
  capturing : r'.bIsCapturing = r.bIsCapturing
  device : OnDevice sampleRatio filter r
  device' : OnDevice sampleRatio filter r'
  /-- who captures has opened the stream -/
  opened : r.bIsCapturing = true → r.isStreamOpen = true ∧ r'.isStreamOpen = true

variable {sampleRatio filter} {r r' : SpeechRecorder}

theorem generateFilter_eq (p : Platform) (h : r.sampleRate = 16000) :
    SpeechRecorder.generateFilter p r = { r with filter := deviceFilter p } := by
  unfold deviceFilter SpeechRecorder.generateFilter
  have htap : SpeechRecorder.addRawTap p r = SpeechRecorder.addRawTap p (.new 1024 16000) := by
    funext filterLength acc i
    simp only [SpeechRecorder.addRawTap, SpeechRecorder.rawTap, h, SpeechRecorder.new]
  simp only [htap]

theorem openCaptureStream_eq {p : Platform} (hp : Device sampleRatio filter p) (h : r.sampleRate = 16000) :
    SpeechRecorder.openCaptureStream p r =
      .ok { r with sampleRatio := sampleRatio, filter := filter, isStreamOpen := true } := by
  have hratio : (p.preferredSampleRate : ℚ) / r.sampleRate = sampleRatio := by
    rw [h, ← hp.ratio]
    norm_num
  have hfilter : SpeechRecorder.generateFilter p { r with sampleRatio := sampleRatio } =
      { r with sampleRatio := sampleRatio, filter := filter } := by
    rw [generateFilter_eq (r := { r with sampleRatio := sampleRatio }) p h, hp.filter]
  unfold SpeechRecorder.openCaptureStream
  simp only [hratio, hfilter, hp.opens, check, if_true, ok_bind]
  rfl

/-- `FSpeechRecorder::Start`. -/
theorem RecorderAlike.start {p : Platform} (h : RecorderAlike sampleRatio filter r r') (hp : Device sampleRatio filter p) :
    ExceptRel (fun r r' => RecorderAlike sampleRatio filter r r' ∧ r.bIsCapturing = true) (r.start p) (r'.start p) := by
  have hopen {r : SpeechRecorder} (h : r.sampleRate = 16000) (hdevice : OnDevice sampleRatio filter r) :
      (if r.isStreamOpen then .ok r else SpeechRecorder.openCaptureStream p r) =
        .ok { r with sampleRatio := sampleRatio, filter := filter, isStreamOpen := true } := by
    split
    · rename_i hstream
      obtain ⟨hratio, hfilter⟩ := hdevice hstream
      rw [← hratio, ← hfilter, ← hstream]
    · exact openCaptureStream_eq hp h
  unfold SpeechRecorder.start
  rw [hopen h.sampleRate h.device, hopen h.sampleRate' h.device']
  cases p.hasAudioPermission with
  | false => exact .error _
  | true =>
    cases p.isCapturing with
    | false => exact .error _
    | true =>
      refine .ok ⟨⟨h.sampleRate, h.sampleRate', h.buffer, rfl, ?_, ?_, ?_⟩, rfl⟩
      · exact fun _ => ⟨rfl, rfl⟩
      · exact fun _ => ⟨rfl, rfl⟩
      · exact fun _ => ⟨rfl, rfl⟩

/-- `FSpeechRecorder::Stop`. -/
theorem RecorderAlike.stop (h : RecorderAlike sampleRatio filter r r') :
    RecorderAlike sampleRatio filter r.stop r'.stop where
  sampleRate := h.sampleRate
  sampleRate' := h.sampleRate'
  buffer := rfl
  capturing := rfl
  device := h.device
  device' := h.device'
  opened := fun hcap => by cases hcap

/-- `FSpeechRecorder::OnAudioCapture`. -/
theorem RecorderAlike.onAudioCapture (h : RecorderAlike sampleRatio filter r r') (c : Capture) :
    ExceptRel (fun x y => RecorderAlike sampleRatio filter x.1 y.1 ∧ x.1.bIsCapturing = r.bIsCapturing ∧ y.2 = x.2 ∧
      (x.2.isSome = true → r.bIsCapturing = true)) (r.onAudioCapture c) (r'.onAudioCapture c) := by
  cases hcap : r.bIsCapturing with
  | false =>
    rw [SpeechRecorder.onAudioCapture_idle hcap, SpeechRecorder.onAudioCapture_idle (h.capturing.trans hcap)]
    exact .ok ⟨h, hcap, rfl, fun hsome => by cases hsome⟩
  | true =>
    obtain ⟨hopen, hopen'⟩ := h.opened hcap
    obtain ⟨hratio, hfilter⟩ := h.device hopen
    obtain ⟨hratio', hfilter'⟩ := h.device' hopen'
    have hlength : r'.outputLength = r.outputLength := by
      funext num
      simp only [SpeechRecorder.outputLength, hratio, hratio', hfilter, hfilter']
    unfold SpeechRecorder.onAudioCapture
    rw [h.capturing.trans hcap, hcap, hlength, h.buffer, hfilter, hfilter', hratio, hratio']
    simp only [Bool.not_true, Bool.false_eq_true, if_false]
    refine (ExceptRel.refl _).bind fun output _ houtput => ?_
    subst houtput
    refine (ExceptRel.refl _).bind fun buffer _ hbuffer => ?_
    subst hbuffer
    exact .ok ⟨⟨h.sampleRate, h.sampleRate', rfl, rfl, fun _ => ⟨rfl, rfl⟩, fun _ => ⟨rfl, rfl⟩, fun _ => ⟨hopen, hopen'⟩⟩,
      rfl, rfl, fun _ => trivial⟩

end

/-! ## The conversion does not depend on what `CharAudio` holds -/

section

variable {u v : USpeechly} {call : SpeechAudio}

theorem convertSample_rel (audio : List ℚ) {i : ℕ} {acc acc' : List UInt8 × Bool} (hflag : acc'.2 = acc.2)
    (hlen : 2 * i + 2 ≤ acc.1.length) (hlen' : 2 * i + 2 ≤ acc'.1.length) :
    ExceptRel (fun x y => y.2 = x.2 ∧ x.1.length = acc.1.length ∧ y.1.length = acc'.1.length)
      (convertSample audio acc i) (convertSample audio acc' i) := by
  unfold convertSample
  refine (ExceptRel.refl _).bind fun x _ hx => ?_
  subst hx
  refine (ExceptRel.refl _).bind fun sample _ hsample => ?_
  subst hsample
  obtain ⟨bytes, hset, hbytes⟩ := setShort_ok hlen (saturate sample)
  obtain ⟨bytes', hset', hbytes'⟩ := setShort_ok hlen' (saturate sample)
  rw [hset, hset', hflag]
  exact .ok ⟨rfl, hbytes, hbytes'⟩

/-- The loop, on two arrays that are long enough. -/
theorem convert_rel (audio : List ℚ) {n : ℕ} {bytes bytes' : List UInt8} (hlen : 2 * n ≤ bytes.length)
    (hlen' : 2 * n ≤ bytes'.length) :
    ExceptRel (fun x y : List UInt8 × Bool => y.2 = x.2) ((List.range n).foldlM (convertSample audio) (bytes, false))
      ((List.range n).foldlM (convertSample audio) (bytes', false)) := by
  have hloop : ExceptRel (fun x y : List UInt8 × Bool => y.2 = x.2 ∧ 2 * n ≤ x.1.length ∧ 2 * n ≤ y.1.length)
      ((List.range n).foldlM (convertSample audio) (bytes, false))
      ((List.range n).foldlM (convertSample audio) (bytes', false)) := by
    apply ExceptRel.foldlM
    · intro i hi x y hxy
      obtain ⟨hflag, hx, hy⟩ := hxy
      have hi := List.mem_range.mp hi
      apply (convertSample_rel audio hflag (by omega) (by omega)).mono
      intro x' y' h
      exact ⟨h.1, by omega, by omega⟩
    · exact ⟨rfl, hlen, hlen'⟩
  exact hloop.mono fun _ _ h => h.1

/-- The front of an array the loop has gone over. -/
theorem firstBytes_convert {audio : List ℚ} {n : ℤ} {bytes : List UInt8} {acc : List UInt8 × Bool} (hn : 0 ≤ n)
    (h : (List.range n.toNat).foldlM (convertSample audio) (bytes, false) = .ok acc) :
    USpeechly.firstBytes acc.1 (n * 2) = .ok (encode (audio.take n.toNat)) := by
  obtain ⟨hle, hbytes⟩ := convert_rounds h
  have hlen : (n * 2).toNat = (encode (audio.take n.toNat)).length := by
    rw [length_encode, List.length_take, Nat.min_eq_left hle]
    omega
  rw [USpeechly.firstBytes, if_pos (by omega), hbytes, hlen, List.take_left]

theorem convertAudio_rel (u v : USpeechly) (call : SpeechAudio) :
    ExceptRel (fun x y => (∃ charAudio n, x = { u with charAudio := charAudio, silenceCount := n }) ∧
        (∃ charAudio n, y = { v with charAudio := charAudio, silenceCount := n }) ∧
        USpeechly.firstBytes y.charAudio (call.audioLength * 2) = USpeechly.firstBytes x.charAudio (call.audioLength * 2))
      (u.convertAudio call) (v.convertAudio call) := by
  obtain ⟨bytes, hgrow, hlen⟩ := u.grow_ok call.audioLength
  obtain ⟨bytes', hgrow', hlen'⟩ := v.grow_ok call.audioLength
  unfold USpeechly.convertAudio
  dsimp only
  rw [hgrow, hgrow', ok_bind, ok_bind]
  have hloop := convert_rel call.audio hlen hlen'
  cases hacc : (List.range call.audioLength.toNat).foldlM (convertSample call.audio) (bytes, false) with
  | error fault =>
    rw [hacc] at hloop
    rw [hloop.eq_error]
    exact .error _
  | ok acc =>
    rw [hacc] at hloop
    obtain ⟨acc', hacc', -⟩ := hloop.eq_ok
    rw [hacc']
    refine .ok ⟨⟨_, _, rfl⟩, ⟨_, _, rfl⟩, ?_⟩
    rcases lt_or_ge call.audioLength 0 with hneg | hpos
    · rw [USpeechly.firstBytes, USpeechly.firstBytes, if_neg (by omega), if_neg (by omega)]
    · exact (firstBytes_convert hpos hacc').trans (firstBytes_convert hpos hacc).symm

end

/-! ## The object -/

/-- The client of the other run. -/
def withLanguage (languageCode : StdString) (c : SpeechlyClient) : SpeechlyClient :=
  { c with languageCode := languageCode }

/-- What two runs have in common, and where they may differ. -/
structure Setting where
  sampleRatio : ℚ
  filter : List ℚ
  /-- the language of the second run -/
  languageCode : StdString
  /-- an audio context of the past -/
  Old : FString → Prop

variable {k : Setting}

/-- The response is not of an audio context of the past. -/
def Setting.Fresh (k : Setting) (r : SLUResponse) : Prop := ∀ x, k.Old x → ¬ FString.ofCStr r.audioContext ≈ x

/-- Two objects the plugin cannot tell apart, but for what waits to be sent. -/
structure Alike (k : Setting) (u v : USpeechly) : Prop where
  client : v.client = u.client.map (withLanguage k.languageCode)
  queue : ∀ c, u.client = some c → ∀ r ∈ c.responseQueue, k.Fresh r
  recorder : RecorderAlike k.sampleRatio k.filter u.recorder v.recorder
  responses : v.responses = u.responses
  contextToKeys : v.contextToKeys = u.contextToKeys
  context : v.lastAudioContext = u.lastAudioContext ∨ k.Old u.lastAudioContext ∧ k.Old v.lastAudioContext

/-- Nor by what waits to be sent. -/
structure SameAudio (u v : USpeechly) : Prop where
  buffering : v.bIsBuffering = u.bIsBuffering
  audio : v.audioBuffer = u.audioBuffer

namespace Alike

variable {u v : USpeechly}

theorem isConnected (h : Alike k u v) : v.isConnected = u.isConnected := by
  unfold USpeechly.isConnected
  rw [h.client]
  cases u.client <;> rfl

theorem disconnected (h : Alike k u v) : v.disconnected = u.disconnected := by
  unfold USpeechly.disconnected
  rw [h.client]
  cases u.client <;> rfl

/-- Another client, the same for both. -/
theorem setClient (h : Alike k u v) {client : Option SpeechlyClient}
    (hqueue : ∀ c, client = some c → ∀ r ∈ c.responseQueue, k.Fresh r) :
    Alike k { u with client := client } { v with client := client.map (withLanguage k.languageCode) } where
  client := rfl
  queue := hqueue
  recorder := h.recorder
  responses := h.responses
  contextToKeys := h.contextToKeys
  context := h.context

theorem setRecorder (h : Alike k u v) {r r' : SpeechRecorder} (hr : RecorderAlike k.sampleRatio k.filter r r') :
    Alike k { u with recorder := r } { v with recorder := r' } :=
  ⟨h.client, h.queue, hr, h.responses, h.contextToKeys, h.context⟩

/-- `Client->Write`. -/
theorem clientWrite (h : Alike k u v) (r : SLURequest) :
    ExceptRel (fun x y => y.2 = x.2 ∧ Alike k x.1 y.1 ∧ ∃ client client', x.1 = { u with client := client } ∧
      y.1 = { v with client := client' }) (u.clientWrite r) (v.clientWrite r) := by
  unfold USpeechly.clientWrite
  rw [h.client]
  cases hc : u.client with
  | none => exact .error _
  | some c =>
    have hwrite : (withLanguage k.languageCode c).write r =
        (withLanguage k.languageCode (c.write r).1, (c.write r).2) := by
      unfold SpeechlyClient.write
      show (if c.refuses then _ else _) = _
      split <;> rfl
    have hqueue : (c.write r).1.responseQueue = c.responseQueue := by
      unfold SpeechlyClient.write
      split <;> rfl
    simp only [Option.map_some, hwrite]
    have hnew : ∀ c', some (c.write r).1 = some c' → ∀ r ∈ c'.responseQueue, k.Fresh r := by
      intro c' hc'
      cases hc'
      rw [hqueue]
      exact h.queue c hc
    exact .ok ⟨rfl, h.setClient hnew, _, _, rfl, rfl⟩

/-- `Client->Read`. -/
theorem clientRead (h : Alike k u v) :
    ExceptRel (Option.Rel fun x y => y.1 = x.1 ∧ k.Fresh x.1 ∧ Alike k x.2 y.2 ∧ ∃ client client',
      x.2 = { u with client := client } ∧ y.2 = { v with client := client' }) u.clientRead v.clientRead := by
  unfold USpeechly.clientRead
  rw [h.client]
  cases hc : u.client with
  | none => exact .error _
  | some c =>
    refine .ok ?_
    have hrefuses : (withLanguage k.languageCode c).refuses = c.refuses := rfl
    have hresponses : (withLanguage k.languageCode c).responseQueue = c.responseQueue := rfl
    have hfresh := h.queue c hc
    unfold SpeechlyClient.read SpeechlyClient.dequeueResponse
    rw [hrefuses, hresponses]
    split
    · exact .none
    · cases hq : c.responseQueue with
      | nil => exact .none
      | cons r rs =>
        rw [hq] at hfresh
        have hnew : ∀ c', some { c with responseQueue := rs } = some c' → ∀ r ∈ c'.responseQueue, k.Fresh r := by
          intro c' hc'
          cases hc'
          exact fun r hr => hfresh r (by simp [hr])
        exact .some ⟨rfl, hfresh r (by simp), h.setClient hnew, _, _, rfl, rfl⟩

/-! ### Responses -/

/-- Whether a response of the new connection is of the active context. -/
theorem isActive (h : Alike k u v) {r : SLUResponse} (hr : k.Fresh r) :
    v.isActive (FString.ofCStr r.audioContext) = u.isActive (FString.ofCStr r.audioContext) := by
  unfold USpeechly.isActive
  rcases h.context with heq | ⟨hu, hv⟩
  · rw [heq]
  · rw [decide_eq_false (hr _ hu), decide_eq_false (hr _ hv)]

theorem stopsRecorder (h : Alike k u v) {r : SLUResponse} (hr : k.Fresh r) : v.stopsRecorder r = u.stopsRecorder r := by
  unfold USpeechly.stopsRecorder
  rw [h.isActive hr]

/-- The results a response leaves depend on the results there are. -/
theorem handleResponse_congr (hresponses : v.responses = u.responses) (hkeys : v.contextToKeys = u.contextToKeys)
    (locals : TickLocals) (r : SLUResponse) :
    (v.handleResponse locals r).1.responses = (u.handleResponse locals r).1.responses ∧
      (v.handleResponse locals r).1.contextToKeys = (u.handleResponse locals r).1.contextToKeys ∧
      (v.handleResponse locals r).2 = (u.handleResponse locals r).2 := by
  cases hr : r.payload with
  | finished f =>
    have hstop (w : USpeechly) (context : FString) :
        (if w.isActive context then { w with recorder := w.recorder.stop } else w).responses = w.responses ∧
          (if w.isActive context then { w with recorder := w.recorder.stop } else w).contextToKeys = w.contextToKeys := by
      split <;> exact ⟨rfl, rfl⟩
    simp only [USpeechly.handleResponse, hr, USpeechly.finishContext, hstop]
    simp only [hresponses, hkeys, and_self]
  | _ =>
    simp only [USpeechly.handleResponse, hr, USpeechly.updateResponse, USpeechly.keyOfMessage, hresponses, hkeys, and_self]

theorem handleResponse (h : Alike k u v) (locals : TickLocals) {r : SLUResponse} (hr : k.Fresh r) :
    Alike k (u.handleResponse locals r).1 (v.handleResponse locals r).1 ∧
      (v.handleResponse locals r).2 = (u.handleResponse locals r).2 := by
  obtain ⟨hresponses, hkeys, hlocals⟩ := handleResponse_congr h.responses h.contextToKeys locals r
  refine ⟨⟨?_, ?_, ?_, hresponses, hkeys, ?_⟩, hlocals⟩
  · rw [USpeechly.handleResponse_client, USpeechly.handleResponse_client, h.client]
  · rw [USpeechly.handleResponse_client]
    exact h.queue
  · rw [USpeechly.handleResponse_recorder, USpeechly.handleResponse_recorder, h.stopsRecorder hr]
    split
    · exact h.recorder.stop
    · exact h.recorder
  · rw [SysState.handleResponse_lastAudioContext, SysState.handleResponse_lastAudioContext]
    split
    · exact Or.inl rfl
    · exact h.context

/-! ### The end of a `Tick` -/

theorem removeContext (h : Alike k u v) (context : FString) : Alike k (u.removeContext context) (v.removeContext context) where
  client := h.client
  queue := h.queue
  recorder := h.recorder
  responses := by
    unfold USpeechly.removeContext
    rw [h.responses, h.contextToKeys]
  contextToKeys := by
    unfold USpeechly.removeContext
    rw [h.contextToKeys]
  context := h.context

theorem endTick (h : Alike k u v) (locals : TickLocals) :
    Alike k (u.endTick locals).1 (v.endTick locals).1 ∧ (v.endTick locals).2 = (u.endTick locals).2 := by
  have hfold : ∀ (contexts : List FString) {u v : USpeechly}, Alike k u v →
      Alike k (contexts.foldl USpeechly.removeContext u) (contexts.foldl USpeechly.removeContext v) := by
    intro contexts
    induction contexts with
    | nil => exact fun h => h
    | cons context contexts ih => exact fun h => ih (h.removeContext context)
  refine ⟨hfold _ h, ?_⟩
  unfold USpeechly.endTick USpeechly.changedResponses
  rw [h.responses]

/-! ### `OnSpeechAudio` -/

/-- The first half of `OnSpeechAudio`. -/
theorem convertSpeech (h : Alike k u v) (hsame : SameAudio u v) (call : SpeechAudio) :
    ExceptRel (fun x y => y.2 = x.2 ∧ Alike k x.1 y.1 ∧ SameAudio x.1 y.1)
      (u.convertSpeech call) (v.convertSpeech call) := by
  unfold USpeechly.convertSpeech
  refine (convertAudio_rel u v call).bind fun x y hxy => ?_
  obtain ⟨⟨charAudio, n, rfl⟩, ⟨charAudio', n', rfl⟩, hbytes⟩ := hxy
  rw [hbytes]
  refine (ExceptRel.refl _).bind fun bytes _ heq => ?_
  subst heq
  dsimp only
  rw [hsame.buffering, hsame.audio]
  split
  · exact .ok ⟨rfl, ⟨h.client, h.queue, h.recorder, h.responses, h.contextToKeys, h.context⟩, rfl, rfl⟩
  · exact .ok ⟨rfl, ⟨h.client, h.queue, h.recorder, h.responses, h.contextToKeys, h.context⟩, rfl, rfl⟩

/-- `Client->Write` of audio. -/
theorem writeAudio (h : Alike k u v) (hsame : SameAudio u v) (bytes : List UInt8) :
    ExceptRel (fun x y => y.2 = x.2 ∧ Alike k x.1 y.1 ∧ SameAudio x.1 y.1) (u.writeAudio bytes) (v.writeAudio bytes) := by
  unfold USpeechly.writeAudio
  apply (h.clientWrite (.audio bytes)).bind
  rintro ⟨u', b⟩ ⟨v', _⟩ ⟨rfl, halike, client, client', rfl, rfl⟩
  exact .ok ⟨rfl, halike, hsame.buffering, hsame.audio⟩

/-- The second half. -/
theorem writeSpeech (h : Alike k u v) (hsame : SameAudio u v) (bytes : List UInt8) :
    ExceptRel (fun x y => y.2 = x.2 ∧ Alike k x.1 y.1 ∧ SameAudio x.1 y.1) (u.writeSpeech bytes) (v.writeSpeech bytes) := by
  unfold USpeechly.writeSpeech
  rw [hsame.audio]
  split
  · apply (h.writeAudio hsame _).bind
    rintro ⟨u', accepted⟩ ⟨v', _⟩ ⟨rfl, halike, hsame'⟩
    exact .ok ⟨rfl, ⟨halike.client, halike.queue, halike.recorder, halike.responses, halike.contextToKeys, halike.context⟩,
      hsame'.buffering, rfl⟩
  · exact h.writeAudio hsame _

end Alike

end SpeechlyPlugin.Plugin
