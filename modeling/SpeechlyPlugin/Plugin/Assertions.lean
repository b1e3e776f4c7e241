import SpeechlyPlugin.Plugin.App
import SpeechlyPlugin.Plugin.Events
import SpeechlyPlugin.Recorder.Capture

/-!
# What is known at each point of a call

Every point of the game thread has an assertion, and no step of the audio thread or of the network thread invalidates it.
From `Recorder.Stop()` on no capture is under way and none begins; from `bIsBuffering = true` on no capture comes to its
`Client->Write`, once those that were under way have given the lock back.  So `Client.Reset` finds nobody who uses the
client.
-/

namespace SpeechlyPlugin.Plugin

open Engine Lib Client Recorder

/-! ## What does not go through `Client` -/

section Avoids

theorem start_avoids (p : Platform) (r : SpeechRecorder) : Avoids .nullPointer (r.start p) := by
  refine (check_avoids _).bind fun _ => Avoids.bind ?_ fun r => (check_avoids _).bind fun _ =>
    (check_avoids _).bind fun _ => avoids_ok _
  split
  · exact avoids_ok r
  · exact (check_avoids _).bind fun _ => avoids_ok _

theorem convolve_avoids (buffer filter : List ℚ) (sampleRatio : ℚ) (outputLength : ℤ) :
    Avoids .nullPointer (SpeechRecorder.convolve buffer filter sampleRatio outputLength) :=
  avoids_foldlM (fun _ _ => avoids_foldlM (fun _ _ => (load_avoids _ _).bind fun _ => (load_avoids _ _).bind fun _ =>
    (load_avoids _ _).bind fun _ => store_avoids _ _ _) _ _) _ _

theorem carryOver_avoids (buffer : List ℚ) (remainingOffset : ℤ) :
    Avoids .nullPointer (SpeechRecorder.carryOver buffer remainingOffset) := by
  unfold SpeechRecorder.carryOver
  split
  · exact (moveDown_avoids _ _).bind fun _ => setNum_avoids _ _
  · exact avoids_ok _

theorem onAudioCapture_avoids (r : SpeechRecorder) (c : Capture) : Avoids .nullPointer (r.onAudioCapture c) := by
  unfold SpeechRecorder.onAudioCapture
  split
  · exact avoids_ok _
  · exact (convolve_avoids _ _ _ _).bind fun _ => (carryOver_avoids _ _).bind fun _ => avoids_ok _

theorem castInt32_avoids (x : ℚ) : Avoids .nullPointer (castInt32 x) := by
  unfold castInt32
  split
  · exact avoids_ok _
  · exact avoids_error (by decide)

theorem convertSample_avoids (audio : List ℚ) (acc : List UInt8 × Bool) (i : ℕ) :
    Avoids .nullPointer (convertSample audio acc i) :=
  (load_avoids _ _).bind fun _ => (castInt32_avoids _).bind fun _ =>
    ((store_avoids _ _ _).bind fun _ => store_avoids _ _ _).bind fun _ => avoids_ok _

theorem convertSpeech_avoids (u : USpeechly) (call : SpeechAudio) : Avoids .nullPointer (u.convertSpeech call) := by
  refine Avoids.bind (Avoids.bind ?_ fun _ => (avoids_foldlM (convertSample_avoids _) _ _).bind fun _ => avoids_ok _) fun v =>
    Avoids.bind ?_ fun bytes => ?_
  · split
    · exact setNum_avoids _ _
    · exact avoids_ok _
  · unfold USpeechly.firstBytes
    split
    · exact avoids_ok _
    · exact avoids_error (by decide)
  · split <;> exact avoids_ok _

end Avoids

/-! ## The two halves of `OnSpeechAudio` -/

section

variable {u u' : USpeechly}

theorem convertSpeech_eq_ok {call : SpeechAudio} {bytes : Option (List UInt8)}
    (h : u.convertSpeech call = .ok (u', bytes)) :
    (∃ charAudio audioBuffer silenceCount, u' = { u with
      charAudio := charAudio, audioBuffer := audioBuffer, silenceCount := silenceCount }) ∧
      (u.bIsBuffering = true → bytes = none) := by
  obtain ⟨v, hv, h⟩ := bind_eq_ok h
  obtain ⟨front, -, h⟩ := bind_eq_ok h
  have hframe := USpeechly.convertAudio_frame hv
  have hbuf : v.bIsBuffering = u.bIsBuffering := by rw [hframe]
  split at h
  · cases h
    refine ⟨⟨v.charAudio, v.audioBuffer ++ front, v.silenceCount, ?_⟩, fun _ => rfl⟩
    rw [hframe]
  · rename_i hopen
    cases h
    exact ⟨⟨u'.charAudio, u.audioBuffer, u'.silenceCount, hframe⟩, fun hu => absurd (hbuf.trans hu) hopen⟩

theorem writeSpeech_eq_ok {bytes : List UInt8} {accepted : List SLURequest}
    (h : u.writeSpeech bytes = .ok (u', accepted)) :
    ∃ c audioBuffer, u.client.isSome = true ∧ u' = { u with client := some c, audioBuffer := audioBuffer } := by
  unfold USpeechly.writeSpeech at h
  split at h
  · obtain ⟨⟨w, acc⟩, hw, h⟩ := bind_eq_ok h
    obtain ⟨c, hc, rfl, -⟩ := USpeechly.writeAudio_eq_ok hw
    cases h
    exact ⟨_, [], by rw [hc]; rfl, rfl⟩
  · obtain ⟨c, hc, rfl, -⟩ := USpeechly.writeAudio_eq_ok h
    exact ⟨_, u.audioBuffer, by rw [hc]; rfl, rfl⟩

theorem writeSpeech_avoids (h : u.client.isSome = true) (bytes : List UInt8) :
    Avoids .nullPointer (u.writeSpeech bytes) := by
  have hwrite : ∀ bytes, Avoids .nullPointer (u.writeAudio bytes) := by
    intro bytes
    refine Avoids.bind ?_ fun _ => avoids_ok _
    obtain ⟨c, hc⟩ := Option.isSome_iff_exists.mp h
    unfold USpeechly.clientWrite
    rw [hc]
    exact avoids_ok _
  unfold USpeechly.writeSpeech
  split
  · exact (hwrite _).bind fun _ => avoids_ok _
  · exact hwrite _

end

/-! ## The assertions -/

namespace AppState

variable (s : AppState)

def HasClient : Prop := s.sys.plugin.client.isSome = true

def Buffering : Prop := s.sys.plugin.bIsBuffering = true

/-- No capture has come to its `Client->Write`. -/
def NoWrite : Prop := ∀ bytes, s.audio ≠ some (.write bytes)

/-- No capture is under way, and none will be. -/
def Quiet : Prop := s.audio = none ∧ s.sys.plugin.recorder.bIsCapturing = false

/-- The assertion at a point of `Start`, `Stop` or `Tick`. -/
def AtCall : GamePc → Prop
  | .startBuffering | .tickRead _ _ => s.HasClient
  | .startEmpty | .startRecorder => s.HasClient ∧ s.Buffering
  | .startWrite => s.HasClient ∧ s.Buffering ∧ s.NoWrite
  | .startReset | .startStop => s.Buffering ∧ s.NoWrite
  | .stopTest | .stopReset => s.Quiet
  | .stopWrite => s.HasClient ∧ s.Quiet
  | _ => True

/-- The assertion where the game thread is. -/
def AtPoint : Prop :=
  match s.pc with
  | .calls => s.AtCall s.sys.pc
  | .tickHandle _ _ _ => s.HasClient
  | .sendTextTest _ _ | .stopRecorder _ => s.sys.pc = .idle
  | .sendTextSync _ _ => s.sys.pc = .idle ∧ s.HasClient
  | .kill _ | .join _ => s.sys.pc = .idle ∧ s.Quiet
  | .reset _ | .members | .destroyed => s.sys.pc = .idle ∧ s.Quiet ∧ s.clientThread = none
  | .createThread => s.sys.pc = .idle ∧ s.Quiet ∧ s.clientThread = none ∧ s.HasClient

end AppState

/-- A step of another thread. -/
structure Elsewhere (s t : AppState) : Prop where
  pc : t.pc = s.pc
  call : t.sys.pc = s.sys.pc
  client : t.sys.plugin.client.isSome = s.sys.plugin.client.isSome
  clients : t.clients = s.clients
  clientThread : t.clientThread = s.clientThread
  bIsBuffering : t.sys.plugin.bIsBuffering = s.sys.plugin.bIsBuffering
  noWrite : s.Buffering → s.NoWrite → t.NoWrite
  quiet : s.Quiet → t.Quiet
  resting : ¬ s.HasClient → s.audio = none → t.audio = none

section Interference

variable {s t : AppState}

theorem elsewhere_crash (s : AppState) (fault : Fault) : Elsewhere s (s.crash fault) :=
  ⟨rfl, rfl, rfl, rfl, rfl, rfl, fun _ h => h, fun h => h, fun _ h => h⟩

theorem elsewhere_onThread (s : AppState) (f : SpeechlyClient → SpeechlyClient) : Elsewhere s (s.onThread f) := by
  obtain ⟨client, hclient, hs⟩ := onThread_eq s f
  rw [hs]
  exact ⟨rfl, rfl, hclient, rfl, rfl, rfl, fun _ h => h, fun h => h, fun _ h => h⟩

theorem elsewhere_threadEnds (s : AppState) : Elsewhere s { s with ended := true } :=
  ⟨rfl, rfl, rfl, rfl, rfl, rfl, fun _ h => h, fun h => h, fun _ h => h⟩

theorem elsewhere_capture (s : AppState) (c : Capture) : Elsewhere s (s.capture c) := by
  unfold AppState.capture
  cases hcap : s.sys.plugin.recorder.onAudioCapture c with
  | error fault => exact elsewhere_crash s fault
  | ok x =>
    obtain ⟨recorder, call⟩ := x
    have hquiet : s.Quiet → recorder.bIsCapturing = false ∧ call = none := by
      intro h
      rw [SpeechRecorder.onAudioCapture_idle h.2] at hcap
      cases hcap
      exact ⟨h.2, rfl⟩
    cases call with
    | none =>
      exact ⟨rfl, rfl, rfl, rfl, rfl, rfl, fun _ h => h, fun h => ⟨h.1, (hquiet h).1⟩, fun _ h => h⟩
    | some call =>
      refine ⟨rfl, rfl, rfl, rfl, rfl, rfl, fun _ _ bytes => ?_, fun h => ?_, fun hgone _ => ?_⟩
      · show (if _ then none else some (AudioPc.convert call)) ≠ some (.write bytes)
        split <;> simp
      · cases (hquiet h).2
      · have hconn : s.sys.plugin.isConnected = false := by
          unfold USpeechly.isConnected
          cases hc : s.sys.plugin.client with
          | none => rfl
          | some c => exact absurd (by rw [AppState.HasClient, hc]; rfl) hgone
        show (if !s.sys.plugin.isConnected || call.audioLength == 0 then none else _) = none
        rw [hconn]
        rfl

theorem elsewhere_speech (h : s.speech = some t) : Elsewhere s t := by
  unfold AppState.speech at h
  split at h
  · rename_i call haudio
    split at h
    · rename_i u bytes hconv
      cases h
      obtain ⟨⟨charAudio, audioBuffer, silenceCount, rfl⟩, hbytes⟩ := convertSpeech_eq_ok hconv
      refine ⟨rfl, rfl, rfl, rfl, rfl, rfl, fun hbuf _ => ?_, fun hq => ?_, fun _ hnone => ?_⟩
      · rw [hbytes hbuf]
        exact fun bytes hw => by cases hw
      · rw [hq.1] at haudio
        cases haudio
      · rw [hnone] at haudio
        cases haudio
    · cases h
      exact elsewhere_crash s _
  · rename_i bytes haudio
    split at h
    · rename_i u accepted hwrite
      cases h
      obtain ⟨c, audioBuffer, hsome, rfl⟩ := writeSpeech_eq_ok hwrite
      exact ⟨rfl, rfl, hsome.symm, rfl, rfl, rfl, fun _ _ _ => (Option.some_ne_none _).symm, fun hq => ⟨rfl, hq.2⟩, fun _ _ => rfl⟩
    · cases h
      exact elsewhere_crash s _
  · cases h

/-- **No interference.** -/
theorem Elsewhere.atPoint (h : Elsewhere s t) (hs : s.AtPoint) : t.AtPoint := by
  have hclient : s.HasClient → t.HasClient := fun hc => h.client.trans hc
  have hbuf : s.Buffering → t.Buffering := fun hb => h.bIsBuffering.trans hb
  have hcall : s.AtCall s.sys.pc → t.AtCall s.sys.pc := by
    intro hs
    cases hpc : s.sys.pc <;> rw [hpc] at hs <;> try trivial
    case startBuffering => exact hclient hs
    case startEmpty => exact ⟨hclient hs.1, hbuf hs.2⟩
    case startRecorder => exact ⟨hclient hs.1, hbuf hs.2⟩
    case startWrite => exact ⟨hclient hs.1, hbuf hs.2.1, h.noWrite hs.2.1 hs.2.2⟩
    case startReset => exact ⟨hbuf hs.1, h.noWrite hs.1 hs.2⟩
    case startStop => exact ⟨hbuf hs.1, h.noWrite hs.1 hs.2⟩
    case stopTest => exact h.quiet hs
    case stopReset => exact h.quiet hs
    case stopWrite => exact ⟨hclient hs.1, h.quiet hs.2⟩
    case tickRead => exact hclient hs
  unfold AppState.AtPoint at hs ⊢
  rw [h.pc, h.call, h.clientThread]
  cases hpc : s.pc <;> simp only [hpc] at hs ⊢
  case calls => exact hcall hs
  case tickHandle => exact hclient hs
  case sendTextTest => exact hs
  case sendTextSync => exact ⟨hs.1, hclient hs.2⟩
  case stopRecorder => exact hs
  case kill => exact ⟨hs.1, h.quiet hs.2⟩
  case join => exact ⟨hs.1, h.quiet hs.2⟩
  case reset => exact ⟨hs.1, h.quiet hs.2.1, hs.2.2⟩
  case members => exact ⟨hs.1, h.quiet hs.2.1, hs.2.2⟩
  case destroyed => exact ⟨hs.1, h.quiet hs.2.1, hs.2.2⟩
  case createThread => exact ⟨hs.1, h.quiet hs.2.1, hs.2.2.1, hclient hs.2.2.2⟩

end Interference

/-! ## The invariant -/

/-- `Connect` and the destructor after the `if (ClientThread)`. -/
def AppPc.joined : AppPc → Bool
  | .reset _ | .members | .createThread => true
  | _ => false

/-- What is known in every state. -/
structure Annotated (s : AppState) : Prop where
  point : s.AtPoint
  /-- without a client, a capture is under way only before the `Recorder.Stop()` that follows `Client.Reset()` -/
  empty : ¬ s.HasClient → s.audio = none ∨ s.pc = .calls ∧ s.sys.pc = .startStop
  /-- a client has its thread -/
  manned : s.HasClient → s.clientThread.isSome = true ∨ s.pc.joined = true
  /-- the one call through an empty `Client` -/
  fault : s.sys.fault = some .nullPointer → s.pc = .calls ∧ s.sys.pc = .tickDisconnected ∧ ¬ s.HasClient

section Steps

variable {s t : AppState} {p : Platform}

/-- But for `Connect` and the destructor, the thread of a client has not been joined. -/
theorem Annotated.clientThread (h : Annotated s) (hc : s.HasClient) (hpc : s.pc.joined = false) :
    s.clientThread.isSome = true := by
  apply (h.manned hc).resolve_right
  rw [hpc]
  exact Bool.false_ne_true

theorem Elsewhere.annotated (h : Elsewhere s t) (hs : Annotated s) (hfault : t.sys.fault ≠ some .nullPointer) :
    Annotated t where
  point := h.atPoint hs.point
  empty := by
    intro hgone
    have hgone : ¬ s.HasClient := fun hc => hgone (h.client.trans hc)
    rcases hs.empty hgone with hnone | ⟨hpc, hcall⟩
    · exact Or.inl (h.resting hgone hnone)
    · exact Or.inr ⟨h.pc.trans hpc, h.call.trans hcall⟩
  manned := by
    intro hc
    rw [h.pc, h.clientThread]
    exact hs.manned (h.client.symm.trans hc)
  fault := fun hnull => absurd hnull hfault

/-- A step inside `Start`, `Stop` or `Tick` that leaves the client where it is. -/
theorem Annotated.inCall (h : Annotated s) (hpc : s.pc = .calls) {sys : SysState}
    (hpoint : { s with sys := sys }.AtCall sys.pc) (hclient : sys.plugin.client.isSome = s.sys.plugin.client.isSome)
    (hfault : sys.fault ≠ some .nullPointer) (hlock : s.sys.pc.locks = true → s.audio = none) :
    Annotated { s with sys := sys } where
  point := by
    unfold AppState.AtPoint
    rw [show ({ s with sys := sys } : AppState).pc = .calls from hpc]
    exact hpoint
  empty := by
    intro hgone
    have hgone : ¬ s.HasClient := fun hc => hgone (hclient.trans hc)
    exact Or.inl ((h.empty hgone).elim id fun hs => hlock (by rw [hs.2]; rfl))
  manned := fun hc => h.manned (hclient.symm.trans hc)
  fault := fun hnull => absurd hnull hfault

theorem ne_nullPointer (h : s.sys.fault = none) : s.sys.fault ≠ some .nullPointer := by
  rw [h]
  exact (Option.some_ne_none _).symm

/-- A client that is connected is there. -/
theorem hasClient_of_isConnected (h : s.sys.plugin.isConnected = true) : s.HasClient := by
  unfold USpeechly.isConnected at h
  unfold AppState.HasClient
  cases hc : s.sys.plugin.client with
  | none =>
    rw [hc] at h
    cases h
  | some c => rfl

theorem clientWrite_eq (h : s.HasClient) (r : SLURequest) :
    ∃ c b, s.sys.plugin.clientWrite r = .ok ({ s.sys.plugin with client := some c }, b) := by
  obtain ⟨c, hc⟩ := Option.isSome_iff_exists.mp h
  unfold USpeechly.clientWrite
  rw [hc]
  exact ⟨_, _, rfl⟩

/-- The step at a `Client->Write` of an event. -/
theorem annotated_writeEvent (h : Annotated s) (hpc : s.pc = .calls) (hclient : s.HasClient)
    (hfault : s.sys.fault = none) (hlock : s.sys.pc.locks = true → s.audio = none) {refused : GamePc} (e : SLUEvent)
    (hrefused : ∀ u, { s with sys := { s.sys with plugin := { s.sys.plugin with client := u }, pc := refused } }.AtCall
      refused) : Annotated { s with sys := s.sys.writeEvent e refused } := by
  have hnull := ne_nullPointer hfault
  obtain ⟨c, b, hw⟩ := clientWrite_eq hclient (.event e)
  unfold SysState.writeEvent
  rw [hw]
  cases b with
  | true => exact h.inCall hpc trivial hclient.symm hnull hlock
  | false => exact h.inCall hpc (hrefused _) hclient.symm hnull hlock

/-- `Client.Reset()`. -/
theorem annotated_reset (hpc : s.pc = .calls) {sys : SysState} (hclient : sys.plugin.client = none)
    (hfault : sys.fault = none) (hpoint : { s with sys := sys }.AtCall sys.pc)
    (haudio : s.audio = none ∨ sys.pc = .startStop) : Annotated { s with sys := sys } where
  point := by
    unfold AppState.AtPoint
    simp only [hpc]
    exact hpoint
  empty := fun _ => haudio.imp id fun hcall => ⟨hpc, hcall⟩
  manned := by
    intro hc
    rw [AppState.HasClient, hclient] at hc
    cases hc
  fault := fun hnull => by cases hfault.symm.trans hnull

/-- The steps inside `Start`, `Stop` and `Tick`, but for the reads. -/
theorem annotated_call {sys : SysState} (h : Annotated s) (hpc : s.pc = .calls) (hfault : s.sys.fault = none)
    (hlock : s.sys.pc.locks = true → s.audio = none)
    (hread : ∀ maxReads locals, s.sys.pc ≠ .tickRead (maxReads + 1) locals) (ht : s.sys.game p = some sys) :
    Annotated { s with sys := sys } := by
  have hpoint := h.point
  unfold AppState.AtPoint at hpoint
  simp only [hpc] at hpoint
  have hnull := ne_nullPointer hfault
  have hcrash {fault : Fault} (hf : fault ≠ .nullPointer) : Annotated { s with sys := s.sys.crash fault } :=
    (elsewhere_crash s fault).annotated h fun he => hf (Option.some.inj he)
  cases hcall : s.sys.pc <;> simp only [SysState.game, hcall, Option.some.injEq, reduceCtorEq] at ht <;>
    simp only [hcall, AppState.AtCall] at hpoint
  case startTest =>
    subst ht
    split
    · rename_i hconn
      exact h.inCall hpc (hasClient_of_isConnected (s := s) hconn) rfl hnull hlock
    · exact h.inCall hpc trivial rfl hnull hlock
  case startBuffering =>
    subst ht
    exact h.inCall hpc ⟨hpoint, rfl⟩ rfl hnull hlock
  case startEmpty =>
    subst ht
    exact h.inCall hpc hpoint rfl hnull hlock
  case startRecorder =>
    subst ht
    -- the captures that may have found `bIsBuffering` unset are over
    have haudio := hlock (by rw [hcall]; rfl)
    unfold SysState.startRecorder
    cases hrec : s.sys.plugin.recorder.start p with
    | error fault => exact hcrash fun hf => start_avoids p _ (hrec.trans (by rw [hf]))
    | ok recorder =>
      refine h.inCall hpc ⟨hpoint.1, hpoint.2, fun bytes hw => ?_⟩ rfl hnull hlock
      cases haudio.symm.trans hw
  case startWrite =>
    subst ht
    exact annotated_writeEvent h hpc hpoint.1 hfault hlock .START fun _ => hpoint.2
  case startReset =>
    subst ht
    exact annotated_reset hpc rfl hfault hpoint (Or.inr rfl)
  case startStop =>
    subst ht
    exact h.inCall hpc trivial rfl hnull hlock
  case stopRecorder =>
    subst ht
    exact h.inCall hpc ⟨hlock (by rw [hcall]; rfl), rfl⟩ rfl hnull hlock
  case stopTest =>
    subst ht
    split
    · rename_i hconn
      exact h.inCall hpc ⟨hasClient_of_isConnected (s := s) hconn, hpoint⟩ rfl hnull hlock
    · exact h.inCall hpc trivial rfl hnull hlock
  case stopWrite =>
    subst ht
    exact annotated_writeEvent h hpc hpoint.1 hfault hlock .STOP fun _ => hpoint.2
  case stopReset =>
    subst ht
    exact annotated_reset hpc rfl hfault trivial (Or.inl hpoint.1)
  case tickTest =>
    subst ht
    cases hconn : s.sys.plugin.isConnected with
    | false => exact h.inCall hpc trivial rfl hnull hlock
    | true => exact h.inCall hpc (hasClient_of_isConnected (s := s) hconn) rfl hnull hlock
  case tickDisconnected =>
    subst ht
    unfold SysState.tickDisconnected
    cases hc : s.sys.plugin.client with
    | none =>
      have hdis : s.sys.plugin.disconnected = .error .nullPointer := by
        unfold USpeechly.disconnected
        rw [hc]
      rw [hdis]
      refine ⟨?_, h.empty, h.manned, fun _ => ⟨hpc, hcall, ?_⟩⟩
      · unfold AppState.AtPoint
        simp only [hpc, SysState.crash, hcall]
        trivial
      · show ¬ s.sys.plugin.client.isSome = true
        simp [hc]
    | some c =>
      obtain ⟨b, hdis⟩ : ∃ b, s.sys.plugin.disconnected = .ok b := by
        unfold USpeechly.disconnected
        rw [hc]
        dsimp only
        split <;> exact ⟨_, rfl⟩
      rw [hdis]
      exact h.inCall hpc trivial rfl hnull hlock
  case tickRead maxReads locals =>
    cases maxReads with
    | succ maxReads => exact absurd hcall (hread maxReads locals)
    | zero =>
      cases ht
      exact h.inCall hpc trivial rfl hnull hlock
  case tickEnd locals =>
    subst ht
    refine h.inCall hpc trivial ?_ hnull hlock
    show (s.sys.plugin.endTick locals).1.client.isSome = _
    rw [SysState.endTick_frame]

/-- The game thread goes on, outside of `Start`, `Stop` and `Tick`. -/
theorem Annotated.goto (h : Annotated s) (hidle : s.sys.pc = .idle) (hfault : s.sys.fault = none) {pc : AppPc}
    (hpoint : (s.goto pc).AtPoint) (hjoined : s.HasClient → s.clientThread.isSome = true ∨ pc.joined = true) :
    Annotated (s.goto pc) where
  point := hpoint
  empty := fun hgone => Or.inl ((h.empty hgone).elim id fun hs => by cases hidle.symm.trans hs.2)
  manned := hjoined
  fault := fun hnull => by cases hfault.symm.trans hnull

/-- `Client->Read`. -/
theorem annotated_read (h : Annotated s) (hpc : s.pc = .calls) (hfault : s.sys.fault = none) (hclient : s.HasClient)
    {maxReads : ℕ} {locals : TickLocals} (hcall : s.sys.pc = .tickRead (maxReads + 1) locals) :
    Annotated (s.read maxReads locals) := by
  have hnull := ne_nullPointer hfault
  have hlock : s.sys.pc.locks = true → s.audio = none := by
    rw [hcall]
    exact fun hlock => by cases hlock
  obtain ⟨c, hc⟩ := Option.isSome_iff_exists.mp hclient
  have hread : s.sys.plugin.clientRead =
      .ok (c.read.map fun x => (x.1, { s.sys.plugin with client := some x.2 })) := by
    unfold USpeechly.clientRead
    rw [hc]
  unfold AppState.read
  rw [hread]
  cases c.read with
  | none =>
    have hpoint : { s with sys := s.sys.goto (.tickEnd locals) }.AtCall (.tickEnd locals) := trivial
    exact h.inCall hpc hpoint rfl hnull hlock
  | some x =>
    show Annotated ((s.setPlugin { s.sys.plugin with client := some x.2 }).goto (.tickHandle maxReads locals x.1))
    refine ⟨rfl, fun hgone => absurd rfl hgone, fun _ => Or.inl ?_, fun hf => absurd hf hnull⟩
    exact h.clientThread hclient (by rw [hpc]; rfl)

/-- `ClientThread->Kill(true)` begins. -/
theorem annotated_kill (h : Annotated s) (hfault : s.sys.fault = none) {next : Closing} (hpc : s.pc = .kill next)
    (hthread : s.clientThread.isSome = true) : Annotated ((s.onThread (·.stop)).goto (.join next)) := by
  have hpoint := h.point
  unfold AppState.AtPoint at hpoint
  simp only [hpc] at hpoint
  have helse := elsewhere_onThread s (·.stop)
  have hsame : (s.onThread (·.stop)).sys.fault = none := by
    obtain ⟨client, -, hs⟩ := onThread_eq s (·.stop)
    rw [hs]
    exact hfault
  refine (helse.annotated h ?_).goto (helse.call.trans hpoint.1) hsame ⟨helse.call.trans hpoint.1, helse.quiet hpoint.2⟩
    fun _ => Or.inl ?_
  · rw [hsame]
    exact (Option.some_ne_none _).symm
  · rw [helse.clientThread]
    exact hthread

/-- **One step of the game thread.** -/
theorem annotated_game (h : Annotated s) (hfault : s.sys.fault = none) (ht : s.game p = some t) : Annotated t := by
  have hpoint := h.point
  unfold AppState.AtPoint at hpoint
  have hnull := ne_nullPointer hfault
  have hmanned (hc : s.HasClient) (hjoined : s.pc.joined = false) : s.clientThread.isSome = true := h.clientThread hc hjoined
  cases AppState.gameStep ht with
  | read hpc hcall =>
    rw [hpc, hcall] at hpoint
    exact annotated_read h hpc hfault hpoint hcall
  | call hpc hread hlock hsys => exact annotated_call h hpc hfault hlock hread hsys
  | @handle maxReads locals r hpc =>
    rw [hpc] at hpoint
    have hsame : (s.sys.plugin.handleResponse locals r).1.client = s.sys.plugin.client := USpeechly.handleResponse_client
    have hclient : (s.handle maxReads locals r).HasClient := (congrArg Option.isSome hsame).trans hpoint
    exact ⟨hclient, fun hgone => absurd hclient hgone, fun _ => Or.inl (hmanned hpoint (by rw [hpc]; rfl)),
      fun hf => absurd hf hnull⟩
  | sendTextGoes hpc hconn =>
    rw [hpc] at hpoint
    exact h.goto hpoint hfault ⟨hpoint, hasClient_of_isConnected hconn⟩ fun hc => Or.inl (hmanned hc (by rw [hpc]; rfl))
  | sendTextEnds hpc =>
    rw [hpc] at hpoint
    refine h.goto hpoint hfault ?_ fun hc => Or.inl (hmanned hc (by rw [hpc]; rfl))
    show (s.goto .calls).AtCall s.sys.pc
    rw [hpoint]
    trivial
  | sendText hpc =>
    rw [hpc] at hpoint
    obtain ⟨c, hc⟩ := Option.isSome_iff_exists.mp hpoint.2
    have hthread := hmanned hpoint.2 (by rw [hpc]; rfl)
    unfold AppState.sendText
    rw [hc]
    refine ⟨?_, fun hgone => absurd rfl hgone, fun _ => Or.inl hthread, fun hf => absurd hf hnull⟩
    show AppState.AtCall _ s.sys.pc
    rw [hpoint.1]
    trivial
  | stopRecorder hpc haudio =>
    rw [hpc] at hpoint
    exact ⟨⟨hpoint, haudio, rfl⟩, fun _ => Or.inl haudio, fun hc => Or.inl (hmanned hc (by rw [hpc]; rfl)),
      fun hf => absurd hf hnull⟩
  | kill hpc hthread => exact annotated_kill h hfault hpc hthread
  | @noThread next hpc hthread =>
    rw [hpc] at hpoint
    cases next <;> exact h.goto hpoint.1 hfault ⟨hpoint.1, hpoint.2, hthread⟩ fun _ => Or.inr rfl
  | @join next hpc =>
    rw [hpc] at hpoint
    refine ⟨?_, fun _ => Or.inl hpoint.2.1, fun _ => Or.inr ?_, fun hf => absurd hf hnull⟩
    · cases next <;> exact ⟨hpoint.1, hpoint.2, rfl⟩
    · cases next <;> rfl
  | reset hpc =>
    rw [hpc] at hpoint
    exact ⟨⟨hpoint.1, hpoint.2.1, hpoint.2.2, rfl⟩, fun _ => Or.inl hpoint.2.1.1, fun _ => Or.inr rfl,
      fun hf => absurd hf hnull⟩
  | createThread hpc =>
    rw [hpc] at hpoint
    refine ⟨?_, fun _ => Or.inl hpoint.2.1.1, fun _ => Or.inl rfl, fun hf => absurd hf hnull⟩
    show AppState.AtCall _ s.sys.pc
    rw [hpoint.1]
    trivial
  | members hpc =>
    rw [hpc] at hpoint
    refine ⟨⟨hpoint.1, hpoint.2.1, hpoint.2.2⟩, fun _ => Or.inl hpoint.2.1.1, fun hc => ?_, fun hf => absurd hf hnull⟩
    cases hc

/-- A call begins. -/
theorem annotated_begin (h : Annotated s) (hidle : s.idle = true) {sys : SysState} (hplugin : sys.plugin = s.sys.plugin)
    (hsys : sys.fault = none) (hcall : sys.pc = .startTest ∨ sys.pc = .stopRecorder ∨ sys.pc = .tickTest ∨ sys.pc = .idle) :
    Annotated { s with sys := sys } := by
  obtain ⟨hpc, hidle⟩ := idle_iff.mp hidle
  refine h.inCall hpc ?_ (by rw [hplugin]) ?_ ?_
  · rcases hcall with hcall | hcall | hcall | hcall <;> rw [hcall] <;> trivial
  · rw [hsys]
    exact (Option.some_ne_none _).symm
  · rw [hidle]
    exact fun hlock => by cases hlock

/-- `Tick` after its test, or no call. -/
def GamePc.loose : GamePc → Bool
  | .idle | .tickRead _ _ | .tickEnd _ => true
  | _ => false

/-- The other points of `Start`, `Stop` and `Tick` are reached by the steps of `SysState.game`. -/
theorem game_inCall (hs : Annotated s) (ht : s.game p = some t) (hpc : t.pc = .calls) (hcall : t.sys.pc.loose = false) :
    s.pc = .calls ∧ s.sys.game p = some t.sys := by
  have hpoint := hs.point
  unfold AppState.AtPoint at hpoint
  have hidle (hs : s.sys.pc = .idle) (hsame : t.sys.pc = s.sys.pc) : False := by
    rw [hsame, hs] at hcall
    cases hcall
  cases AppState.gameStep ht with
  | read _ hread =>
    unfold AppState.read at hcall
    split at hcall
    · cases hcall
    · simp only [AppState.goto, AppState.setPlugin, hread] at hcall
      cases hcall
    · simp only [AppState.crash, SysState.crash, hread] at hcall
      cases hcall
  | call hcalls _ _ hsys => exact ⟨hcalls, hsys⟩
  | handle => cases hcall
  | sendTextGoes => cases hpc
  | sendTextEnds hfrom =>
    rw [hfrom] at hpoint
    exact (hidle hpoint rfl).elim
  | sendText hfrom =>
    rw [hfrom] at hpoint
    refine (hidle hpoint.1 ?_).elim
    unfold AppState.sendText
    split <;> rfl
  | stopRecorder | kill | reset | members => cases hpc
  | @noThread next | @join next => cases next <;> cases hpc
  | createThread hfrom =>
    rw [hfrom] at hpoint
    exact (hidle hpoint.1 rfl).elim

/-- A call of `Connect`, of `SendText` or of the destructor begins. -/
theorem annotated_leave (h : Annotated s) (hidle : s.idle = true) (hfault : s.sys.fault = none) {pc : AppPc}
    (hpoint : (s.goto pc).AtPoint) : Annotated (s.goto pc) := by
  obtain ⟨hpc, hidle⟩ := idle_iff.mp hidle
  exact h.goto hidle hfault hpoint fun hc => Or.inl (h.clientThread hc (by rw [hpc]; rfl))

theorem capture_fault (hfault : s.sys.fault = none) (c : Capture) : (s.capture c).sys.fault ≠ some .nullPointer := by
  have hnull := ne_nullPointer hfault
  unfold AppState.capture
  cases hcap : s.sys.plugin.recorder.onAudioCapture c with
  | error fault => exact fun hf => onAudioCapture_avoids _ c (hcap.trans (by rw [Option.some.inj hf]))
  | ok x =>
    obtain ⟨recorder, call⟩ := x
    cases call <;> exact hnull

/-- A capture that has come to `Client->Write` finds the client. -/
theorem speech_fault (h : Annotated s) (hfault : s.sys.fault = none) (ht : s.speech = some t) :
    t.sys.fault ≠ some .nullPointer := by
  have hnull := ne_nullPointer hfault
  unfold AppState.speech at ht
  split at ht
  · rename_i call _
    split at ht
    · cases ht
      exact hnull
    · rename_i fault hconv
      cases ht
      exact fun hf => convertSpeech_avoids _ call (hconv.trans (by rw [Option.some.inj hf]))
  · rename_i bytes haudio
    have hclient : s.HasClient := by
      by_contra hgone
      rcases h.empty hgone with hnone | ⟨hpc, hcall⟩
      · cases hnone.symm.trans haudio
      · have hpoint := h.point
        simp only [AppState.AtPoint, hpc, hcall] at hpoint
        exact hpoint.2 bytes haudio
    split at ht
    · cases ht
      exact hnull
    · rename_i fault hwrite
      cases ht
      exact fun hf => writeSpeech_avoids hclient bytes (hwrite.trans (by rw [Option.some.inj hf]))
  · cases ht

/-- **One step.** -/
theorem annotated_step {a : AppLabel} (h : Annotated s) (ht : app.step s a = some t) : Annotated t := by
  have hfault := fault_of_appStep ht
  cases AppState.step_of_appStep ht with
  | game hgame => exact annotated_game h hfault hgame
  | start hidle => exact annotated_begin h hidle rfl hfault (Or.inl rfl)
  | stop hidle => exact annotated_begin h hidle rfl hfault (Or.inr (Or.inl rfl))
  | tick hidle => exact annotated_begin h hidle rfl hfault (Or.inr (Or.inr (Or.inl rfl)))
  | connect _ hidle | sendText _ _ hidle => exact annotated_leave h hidle hfault (idle_iff.mp hidle).2
  | destroy hidle =>
    have hcall := (idle_iff.mp hidle).2
    have hs : Annotated { s with sys := { s.sys with ticker := false } } :=
      annotated_begin h hidle rfl hfault (Or.inr (Or.inr (Or.inr hcall)))
    have hpoint : ({ s with sys := { s.sys with ticker := false } }.goto (.stopRecorder .destructor)).AtPoint := hcall
    exact annotated_leave hs hidle hfault hpoint
  | capture c => exact (elsewhere_capture s c).annotated h (capture_fault hfault c)
  | speech hspeech => exact (elsewhere_speech hspeech).annotated h (speech_fault h hfault hspeech)
  | network a =>
    refine (elsewhere_onThread s a.change).annotated h ?_
    obtain ⟨client, -, hs⟩ := onThread_eq s a.change
    rw [hs]
    exact ne_nullPointer (s := s) hfault
  | threadEnds => exact (elsewhere_threadEnds s).annotated h (ne_nullPointer (s := s) hfault)

end Steps

/-- Where a point inside `Start`, `Stop` or `Tick` is reached from. -/
inductive IntoCall (s t : AppState) : AppLabel → Prop where
  | elsewhere {a : AppLabel} (h : Elsewhere s t) : IntoCall s t a
  | game (p : Platform) (hpc : s.pc = .calls) (hgame : s.sys.game p = some t.sys) : IntoCall s t (.game p)
  | start (hcall : t.sys.pc = .startTest) : IntoCall s t .callStart
  | stop (hcall : t.sys.pc = .stopRecorder) : IntoCall s t .callStop
  | tick (hcall : t.sys.pc = .tickTest) (hplugin : t.sys.plugin = s.sys.plugin) : IntoCall s t .callTick

theorem intoCall_step {s t : AppState} {a : AppLabel} (hs : Annotated s) (ht : app.step s a = some t) (hpc : t.pc = .calls)
    (hcall : t.sys.pc.loose = false) : IntoCall s t a := by
  cases AppState.step_of_appStep ht with
  | game hgame =>
    obtain ⟨hpc, hgame⟩ := game_inCall hs hgame hpc hcall
    exact .game _ hpc hgame
  | capture c => exact .elsewhere (elsewhere_capture s c)
  | speech hspeech => exact .elsewhere (elsewhere_speech hspeech)
  | network a => exact .elsewhere (elsewhere_onThread s a.change)
  | threadEnds => exact .elsewhere (elsewhere_threadEnds s)
  | start => exact .start rfl
  | stop => exact .stop rfl
  | tick => exact .tick rfl rfl
  | connect | sendText | destroy => cases hpc

theorem annotated_new : Annotated .new where
  point := trivial
  empty := fun _ => Or.inl rfl
  manned := fun hc => by cases hc
  fault := fun hf => by cases hf

theorem AppReach.annotated {s : AppState} (h : AppReach s) : Annotated s :=
  Machine.Reach.inv (fun _ _ _ => annotated_step) annotated_new h

/-! ## The theorem -/

end SpeechlyPlugin.Plugin
