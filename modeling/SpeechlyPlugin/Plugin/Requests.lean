import SpeechlyPlugin.Plugin.Stages
import SpeechlyPlugin.Plugin.Events
import SpeechlyPlugin.Recorder.Stream

/-!
# The requests of a connection

In every run the requests the client accepts are sessions, and the audio of a session encodes the first samples spoken
after the `Recorder.Start` it belongs to.
-/

namespace SpeechlyPlugin.Plugin

open Engine Lib Client Recorder

namespace SysState

variable {s t : SysState} {p : Platform}

/-! ## Steps that show in the view -/

theorem alive_of_live (h : s.view.live = true) : s.plugin.alive = true := ((Bool.and_eq_true _ _).mp h).2

theorem view_crash (fault : Fault) : (s.crash fault).view = { s.view with live := false } := rfl

theorem view_goto (pc : GamePc) : (s.goto pc).view = { s.view with stage := (s.goto pc).stage } := rfl

theorem view_finishCall (started b : Bool) :
    (s.finishCall started b).view = { s.view with stage := if started then .speaking else .resting } := rfl

theorem view_stopRecorder :
    s.stopRecorder.view = { s.view with bIsCapturing := false, spoken := (s.view.spoken.1, false) } := by
  rw [stopRecorder, view_observe]
  rfl

theorem inv_init (u : USpeechly) (languageCode : StdString) : (init (u.connect languageCode)).view.Inv where
  records := nofun
  spoken_open := rfl
  ops_nil := fun _ => rfl
  shut := nofun
  empty := nofun
  sessions := ⟨false, .nil, fun _ => rfl⟩
  prefixes := fun n p h => by simp [view, init, acceptedOf, payloads] at h
  live := fun _ => rfl

/-- A client that is not connected takes no requests. -/
theorem live_of_isConnected (h : s.plugin.isConnected = false) : s.view.live = false := by
  by_contra hlive
  rw [USpeechly.isConnected_of_alive (alive_of_live (by simpa using hlive))] at h
  cases h

theorem handleResponse_frame (u : USpeechly) (locals : TickLocals) (r : SLUResponse) :
    (u.handleResponse locals r).1.audioBuffer = u.audioBuffer ∧
      (u.handleResponse locals r).1.bIsBuffering = (u.bIsBuffering && !isStarted r.payload) ∧
      (u.handleResponse locals r).1.alive = u.alive := by
  refine ⟨?_, ?_, ?_⟩
  · cases hr : r.payload with
    | finished f =>
      simp only [USpeechly.handleResponse, hr, USpeechly.finishContext]
      split <;> rfl
    | _ => simp only [USpeechly.handleResponse, hr] <;> rfl
  · cases hr : r.payload with
    | finished f =>
      simp only [USpeechly.handleResponse, hr, USpeechly.finishContext, isStarted]
      split <;> simp
    | _ => simp [USpeechly.handleResponse, hr, isStarted, USpeechly.updateResponse, USpeechly.keyOfMessage]
  · simp only [USpeechly.alive, USpeechly.handleResponse_client]

/-- The game thread goes on within a stage. -/
theorem inv_goto (h : s.view.Inv) (pc : GamePc) (hstage : (s.goto pc).stage = s.stage) : (s.goto pc).view.Inv := by
  rw [view_goto, hstage]
  exact h

/-- `Tick` has handled a response. -/
theorem inv_handled (h : s.view.Inv) (hstage : s.stage = if s.started then .speaking else .resting) {u : USpeechly}
    (hlive : u.alive = true → s.plugin.alive = true) (hrecorder : u.recorder = s.plugin.recorder)
    (hbuf : u.bIsBuffering = s.plugin.bIsBuffering) (haudio : u.audioBuffer = s.plugin.audioBuffer)
    (maxReads : ℕ) (locals locals' : TickLocals) (r : SLUResponse) :
    ({ s with plugin := (u.handleResponse locals r).1, pc := .tickRead maxReads locals' }.observe
      (.handled r (u.stopsRecorder r))).view.Inv := by
  have hbetween : s.view.stage = .resting ∨ s.view.stage = .speaking := by
    show s.stage = .resting ∨ s.stage = .speaking
    rw [hstage]
    split <;> simp
  obtain ⟨hframe, hshut, halive⟩ := handleResponse_frame u locals r
  have hview : ({ s with plugin := (u.handleResponse locals r).1, pc := .tickRead maxReads locals' }.observe
      (.handled r (u.stopsRecorder r))).view = { s.view with
        live := s.fault.isNone && u.alive
        bIsBuffering := s.view.bIsBuffering && !isStarted r.payload
        ops := addOp s.view.ops (.handled r (u.stopsRecorder r))
        bIsCapturing := if u.stopsRecorder r then false else s.view.bIsCapturing
        spoken := addSpoken s.view.spoken (.handled r (u.stopsRecorder r)) } := by
    rw [view_observe]
    simp only [view, View.observe, addAccepted, hframe, hshut, halive, hbuf, haudio, USpeechly.handleResponse_recorder,
      hrecorder, View.mk.injEq, true_and]
    exact ⟨hstage.symm, by split <;> exact ⟨rfl, trivial⟩⟩
  rw [hview]
  have hdie := h.die (s.fault.isNone && u.alive) fun hl => by
    obtain ⟨hfault, hu⟩ := (Bool.and_eq_true _ _).mp hl
    exact (Bool.and_eq_true _ _).mpr ⟨hfault, hlive hu⟩
  have hopen : ({ s.view with
      live := s.fault.isNone && u.alive
      bIsBuffering := s.view.bIsBuffering && !isStarted r.payload
      ops := addOp s.view.ops (.handled r (u.stopsRecorder r)) } : View).Inv := by
    cases hr : isStarted r.payload with
    | false => simpa only [addOp, hr, Bool.not_false, Bool.and_true, Bool.false_eq_true, if_false] using hdie
    | true => simpa only [addOp, hr, Bool.not_true, Bool.and_false, if_true] using hdie.unlock hbetween
  cases hstop : u.stopsRecorder r with
  | false => simpa only [hstop, addSpoken, Bool.false_eq_true, if_false] using hopen
  | true => simpa only [hstop, addSpoken, if_true] using hopen.recorderStop

theorem stage_goto {isConnected : Bool} {pc : GamePc} (h : s.pc.Goes isConnected pc) : (s.goto pc).stage = s.stage := by
  unfold stage goto
  generalize s.pc = q at h
  cases h <;> rfl

/-- One step of the game thread. -/
theorem inv_game (h : s.view.Inv) (hfault : s.fault = none) (ht : s.game p = some t) : t.view.Inv := by
  have hlive {c : SpeechlyClient} (hc : s.plugin.client = some c) (hrefuses : c.refuses = false) :
      s.view.live = true := by
    simp only [view, USpeechly.alive, hc, hrefuses, hfault]
    rfl
  have hdead {c : SpeechlyClient} (hc : s.plugin.client = some c) (hrefuses : c.refuses = true) :
      s.view.live = false := by
    simp only [view, USpeechly.alive, hc, hrefuses, Bool.not_true, Bool.and_false]
  cases gameStep ht with
  | crash => exact h.lost
  | goto hpc => exact inv_goto h _ (stage_goto hpc)
  | noStart _ hconn => exact h.abandon (live_of_isConnected (s := s) hconn) (fun _ => rfl) (Or.inr (Or.inr rfl))
  | noStop hpc hconn =>
    have hstage : s.view.stage = .closing := by simp only [view, stage, hpc]
    exact h.abandon (live_of_isConnected (s := s) hconn)
      (fun hcap => absurd (h.records hcap) (by simp [hstage, Stage.records])) (Or.inr (Or.inl rfl))
  | buffering hpc =>
    have hstage : s.view.stage = .preparing := by simp only [view, stage, hpc]
    exact h.prepare (Or.inr (Or.inl hstage)) (Or.inr (Or.inl rfl)) (h.ops_nil (Or.inl hstage)) (fun _ => rfl)
      fun hst => by cases hst
  | empty hpc =>
    have hstage : s.view.stage = .shut := by simp only [view, stage, hpc]
    exact h.prepare (Or.inr (Or.inr hstage)) (Or.inr (Or.inr rfl)) (h.ops_nil (Or.inr (Or.inl hstage)))
      (fun _ => h.shut (Or.inl hstage)) (fun _ => rfl)
  | recorderStart hpc hstart =>
    have hstage : s.view.stage = .emptied := by simp only [view, stage, hpc]
    rw [view_observe]
    have hview := h.recorderStart hstage
    rw [← (start_ok hstart).1] at hview
    exact hview
  | refused hpc hc hrefuses =>
    generalize hat : s.pc = pc at hpc
    cases hpc with
    | start => exact h.abandon (hdead hc hrefuses) (fun _ => rfl) (Or.inl rfl)
    | stop =>
      have hstage : s.view.stage = .closing := by simp only [view, stage, hat]
      exact h.abandon (hdead hc hrefuses) (fun hcap => absurd (h.records hcap) (by simp [hstage, Stage.records]))
        (Or.inr (Or.inl rfl))
  | accepted hpc hc hrefuses =>
    rw [view_finishCall, view_observe]
    generalize hat : s.pc = pc at hpc
    cases hpc with
    | start =>
      have hstage : s.view.stage = .opening := by simp only [view, stage, hat]
      exact h.acceptStart hstage (hlive hc hrefuses)
    | stop =>
      have hstage : s.view.stage = .closing := by simp only [view, stage, hat]
      exact h.acceptStop hstage (hlive hc hrefuses)
  | startReset => exact h.abandon (Bool.and_false _) (fun _ => rfl) (Or.inl rfl)
  | stopReset hpc =>
    have hstage : s.view.stage = .resting := by simp only [view, stage, hpc]
    exact h.abandon (Bool.and_false _) (fun hcap => by have := h.records hcap; rwa [hstage] at this)
      (Or.inr (Or.inl rfl))
  | startStop hpc =>
    have hstage : s.view.stage = .failed := by simp only [view, stage, hpc]
    have hlost : s.view.live = false := by
      by_contra hl
      have hv := h.live (by simpa using hl)
      simp only [View.Live, hstage] at hv
    rw [view_finishCall, view_stopRecorder]
    exact h.recorderStop.abandon hlost (by simp) (Or.inr (Or.inr rfl))
  | stopRecorder hpc =>
    have hstage : s.view.stage = .speaking := by simp only [view, stage, hpc]
    rw [view_goto, view_stopRecorder]
    exact h.recorderStop.close hstage rfl
  | disconnected hpc =>
    have hstage : s.stage = if s.started then .speaking else .resting := by simp only [stage, hpc]
    exact inv_goto h .idle hstage.symm
  | noResponse hpc =>
    have hstage : s.stage = if s.started then .speaking else .resting := by simp only [stage, hpc]
    exact inv_goto h _ hstage.symm
  | handled hpc hc hrefuses _ hu =>
    have hstage : s.stage = if s.started then .speaking else .resting := by simp only [stage, hpc]
    have halive : s.plugin.alive = true := by simp only [USpeechly.alive, hc, hrefuses, Bool.not_false]
    exact inv_handled h hstage (fun _ => halive) (by rw [hu]) (by rw [hu]) (by rw [hu]) _ _ _ _
  | endTick hpc =>
    have hstage : s.stage = if s.started then .speaking else .resting := by simp only [stage, hpc]
    rw [endTick_frame]
    exact inv_goto h .idle hstage.symm

/-- `OnSpeechAudio` is called. -/
theorem inv_speech (h : s.view.Inv) (hfault : s.fault = none) (hcap : s.view.bIsCapturing = true) (call : SpeechAudio) :
    (s.speech call).view.Inv := by
  unfold speech
  cases hspeech : s.plugin.onSpeechAudio call with
  | error fault =>
    simp only
    rw [view_crash, view_observe]
    exact h.lost.speakDead hcap rfl call
  | ok x =>
    obtain ⟨u, accepted⟩ := x
    obtain ⟨hrecorder, -, hbuf, halive⟩ := USpeechly.onSpeechAudio_frame hspeech
    have hview : ({ s with plugin := u, trace := s.trace ++ [.speechAudio call] ++ accepted.map .accepted } :
        SysState).view = { s.view with
          bIsBuffering := u.bIsBuffering, audioBuffer := u.audioBuffer, accepted := s.view.accepted ++ accepted
          ops := s.view.ops ++ [.put call.samples], spoken := addSpoken s.view.spoken (.speechAudio call) } := by
      simp only [view, hrecorder, halive, spokenState_accepted, spokenState_concat, acceptedOf_accepted,
        acceptedOf_concat, ops_accepted, ops_concat]
      rfl
    simp only
    rw [hview]
    cases hlive : s.plugin.alive with
    | true =>
      refine h.speak hcap ?_ call fun g hg => USpeechly.onSpeechAudio_gate hlive hg hspeech
      simp only [view, hfault, hlive, Option.isNone_none, Bool.and_self]
    | false =>
      have hnone := USpeechly.onSpeechAudio_dead hlive hspeech
      subst hnone
      rw [List.append_nil]
      exact h.speakDead hcap (by simp only [view, hlive, Bool.and_false]) call

/-- The audio thread. -/
theorem inv_capture (h : s.view.Inv) (hfault : s.fault = none) (c : Capture) : (s.capture c).view.Inv := by
  unfold capture
  cases hcapture : s.plugin.recorder.onAudioCapture c with
  | error fault => exact h.lost
  | ok x =>
    obtain ⟨recorder, call⟩ := x
    have hcap := (SpeechRecorder.onAudioCapture_frame hcapture).2.2.1
    have hview : ({ s with plugin := { s.plugin with recorder := recorder } } : SysState).view = s.view := by
      simp only [view, hcap]
      rfl
    rw [← hview] at h
    cases call with
    | none => exact h
    | some call =>
      refine inv_speech h hfault ?_ call
      rw [hview]
      by_contra hidle
      have hnone := SpeechRecorder.onAudioCapture_idle (by simpa [view] using hidle) c
      rw [hcapture] at hnone
      cases hnone

/-- The network thread does not bring the client back. -/
theorem inv_onClient (h : s.view.Inv) {f : SpeechlyClient → SpeechlyClient}
    (hf : ∀ c, (f c).refuses = false → c.refuses = false) : (s.onClient f).view.Inv := by
  refine h.die (s.onClient f).view.live fun hl => ?_
  obtain ⟨hfault, halive⟩ := (Bool.and_eq_true _ _).mp hl
  refine (Bool.and_eq_true _ _).mpr ⟨hfault, ?_⟩
  simp only [onClient, USpeechly.alive] at halive ⊢
  cases hc : s.plugin.client with
  | none => simp [hc] at halive
  | some c =>
    simp only [hc, Option.map_some, Bool.not_eq_true'] at halive ⊢
    exact hf c halive

/-- **Every step keeps the invariant.** -/
theorem inv_step (s : SysState) (a : SysLabel) (t : SysState) (h : s.view.Inv) (ht : sys.step s a = some t) :
    t.view.Inv := by
  cases step_of_sysStep ht with
  | start hpc hstarted =>
    have hstage : s.view.stage = .resting := by simp only [view, stage, hpc, hstarted]; rfl
    rw [view_observe]
    exact h.prepare (Or.inl hstage) (Or.inl rfl) rfl (fun hst => by rcases hst with hst | hst <;> cases hst)
      fun hst => by cases hst
  | stop hpc hstarted =>
    have hstage : s.stage = .speaking := by simp only [stage, hpc, hstarted]; rfl
    rw [view_observe]
    exact inv_goto h .stopRecorder hstage.symm
  | tick hpc =>
    have hstage : s.stage = if s.started then .speaking else .resting := by simp only [stage, hpc]
    exact inv_goto h _ hstage.symm
  | game hgame => exact inv_game h (fault_of_sysStep ht) hgame
  | capture c => exact inv_capture h (fault_of_sysStep ht) c
  | _ =>
    exact inv_onClient h fun c hc => by
      simp_all [SpeechlyClient.refuses, SpeechlyClient.stop, SpeechlyClient.enqueueResponse]

theorem SysReach.inv (h : SysReach s) : s.view.Inv := by
  obtain ⟨u, languageCode, h⟩ := h
  exact h.inv (I := fun s => s.view.Inv) inv_step (inv_init u languageCode)

end SysState

/-! ## The theorem -/

/-- **The requests of a connection.**  In every run they are a prefix of sessions, and every payload is made of 16-bit
samples, the first of those spoken after the `Recorder.Start` of the session. -/
theorem requests_are_sessions {s : SysState} (h : SysReach s) :
    (∃ audio : List (List (List UInt8)), acceptedOf s.trace <+: audio.flatMap session) ∧
      ∀ (n : ℕ) (payload : List UInt8), (payloads (acceptedOf s.trace))[n]? = some payload →
        ∃ samples, (spoken s.trace)[n]? = some samples ∧ payload.length = 2 * (readShorts payload).length ∧
          readShorts payload <+: samples.map toSample := by
  have hinv := SysState.SysReach.inv h
  refine ⟨?_, fun n payload hn => ?_⟩
  · obtain ⟨b, hb, -⟩ := hinv.sessions
    exact hb.prefix
  · obtain ⟨samples, out, hsamples, rfl, hout⟩ := hinv.prefixes n payload hn
    refine ⟨samples, hsamples, ?_, ?_⟩
    · rw [length_encode, readShorts_encode, List.length_map]
    · rw [readShorts_encode]
      exact hout.map _

/-! ## Calls without interruption, on a 16 kHz device -/

def startCall : List SysLabel := .callStart :: List.replicate 5 (.game (device 16000))

def stopCall : List SysLabel := .callStop :: List.replicate 3 (.game (device 16000))

/-- A `Tick` that finds `n` responses, fewer than ten. -/
def tickCall (n : ℕ) : List SysLabel := .callTick :: List.replicate (n + 3) (.game (device 16000))

/-- A capture of `n` frames of the same value. -/
def hum (n : ℕ) : SysLabel := .capture (Capture.mono (List.replicate n (1 / 2)))

/-- A sample before `started` and one after it go out together. -/
theorem requests_are_sessions_hum :
    ∃ s, sys.run (.init (USpeechly.new.connect [])) (startCall ++ [hum 24, .respond ⟨[97], 0, .started⟩] ++ tickCall 1 ++
        [hum 1] ++ stopCall) = some s ∧
      acceptedOf s.trace = [.event .START, .audio [255, 63, 255, 63], .event .STOP] ∧
      ∃ samples, (spoken s.trace)[0]? = some samples ∧ [16383, 16383] <+: samples.map toSample := by
  have hrun : (sys.run (.init (USpeechly.new.connect [])) (startCall ++ [hum 24, .respond ⟨[97], 0, .started⟩] ++
      tickCall 1 ++ [hum 1] ++ stopCall)).map (fun s => acceptedOf s.trace) =
        some [.event .START, .audio [255, 63, 255, 63], .event .STOP] := by
    decide +kernel
  obtain ⟨s, hs, haccepted⟩ := Option.map_eq_some_iff.mp hrun
  obtain ⟨samples, hsamples, -, hprefix⟩ := (requests_are_sessions ⟨.new, [], _, hs⟩).2 0 [255, 63, 255, 63] (by
    rw [haccepted]
    decide)
  exact ⟨s, hs, haccepted, samples, hsamples, hprefix⟩

end SpeechlyPlugin.Plugin
