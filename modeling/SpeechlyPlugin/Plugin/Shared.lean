import SpeechlyPlugin.Client.Onward
import SpeechlyPlugin.Plugin.App
import SpeechlyPlugin.Plugin.Ticks

/-!
# What the plugin sees of its client

The sequence numbers, the flags and `Response` belong to the thread of the client; the plugin reads and writes the rest.
Seen from the plugin, a step of the network thread is one of the few things it can do to what they share.
-/

namespace SpeechlyPlugin.Client

open Engine

/-- The step is not one of `Write` and `Read`, which the plugin calls, and not one of gRPC. -/
def NetLabel.ofNetwork : NetLabel → Bool
  | .writeTest _ | .writeEnqueue _ | .readTest | .readDequeue | .complete _ _ _ => false
  | _ => true

namespace SpeechlyClient

variable (c : SpeechlyClient) (r : SLURequest)

/-- The client without the fields only its thread uses. -/
def shared : SpeechlyClient :=
  { c with
    stream := false, seq := 0, lastWriteSeq := 0, lastReadSeq := 0, bWriteAllowed := true, bReadAllowed := true
    response := default }

theorem shared_new (languageCode : StdString) (sampleRate : ℤ) :
    (new languageCode sampleRate).shared = new languageCode sampleRate := rfl

@[simp] theorem shared_refuses : c.shared.refuses = c.refuses := rfl

theorem shared_write : c.shared.write r = ((c.write r).1.shared, (c.write r).2) := by
  unfold write
  rw [shared_refuses]
  cases c.refuses <;> rfl

theorem shared_read : c.shared.read = c.read.map fun x => (x.1, x.2.shared) := by
  unfold read dequeueResponse
  have hq : c.shared.responseQueue = c.responseQueue := rfl
  rw [shared_refuses, hq]
  cases c.refuses <;> cases c.responseQueue <;> rfl

theorem shared_handleTag (tag : ℕ) : (c.handleTag tag).shared = c.shared := by rw [handleTag_eq]; rfl

end SpeechlyClient

end SpeechlyPlugin.Client

namespace SpeechlyPlugin.Plugin

open Engine Lib Client Recorder

/-! ## The plugin -/

namespace USpeechly

variable (u : USpeechly)

def shared : USpeechly := { u with client := u.client.map (·.shared) }

@[simp] theorem shared_isConnected : u.shared.isConnected = u.isConnected := by
  unfold isConnected shared
  cases u.client <;> rfl

theorem shared_clientWrite (r : SLURequest) :
    u.shared.clientWrite r = (fun x => (x.1.shared, x.2)) <$> u.clientWrite r := by
  unfold clientWrite shared
  cases u.client with
  | none => rfl
  | some c =>
    simp only [Option.map_some, SpeechlyClient.shared_write]
    rfl

theorem shared_clientRead :
    u.shared.clientRead = (fun x => x.map fun x => (x.1, x.2.shared)) <$> u.clientRead := by
  unfold clientRead shared
  cases u.client with
  | none => rfl
  | some c =>
    simp only [Option.map_some, SpeechlyClient.shared_read]
    cases c.read <;> rfl

theorem shared_disconnected : u.shared.disconnected = u.disconnected := by
  unfold disconnected shared
  cases u.client <;> rfl

theorem shared_handleResponse (locals : TickLocals) (r : SLUResponse) :
    u.shared.handleResponse locals r = ((u.handleResponse locals r).1.shared, (u.handleResponse locals r).2) := by
  rw [shared, handleResponse_withClient, shared, handleResponse_client]

theorem shared_endTick (locals : TickLocals) :
    u.shared.endTick locals = ((u.endTick locals).1.shared, (u.endTick locals).2) := by
  have hfold : ∀ (contexts : List FString) (u : USpeechly),
      contexts.foldl removeContext u.shared = (contexts.foldl removeContext u).shared := by
    intro contexts
    induction contexts with
    | nil => exact fun _ => rfl
    | cons context contexts ih => exact fun u => ih (u.removeContext context)
  exact Prod.ext (hfold _ u) rfl

theorem shared_convertAudio (call : SpeechAudio) : u.shared.convertAudio call = shared <$> u.convertAudio call := by
  unfold convertAudio
  simp only [map_bind]
  rfl

theorem shared_writeAudio (bytes : List UInt8) :
    u.shared.writeAudio bytes = (fun x => (x.1.shared, x.2)) <$> u.writeAudio bytes := by
  unfold writeAudio
  simp only [shared_clientWrite, map_bind, bind_map_left]
  rfl

theorem shared_onSpeechAudio (call : SpeechAudio) :
    u.shared.onSpeechAudio call = (fun x => (x.1.shared, x.2)) <$> u.onSpeechAudio call := by
  unfold onSpeechAudio
  rw [shared_isConnected, shared_convertAudio]
  split
  · rfl
  · simp only [map_bind, bind_map_left]
    refine bind_congr fun v => bind_congr fun bytes => ?_
    have hbuf : v.shared.bIsBuffering = v.bIsBuffering := rfl
    have haudio : v.shared.audioBuffer = v.audioBuffer := rfl
    simp only [hbuf, haudio, shared_writeAudio, bind_map_left]
    split
    · rfl
    · split
      · simp only [map_bind]
        rfl
      · rfl

end USpeechly

namespace SysState

variable {s t : SysState}

def shared (s : SysState) : SysState := { s with plugin := s.plugin.shared }

/-! ## One step -/

theorem shared_onClient (f : SpeechlyClient → SpeechlyClient) (hf : ∀ c, (f c).shared = f c.shared) :
    (s.onClient f).shared = s.shared.onClient f := by
  simp only [shared, onClient, USpeechly.shared, Option.map_map]
  congr 3
  exact funext hf

theorem shared_writeEvent (e : SLUEvent) (refused : GamePc) :
    s.shared.writeEvent e refused = (s.writeEvent e refused).shared := by
  unfold writeEvent
  have hplugin : s.shared.plugin = s.plugin.shared := rfl
  rw [hplugin, USpeechly.shared_clientWrite]
  cases s.plugin.clientWrite (.event e) with
  | error fault => rfl
  | ok x =>
    obtain ⟨u, b⟩ := x
    cases b <;> rfl

theorem shared_tickDisconnected : s.shared.tickDisconnected = s.tickDisconnected.shared := by
  unfold tickDisconnected
  have hplugin : s.shared.plugin = s.plugin.shared := rfl
  rw [hplugin, USpeechly.shared_disconnected]
  cases s.plugin.disconnected <;> rfl

theorem shared_readOne (maxReads : ℕ) (locals : TickLocals) :
    s.shared.readOne maxReads locals = (s.readOne maxReads locals).shared := by
  unfold readOne
  have hplugin : s.shared.plugin = s.plugin.shared := rfl
  rw [hplugin, USpeechly.shared_clientRead]
  cases s.plugin.clientRead with
  | error fault => rfl
  | ok x =>
    cases x with
    | none => rfl
    | some x =>
      obtain ⟨r, u⟩ := x
      show SysState.observe { s.shared with
        plugin := (u.shared.handleResponse locals r).1, pc := .tickRead maxReads (u.shared.handleResponse locals r).2 }
        (.handled r (u.shared.stopsRecorder r)) = _
      rw [USpeechly.shared_handleResponse]
      rfl

theorem shared_startRecorder (p : Platform) : s.shared.startRecorder p = (s.startRecorder p).shared := by
  unfold startRecorder
  have hrecorder : s.shared.plugin.recorder = s.plugin.recorder := rfl
  rw [hrecorder]
  cases s.plugin.recorder.start p <;> rfl

theorem shared_game (p : Platform) : s.shared.game p = (s.game p).map shared := by
  have hconn : s.shared.plugin.isConnected = s.plugin.isConnected := s.plugin.shared_isConnected
  have hpc : s.shared.pc = s.pc := rfl
  unfold game
  rw [hpc]
  cases s.pc with
  | idle => rfl
  | startTest =>
    simp only [hconn]
    cases s.plugin.isConnected <;> rfl
  | startRecorder => exact congrArg some (shared_startRecorder p)
  | startWrite => exact congrArg some (shared_writeEvent _ _)
  | stopTest =>
    simp only [hconn]
    cases s.plugin.isConnected <;> rfl
  | stopWrite => exact congrArg some (shared_writeEvent _ _)
  | tickTest =>
    simp only [hconn]
    rfl
  | tickDisconnected => exact congrArg some shared_tickDisconnected
  | tickRead maxReads locals =>
    cases maxReads with
    | zero => rfl
    | succ maxReads => exact congrArg some (shared_readOne maxReads locals)
  | tickEnd locals =>
    have hplugin : s.shared.plugin = s.plugin.shared := rfl
    simp only [hplugin, USpeechly.shared_endTick]
    rfl
  | _ => rfl

theorem shared_speech (call : SpeechAudio) : s.shared.speech call = (s.speech call).shared := by
  unfold speech
  have hplugin : s.shared.plugin = s.plugin.shared := rfl
  rw [hplugin, USpeechly.shared_onSpeechAudio]
  cases s.plugin.onSpeechAudio call <;> rfl

theorem shared_capture (c : Capture) : s.shared.capture c = (s.capture c).shared := by
  unfold capture
  have hrecorder : s.shared.plugin.recorder = s.plugin.recorder := rfl
  rw [hrecorder]
  cases s.plugin.recorder.onAudioCapture c with
  | error fault => rfl
  | ok x =>
    obtain ⟨recorder, call⟩ := x
    cases call with
    | none => rfl
    | some call => exact shared_speech (s := { s with plugin := { s.plugin with recorder := recorder } }) call

/-- **The plugin does not see what only the thread of its client uses.** -/
theorem shared_step {a : SysLabel} (ht : sys.step s a = some t) : sys.step s.shared a = some t.shared := by
  have hfault : s.shared.fault = s.fault := rfl
  have hpc : s.shared.pc = s.pc := rfl
  simp only [sys, sysStep, hfault] at ht ⊢
  split at ht
  · cases ht
  · rename_i hrunning
    rw [if_neg hrunning]
    cases a <;> dsimp only at ht ⊢
    case callStart | callStop =>
      have hstarted : s.shared.started = s.started := rfl
      rw [hpc, hstarted]
      split at ht <;> cases ht
      rfl
    case callTick =>
      have hticker : s.shared.ticker = s.ticker := rfl
      rw [hpc, hticker]
      split at ht <;> cases ht
      rfl
    case game p => rw [shared_game, ht]; rfl
    case capture c => cases ht; rw [shared_capture]
    all_goals
      cases ht
      refine congrArg some (shared_onClient _ ?_).symm
      exact fun _ => rfl

end SysState

/-! ## The network thread -/

/-- Acts of the network thread, one after the other. -/
def NetworkAct.changes (acts : List NetworkAct) (c : SpeechlyClient) : SpeechlyClient := acts.foldl (fun c a => a.change c) c

/-- The calls of `Write` and `Read`: what they have accepted and returned, and those under way. -/
def calls (s : NetState) : List SLURequest × List SLUResponse × List SLURequest × Bool :=
  (s.accepted, s.returned, s.writers, s.reader)

/-- From `s` to `t` the network thread acts on what it shares with the plugin, and on nothing else of that. -/
structure Acts (s t : NetState) : Prop where
  changes : ∃ acts, t.client.shared = NetworkAct.changes acts s.client.shared
  calls : calls t = calls s
  received : t.received = s.received

section

open NetState

variable {s t u : NetState}

theorem Acts.same (h : t.client.shared = s.client.shared) (hcalls : Plugin.calls t = Plugin.calls s)
    (hreceived : t.received = s.received) : Acts s t := ⟨⟨[], h⟩, hcalls, hreceived⟩

theorem Acts.one (a : NetworkAct) (h : t.client.shared = a.change s.client.shared)
    (hcalls : Plugin.calls t = Plugin.calls s) (hreceived : t.received = s.received) : Acts s t :=
  ⟨⟨[a], h⟩, hcalls, hreceived⟩

theorem Acts.trans (h : Acts s t) (h' : Acts t u) : Acts s u := by
  obtain ⟨⟨l, h⟩, hcalls, hreceived⟩ := h
  obtain ⟨⟨l', h'⟩, hcalls', hreceived'⟩ := h'
  refine ⟨⟨l ++ l', ?_⟩, hcalls'.trans hcalls, hreceived'.trans hreceived⟩
  rw [h', h, NetworkAct.changes, NetworkAct.changes, NetworkAct.changes, List.foldl_append]

theorem acts_streamWrite {r : SLURequest} (h : s.streamWrite r = .ok t) : Acts s t := by
  cases (check_bind_eq_ok (check_bind_eq_ok h).2).2
  exact .same rfl rfl rfl

theorem acts_streamRead (h : s.streamRead = .ok t) : Acts s t := by
  cases (check_bind_eq_ok (check_bind_eq_ok h).2).2
  exact .same rfl rfl rfl

theorem acts_orCrash {x : Except Fault NetState} (h : ∀ t, x = .ok t → Acts s t) : Acts s (s.orCrash x) := by
  cases x with
  | ok t => exact h t rfl
  | error _ => exact .same rfl rfl rfl

theorem acts_postRead (s : NetState) (pc : Pc) : Acts s (s.postRead pc) := by
  unfold NetState.postRead
  split
  · refine acts_orCrash fun t ht => ?_
    have hgoto : Acts s (s.goto pc) := .same rfl rfl rfl
    exact hgoto.trans (acts_streamRead ht)
  · exact .same rfl rfl rfl

theorem acts_pump (s : NetState) : Acts s s.pump := by
  unfold NetState.pump SpeechlyClient.dequeueRequest
  split
  · cases hq : s.client.requestQueue with
    | nil => exact .same rfl rfl rfl
    | cons r rs =>
      have hdequeue : Acts s { s with client := { s.client with requestQueue := rs }, pc := .loopRead } := by
        refine .one .dequeue ?_ rfl rfl
        have htail : s.client.shared.requestQueue.tail = rs := congrArg List.tail hq
        simp only [NetworkAct.change, htail]
        rfl
      show Acts s (s.orCrash _)
      exact acts_orCrash fun t ht => hdequeue.trans (acts_streamWrite ht)
  · exact .same rfl rfl rfl

theorem acts_thread (ht : s.thread = some t) : Acts s t := by
  unfold NetState.thread at ht
  cases hpc : s.pc <;> simp only [hpc, reduceCtorEq, Option.some.injEq] at ht
  case configure =>
    subst ht
    refine acts_orCrash fun t ht => ?_
    have hgoto : Acts s (s.goto .awaitConfig) := .same rfl rfl rfl
    exact hgoto.trans (acts_streamWrite ht)
  case loopWrite =>
    subst ht
    exact acts_pump s
  case loopRead | drainRead =>
    subst ht
    exact acts_postRead s _
  case exit =>
    split at ht
    · cases ht
      split <;> exact .same rfl rfl rfl
    · cases ht
      exact .same rfl rfl rfl
  all_goals
    subst ht
    exact .same rfl rfl rfl

/-- The three writes of `SetError`. -/
theorem acts_fail (s : NetState) (message : String) : Acts s (s.fail message) :=
  ⟨⟨[.hasError, .notRunning, .errorMessage (FString.lit message)], rfl⟩, rfl, rfl⟩

theorem acts_handleTag (s : NetState) (phase : Phase) (tag : ℕ) (ok : Bool) :
    Acts s ((s.take phase tag ok).handleTag tag) := .same (SpeechlyClient.shared_handleTag _ tag) rfl rfl

theorem acts_mainEvent (s : NetState) (tag : ℕ) (ok : Bool) : Acts s (s.mainEvent tag ok) := by
  unfold NetState.mainEvent
  split
  · cases ok
    · exact acts_fail s _
    · exact .same rfl rfl rfl
  · split
    · cases ok
      · exact acts_fail s _
      · exact .one (.respond s.client.response) rfl rfl rfl
    · cases ok
      · have hlog : Acts s (s.logLine "Speechly unknown tag") := .same rfl rfl rfl
        exact hlog.trans (acts_fail _ _)
      · exact .same rfl rfl rfl

theorem acts_gotEvent {tag : ℕ} {ok : Bool} (ht : s.gotEvent tag ok = some t) : Acts s t := by
  unfold NetState.gotEvent at ht
  cases hpc : s.pc <;> simp only [hpc, reduceCtorEq, Option.some.injEq] at ht
  case awaitOpen streamSeq =>
    split at ht <;> cases ht
    · exact .one .hasError rfl rfl rfl
    · exact .same rfl rfl rfl
  case awaitConfig =>
    have htag := acts_handleTag s .configuring tag ok
    split at ht <;> cases ht
    · exact htag.trans (acts_fail _ _)
    · exact htag.trans (.same rfl rfl rfl)
  case loopNext =>
    subst ht
    exact (acts_handleTag s .main tag ok).trans (acts_mainEvent _ tag ok)
  case drainNext =>
    subst ht
    exact (acts_handleTag s .draining tag ok).trans (.same rfl rfl rfl)
  case awaitFinish finishDoneSeq =>
    split at ht <;> cases ht <;> exact .same rfl rfl rfl
  case awaitShutdown =>
    subst ht
    exact .same rfl rfl rfl

theorem acts_timeout (ht : s.timeout = some t) : Acts s t := by
  unfold NetState.timeout at ht
  cases hpc : s.pc <;> simp only [hpc, reduceCtorEq, Option.some.injEq] at ht <;> subst ht <;> exact .same rfl rfl rfl

theorem acts_drained (ht : s.drained = some t) : Acts s t := by
  unfold NetState.drained at ht
  cases hpc : s.pc <;> simp only [hpc, reduceCtorEq, Option.some.injEq] at ht <;> subst ht
  case awaitOpen => exact .one .hasError rfl rfl rfl
  case awaitConfig => exact acts_fail s _
  case loopNext => exact .one .notRunning rfl rfl rfl
  all_goals exact .same rfl rfl rfl

/-- **Every step but those of `Write`, `Read` and gRPC.** -/
theorem acts_step {a : NetLabel} (ha : a.ofNetwork = true) (ht : netStep s a = some t) : Acts s t := by
  cases netStep_cases ht with
  | thread ht => exact acts_thread ht
  | next ht =>
    obtain ⟨p, ok, -, -, -, ht⟩ := next_cases ht
    have htaken : Acts s { s with inflight := s.inflight.erase p } := .same rfl rfl rfl
    exact htaken.trans (acts_gotEvent ht)
  | timeout ht => exact acts_timeout ht
  | drained _ _ ht => exact acts_drained ht
  | @wluEnqueue r => exact .one (.respond r) rfl rfl rfl
  | stop => exact .one .notRunning rfl rfl rfl
  | _ => cases ha

end

/-- The step of the network thread that an act is. -/
def NetworkAct.label : NetworkAct → SysLabel
  | .dequeue => .dequeue
  | .respond r => .respond r
  | .hasError => .hasError
  | .notRunning => .notRunning
  | .errorMessage message => .errorMessage message

theorem onClient_onClient (s : SysState) (f g : SpeechlyClient → SpeechlyClient) :
    (s.onClient f).onClient g = s.onClient fun c => g (f c) := by
  simp only [SysState.onClient, Option.map_map]
  rfl

/-- Acts of the network thread are steps of the plugin's environment. -/
theorem reach_changes {s : SysState} (hfault : s.fault = none) (acts : List NetworkAct) :
    sys.Reach s (s.onClient (NetworkAct.changes acts)) := by
  induction acts generalizing s with
  | nil =>
    have hsame : s.onClient (NetworkAct.changes []) = s := by
      simp only [SysState.onClient]
      have hid : s.plugin.client.map (NetworkAct.changes []) = s.plugin.client := Option.map_id'
      rw [hid]
    rw [hsame]
    exact .refl s
  | cons a acts ih =>
    have hstep : sys.step s a.label = some (s.onClient a.change) := by
      cases a <;> simp only [sys, sysStep, hfault, NetworkAct.label] <;> rfl
    refine (Machine.Reach.refl s).step hstep |>.trans ?_
    have hnext := ih (s := s.onClient a.change) hfault
    rw [onClient_onClient] at hnext
    exact hnext

end SpeechlyPlugin.Plugin
