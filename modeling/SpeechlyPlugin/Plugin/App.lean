import SpeechlyPlugin.Plugin.Calls
import SpeechlyPlugin.Recorder.Stream

/-!
# From the constructor to the destructor

The game calls `Connect`, `Start`, `Stop` and `SendText` in any order, and the ticker calls `Tick`.  Inside `Start`, `Stop`
and `Tick` the game thread runs the steps of `SysState.game`; what is new is the lock of the recorder and the life of the
client.  A capture is one step up to the test of `IsConnected`, one up to that of `bIsBuffering` and one for
`Client->Write`, and `Recorder.Start()` and `Recorder.Stop()` wait until it is over.  `Client.Reset` destroys the client;
`Kill` calls its `Stop` and waits for its thread.

Once a client has been destroyed under its thread, the behaviour of the source is undefined; the thread then does nothing
here.
-/

namespace SpeechlyPlugin.Plugin

open Engine Lib Client Recorder

/-! ## `OnSpeechAudio` in three steps -/

namespace USpeechly

variable (u : USpeechly)

/-- `OnSpeechAudio` after its first test, up to that of `bIsBuffering`: the bytes that are still to be sent. -/
def convertSpeech (call : SpeechAudio) : Except Fault (USpeechly × Option (List UInt8)) := do
  let u ← u.convertAudio call
  let bytes ← firstBytes u.charAudio (call.audioLength * 2)
  if u.bIsBuffering then
    return ({ u with audioBuffer := u.audioBuffer ++ bytes }, none)
  else
    return (u, some bytes)

/-- The rest of `OnSpeechAudio`, and the requests the client accepted. -/
def writeSpeech (bytes : List UInt8) : Except Fault (USpeechly × List SLURequest) := do
  if u.audioBuffer ≠ [] then
    let (u, accepted) ← u.writeAudio (u.audioBuffer ++ bytes)
    return ({ u with audioBuffer := [] }, accepted)
  else
    u.writeAudio bytes

/-- The steps make up the function. -/
theorem onSpeechAudio_eq (call : SpeechAudio) :
    u.onSpeechAudio call =
      if !u.isConnected || call.audioLength == 0 then .ok (u, [])
      else u.convertSpeech call >>= fun x =>
        match x.2 with
        | none => .ok (x.1, [])
        | some bytes => x.1.writeSpeech bytes := by
  unfold onSpeechAudio convertSpeech
  congr 1
  cases u.convertAudio call with
  | error fault => rfl
  | ok v =>
    simp only [ok_bind]
    cases firstBytes v.charAudio (call.audioLength * 2) with
    | error fault => rfl
    | ok bytes =>
      simp only [ok_bind]
      cases v.bIsBuffering <;> simp [writeSpeech, pure, Except.pure]

end USpeechly

/-! ## The machine -/

/-- Where the audio thread is in `OnSpeechAudio`; it holds the lock of the recorder. -/
inductive AudioPc where
  | convert (call : SpeechAudio)
  | write (bytes : List UInt8)

/-- The two that stop the recorder and kill the thread. -/
inductive Closing where
  | connect (languageCode : StdString)
  | destructor

/-- Where the game thread is. -/
inductive AppPc where
  /-- in `Start`, `Stop` or `Tick`, or in no call -/
  | calls
  /-- `Tick` has read a response -/
  | tickHandle (maxReads : ℕ) (locals : TickLocals) (r : SLUResponse)
  /-- `SendText`, with what the service replies and the new GUID -/
  | sendTextTest (reply : Option WLUResponse) (audioContext : StdString)
  | sendTextSync (reply : Option WLUResponse) (audioContext : StdString)
  /-- `Connect` and the destructor -/
  | stopRecorder (next : Closing)
  | kill (next : Closing)
  | join (next : Closing)
  | reset (languageCode : StdString)
  | createThread
  | members
  | destroyed

/-- What comes after the `if (ClientThread)`. -/
def Closing.pc : Closing → AppPc
  | .connect languageCode => .reset languageCode
  | .destructor => .members

/-- What the network thread does to the client. -/
inductive NetworkAct where
  | dequeue
  | respond (r : SLUResponse)
  | hasError
  | notRunning
  | errorMessage (message : FString)

def NetworkAct.change : NetworkAct → SpeechlyClient → SpeechlyClient
  | .dequeue => fun c => { c with requestQueue := c.requestQueue.tail }
  | .respond r => (·.enqueueResponse r)
  | .hasError => fun c => { c with bHasError := true }
  | .notRunning => (·.stop)
  | .errorMessage message => fun c => { c with errorMessage := message }

structure AppState where
  sys : SysState
  pc : AppPc
  /-- a capture that is under way -/
  audio : Option AudioPc
  /-- how many clients there have been; `Client` points to the last or is empty -/
  clients : ℕ
  /-- `ClientThread`: the number of the client the thread was created to run -/
  clientThread : Option ℕ
  /-- the thread has returned from `Run` and `Exit` -/
  ended : Bool

/-- The next step calls `Recorder.Start()` or `Recorder.Stop()`. -/
def GamePc.locks : GamePc → Bool
  | .startRecorder | .startStop | .stopRecorder => true
  | _ => false

namespace AppState

/-- The constructor. -/
def new : AppState where
  sys := { SysState.init .new with ticker := false }
  pc := .calls
  audio := none
  clients := 0
  clientThread := none
  ended := false

variable (s : AppState)

/-- The game thread is in no call. -/
def idle : Bool :=
  match s.pc, s.sys.pc with
  | .calls, .idle => true
  | _, _ => false

def goto (pc : AppPc) : AppState := { s with pc := pc }

def setPlugin (u : USpeechly) : AppState := { s with sys := { s.sys with plugin := u } }

def crash (e : Fault) : AppState := { s with sys := s.sys.crash e }

/-- Whether the client with this number is still there. -/
def clientExists (n : ℕ) : Bool := s.sys.plugin.client.isSome && n == s.clients

/-- A change of the client that `ClientThread` was created to run. -/
def onThread (f : SpeechlyClient → SpeechlyClient) : AppState :=
  match s.clientThread with
  | some n => if s.clientExists n then { s with sys := s.sys.onClient f } else s
  | none => s

/-- The thread has been created and has not ended. -/
def threadRuns : Bool := s.clientThread.isSome && !s.ended

/-! ### The game thread -/

/-- `Client->Read(Response)`. -/
def read (maxReads : ℕ) (locals : TickLocals) : AppState :=
  match s.sys.plugin.clientRead with
  | .ok none => { s with sys := s.sys.goto (.tickEnd locals) }
  | .ok (some (r, u)) => (s.setPlugin u).goto (.tickHandle maxReads locals r)
  | .error fault => s.crash fault

/-- The rest of a round of the loop of `Tick`. -/
def handle (maxReads : ℕ) (locals : TickLocals) (r : SLUResponse) : AppState :=
  let u := s.sys.plugin
  { s with
    sys := { s.sys with
      plugin := (u.handleResponse locals r).1
      pc := .tickRead maxReads (u.handleResponse locals r).2 }.observe (.handled r (u.stopsRecorder r))
    pc := .calls }

/-- `Client->WLUSync(…)`. -/
def sendText (reply : Option WLUResponse) (audioContext : StdString) : AppState :=
  match s.sys.plugin.client with
  | some c => (s.setPlugin { s.sys.plugin with client := some (c.wluSync reply audioContext).1 }).goto .calls
  | none => s.crash .nullPointer

/-- `Connect` from `SilenceCount = 0` to `Client.Reset(new SpeechlyClient(…))`. -/
def resetClient (languageCode : StdString) : AppState :=
  { s.setPlugin { s.sys.plugin with
      silenceCount := 0
      responses := .empty
      contextToKeys := .empty
      client := some (.new languageCode kSampleRate) } with
    clients := s.clients + 1, pc := .createThread }

/-- The next step of the game thread inside a call; `none` where it has to wait. -/
def game (p : Platform) : Option AppState :=
  match s.pc with
  | .calls =>
    match s.sys.pc with
    | .tickRead (maxReads + 1) locals => some (s.read maxReads locals)
    | pc => if pc.locks && s.audio.isSome then none else (s.sys.game p).map fun sys => { s with sys := sys }
  | .tickHandle maxReads locals r =>
    if s.sys.plugin.stopsRecorder r && s.audio.isSome then none else some (s.handle maxReads locals r)
  | .sendTextTest reply audioContext =>
    some (s.goto (if s.sys.plugin.isConnected then .sendTextSync reply audioContext else .calls))
  | .sendTextSync reply audioContext => some (s.sendText reply audioContext)
  | .stopRecorder next =>
    if s.audio.isSome then none
    else some ((s.setPlugin { s.sys.plugin with recorder := s.sys.plugin.recorder.stop }).goto (.kill next))
  | .kill next => some (if s.clientThread.isSome then (s.onThread (·.stop)).goto (.join next) else s.goto next.pc)
  | .join next => if s.ended then some ({ s with clientThread := none }.goto next.pc) else none
  | .reset languageCode => some (s.resetClient languageCode)
  | .createThread =>
    some { s with
      sys := { s.sys with ticker := true }
      pc := .calls, clientThread := some s.clients, ended := false }
  | .members => some ((s.setPlugin { s.sys.plugin with client := none }).goto .destroyed)
  | .destroyed => none

/-! ### The audio thread -/

/-- The audio thread calls `OnAudioCapture`, up to the test of `OnSpeechAudio`. -/
def capture (c : Capture) : AppState :=
  match s.sys.plugin.recorder.onAudioCapture c with
  | .error fault => s.crash fault
  | .ok (recorder, none) => s.setPlugin { s.sys.plugin with recorder := recorder }
  | .ok (recorder, some call) =>
    { s with
      sys := { s.sys with plugin := { s.sys.plugin with recorder := recorder } }.observe (.speechAudio call)
      audio := if !s.sys.plugin.isConnected || call.audioLength == 0 then none else some (.convert call) }

/-- The next step of the audio thread inside `OnSpeechAudio`. -/
def speech : Option AppState :=
  match s.audio with
  | some (.convert call) =>
    match s.sys.plugin.convertSpeech call with
    | .ok (u, bytes) => some { s.setPlugin u with audio := bytes.map .write }
    | .error fault => some (s.crash fault)
  | some (.write bytes) =>
    match s.sys.plugin.writeSpeech bytes with
    | .ok (u, accepted) =>
      some { s with sys := { s.sys with plugin := u, trace := s.sys.trace ++ accepted.map .accepted }, audio := none }
    | .error fault => some (s.crash fault)
  | none => none

end AppState

/-- Whose turn it is, and what the environment chooses. -/
inductive AppLabel where
  /-- a call of the game, or of the ticker -/
  | callConnect (languageCode : StdString)
  | callStart
  | callStop
  | callSendText (reply : Option WLUResponse) (audioContext : StdString)
  | callTick
  | destroy
  | game (p : Platform)
  /-- the audio thread -/
  | capture (c : Capture)
  | speech
  /-- the network thread -/
  | network (a : NetworkAct)
  | threadEnds

/-- One step of one thread; a fault ends the run. -/
def appStep (s : AppState) (a : AppLabel) : Option AppState :=
  if s.sys.fault.isSome then none
  else
    match a with
    | .callConnect languageCode => if s.idle then some (s.goto (.stopRecorder (.connect languageCode))) else none
    | .callStart => if s.idle then some { s with sys := (s.sys.goto .startTest).observe .start } else none
    | .callStop => if s.idle then some { s with sys := (s.sys.goto .stopRecorder).observe .stop } else none
    | .callSendText reply audioContext => if s.idle then some (s.goto (.sendTextTest reply audioContext)) else none
    | .callTick => if s.idle && s.sys.ticker then some { s with sys := s.sys.goto .tickTest } else none
    | .destroy =>
      if s.idle then some ({ s with sys := { s.sys with ticker := false } }.goto (.stopRecorder .destructor)) else none
    | .game p => s.game p
    | .capture c =>
      match s.audio, s.pc with
      | some _, _ => none
      | none, .destroyed => none
      | none, _ => some (s.capture c)
    | .speech => s.speech
    | .network a => if s.threadRuns then some (s.onThread a.change) else none
    | .threadEnds => if s.threadRuns then some { s with ended := true } else none

/-- The plugin from its constructor to its destructor, with its threads. -/
def app : Machine AppState AppLabel := ⟨appStep⟩

theorem fault_of_appStep {s t : AppState} {a : AppLabel} (h : app.step s a = some t) : s.sys.fault = none := by
  by_contra hfault
  simp [app, appStep, Option.isSome_iff_ne_none.mpr hfault] at h

/-- The states the plugin can get into. -/
def AppReach (s : AppState) : Prop := app.Reach .new s

/-! ## A step of the game thread -/

namespace AppState

variable {s t : AppState} {p : Platform}

/-- What a step of the game thread inside a call does. -/
inductive GameStep (s : AppState) (p : Platform) : AppState → Prop where
  | read {maxReads : ℕ} {locals : TickLocals} (hpc : s.pc = .calls) (hcall : s.sys.pc = .tickRead (maxReads + 1) locals) :
      GameStep s p (s.read maxReads locals)
  | call {sys : SysState} (hpc : s.pc = .calls) (hread : ∀ maxReads locals, s.sys.pc ≠ .tickRead (maxReads + 1) locals)
      (hlock : s.sys.pc.locks = true → s.audio = none) (hsys : s.sys.game p = some sys) :
      GameStep s p { s with sys := sys }
  | handle {maxReads : ℕ} {locals : TickLocals} {r : SLUResponse} (hpc : s.pc = .tickHandle maxReads locals r)
      (hlock : s.sys.plugin.stopsRecorder r = true → s.audio = none) : GameStep s p (s.handle maxReads locals r)
  | sendTextGoes {reply : Option WLUResponse} {audioContext : StdString} (hpc : s.pc = .sendTextTest reply audioContext)
      (hconn : s.sys.plugin.isConnected = true) : GameStep s p (s.goto (.sendTextSync reply audioContext))
  | sendTextEnds {reply : Option WLUResponse} {audioContext : StdString} (hpc : s.pc = .sendTextTest reply audioContext)
      (hconn : s.sys.plugin.isConnected = false) : GameStep s p (s.goto .calls)
  | sendText {reply : Option WLUResponse} {audioContext : StdString} (hpc : s.pc = .sendTextSync reply audioContext) :
      GameStep s p (s.sendText reply audioContext)
  | stopRecorder {next : Closing} (hpc : s.pc = .stopRecorder next) (haudio : s.audio = none) :
      GameStep s p ((s.setPlugin { s.sys.plugin with recorder := s.sys.plugin.recorder.stop }).goto (.kill next))
  | kill {next : Closing} (hpc : s.pc = .kill next) (hthread : s.clientThread.isSome = true) :
      GameStep s p ((s.onThread (·.stop)).goto (.join next))
  | noThread {next : Closing} (hpc : s.pc = .kill next) (hthread : s.clientThread = none) : GameStep s p (s.goto next.pc)
  | join {next : Closing} (hpc : s.pc = .join next) (hended : s.ended = true) :
      GameStep s p ({ s with clientThread := none }.goto next.pc)
  | reset {languageCode : StdString} (hpc : s.pc = .reset languageCode) : GameStep s p (s.resetClient languageCode)
  | createThread (hpc : s.pc = .createThread) :
      GameStep s p { s with
        sys := { s.sys with ticker := true }
        pc := .calls, clientThread := some s.clients, ended := false }
  | members (hpc : s.pc = .members) :
      GameStep s p ((s.setPlugin { s.sys.plugin with client := none }).goto .destroyed)

/-- **Inversion of a step.** -/
theorem gameStep (ht : s.game p = some t) : GameStep s p t := by
  cases hpc : s.pc <;> simp only [game, hpc] at ht
  case calls =>
    split at ht
    · rename_i maxReads locals hcall
      cases ht
      exact .read hpc hcall
    · rename_i hread
      split at ht
      · cases ht
      · rename_i hbusy
        obtain ⟨sys, hsys, rfl⟩ := Option.map_eq_some_iff.mp ht
        rw [← hpc]
        exact .call hpc (fun maxReads locals hcall => hread _ _ hcall) (fun hlock => by simpa [hlock] using hbusy) hsys
  case tickHandle maxReads locals r =>
    split at ht
    · cases ht
    · rename_i hbusy
      cases ht
      exact .handle hpc fun hstops => by simpa [hstops] using hbusy
  case sendTextTest reply audioContext =>
    cases ht
    cases hconn : s.sys.plugin.isConnected with
    | true => exact .sendTextGoes hpc hconn
    | false => exact .sendTextEnds hpc hconn
  case sendTextSync reply audioContext =>
    cases ht
    exact .sendText hpc
  case stopRecorder next =>
    split at ht
    · cases ht
    · rename_i haudio
      cases ht
      exact .stopRecorder hpc (by simpa using haudio)
  case kill next =>
    cases ht
    split
    · exact .kill hpc ‹_›
    · rename_i hthread
      exact .noThread hpc (by simpa using hthread)
  case join next =>
    split at ht
    · cases ht
      exact .join hpc ‹_›
    · cases ht
  case reset languageCode =>
    cases ht
    exact .reset hpc
  case createThread =>
    cases ht
    exact .createThread hpc
  case members =>
    cases ht
    exact .members hpc
  case destroyed => cases ht

/-- What a step of a thread does; no fault has ended the run. -/
inductive Step (s : AppState) : AppLabel → AppState → Prop where
  | connect (languageCode : StdString) (hidle : s.idle = true) :
      Step s (.callConnect languageCode) (s.goto (.stopRecorder (.connect languageCode)))
  | start (hidle : s.idle = true) : Step s .callStart { s with sys := (s.sys.goto .startTest).observe .start }
  | stop (hidle : s.idle = true) : Step s .callStop { s with sys := (s.sys.goto .stopRecorder).observe .stop }
  | sendText (reply : Option WLUResponse) (audioContext : StdString) (hidle : s.idle = true) :
      Step s (.callSendText reply audioContext) (s.goto (.sendTextTest reply audioContext))
  | tick (hidle : s.idle = true) (hticker : s.sys.ticker = true) : Step s .callTick { s with sys := s.sys.goto .tickTest }
  | destroy (hidle : s.idle = true) :
      Step s .destroy ({ s with sys := { s.sys with ticker := false } }.goto (.stopRecorder .destructor))
  | game {t : AppState} {p : Platform} (hgame : s.game p = some t) : Step s (.game p) t
  | capture (c : Capture) (haudio : s.audio = none) (hpc : s.pc ≠ .destroyed) : Step s (.capture c) (s.capture c)
  | speech {t : AppState} (hspeech : s.speech = some t) : Step s .speech t
  | network (a : NetworkAct) (hruns : s.threadRuns = true) : Step s (.network a) (s.onThread a.change)
  | threadEnds (hruns : s.threadRuns = true) : Step s .threadEnds { s with ended := true }

theorem step_of_appStep {a : AppLabel} (ht : app.step s a = some t) : Step s a t := by
  have hfault : ¬ s.sys.fault.isSome = true := by simp [fault_of_appStep ht]
  simp only [app, appStep, if_neg hfault] at ht
  cases a <;> dsimp only at ht
  case game p => exact .game ht
  case speech => exact .speech ht
  case capture c =>
    split at ht
    · cases ht
    · cases ht
    · rename_i haudio hpc
      cases ht
      exact .capture c haudio hpc
  all_goals
    split at ht <;> cases ht
    rename_i hguard
  case callConnect languageCode => exact .connect languageCode hguard
  case callStart => exact .start hguard
  case callStop => exact .stop hguard
  case callSendText reply audioContext => exact .sendText reply audioContext hguard
  case callTick => exact .tick ((Bool.and_eq_true _ _).mp hguard).1 ((Bool.and_eq_true _ _).mp hguard).2
  case destroy => exact .destroy hguard
  case network a => exact .network a hguard
  case threadEnds => exact .threadEnds hguard

end AppState

/-! ## `Connect` and `SendText` without interruption -/

section Connect

variable {s t : AppState} {a : AppLabel}

/-- The thread of the last client changes `Client`, if it is set. -/
theorem onThread_last (h : s.clientThread = some s.clients) (f : SpeechlyClient → SpeechlyClient) :
    s.onThread f = { s with sys := s.sys.onClient f } := by
  unfold AppState.onThread AppState.clientExists SysState.onClient
  simp only [h]
  cases hc : s.sys.plugin.client with
  | some c => simp
  | none =>
    obtain ⟨sys, pc, audio, clients, clientThread, ended⟩ := s
    obtain ⟨plugin, pc', started, ticker, fault, trace, broadcasts, bSuccess⟩ := sys
    obtain ⟨lastAudioContext, client, recorder⟩ := plugin
    simp only at h
    subst h
    cases hc
    rfl

theorem reach_game {u : AppState} {p : Platform} (h : app.Reach s t) (hfault : t.sys.fault = none)
    (hgame : t.game p = some u) : app.Reach s u := by
  refine h.step (a := .game p) ?_
  simp only [app, appStep, hfault, hgame]
  rfl

theorem idle_iff : s.idle = true ↔ s.pc = .calls ∧ s.sys.pc = .idle := by
  unfold AppState.idle
  constructor
  · intro h
    split at h
    · exact ⟨by assumption, by assumption⟩
    · cases h
  · rintro ⟨hpc, hsys⟩
    rw [hpc, hsys]

/-- What a step on the thread's client can change. -/
theorem onThread_eq (s : AppState) (f : SpeechlyClient → SpeechlyClient) :
    ∃ client : Option SpeechlyClient, client.isSome = s.sys.plugin.client.isSome ∧
      s.onThread f = s.setPlugin { s.sys.plugin with client := client } := by
  unfold AppState.onThread
  split
  · split
    · exact ⟨s.sys.plugin.client.map f, Option.isSome_map, rfl⟩
    · exact ⟨s.sys.plugin.client, rfl, rfl⟩
  · exact ⟨s.sys.plugin.client, rfl, rfl⟩

/-- The thread, if there is one, ends after the `Stop` of `Kill`. -/
theorem reach_kill {next : Closing} (h : app.Reach s t) (hfault : t.sys.fault = none) (hpc : t.pc = .kill next)
    (p : Platform) :
    ∃ client ended, app.Reach s
      ({ t.setPlugin { t.sys.plugin with client := client } with clientThread := none, ended := ended }.goto next.pc) := by
  have hgame : t.game p = some (if t.clientThread.isSome then (t.onThread (·.stop)).goto (.join next)
      else t.goto next.pc) := by simp only [AppState.game, hpc]
  cases hthread : t.clientThread with
  | none =>
    refine ⟨t.sys.plugin.client, t.ended, reach_game (p := p) h hfault (hgame.trans ?_)⟩
    rw [hthread]
    cases t
    cases hthread
    rfl
  | some n =>
    obtain ⟨client, -, hkill⟩ := onThread_eq t (·.stop)
    rw [hthread, Option.isSome_some, if_pos rfl, hkill] at hgame
    have hjoin := reach_game h hfault hgame
    have hwait : app.Reach s
        ({ t.setPlugin { t.sys.plugin with client := client } with ended := true }.goto (.join next)) := by
      cases hended : t.ended with
      | true =>
        cases t
        cases hended
        exact hjoin
      | false =>
        refine hjoin.step (a := .threadEnds) ?_
        simp only [app, appStep, AppState.goto, AppState.setPlugin, AppState.threadRuns, hfault, hthread, hended]
        rfl
    exact ⟨client, true, reach_game (p := p) hwait hfault rfl⟩

/-- What `Connect` makes of a state. -/
def AppState.connected (s : AppState) (languageCode : StdString) : AppState :=
  { s with
    sys := { s.sys with plugin := s.sys.plugin.connect languageCode, ticker := true }
    pc := .calls, clients := s.clients + 1, clientThread := some (s.clients + 1), ended := false }

/-- **`Connect`.** -/
theorem reach_connected (hfault : s.sys.fault = none) (hidle : s.idle = true) (haudio : s.audio = none) (p : Platform)
    (languageCode : StdString) : app.Reach s (s.connected languageCode) := by
  have hcall : app.Reach s (s.goto (.stopRecorder (.connect languageCode))) := by
    refine (Machine.Reach.refl s).step (a := .callConnect languageCode) ?_
    simp only [app, appStep, hfault, hidle]
    rfl
  have hstop : (s.goto (.stopRecorder (.connect languageCode))).game p = some
      ((s.setPlugin { s.sys.plugin with recorder := s.sys.plugin.recorder.stop }).goto (.kill (.connect languageCode))) := by
    show (if s.audio.isSome then none else some _) = some _
    rw [haudio]
    rfl
  obtain ⟨client, ended, hkill⟩ := reach_kill (reach_game hcall hfault hstop) hfault rfl p
  exact reach_game (p := p) (reach_game (p := p) hkill hfault rfl) hfault rfl

/-- **`SendText`** on a connected client; the reply is what the service answers to the request. -/
theorem reach_sendText {c : SpeechlyClient} (hfault : s.sys.fault = none) (hidle : s.idle = true)
    (hc : s.sys.plugin.client = some c) (hconn : s.sys.plugin.isConnected = true) (p : Platform)
    (service : WLURequest → Option WLUResponse) (audioContext : StdString) (text : FString) :
    ∃ u, s.sys.plugin.sendText service audioContext text = .ok u ∧ app.Reach s (s.setPlugin u) := by
  have hcall : app.Reach s (s.goto (.sendTextTest (service (c.wluRequest text.toUtf8)) audioContext)) := by
    refine (Machine.Reach.refl s).step
      (a := .callSendText (service (c.wluRequest text.toUtf8)) audioContext) ?_
    simp only [app, appStep, hfault, hidle]
    rfl
  have htest : (s.goto (.sendTextTest (service (c.wluRequest text.toUtf8)) audioContext)).game p =
      some (s.goto (.sendTextSync (service (c.wluRequest text.toUtf8)) audioContext)) := by
    show some (s.goto (if s.sys.plugin.isConnected then _ else _)) = _
    rw [hconn]
    rfl
  have hsync : (s.goto (.sendTextSync (service (c.wluRequest text.toUtf8)) audioContext)).game p =
      some (s.setPlugin { s.sys.plugin with
        client := some (c.wluSync (service (c.wluRequest text.toUtf8)) audioContext).1 }) := by
    simp only [AppState.game, AppState.goto, AppState.sendText, AppState.setPlugin, hc, (idle_iff.mp hidle).1]
  refine ⟨_, ?_, reach_game (reach_game hcall hfault htest) hfault hsync⟩
  unfold USpeechly.sendText
  rw [if_pos hconn, hc]

end Connect

/-! ## One connection -/

/-- A state of one connection, its client the `n`-th. -/
def AppState.ofSys (n : ℕ) (s : SysState) : AppState where
  sys := s
  pc := .calls
  audio := none
  clients := n
  clientThread := some n
  ended := false

section

variable {s t : SysState} {n : ℕ}

theorem idle_ofSys (hpc : s.pc = .idle) : (AppState.ofSys n s).idle = true := idle_iff.mpr ⟨rfl, hpc⟩

theorem onThread_ofSys (f : SpeechlyClient → SpeechlyClient) :
    (AppState.ofSys n s).onThread f = .ofSys n (s.onClient f) := onThread_last rfl f

/-- `t'` is what `t` is in a machine with smaller steps. -/
def AppState.Matches (n : ℕ) (t' : AppState) (t : SysState) : Prop :=
  t'.sys.fault = t.fault ∧ (t.fault = none → t' = .ofSys n t)

theorem AppState.Matches.refl (n : ℕ) (s : SysState) : (ofSys n s).Matches n s := ⟨rfl, fun _ => rfl⟩

theorem reach_network (hfault : s.fault = none) (a : NetworkAct) :
    app.Reach (.ofSys n s) (.ofSys n (s.onClient a.change)) := by
  refine (Machine.Reach.refl _).step (a := .network a) ?_
  have hruns : (AppState.ofSys n s).threadRuns = true := rfl
  have hsys : (AppState.ofSys n s).sys.fault = none := hfault
  simp only [app, appStep, hsys, hruns, onThread_ofSys]
  rfl

/-- The step of the audio thread, where it can be taken. -/
theorem reach_speech {v w u : AppState} (h : app.Reach v w) (hfault : w.sys.fault = none) (hstep : w.speech = some u) :
    app.Reach v u := by
  refine h.step (a := .speech) ?_
  simp only [app, appStep, hfault, hstep]
  rfl

/-- `OnSpeechAudio`, not interrupted. -/
theorem reach_onSpeechAudio {v : AppState} (hfault : s.fault = none) (call : SpeechAudio)
    (h : app.Reach v { AppState.ofSys n (s.observe (.speechAudio call)) with
      audio := if !s.plugin.isConnected || call.audioLength == 0 then none else some (.convert call) }) :
    ∃ t', app.Reach v t' ∧ t'.Matches n (s.speech call) := by
  unfold SysState.speech
  rw [USpeechly.onSpeechAudio_eq]
  cases htest : !s.plugin.isConnected || call.audioLength == 0 with
  | true =>
    rw [htest, if_pos rfl] at h
    rw [if_pos rfl]
    refine ⟨_, h, hfault.trans hfault.symm, fun _ => ?_⟩
    simp [AppState.ofSys, SysState.observe]
  | false =>
    rw [htest, if_neg Bool.false_ne_true] at h
    rw [if_neg Bool.false_ne_true]
    cases hconv : s.plugin.convertSpeech call with
    | error fault =>
      have hstep := reach_speech h hfault (by simp only [AppState.speech, AppState.ofSys, SysState.observe, hconv]; rfl)
      exact ⟨_, hstep, rfl, fun h => by cases h⟩
    | ok x =>
      obtain ⟨u, bytes⟩ := x
      have hstep := reach_speech h hfault (by simp only [AppState.speech, AppState.ofSys, SysState.observe, hconv]; rfl)
      cases bytes with
      | none =>
        refine ⟨_, hstep, hfault.trans hfault.symm, fun _ => ?_⟩
        simp [AppState.ofSys, AppState.setPlugin]
      | some bytes =>
        cases hwrite : u.writeSpeech bytes with
        | error fault =>
          have hlast := reach_speech hstep hfault (by simp only [AppState.speech, AppState.setPlugin, Option.map_some, hwrite]; rfl)
          refine ⟨_, hlast, ?_, fun h => ?_⟩
          · simp only [ok_bind, hwrite]
            rfl
          · simp only [ok_bind, hwrite] at h
            cases h
        | ok y =>
          obtain ⟨u', accepted⟩ := y
          have hlast := reach_speech hstep hfault (by simp only [AppState.speech, AppState.setPlugin, Option.map_some, hwrite]; rfl)
          refine ⟨_, hlast, ?_, fun _ => ?_⟩
          · simp only [ok_bind, hwrite]
          · simp only [ok_bind, hwrite]
            rfl

/-- A capture that is not interrupted. -/
theorem reach_capture (hfault : s.fault = none) (c : Capture) :
    ∃ t', app.Reach (.ofSys n s) t' ∧ t'.Matches n (s.capture c) := by
  have hstart : app.Reach (.ofSys n s) ((AppState.ofSys n s).capture c) := by
    refine (Machine.Reach.refl _).step (a := .capture c) ?_
    have hsys : (AppState.ofSys n s).sys.fault = none := hfault
    simp only [app, appStep, hsys]
    rfl
  unfold SysState.capture
  unfold AppState.capture at hstart
  have hrec : (AppState.ofSys n s).sys.plugin.recorder = s.plugin.recorder := rfl
  rw [hrec] at hstart
  cases hcap : s.plugin.recorder.onAudioCapture c with
  | error fault =>
    rw [hcap] at hstart
    exact ⟨_, hstart, rfl, fun h => by cases h⟩
  | ok x =>
    obtain ⟨recorder, call⟩ := x
    rw [hcap] at hstart
    cases call with
    | none => exact ⟨_, hstart, .refl _ _⟩
    | some call =>
      exact reach_onSpeechAudio (s := { s with plugin := { s.plugin with recorder := recorder } }) hfault call hstart

/-- One round of the loop of `Tick`, not interrupted. -/
theorem reach_readOne (hfault : s.fault = none) {maxReads : ℕ} {locals : TickLocals}
    (hpc : s.pc = .tickRead (maxReads + 1) locals) (p : Platform) :
    ∃ t', app.Reach (.ofSys n s) t' ∧ t'.Matches n (s.readOne maxReads locals) := by
  have hgame : (AppState.ofSys n s).game p = some ((AppState.ofSys n s).read maxReads locals) := by
    simp only [AppState.game, AppState.ofSys, hpc]
  have hstart := reach_game (Machine.Reach.refl (AppState.ofSys n s)) hfault hgame
  unfold SysState.readOne
  unfold AppState.read at hstart
  have hplugin : (AppState.ofSys n s).sys.plugin = s.plugin := rfl
  rw [hplugin] at hstart
  cases hread : s.plugin.clientRead with
  | error fault =>
    rw [hread] at hstart
    exact ⟨_, hstart, rfl, fun h => by cases h⟩
  | ok x =>
    rw [hread] at hstart
    cases x with
    | none => exact ⟨_, hstart, .refl _ _⟩
    | some x =>
      obtain ⟨r, u⟩ := x
      have hhandle := reach_game (p := p) hstart hfault (by
        simp only [AppState.game, AppState.goto, AppState.setPlugin, AppState.ofSys, Option.isSome_none, Bool.and_false]
        rfl)
      exact ⟨_, hhandle, .refl _ _⟩

/-- **The smaller steps.**  What one connection does with the steps of `sys`, the plugin can do. -/
theorem reach_sysStep {a : SysLabel} (hstep : sys.step s a = some t) :
    ∃ t', app.Reach (.ofSys n s) t' ∧ t'.Matches n t := by
  have hfault := fault_of_sysStep hstep
  have happ : (AppState.ofSys n s).sys.fault = none := hfault
  cases SysState.step_of_sysStep hstep with
  | start hpc =>
    refine ⟨_, (Machine.Reach.refl _).step (a := .callStart) ?_, .refl _ _⟩
    simp only [app, appStep, happ, idle_ofSys (n := n) hpc]
    rfl
  | stop hpc =>
    refine ⟨_, (Machine.Reach.refl _).step (a := .callStop) ?_, .refl _ _⟩
    simp only [app, appStep, happ, idle_ofSys (n := n) hpc]
    rfl
  | tick hpc hticker =>
    refine ⟨_, (Machine.Reach.refl _).step (a := .callTick) ?_, .refl _ _⟩
    have hticker : (AppState.ofSys n s).sys.ticker = true := hticker
    simp only [app, appStep, happ, idle_ofSys (n := n) hpc, hticker]
    rfl
  | @game _ p hgame =>
    by_cases hread : ∃ maxReads locals, s.pc = .tickRead (maxReads + 1) locals
    · obtain ⟨maxReads, locals, hpc⟩ := hread
      simp only [SysState.game, hpc] at hgame
      cases hgame
      exact reach_readOne hfault hpc p
    · have hsame : (AppState.ofSys n s).game p = (s.game p).map (AppState.ofSys n) := by
        simp only [AppState.game, AppState.ofSys]
        split
        · rename_i maxReads locals hpc
          exact absurd ⟨maxReads, locals, hpc⟩ hread
        · simp only [Option.isSome_none, Bool.and_false, Bool.false_eq_true, if_false]
          rfl
      rw [hgame] at hsame
      exact ⟨_, reach_game (Machine.Reach.refl _) hfault hsame, .refl _ _⟩
  | capture c => exact reach_capture hfault c
  | dequeue => exact ⟨_, reach_network hfault .dequeue, .refl _ _⟩
  | respond r => exact ⟨_, reach_network hfault (.respond r), .refl _ _⟩
  | hasError => exact ⟨_, reach_network hfault .hasError, .refl _ _⟩
  | notRunning => exact ⟨_, reach_network hfault .notRunning, .refl _ _⟩
  | errorMessage message => exact ⟨_, reach_network hfault (.errorMessage message), .refl _ _⟩

/-- Every state of the first connection is one the plugin can get into, but for the fault that ends a run. -/
theorem appReach_of_sys (p : Platform) (languageCode : StdString)
    (h : sys.Reach (.init (USpeechly.connect .new languageCode)) t) : ∃ t', AppReach t' ∧ t'.Matches 1 t := by
  have hconnect : AppReach (.ofSys 1 (.init (USpeechly.connect .new languageCode))) :=
    reach_connected (s := .new) rfl rfl rfl p languageCode
  refine h.inv (I := fun t => ∃ t', AppReach t' ∧ t'.Matches 1 t) ?_ ⟨_, hconnect, .refl _ _⟩
  rintro s a u ⟨s', hs, hmatches⟩ hstep
  have hfault := fault_of_sysStep hstep
  obtain ⟨u', hu, hu'⟩ := reach_sysStep (n := 1) hstep
  rw [← hmatches.2 hfault] at hu
  exact ⟨u', Machine.Reach.trans hs hu, hu'⟩

/-- Steps of the game thread on a 16 kHz device. -/
def gameSteps (n : ℕ) : List AppLabel := List.replicate n (.game (device 16000))

/-- The first `Connect`. -/
def connectOnce : List AppLabel := .callConnect [] :: gameSteps 4

end

end SpeechlyPlugin.Plugin
