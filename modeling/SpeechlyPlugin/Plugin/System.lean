import SpeechlyPlugin.Lib.Machine
import SpeechlyPlugin.Lib.Trace
import SpeechlyPlugin.Plugin.Defs

/-!
# The plugin and its threads

The game thread calls `Start`, `Stop` and, through the ticker, `Tick`; the audio thread calls `OnAudioCapture`; the
network thread takes requests, brings responses and sets the fields of an error.  The game thread runs one step between
two accesses to what it shares with the others; a capture is one step, since the recorder holds its lock through
`OnSpeechAudio`, and waits for nothing else.

The fields below `ticker` are the history of the run.
-/

namespace SpeechlyPlugin.Plugin

open Engine Lib Client Recorder

/-- Where the game thread is. -/
inductive GamePc where
  | idle
  /-- `Start` -/
  | startTest
  | startBuffering
  | startEmpty
  | startRecorder
  | startWrite
  | startReset
  | startStop
  /-- `Stop` -/
  | stopRecorder
  | stopTest
  | stopWrite
  | stopReset
  /-- `Tick` -/
  | tickTest
  | tickDisconnected
  | tickRead (maxReads : ℕ) (locals : TickLocals)
  | tickEnd (locals : TickLocals)

/-- An event of a run. -/
inductive Obs where
  /-- `Start` is called -/
  | start
  /-- `Stop` is called -/
  | stop
  /-- `Recorder.Start()` returns -/
  | recorderStart
  /-- `Recorder.Stop()` returns, called by `Start` or `Stop` -/
  | recorderStop
  /-- `OnSpeechAudio` is called -/
  | speechAudio (call : SpeechAudio)
  /-- `Client->Write` enqueues a request and returns true -/
  | accepted (r : SLURequest)
  /-- `Tick` has read and handled a response, and stopped the recorder or not -/
  | handled (r : SLUResponse) (stopped : Bool)
  deriving DecidableEq

structure SysState where
  plugin : USpeechly
  pc : GamePc
  /-- the last of `Start` and `Stop` that has returned is `Start` -/
  started : Bool
  /-- the ticker calls `Tick` -/
  ticker : Bool
  /-- what has ended the program -/
  fault : Option Fault
  trace : List Obs
  broadcasts : List Broadcast
  /-- what the last call of `Start` or `Stop` has returned -/
  bSuccess : Option Bool

/-- Whether `Tick` stops the recorder on a response. -/
def USpeechly.stopsRecorder (u : USpeechly) (r : SLUResponse) : Bool :=
  match r.payload with
  | .finished _ => u.isActive (FString.ofCStr r.audioContext)
  | _ => false

theorem USpeechly.handleResponse_recorder (u : USpeechly) (locals : TickLocals) (r : SLUResponse) :
    (u.handleResponse locals r).1.recorder = if u.stopsRecorder r then u.recorder.stop else u.recorder := by
  cases hr : r.payload with
  | finished f =>
    simp only [handleResponse, stopsRecorder, hr, finishContext]
    cases u.isActive (FString.ofCStr r.audioContext) <;> rfl
  | _ =>
    simp only [handleResponse, stopsRecorder, hr]
    rfl

namespace SysState

/-- After `Connect`. -/
def init (u : USpeechly) : SysState where
  plugin := u
  pc := .idle
  started := false
  ticker := true
  fault := none
  trace := []
  broadcasts := []
  bSuccess := none

variable (s : SysState)

def goto (pc : GamePc) : SysState := { s with pc := pc }

def observe (o : Obs) : SysState := { s with trace := s.trace ++ [o] }

def crash (e : Fault) : SysState := { s with fault := some e }

/-- `return b`, from `Start` or `Stop`. -/
def finishCall (started b : Bool) : SysState := { s with pc := .idle, started := started, bSuccess := some b }

/-- `Recorder.Stop()`. -/
def stopRecorder : SysState :=
  { s with plugin := { s.plugin with recorder := s.plugin.recorder.stop } }.observe .recorderStop

/-- `Recorder.Start()`, called by `Start`. -/
def startRecorder (p : Platform) : SysState :=
  match s.plugin.recorder.start p with
  | .ok recorder => { s with plugin := { s.plugin with recorder := recorder }, pc := .startWrite }.observe .recorderStart
  | .error fault => s.crash fault

/-- `Client->Write` of an event: the call returns, or goes on to `refused`. -/
def writeEvent (e : SLUEvent) (refused : GamePc) : SysState :=
  match s.plugin.clientWrite (.event e) with
  | .ok (u, true) => ({ s with plugin := u }.observe (.accepted (.event e))).finishCall (e == SLUEvent.START) true
  | .ok (u, false) => { s with plugin := u, pc := refused }
  | .error fault => s.crash fault

/-- `Tick` without a connection. -/
def tickDisconnected : SysState :=
  match s.plugin.disconnected with
  | .ok b => { s with pc := .idle, ticker := false, broadcasts := s.broadcasts ++ [b] }
  | .error fault => s.crash fault

/-- One round of the loop of `Tick`. -/
def readOne (maxReads : ℕ) (locals : TickLocals) : SysState :=
  match s.plugin.clientRead with
  | .ok none => s.goto (.tickEnd locals)
  | .ok (some (r, u)) =>
    let (u', locals') := u.handleResponse locals r
    { s with plugin := u', pc := .tickRead maxReads locals' }.observe (.handled r (u.stopsRecorder r))
  | .error fault => s.crash fault

/-- The next step of the game thread inside a call. -/
def game (p : Platform) : Option SysState :=
  match s.pc with
  | .idle => none
  | .startTest => some (if s.plugin.isConnected then s.goto .startBuffering else s.finishCall true false)
  | .startBuffering => some { s with plugin := { s.plugin with bIsBuffering := true }, pc := .startEmpty }
  | .startEmpty => some { s with plugin := { s.plugin with audioBuffer := [] }, pc := .startRecorder }
  | .startRecorder => some (s.startRecorder p)
  | .startWrite => some (s.writeEvent .START .startReset)
  | .startReset => some { s with plugin := { s.plugin with client := none }, pc := .startStop }
  | .startStop => some (s.stopRecorder.finishCall true false)
  | .stopRecorder => some (s.stopRecorder.goto .stopTest)
  | .stopTest => some (if s.plugin.isConnected then s.goto .stopWrite else s.finishCall false false)
  | .stopWrite => some (s.writeEvent .STOP .stopReset)
  | .stopReset => some ({ s with plugin := { s.plugin with client := none } }.finishCall false false)
  | .tickTest => some (s.goto (if s.plugin.isConnected then .tickRead 10 .new else .tickDisconnected))
  | .tickDisconnected => some s.tickDisconnected
  | .tickRead 0 locals => some (s.goto (.tickEnd locals))
  | .tickRead (maxReads + 1) locals => some (s.readOne maxReads locals)
  | .tickEnd locals =>
    let (u, broadcasts) := s.plugin.endTick locals
    some { s with plugin := u, pc := .idle, broadcasts := s.broadcasts ++ broadcasts }

/-- The recorder calls `OnSpeechAudio`. -/
def speech (call : SpeechAudio) : SysState :=
  match s.plugin.onSpeechAudio call with
  | .error fault => (s.observe (.speechAudio call)).crash fault
  | .ok (u, accepted) =>
    { s with plugin := u, trace := s.trace ++ [.speechAudio call] ++ accepted.map .accepted }

/-- The audio thread calls `OnAudioCapture`. -/
def capture (c : Capture) : SysState :=
  match s.plugin.recorder.onAudioCapture c with
  | .error fault => s.crash fault
  | .ok (recorder, none) => { s with plugin := { s.plugin with recorder := recorder } }
  | .ok (recorder, some call) => { s with plugin := { s.plugin with recorder := recorder } }.speech call

/-- The network thread changes the client, if the client is still there. -/
def onClient (f : SpeechlyClient → SpeechlyClient) : SysState :=
  { s with plugin := { s.plugin with client := s.plugin.client.map f } }

end SysState

/-- Whose turn it is, and what the environment chooses. -/
inductive SysLabel where
  /-- the game calls `Start`, after `Stop` or for the first time -/
  | callStart
  /-- the game calls `Stop`, after `Start` -/
  | callStop
  | callTick
  | game (p : Platform)
  /-- the audio thread -/
  | capture (c : Capture)
  /-- the network thread: a request is taken, a response is there, the three writes of `SetError` -/
  | dequeue
  | respond (r : SLUResponse)
  | hasError
  | notRunning
  | errorMessage (message : FString)

/-- One step of one thread; a fault ends the run. -/
def sysStep (s : SysState) (a : SysLabel) : Option SysState :=
  if s.fault.isSome then none
  else
    match a with
    | .callStart =>
      match s.pc, s.started with
      | .idle, false => some ((s.goto .startTest).observe .start)
      | _, _ => none
    | .callStop =>
      match s.pc, s.started with
      | .idle, true => some ((s.goto .stopRecorder).observe .stop)
      | _, _ => none
    | .callTick =>
      match s.pc, s.ticker with
      | .idle, true => some (s.goto .tickTest)
      | _, _ => none
    | .game p => s.game p
    | .capture c => some (s.capture c)
    | .dequeue => some (s.onClient fun c => { c with requestQueue := c.requestQueue.tail })
    | .respond r => some (s.onClient (·.enqueueResponse r))
    | .hasError => some (s.onClient fun c => { c with bHasError := true })
    | .notRunning => some (s.onClient (·.stop))
    | .errorMessage message => some (s.onClient fun c => { c with errorMessage := message })

/-- The plugin, its threads and its environment. -/
def sys : Machine SysState SysLabel := ⟨sysStep⟩

/-- A fault ends a run. -/
theorem fault_of_sysStep {s t : SysState} {a : SysLabel} (h : sys.step s a = some t) : s.fault = none := by
  by_contra hfault
  simp [sys, sysStep, Option.isSome_iff_ne_none.mpr hfault] at h

/-- What a step of a thread does; no fault has ended the run. -/
inductive SysState.Step (s : SysState) : SysLabel → SysState → Prop where
  | start (hpc : s.pc = .idle) (hstarted : s.started = false) : Step s .callStart ((s.goto .startTest).observe .start)
  | stop (hpc : s.pc = .idle) (hstarted : s.started = true) : Step s .callStop ((s.goto .stopRecorder).observe .stop)
  | tick (hpc : s.pc = .idle) (hticker : s.ticker = true) : Step s .callTick (s.goto .tickTest)
  | game {t : SysState} {p : Platform} (hgame : s.game p = some t) : Step s (.game p) t
  | capture (c : Capture) : Step s (.capture c) (s.capture c)
  | dequeue : Step s .dequeue (s.onClient fun c => { c with requestQueue := c.requestQueue.tail })
  | respond (r : SLUResponse) : Step s (.respond r) (s.onClient (·.enqueueResponse r))
  | hasError : Step s .hasError (s.onClient fun c => { c with bHasError := true })
  | notRunning : Step s .notRunning (s.onClient (·.stop))
  | errorMessage (message : FString) :
      Step s (.errorMessage message) (s.onClient fun c => { c with errorMessage := message })

theorem SysState.step_of_sysStep {s t : SysState} {a : SysLabel} (ht : sys.step s a = some t) : Step s a t := by
  have hfault : ¬ s.fault.isSome = true := by simp [fault_of_sysStep ht]
  simp only [sys, sysStep, if_neg hfault] at ht
  cases a <;> dsimp only at ht
  case callStart =>
    split at ht <;> cases ht
    exact .start ‹_› ‹_›
  case callStop =>
    split at ht <;> cases ht
    exact .stop ‹_› ‹_›
  case callTick =>
    split at ht <;> cases ht
    exact .tick ‹_› ‹_›
  case game p => exact .game ht
  all_goals cases ht
  case capture c => exact .capture c
  case dequeue => exact .dequeue
  case respond r => exact .respond r
  case hasError => exact .hasError
  case notRunning => exact .notRunning
  case errorMessage message => exact .errorMessage message

/-- The states one connection can get into, whatever the object was like before `Connect`. -/
def SysReach (s : SysState) : Prop := ∃ u languageCode, sys.Reach (.init (USpeechly.connect u languageCode)) s

end SpeechlyPlugin.Plugin
