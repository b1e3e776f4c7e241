import SpeechlyPlugin.Client.Defs
import SpeechlyPlugin.Lib.KeyMap
import SpeechlyPlugin.Plugin.Samples

/-!
# The plugin: `USpeechly`

The object the game owns: the client, the recorder, the audio that waits for the server, and what has been said so far.
`Tick` folds the responses of the server into `responses` and broadcasts what has changed; `OnSpeechAudio` turns samples
into requests.  The maps and sets are those of the engine: their `FString` keys are compared without case.
-/

namespace SpeechlyPlugin.Plugin

open Engine Lib Client Recorder

/-- `sg::kSampleRate`. -/
def kSampleRate : ℤ := 16000

/-- `FSpeechlyResponse`. -/
structure FSpeechlyResponse where
  transcript : FString
  entities : KeyMap FString FString
  intent : FString
  bIsFinal : Bool

/-- A new element of a `TMap` is value-initialised. -/
instance : Inhabited FSpeechlyResponse := ⟨⟨default, default, default, false⟩⟩

/-- `USpeechly`; the pointer `Client` may be empty. -/
structure USpeechly where
  lastAudioContext : FString
  client : Option SpeechlyClient
  recorder : SpeechRecorder
  charAudio : List UInt8
  audioBuffer : List UInt8
  bIsBuffering : Bool
  silenceCount : ℤ
  responses : KeyMap FString FSpeechlyResponse
  contextToKeys : KeyMap FString (KeySet FString)

/-- A call of one of the two delegates. -/
inductive Broadcast where
  | response (key : FString) (response : FSpeechlyResponse)
  | error (key error : FString)

/-- The sets and the map `Tick` fills while it reads. -/
structure TickLocals where
  changedKeys : KeySet FString
  finishedContexts : KeySet FString
  errors : KeyMap FString FString

def TickLocals.new : TickLocals := ⟨.empty, .empty, .empty⟩

/-- `has_started()`. -/
def isStarted : Payload → Bool
  | .started => true
  | _ => false

/-- `has_finished()`. -/
def isFinished : Payload → Bool
  | .finished _ => true
  | _ => false

namespace USpeechly

/-- The constructor, on zeroed memory. -/
def new : USpeechly where
  lastAudioContext := default
  client := none
  recorder := .new 1024 16000
  charAudio := []
  audioBuffer := []
  bIsBuffering := false
  silenceCount := 0
  responses := .empty
  contextToKeys := .empty

variable (u : USpeechly)

/-! ## The client -/

/-- The part of `Connect` that changes fields of the model: a new client, and nothing left of the old results. -/
def connect (languageCode : StdString) : USpeechly :=
  { u with
    recorder := u.recorder.stop
    silenceCount := 0
    responses := .empty
    contextToKeys := .empty
    client := some (.new languageCode kSampleRate) }

def isConnected : Bool :=
  match u.client with
  | some c => !c.bHasError
  | none => false

/-- `Client->Write(Request)`. -/
def clientWrite (r : SLURequest) : Except Fault (USpeechly × Bool) :=
  match u.client with
  | some c => .ok ({ u with client := some (c.write r).1 }, (c.write r).2)
  | none => .error .nullPointer

/-- `Client->Read(Response)`. -/
def clientRead : Except Fault (Option (SLUResponse × USpeechly)) :=
  match u.client with
  | some c => .ok (c.read.map fun x => (x.1, { u with client := some x.2 }))
  | none => .error .nullPointer

/-- `USpeechly::SendText`: `service` answers the request, `audioContext` is the new GUID. -/
def sendText (service : WLURequest → Option WLUResponse) (audioContext : StdString) (text : FString) :
    Except Fault USpeechly :=
  if u.isConnected then
    match u.client with
    | some c => .ok { u with client := some (c.wluSync (service (c.wluRequest text.toUtf8)) audioContext).1 }
    | none => .error .nullPointer
  else .ok u

/-! ## `Start` and `Stop` -/

/-- `USpeechly::Start`. -/
def start (p : Platform) : Except Fault (USpeechly × Bool) := do
  if u.isConnected then
    let u := { u with bIsBuffering := true, audioBuffer := [] }
    let recorder ← u.recorder.start p
    let (u, bSuccess) ← { u with recorder := recorder }.clientWrite (.event .START)
    if !bSuccess then
      return ({ u with client := none, recorder := u.recorder.stop }, bSuccess)
    return (u, bSuccess)
  return (u, false)

/-- `USpeechly::Stop`. -/
def stop : Except Fault (USpeechly × Bool) := do
  let u := { u with recorder := u.recorder.stop }
  if u.isConnected then
    let (u, bSuccess) ← u.clientWrite (.event .STOP)
    if !bSuccess then
      return ({ u with client := none }, bSuccess)
    return (u, bSuccess)
  return (u, false)

/-! ## `Tick` -/

/-- The key of a message, as `KeyOfMessage` prints it. -/
def keyOf (r : SLUResponse) : FString := FString.printKey (FString.ofCStr r.audioContext) r.segmentId

/-- `KeyOfMessage`: the key is recorded for the context, and returned. -/
def keyOfMessage (r : SLUResponse) : USpeechly × FString :=
  let key := keyOf r
  ({ u with contextToKeys := u.contextToKeys.findOrAdd (FString.ofCStr r.audioContext) (·.add key) }, key)

/-- The four branches of `Tick` that change the response of a key. -/
def updateResponse (locals : TickLocals) (r : SLUResponse) (f : FSpeechlyResponse → FSpeechlyResponse) :
    USpeechly × TickLocals :=
  let (u, key) := u.keyOfMessage r
  ({ u with responses := u.responses.findOrAdd key f }, { locals with changedKeys := locals.changedKeys.add key })

/-- `Out.Transcript` with a word more. -/
def appendWord (word : FString) (out : FSpeechlyResponse) : FSpeechlyResponse :=
  let transcript := if out.transcript.isEmpty then out.transcript else out.transcript.append (FString.lit " ")
  { out with transcript := transcript.append word }

/-- `Context == LastAudioContext`. -/
def isActive (context : FString) : Bool := context ≈ u.lastAudioContext

/-- The body of the loop over the keys of a finished context. -/
def finalizeKey (acc : KeyMap FString FSpeechlyResponse × KeySet FString) (key : FString) :
    KeyMap FString FSpeechlyResponse × KeySet FString :=
  match acc.1.find key with
  | some out =>
    if !out.bIsFinal then (acc.1.modify key fun out => { out with bIsFinal := true }, acc.2.add key) else acc
  | none => acc

/-- The branch of `Tick` for a `finished` response. -/
def finishContext (locals : TickLocals) (context : FString) (f : SLUFinished) : USpeechly × TickLocals :=
  let locals :=
    match f.error with
    | some e => { locals with errors := locals.errors.emplace context (FString.ofCStr e.message) }
    | none => locals
  let u := if u.isActive context then { u with recorder := u.recorder.stop } else u
  let (responses, changedKeys) :=
    match u.contextToKeys.find context with
    | some keys => keys.keys.foldl finalizeKey (u.responses, locals.changedKeys)
    | none => (u.responses, locals.changedKeys)
  ({ u with responses := responses },
    { locals with changedKeys := changedKeys, finishedContexts := locals.finishedContexts.add context })

/-- What `Tick` does with one response. -/
def handleResponse (locals : TickLocals) (r : SLUResponse) : USpeechly × TickLocals :=
  match r.payload with
  | .started =>
    ({ u with bIsBuffering := false, lastAudioContext := FString.ofCStr r.audioContext }, locals)
  | .finished f => u.finishContext locals (FString.ofCStr r.audioContext) f
  | .transcript t => u.updateResponse locals r (appendWord (FString.ofCStr t.word))
  | .entity e =>
    u.updateResponse locals r fun out =>
      { out with entities := out.entities.emplace (FString.ofCStr e.entity) (FString.ofCStr e.value) }
  | .intent i => u.updateResponse locals r fun out => { out with intent := FString.ofCStr i.intent }
  | .segmentEnd => u.updateResponse locals r fun out => { out with bIsFinal := true }
  | _ => (u, locals)

/-- The loop over `FinishedContexts`, one context. -/
def removeContext (context : FString) : USpeechly :=
  let responses :=
    match u.contextToKeys.find context with
    | some keys => keys.keys.foldl KeyMap.remove u.responses
    | none => u.responses
  { u with responses := responses, contextToKeys := u.contextToKeys.remove context }

/-- `OnSpeechlyResponse.Broadcast` for the changed keys. -/
def changedResponses (locals : TickLocals) : List Broadcast :=
  locals.changedKeys.keys.filterMap fun key => (u.responses.find key).map (.response key)

/-- `Tick` after the loop: the changed responses, the clean-up, the errors. -/
def endTick (locals : TickLocals) : USpeechly × List Broadcast :=
  (locals.finishedContexts.keys.foldl removeContext u,
    u.changedResponses locals ++ locals.errors.entries.map fun e => .error e.1 e.2)

/-- The loop of `Tick`, with `maxReads` rounds left. -/
def readResponses (u : USpeechly) (locals : TickLocals) : ℕ → Except Fault (USpeechly × TickLocals)
  | 0 => .ok (u, locals)
  | maxReads + 1 => do
    match ← u.clientRead with
    | none => return (u, locals)
    | some (r, u) =>
      let (u, locals) := u.handleResponse locals r
      readResponses u locals maxReads

/-- The broadcast of a `Tick` that finds no connection. -/
def disconnected : Except Fault Broadcast :=
  match u.client with
  | some c =>
    if c.bHasError then .ok (.error default ((FString.lit "Disconnected: ").append c.errorMessage))
    else .ok (.error default (FString.lit "Disconnected"))
  | none => .error .nullPointer

/-- `USpeechly::Tick`: the object, the broadcasts, and whether to tick again. -/
def tick : Except Fault (USpeechly × List Broadcast × Bool) := do
  if !u.isConnected then
    let b ← u.disconnected
    return (u, [b], false)
  let (u, locals) ← readResponses u .new 10
  let (u, broadcasts) := u.endTick locals
  return (u, broadcasts, true)

/-! ## `OnSpeechAudio` -/

/-- `SilenceCount` after a capture. -/
def countSilence (bHasAudio : Bool) (audioLength : ℤ) : ℤ :=
  if bHasAudio then 0
  else if u.silenceCount + audioLength > kSampleRate * 5 then 0
  else u.silenceCount + audioLength

/-- `Append(Ptr, Count)` and `set_audio(Ptr, Size)` take the first `n` bytes of an array. -/
def firstBytes (bytes : List UInt8) (n : ℤ) : Except Fault (List UInt8) :=
  if 0 ≤ n then .ok (bytes.take n.toNat) else .error .badLength

/-- The conversion: `CharAudio` grown to the length needed and filled, and `SilenceCount`. -/
def convertAudio (call : SpeechAudio) : Except Fault USpeechly := do
  let outputAudioLength := call.audioLength * 2
  let charAudio ← (if u.charAudio.length < outputAudioLength then setNum u.charAudio outputAudioLength
    else .ok u.charAudio)
  let (charAudio, bHasAudio) ← (List.range call.audioLength.toNat).foldlM (convertSample call.audio) (charAudio, false)
  return { u with charAudio := charAudio, silenceCount := u.countSilence bHasAudio call.audioLength }

/-- `Client->Write` of an audio request, and the requests it accepted. -/
def writeAudio (bytes : List UInt8) : Except Fault (USpeechly × List SLURequest) := do
  let (u, bSuccess) ← u.clientWrite (.audio bytes)
  return (u, if bSuccess then [.audio bytes] else [])

/-- `USpeechly::OnSpeechAudio`, and the requests the client accepted. -/
def onSpeechAudio (call : SpeechAudio) : Except Fault (USpeechly × List SLURequest) := do
  if !u.isConnected || call.audioLength == 0 then
    return (u, [])
  let u ← u.convertAudio call
  let bytes ← firstBytes u.charAudio (call.audioLength * 2)
  if u.bIsBuffering then
    return ({ u with audioBuffer := u.audioBuffer ++ bytes }, [])
  else if u.audioBuffer ≠ [] then
    let (u, accepted) ← u.writeAudio (u.audioBuffer ++ bytes)
    return ({ u with audioBuffer := [] }, accepted)
  else
    u.writeAudio bytes

end USpeechly

end SpeechlyPlugin.Plugin
