import SpeechlyPlugin.Engine.Text

/-!
# Messages

The messages of the `SLU` service of `slu.proto` and of the `WLU` service of `wlu.proto`, with the fields the plugin reads
or writes.
-/

namespace SpeechlyPlugin.Engine

/-- `SLUEvent.Event`. -/
inductive SLUEvent where
  | START
  | STOP
  deriving DecidableEq, Repr

/-- `SLUConfig`. -/
structure SLUConfig where
  channels : ℤ
  sampleRateHertz : ℤ
  languageCode : StdString
  deriving DecidableEq, Repr

/-- `SLURequest`, by its `streaming_request`. -/
inductive SLURequest where
  | config (c : SLUConfig)
  | event (e : SLUEvent)
  | audio (bytes : List UInt8)
  deriving DecidableEq, Repr

/-- `SLUTranscript`. -/
structure SLUTranscript where
  word : StdString
  index : ℤ
  deriving DecidableEq, Repr

/-- `SLUEntity`. -/
structure SLUEntity where
  entity : StdString
  value : StdString
  startPosition : ℤ
  endPosition : ℤ
  deriving DecidableEq, Repr

/-- `SLUIntent`. -/
structure SLUIntent where
  intent : StdString
  deriving DecidableEq, Repr

/-- `SLUError`. -/
structure SLUError where
  message : StdString
  deriving DecidableEq, Repr

/-- `SLUFinished`. -/
structure SLUFinished where
  error : Option SLUError
  deriving DecidableEq, Repr

/-- The `streaming_response` of an `SLUResponse`.  The tentative results and the round trip request carry nothing the
plugin reads. -/
inductive Payload where
  | transcript (t : SLUTranscript)
  | entity (e : SLUEntity)
  | intent (i : SLUIntent)
  | segmentEnd
  | tentativeTranscript
  | tentativeEntities
  | tentativeIntent
  | started
  | finished (f : SLUFinished)
  | rttRequest
  | notSet
  deriving DecidableEq, Repr

/-- `SLUResponse`. -/
structure SLUResponse where
  audioContext : StdString
  segmentId : ℤ
  payload : Payload
  deriving DecidableEq, Repr

/-- A default `SLUResponse`. -/
instance : Inhabited SLUResponse := ⟨⟨[], 0, .notSet⟩⟩

/-! ## Written text: `wlu.proto` -/

/-- `WLURequest`. -/
structure WLURequest where
  languageCode : StdString
  text : StdString
  deriving DecidableEq, Repr

/-- `WLUToken`. -/
structure WLUToken where
  word : StdString
  index : ℤ
  deriving DecidableEq, Repr

/-- `WLUEntity`. -/
structure WLUEntity where
  entity : StdString
  value : StdString
  startPosition : ℤ
  endPosition : ℤ
  deriving DecidableEq, Repr

/-- `WLUIntent`. -/
structure WLUIntent where
  intent : StdString
  deriving DecidableEq, Repr

/-- `WLUSegment`. -/
structure WLUSegment where
  tokens : List WLUToken
  entities : List WLUEntity
  intent : Option WLUIntent
  deriving DecidableEq, Repr

/-- `WLUResponse`. -/
structure WLUResponse where
  segments : List WLUSegment
  deriving DecidableEq, Repr

end SpeechlyPlugin.Engine
