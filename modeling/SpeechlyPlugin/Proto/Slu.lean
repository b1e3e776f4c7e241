import SpeechlyPlugin.Proto.RoundTrip

/-!
# `slu.proto`

The messages of the `SLU` service with all their fields, as `slu.pb.cc` reads and writes them.  Of a `oneof` at most one field
is there.  The laws of a table are those of its fields, which `simp` knows.
-/

namespace SpeechlyPlugin.Proto

/-! ## Requests -/

structure SLUConfig where
  encoding : Int32
  channels : Int32
  sampleRateHertz : Int32
  languageCode : List UInt8

def SLUConfig.codec : Codec SLUConfig where
  default := ⟨0, 0, 0, []⟩
  fields := [
    .scalar .int32 0 8 (·.encoding) (fun m v => { m with encoding := v }),
    .scalar .int32 0 16 (·.channels) (fun m v => { m with channels := v }),
    .scalar .int32 0 24 (·.sampleRateHertz) (fun m v => { m with sampleRateHertz := v }),
    .scalar .string [] 34 (·.languageCode) (fun m v => { m with languageCode := v })]

@[simp] theorem SLUConfig.lawful : SLUConfig.codec.Lawful :=
  Codec.lawful_of_fields (by simp [codec]) (by simp [codec])

structure SLUEvent where
  event : Int32
  appId : List UInt8

def SLUEvent.codec : Codec SLUEvent where
  default := ⟨0, []⟩
  fields := [
    .scalar .int32 0 8 (·.event) (fun m v => { m with event := v }),
    .scalar .string [] 18 (·.appId) (fun m v => { m with appId := v })]

@[simp] theorem SLUEvent.lawful : SLUEvent.codec.Lawful :=
  Codec.lawful_of_fields (by simp [codec]) (by simp [codec])

structure RoundTripMeasurementResponse where
  id : Int32

def RoundTripMeasurementResponse.codec : Codec RoundTripMeasurementResponse where
  default := ⟨0⟩
  fields := [
    .scalar .int32 0 8 (·.id) (fun m v => { m with id := v })]

@[simp] theorem RoundTripMeasurementResponse.lawful : RoundTripMeasurementResponse.codec.Lawful :=
  Codec.lawful_of_fields (by simp [codec]) (by simp [codec])

/-- `streaming_request`. -/
inductive SLURequest.StreamingRequest where
  | config (n : Message SLUConfig)
  | event (n : Message SLUEvent)
  | audio (bytes : List UInt8)
  | rttResponse (n : Message RoundTripMeasurementResponse)
  | notSet

structure SLURequest where
  streamingRequest : SLURequest.StreamingRequest

def SLURequest.codec : Codec SLURequest where
  default := ⟨.notSet⟩
  fields := [
    .message SLUConfig.codec 10 (fun m => match m.streamingRequest with | .config n => some n | _ => none)
      (fun _ n => ⟨.config n⟩),
    .message SLUEvent.codec 18 (fun m => match m.streamingRequest with | .event n => some n | _ => none)
      (fun _ n => ⟨.event n⟩),
    .optional .bytes 26 (fun m => match m.streamingRequest with | .audio bytes => some bytes | _ => none)
      (fun _ bytes => ⟨.audio bytes⟩),
    .message RoundTripMeasurementResponse.codec 34
      (fun m => match m.streamingRequest with | .rttResponse n => some n | _ => none) (fun _ n => ⟨.rttResponse n⟩)]

@[simp] theorem SLURequest.lawful : SLURequest.codec.Lawful := by
  refine Codec.lawful_of_fields (by simp [codec]) ?_
  rintro ⟨_ | _ | _ | _ | _⟩ <;> simp [codec]

/-! ## Responses -/

structure SLUTranscript where
  word : List UInt8
  index : Int32
  startTime : Int32
  endTime : Int32

def SLUTranscript.codec : Codec SLUTranscript where
  default := ⟨[], 0, 0, 0⟩
  fields := [
    .scalar .string [] 10 (·.word) (fun m v => { m with word := v }),
    .scalar .int32 0 16 (·.index) (fun m v => { m with index := v }),
    .scalar .int32 0 24 (·.startTime) (fun m v => { m with startTime := v }),
    .scalar .int32 0 32 (·.endTime) (fun m v => { m with endTime := v })]

@[simp] theorem SLUTranscript.lawful : SLUTranscript.codec.Lawful :=
  Codec.lawful_of_fields (by simp [codec]) (by simp [codec])

structure SLUEntity where
  entity : List UInt8
  value : List UInt8
  startPosition : Int32
  endPosition : Int32

def SLUEntity.codec : Codec SLUEntity where
  default := ⟨[], [], 0, 0⟩
  fields := [
    .scalar .string [] 10 (·.entity) (fun m v => { m with entity := v }),
    .scalar .string [] 18 (·.value) (fun m v => { m with value := v }),
    .scalar .int32 0 24 (·.startPosition) (fun m v => { m with startPosition := v }),
    .scalar .int32 0 32 (·.endPosition) (fun m v => { m with endPosition := v })]

@[simp] theorem SLUEntity.lawful : SLUEntity.codec.Lawful :=
  Codec.lawful_of_fields (by simp [codec]) (by simp [codec])

structure SLUIntent where
  intent : List UInt8

def SLUIntent.codec : Codec SLUIntent where
  default := ⟨[]⟩
  fields := [
    .scalar .string [] 10 (·.intent) (fun m v => { m with intent := v })]

@[simp] theorem SLUIntent.lawful : SLUIntent.codec.Lawful :=
  Codec.lawful_of_fields (by simp [codec]) (by simp [codec])

structure SLUSegmentEnd where

def SLUSegmentEnd.codec : Codec SLUSegmentEnd := ⟨⟨⟩, []⟩

@[simp] theorem SLUSegmentEnd.lawful : SLUSegmentEnd.codec.Lawful :=
  Codec.lawful_of_fields (by simp [codec]) (by simp [codec])

structure SLUTentativeTranscript where
  tentativeTranscript : List UInt8
  tentativeWords : List (Message SLUTranscript)

def SLUTentativeTranscript.codec : Codec SLUTentativeTranscript where
  default := ⟨[], []⟩
  fields := [
    .scalar .string [] 10 (·.tentativeTranscript) (fun m v => { m with tentativeTranscript := v }),
    .repeated SLUTranscript.codec 18 (·.tentativeWords) (fun m ns => { m with tentativeWords := ns })]

@[simp] theorem SLUTentativeTranscript.lawful : SLUTentativeTranscript.codec.Lawful :=
  Codec.lawful_of_fields (by simp [codec]) (by simp [codec])

structure SLUTentativeEntities where
  tentativeEntities : List (Message SLUEntity)

def SLUTentativeEntities.codec : Codec SLUTentativeEntities where
  default := ⟨[]⟩
  fields := [
    .repeated SLUEntity.codec 10 (·.tentativeEntities) (fun m ns => { m with tentativeEntities := ns })]

@[simp] theorem SLUTentativeEntities.lawful : SLUTentativeEntities.codec.Lawful :=
  Codec.lawful_of_fields (by simp [codec]) (by simp [codec])

structure SLUStarted where

def SLUStarted.codec : Codec SLUStarted := ⟨⟨⟩, []⟩

@[simp] theorem SLUStarted.lawful : SLUStarted.codec.Lawful :=
  Codec.lawful_of_fields (by simp [codec]) (by simp [codec])

structure SLUError where
  code : List UInt8
  message : List UInt8

def SLUError.codec : Codec SLUError where
  default := ⟨[], []⟩
  fields := [
    .scalar .string [] 10 (·.code) (fun m v => { m with code := v }),
    .scalar .string [] 18 (·.message) (fun m v => { m with message := v })]

@[simp] theorem SLUError.lawful : SLUError.codec.Lawful :=
  Codec.lawful_of_fields (by simp [codec]) (by simp [codec])

structure SLUFinished where
  error : Option (Message SLUError)

def SLUFinished.codec : Codec SLUFinished where
  default := ⟨none⟩
  fields := [
    .message SLUError.codec 18 (·.error) (fun m n => { m with error := some n })]

@[simp] theorem SLUFinished.lawful : SLUFinished.codec.Lawful := by
  refine Codec.lawful_of_fields (by simp [codec]) ?_
  rintro ⟨_ | _⟩ <;> simp [codec]

structure RoundTripMeasurementRequest where
  id : Int32

def RoundTripMeasurementRequest.codec : Codec RoundTripMeasurementRequest where
  default := ⟨0⟩
  fields := [
    .scalar .int32 0 8 (·.id) (fun m v => { m with id := v })]

@[simp] theorem RoundTripMeasurementRequest.lawful : RoundTripMeasurementRequest.codec.Lawful :=
  Codec.lawful_of_fields (by simp [codec]) (by simp [codec])

/-- `streaming_response`. -/
inductive SLUResponse.StreamingResponse where
  | transcript (n : Message SLUTranscript)
  | entity (n : Message SLUEntity)
  | intent (n : Message SLUIntent)
  | segmentEnd (n : Message SLUSegmentEnd)
  | tentativeTranscript (n : Message SLUTentativeTranscript)
  | tentativeEntities (n : Message SLUTentativeEntities)
  | tentativeIntent (n : Message SLUIntent)
  | started (n : Message SLUStarted)
  | finished (n : Message SLUFinished)
  | rttRequest (n : Message RoundTripMeasurementRequest)
  | notSet

structure SLUResponse where
  audioContext : List UInt8
  segmentId : Int32
  streamingResponse : SLUResponse.StreamingResponse

def SLUResponse.codec : Codec SLUResponse where
  default := ⟨[], 0, .notSet⟩
  fields := [
    .scalar .string [] 10 (·.audioContext) (fun m v => { m with audioContext := v }),
    .scalar .int32 0 16 (·.segmentId) (fun m v => { m with segmentId := v }),
    .message SLUTranscript.codec 26 (fun m => match m.streamingResponse with | .transcript n => some n | _ => none)
      (fun m n => { m with streamingResponse := .transcript n }),
    .message SLUEntity.codec 34 (fun m => match m.streamingResponse with | .entity n => some n | _ => none)
      (fun m n => { m with streamingResponse := .entity n }),
    .message SLUIntent.codec 42 (fun m => match m.streamingResponse with | .intent n => some n | _ => none)
      (fun m n => { m with streamingResponse := .intent n }),
    .message SLUSegmentEnd.codec 50 (fun m => match m.streamingResponse with | .segmentEnd n => some n | _ => none)
      (fun m n => { m with streamingResponse := .segmentEnd n }),
    .message SLUTentativeTranscript.codec 58
      (fun m => match m.streamingResponse with | .tentativeTranscript n => some n | _ => none)
      (fun m n => { m with streamingResponse := .tentativeTranscript n }),
    .message SLUTentativeEntities.codec 66
      (fun m => match m.streamingResponse with | .tentativeEntities n => some n | _ => none)
      (fun m n => { m with streamingResponse := .tentativeEntities n }),
    .message SLUIntent.codec 74 (fun m => match m.streamingResponse with | .tentativeIntent n => some n | _ => none)
      (fun m n => { m with streamingResponse := .tentativeIntent n }),
    .message SLUStarted.codec 82 (fun m => match m.streamingResponse with | .started n => some n | _ => none)
      (fun m n => { m with streamingResponse := .started n }),
    .message SLUFinished.codec 90 (fun m => match m.streamingResponse with | .finished n => some n | _ => none)
      (fun m n => { m with streamingResponse := .finished n }),
    .message RoundTripMeasurementRequest.codec 98
      (fun m => match m.streamingResponse with | .rttRequest n => some n | _ => none)
      (fun m n => { m with streamingResponse := .rttRequest n })]

@[simp] theorem SLUResponse.lawful : SLUResponse.codec.Lawful := by
  refine Codec.lawful_of_fields (by simp [codec]) ?_
  rintro ⟨audioContext, segmentId, _ | _ | _ | _ | _ | _ | _ | _ | _ | _ | _⟩ <;> simp [codec]

end SpeechlyPlugin.Proto
