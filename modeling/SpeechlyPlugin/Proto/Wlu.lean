import SpeechlyPlugin.Proto.RoundTrip

/-!
# `wlu.proto` and `identity.proto`

The messages of the `WLU` service, for text that is written, and of the `Identity` service, for the login.
-/

namespace SpeechlyPlugin.Proto

/-! ## Requests -/

/-- `google.protobuf.Timestamp`. -/
structure Timestamp where
  seconds : Int64
  nanos : Int32

def Timestamp.codec : Codec Timestamp where
  default := ⟨0, 0⟩
  fields := [
    .scalar .int64 0 8 (·.seconds) (fun m v => { m with seconds := v }),
    .scalar .int32 0 16 (·.nanos) (fun m v => { m with nanos := v })]

@[simp] theorem Timestamp.lawful : Timestamp.codec.Lawful :=
  Codec.lawful_of_fields (by simp [codec]) (by simp [codec])

structure WLURequest where
  languageCode : List UInt8
  text : List UInt8
  referenceTime : Option (Message Timestamp)

def WLURequest.codec : Codec WLURequest where
  default := ⟨[], [], none⟩
  fields := [
    .scalar .string [] 10 (·.languageCode) (fun m v => { m with languageCode := v }),
    .scalar .string [] 18 (·.text) (fun m v => { m with text := v }),
    .message Timestamp.codec 26 (·.referenceTime) (fun m n => { m with referenceTime := some n })]

@[simp] theorem WLURequest.lawful : WLURequest.codec.Lawful := by
  refine Codec.lawful_of_fields (by simp [codec]) ?_
  rintro ⟨languageCode, text, _ | _⟩ <;> simp [codec]

structure TextsRequest where
  appId : List UInt8
  requests : List (Message WLURequest)

def TextsRequest.codec : Codec TextsRequest where
  default := ⟨[], []⟩
  fields := [
    .scalar .string [] 10 (·.appId) (fun m v => { m with appId := v }),
    .repeated WLURequest.codec 18 (·.requests) (fun m ns => { m with requests := ns })]

@[simp] theorem TextsRequest.lawful : TextsRequest.codec.Lawful :=
  Codec.lawful_of_fields (by simp [codec]) (by simp [codec])

/-! ## Responses -/

structure WLUToken where
  word : List UInt8
  index : Int32

def WLUToken.codec : Codec WLUToken where
  default := ⟨[], 0⟩
  fields := [
    .scalar .string [] 10 (·.word) (fun m v => { m with word := v }),
    .scalar .int32 0 16 (·.index) (fun m v => { m with index := v })]

@[simp] theorem WLUToken.lawful : WLUToken.codec.Lawful :=
  Codec.lawful_of_fields (by simp [codec]) (by simp [codec])

structure WLUEntity where
  entity : List UInt8
  value : List UInt8
  startPosition : Int32
  endPosition : Int32

def WLUEntity.codec : Codec WLUEntity where
  default := ⟨[], [], 0, 0⟩
  fields := [
    .scalar .string [] 10 (·.entity) (fun m v => { m with entity := v }),
    .scalar .string [] 18 (·.value) (fun m v => { m with value := v }),
    .scalar .int32 0 24 (·.startPosition) (fun m v => { m with startPosition := v }),
    .scalar .int32 0 32 (·.endPosition) (fun m v => { m with endPosition := v })]

@[simp] theorem WLUEntity.lawful : WLUEntity.codec.Lawful :=
  Codec.lawful_of_fields (by simp [codec]) (by simp [codec])

structure WLUIntent where
  intent : List UInt8

def WLUIntent.codec : Codec WLUIntent where
  default := ⟨[]⟩
  fields := [
    .scalar .string [] 10 (·.intent) (fun m v => { m with intent := v })]

@[simp] theorem WLUIntent.lawful : WLUIntent.codec.Lawful :=
  Codec.lawful_of_fields (by simp [codec]) (by simp [codec])

structure WLUSegment where
  text : List UInt8
  tokens : List (Message WLUToken)
  entities : List (Message WLUEntity)
  intent : Option (Message WLUIntent)
  annotatedText : List UInt8

def WLUSegment.codec : Codec WLUSegment where
  default := ⟨[], [], [], none, []⟩
  fields := [
    .scalar .string [] 10 (·.text) (fun m v => { m with text := v }),
    .repeated WLUToken.codec 18 (·.tokens) (fun m ns => { m with tokens := ns }),
    .repeated WLUEntity.codec 26 (·.entities) (fun m ns => { m with entities := ns }),
    .message WLUIntent.codec 34 (·.intent) (fun m n => { m with intent := some n }),
    .scalar .string [] 42 (·.annotatedText) (fun m v => { m with annotatedText := v })]

@[simp] theorem WLUSegment.lawful : WLUSegment.codec.Lawful := by
  refine Codec.lawful_of_fields (by simp [codec]) ?_
  rintro ⟨text, tokens, entities, _ | _, annotatedText⟩ <;> simp [codec]

structure WLUResponse where
  segments : List (Message WLUSegment)

def WLUResponse.codec : Codec WLUResponse where
  default := ⟨[]⟩
  fields := [
    .repeated WLUSegment.codec 10 (·.segments) (fun m ns => { m with segments := ns })]

@[simp] theorem WLUResponse.lawful : WLUResponse.codec.Lawful :=
  Codec.lawful_of_fields (by simp [codec]) (by simp [codec])

structure TextsResponse where
  responses : List (Message WLUResponse)

def TextsResponse.codec : Codec TextsResponse where
  default := ⟨[]⟩
  fields := [
    .repeated WLUResponse.codec 10 (·.responses) (fun m ns => { m with responses := ns })]

@[simp] theorem TextsResponse.lawful : TextsResponse.codec.Lawful :=
  Codec.lawful_of_fields (by simp [codec]) (by simp [codec])

/-! ## Login -/

structure LoginRequest where
  deviceId : List UInt8
  appId : List UInt8
  languageCode : List UInt8
  configId : List UInt8

def LoginRequest.codec : Codec LoginRequest where
  default := ⟨[], [], [], []⟩
  fields := [
    .scalar .string [] 10 (·.deviceId) (fun m v => { m with deviceId := v }),
    .scalar .string [] 18 (·.appId) (fun m v => { m with appId := v }),
    .scalar .string [] 26 (·.languageCode) (fun m v => { m with languageCode := v }),
    .scalar .string [] 34 (·.configId) (fun m v => { m with configId := v })]

@[simp] theorem LoginRequest.lawful : LoginRequest.codec.Lawful :=
  Codec.lawful_of_fields (by simp [codec]) (by simp [codec])

structure LoginResponse where
  token : List UInt8

def LoginResponse.codec : Codec LoginResponse where
  default := ⟨[]⟩
  fields := [
    .scalar .string [] 10 (·.token) (fun m v => { m with token := v })]

@[simp] theorem LoginResponse.lawful : LoginResponse.codec.Lawful :=
  Codec.lawful_of_fields (by simp [codec]) (by simp [codec])

end SpeechlyPlugin.Proto
