import SpeechlyPlugin.Engine.Messages
import SpeechlyPlugin.Proto.Slu
import SpeechlyPlugin.Proto.Wlu

/-!
# What the plugin writes and reads

The plugin fills its requests in with the setters of the generated code, and reads responses with the getters: a field that
is not set has its default value, and fields that are not known are not looked at.
-/

namespace SpeechlyPlugin.Proto

open Engine

variable {F : Type}

/-- A message with no fields that are not known. -/
def Message.known (fields : F) : Message F := ⟨fields, []⟩

/-! ## Requests -/

/-- The values of `SLUEvent.Event`. -/
def eventNumber : Engine.SLUEvent → Int32
  | .START => 0
  | .STOP => 1

/-- A request as `Run`, `Start`, `Stop` and `OnSpeechAudio` fill it in. -/
def SLURequest.ofEngine : Engine.SLURequest → Message SLURequest
  | .config c =>
    .known ⟨.config (.known ⟨0, Int32.ofInt c.channels, Int32.ofInt c.sampleRateHertz, c.languageCode⟩)⟩
  | .event e => .known ⟨.event (.known ⟨eventNumber e, []⟩)⟩
  | .audio bytes => .known ⟨.audio bytes⟩

/-- What a request says, for one that has it read. -/
def SLURequest.toEngine (m : Message SLURequest) : Option Engine.SLURequest :=
  match m.fields.streamingRequest with
  | .config n =>
    some (.config ⟨n.fields.channels.toInt, n.fields.sampleRateHertz.toInt, n.fields.languageCode⟩)
  | .event n =>
    if n.fields.event = 0 then some (.event .START)
    else if n.fields.event = 1 then some (.event .STOP)
    else none
  | .audio bytes => some (.audio bytes)
  | _ => none

/-- A request of `WLUSync`. -/
def WLURequest.ofEngine (r : Engine.WLURequest) : Message WLURequest := .known ⟨r.languageCode, r.text, none⟩

/-! ## Responses -/

/-- A response as `Tick` reads it. -/
def SLUResponse.toEngine (m : Message SLUResponse) : Engine.SLUResponse where
  audioContext := m.fields.audioContext
  segmentId := m.fields.segmentId.toInt
  payload :=
    match m.fields.streamingResponse with
    | .transcript n => .transcript ⟨n.fields.word, n.fields.index.toInt⟩
    | .entity n => .entity ⟨n.fields.entity, n.fields.value, n.fields.startPosition.toInt, n.fields.endPosition.toInt⟩
    | .intent n => .intent ⟨n.fields.intent⟩
    | .segmentEnd _ => .segmentEnd
    | .tentativeTranscript _ => .tentativeTranscript
    | .tentativeEntities _ => .tentativeEntities
    | .tentativeIntent _ => .tentativeIntent
    | .started _ => .started
    | .finished n => .finished ⟨n.fields.error.map fun e => ⟨e.fields.message⟩⟩
    | .rttRequest _ => .rttRequest
    | .notSet => .notSet

/-- A response of `WLUSync`. -/
def WLUResponse.toEngine (m : Message WLUResponse) : Engine.WLUResponse where
  segments := m.fields.segments.map fun segment => {
    tokens := segment.fields.tokens.map fun n => ⟨n.fields.word, n.fields.index.toInt⟩
    entities := segment.fields.entities.map fun n =>
      ⟨n.fields.entity, n.fields.value, n.fields.startPosition.toInt, n.fields.endPosition.toInt⟩
    intent := segment.fields.intent.map fun n => ⟨n.fields.intent⟩ }

/-! ## Requests arrive -/

/-- A request whose numbers are `int32` and whose text is UTF-8. -/
def Fits : Engine.SLURequest → Prop
  | .config c =>
    (-2 ^ 31 ≤ c.channels ∧ c.channels < 2 ^ 31) ∧ (-2 ^ 31 ≤ c.sampleRateHertz ∧ c.sampleRateHertz < 2 ^ 31) ∧
      isStructurallyValidUTF8 c.languageCode = true
  | _ => True

@[simp] theorem Codec.ok_known (c : Codec F) (budget : ℕ) (fields : F) :
    c.ok budget (.known fields) = c.fields.all (·.ok budget fields) := by
  simp [Codec.ok, Message.known, okUnknownFields]

@[simp] theorem Codec.size_known (c : Codec F) (fields : F) : c.size (.known fields) = (c.fields.map (·.size fields)).sum := by
  simp [Codec.size, Message.known, computeUnknownFieldsSize]

namespace SLURequest

theorem ok_ofEngine {r : Engine.SLURequest} (h : Fits r) : codec.ok Codec.recursionLimit (ofEngine r) = true := by
  cases r with
  | config c =>
    obtain ⟨-, -, htext⟩ := h
    simp [ofEngine, codec, Field.message, Field.optional, Field.okMessage, Codec.recursionLimit, SLUConfig.codec,
      Field.scalar, Scalar.int32, Scalar.string, htext]
  | event e =>
    have hempty : isStructurallyValidUTF8 [] = true := by decide
    simp [ofEngine, codec, Field.message, Field.optional, Field.okMessage, Codec.recursionLimit, SLUEvent.codec,
      Field.scalar, Scalar.int32, Scalar.string, hempty]
  | audio bytes => simp [ofEngine, codec, Field.message, Field.optional, Scalar.bytes]

/-- A request says what it was filled in with. -/
theorem toEngine_ofEngine {r : Engine.SLURequest} (h : Fits r) : toEngine (ofEngine r) = some r := by
  cases r with
  | config c =>
    obtain ⟨⟨hlow, hhigh⟩, ⟨hlow', hhigh'⟩, -⟩ := h
    simp only [ofEngine, toEngine, Message.known, Int32.toInt_ofInt_of_le hlow hhigh, Int32.toInt_ofInt_of_le hlow' hhigh']
  | event e => cases e <;> rfl
  | audio bytes => rfl

/-- **A request arrives**: from the bytes that are sent, in slices of any lengths, the service reads the request. -/
theorem request_arrives {r : Engine.SLURequest} (h : Fits r) {slices : List (List UInt8)}
    (hserialize : codec.serialize (ofEngine r) = some slices.flatten) :
    codec.deserialize slices = some (ofEngine r) ∧ (codec.deserialize slices).bind toEngine = some r := by
  have hread := lawful.deserialize_serialize (ok_ofEngine h) hserialize
  exact ⟨hread, by rw [hread, Option.bind_some, toEngine_ofEngine h]⟩

/-- The configuration, cut after three bytes. -/
theorem request_arrives_config :
    ∃ slices : List (List UInt8), slices.length = 2 ∧
      (codec.deserialize slices).bind toEngine = some (.config ⟨1, 16000, [101, 110]⟩) := by
  have hfits : Fits (.config ⟨1, 16000, [101, 110]⟩) := ⟨by decide, by decide, by decide⟩
  have hsize : codec.size (ofEngine (.config ⟨1, 16000, [101, 110]⟩)) ≤ INT_MAX := by
    simp only [ofEngine, Codec.size_known, codec, Field.message, Field.optional, SLUConfig.codec, List.map_cons, List.map_nil]
    decide +kernel
  let bytes := codec.write (ofEngine (.config ⟨1, 16000, [101, 110]⟩))
  refine ⟨[bytes.take 3, bytes.drop 3], rfl, (request_arrives hfits ?_).2⟩
  exact Codec.serialize_eq_some.mpr ⟨hsize, by simp [bytes]⟩

end SLURequest

/-! ## Text -/

/-- What `TCHAR_TO_UTF8` gives is UTF-8. -/
theorem valid_toUtf8 (text : FString) : isStructurallyValidUTF8 text.toUtf8 = true :=
  (isStructurallyValidUTF8_iff text.toUtf8).mpr ⟨text.chars.takeWhile fun c => c.toNat ≠ 0, rfl⟩

/-- **The requests of `SendText` and of the login arrive**, whatever is typed. -/
theorem unary_requests_arrive (languageCode text deviceId appId : FString) (slices : List (List UInt8)) :
    (WLURequest.codec.serialize (WLURequest.ofEngine ⟨languageCode.toUtf8, text.toUtf8⟩) = some slices.flatten →
        WLURequest.codec.deserialize slices = some (WLURequest.ofEngine ⟨languageCode.toUtf8, text.toUtf8⟩)) ∧
      (LoginRequest.codec.serialize (.known ⟨deviceId.toUtf8, appId.toUtf8, [], []⟩) = some slices.flatten →
        LoginRequest.codec.deserialize slices = some (.known ⟨deviceId.toUtf8, appId.toUtf8, [], []⟩)) := by
  have hempty : isStructurallyValidUTF8 [] = true := by decide
  constructor
  · refine WLURequest.lawful.deserialize_serialize ?_
    simp [WLURequest.ofEngine, WLURequest.codec, Field.message, Field.scalar, Scalar.string, valid_toUtf8]
  · refine LoginRequest.lawful.deserialize_serialize ?_
    simp [LoginRequest.codec, Field.scalar, Scalar.string, valid_toUtf8, hempty]

/-- A sentence of two words, each byte in a slice of its own. -/
theorem unary_requests_arrive_sentence :
    ∃ slices : List (List UInt8), (∀ slice ∈ slices, slice.length = 1) ∧
      WLURequest.codec.deserialize slices =
        some (WLURequest.ofEngine ⟨(FString.lit "en").toUtf8, (FString.lit "go on").toUtf8⟩) := by
  have hsize : WLURequest.codec.size (WLURequest.ofEngine ⟨(FString.lit "en").toUtf8, (FString.lit "go on").toUtf8⟩) ≤
      INT_MAX := by
    simp only [WLURequest.ofEngine, Codec.size_known, WLURequest.codec, Field.message, Field.scalar, Scalar.string,
      List.map_cons, List.map_nil]
    decide +kernel
  let bytes := WLURequest.codec.write (WLURequest.ofEngine ⟨(FString.lit "en").toUtf8, (FString.lit "go on").toUtf8⟩)
  refine ⟨bytes.map ([·]), by simp, ?_⟩
  refine (unary_requests_arrive (FString.lit "en") (FString.lit "go on") (FString.lit "") (FString.lit "") _).1 ?_
  exact Codec.serialize_eq_some.mpr ⟨hsize, by simp [bytes, ← List.flatMap_def]⟩

end SpeechlyPlugin.Proto
