import SpeechlyPlugin.Proto.Views

/-!
# Responses

What the plugin reads of a response depends on its bytes alone, and on no field it does not know; what one message writes
after another is merged with it; and the text of what is accepted is UTF-8.
-/

namespace SpeechlyPlugin.Proto

open Engine

variable {F : Type}

/-- The fields of a message that can be written. -/
theorem Codec.fields_ok {c : Codec F} {budget : ℕ} {m : Message F} (h : c.ok budget m = true) :
    ∀ f ∈ c.fields, f.ok budget m.fields = true := by
  simp only [Codec.ok, Bool.and_eq_true, List.all_eq_true] at h
  exact h.1.1

namespace Codec.Lawful

variable {c : Codec F} (h : c.Lawful)
include h

/-- Messages that are written one after the other. -/
theorem reads_flatMap {budget : ℕ} {ms : List (Message F)} (hok : ∀ m ∈ ms, c.ok budget m = true)
    (hsize : (ms.flatMap c.write).length ≤ INT_MAX) (a : Message F) :
    c.Reads budget a (ms.flatMap c.write) (ms.foldl c.mergeFrom a) := by
  induction ms generalizing a with
  | nil => exact reads_nil a
  | cons m ms ih =>
    rw [List.flatMap_cons, List.length_append, h.length_write] at hsize
    rw [List.flatMap_cons]
    exact (h.reads_write (hok m List.mem_cons_self) (by omega) a).append
      (ih (fun n hn => hok n (List.mem_cons_of_mem m hn)) (by omega) _)

/-- **Messages in a row** are merged. -/
theorem deserialize_flatMap {ms : List (Message F)} (hok : ∀ m ∈ ms, c.ok recursionLimit m = true)
    {slices : List (List UInt8)} (hslices : slices.flatten = ms.flatMap c.write) (hsize : slices.flatten.length ≤ INT_MAX) :
    c.deserialize slices = some (ms.foldl c.mergeFrom c.new) := by
  rw [h.deserialize_eq_parse, List.take_of_length_le hsize, hslices]
  rw [hslices] at hsize
  exact (h.reads_flatMap hok hsize c.new).parse

/-- Fields that are not known do not change what is read of the others. -/
theorem deserialize_unknown {ms : List (Message F)} (hok : ∀ m ∈ ms, c.ok recursionLimit m = true) {us : List UnknownField}
    (hus : okUnknownFields recursionLimit us = true) (hnone : ∀ u ∈ us, c.field? u.tag = none) {rest : List UInt8}
    {slices slices' : List (List UInt8)}
    (hslices : slices.flatten = ms.flatMap c.write ++ (serializeUnknownFields us ++ rest))
    (hslices' : slices'.flatten = ms.flatMap c.write ++ rest) (hsize : slices.flatten.length ≤ INT_MAX) :
    (c.deserialize slices).map Message.fields = (c.deserialize slices').map Message.fields := by
  have hlen := hsize
  rw [hslices, List.length_append, List.length_append, length_serializeUnknownFields] at hlen
  have hsize' : slices'.flatten.length ≤ INT_MAX := by
    rw [hslices', List.length_append]
    omega
  have hreads := h.reads_flatMap hok (by omega : (ms.flatMap c.write).length ≤ INT_MAX) c.new
  rw [h.deserialize_eq_parse, h.deserialize_eq_parse, List.take_of_length_le hsize, List.take_of_length_le hsize', hslices,
    hslices', hreads, hreads, h.reads_unknown _ hus (skipsAll_of_ok hus (by omega)).1 hnone]
  exact h.parse_unknown _ _ _ rest

end Codec.Lawful

/-! ## How the bytes arrive -/

/-- **Responses are read from their bytes**: `CodedInputStream` over the slices of a byte buffer reads what the parser of the
bytes up to `INT_MAX` reads, whatever the bytes are. -/
theorem responses_of_slices (slices : List (List UInt8)) :
    SLUResponse.codec.deserialize slices =
        SLUResponse.codec.parse Codec.recursionLimit SLUResponse.codec.new (slices.flatten.take INT_MAX) ∧
      WLUResponse.codec.deserialize slices =
        WLUResponse.codec.parse Codec.recursionLimit WLUResponse.codec.new (slices.flatten.take INT_MAX) ∧
      LoginResponse.codec.deserialize slices =
        LoginResponse.codec.parse Codec.recursionLimit LoginResponse.codec.new (slices.flatten.take INT_MAX) :=
  ⟨SLUResponse.lawful.deserialize_eq_parse slices, WLUResponse.lawful.deserialize_eq_parse slices,
    LoginResponse.lawful.deserialize_eq_parse slices⟩

/-! ## `SLUResponse` -/

namespace SLUResponse

/-- **Responses in a row are merged**, as the scalars of the last that sets them and its payload, or the two payloads where
they are of the same kind. -/
theorem responses_in_a_row {ms : List (Message SLUResponse)} (hok : ∀ m ∈ ms, codec.ok Codec.recursionLimit m = true)
    {slices : List (List UInt8)} (hslices : slices.flatten = ms.flatMap codec.write)
    (hsize : slices.flatten.length ≤ INT_MAX) : codec.deserialize slices = some (ms.foldl codec.mergeFrom codec.new) :=
  lawful.deserialize_flatMap hok hslices hsize

/-- Two responses. -/
def started : Message SLUResponse := .known ⟨[97], 0, .started (.known ⟨⟩)⟩

def ended : Message SLUResponse := .known ⟨[], 1, .segmentEnd (.known ⟨⟩)⟩

theorem ok_started : codec.ok Codec.recursionLimit started = true := by
  have htext : isStructurallyValidUTF8 [97] = true := by decide
  simp [started, codec, Field.message, Field.scalar, Scalar.int32, Scalar.string, Field.okMessage, Codec.recursionLimit,
    SLUStarted.codec, htext]

theorem ok_ended : codec.ok Codec.recursionLimit ended = true := by
  have htext : isStructurallyValidUTF8 [] = true := by decide
  simp [ended, codec, Field.message, Field.scalar, Scalar.int32, Scalar.string, Field.okMessage, Codec.recursionLimit,
    SLUSegmentEnd.codec, htext]

theorem size_started : codec.size started = 5 := by
  simp only [started, Codec.size_known, codec, Field.message, Field.scalar, Scalar.int32, Scalar.string, SLUStarted.codec,
    List.map_cons, List.map_nil]
  decide +kernel

theorem size_ended : codec.size ended = 4 := by
  simp only [ended, Codec.size_known, codec, Field.message, Field.scalar, Scalar.int32, Scalar.string, SLUSegmentEnd.codec,
    List.map_cons, List.map_nil]
  decide +kernel

/-- The context of the one, the segment and the payload of the other. -/
theorem responses_in_a_row_two :
    ∃ slices, (codec.deserialize slices).map toEngine = some ⟨[97], 1, .segmentEnd⟩ := by
  have hsize : (codec.write started ++ codec.write ended).length ≤ INT_MAX := by
    rw [List.length_append, lawful.length_write, lawful.length_write, size_started, size_ended]
    decide
  refine ⟨[codec.write started ++ codec.write ended], ?_⟩
  rw [@responses_in_a_row [started, ended] (by simp [ok_started, ok_ended]) _ (by simp) (by simpa using hsize)]
  rfl

/-- **Fields of a newer service** change nothing for `Tick`, wherever they stand between the others. -/
theorem newer_fields {ms : List (Message SLUResponse)} (hok : ∀ m ∈ ms, codec.ok Codec.recursionLimit m = true)
    {us : List UnknownField} (hus : okUnknownFields Codec.recursionLimit us = true)
    (hnone : ∀ u ∈ us, codec.field? u.tag = none) {rest : List UInt8} {slices slices' : List (List UInt8)}
    (hslices : slices.flatten = ms.flatMap codec.write ++ (serializeUnknownFields us ++ rest))
    (hslices' : slices'.flatten = ms.flatMap codec.write ++ rest) (hsize : slices.flatten.length ≤ INT_MAX) :
    (codec.deserialize slices).map toEngine = (codec.deserialize slices').map toEngine := by
  have hfields := lawful.deserialize_unknown hok hus hnone hslices hslices' hsize
  have hview : toEngine = (fun fields => toEngine ⟨fields, []⟩) ∘ Message.fields := rfl
  rw [hview, ← Option.map_map, hfields, Option.map_map]

/-- A field 13, after the first response. -/
theorem newer_fields_varint :
    ∃ slices slices', slices.flatten ≠ slices'.flatten ∧
      (codec.deserialize slices).map toEngine = (codec.deserialize slices').map toEngine := by
  have hsize : (codec.write started ++ (serializeUnknownFields [.varint 13 7] ++ codec.write ended)).length ≤ INT_MAX := by
    rw [List.length_append, List.length_append, lawful.length_write, lawful.length_write, length_serializeUnknownFields,
      size_started, size_ended]
    simp only [computeUnknownFieldsSize]
    decide +kernel
  have hwith : [codec.write started ++ (serializeUnknownFields [.varint 13 7] ++ codec.write ended)].flatten =
      [started].flatMap codec.write ++ (serializeUnknownFields [.varint 13 7] ++ codec.write ended) := by simp
  have hwithout : [codec.write started ++ codec.write ended].flatten = [started].flatMap codec.write ++ codec.write ended := by
    simp
  refine ⟨_, _, ?_, newer_fields (by simp [ok_started]) (by simp [okUnknownFields, isFieldNumber]) ?_ hwith hwithout
    (by simpa using hsize)⟩
  · intro h
    have hpos : 0 < varintSize64 7 := by decide +kernel
    have hlen := congrArg List.length h
    simp only [List.flatten_cons, List.flatten_nil, List.length_append, length_serializeUnknownFields,
      computeUnknownFieldsSize, List.length_nil] at hlen
    omega
  · simp only [List.mem_singleton, forall_eq]
    rfl

/-! ### What is accepted -/

/-- The texts `Tick` reads of a response. -/
def texts (r : Engine.SLUResponse) : List StdString :=
  r.audioContext ::
    match r.payload with
    | .transcript t => [t.word]
    | .entity e => [e.entity, e.value]
    | .intent i => [i.intent]
    | .finished f => (f.error.map (·.message)).toList
    | _ => []

theorem texts_of_ok {m : Message SLUResponse} (hok : codec.ok Codec.recursionLimit m = true) :
    ∀ text ∈ texts (toEngine m), isStructurallyValidUTF8 text = true := by
  have hall := Codec.fields_ok hok
  simp only [codec, List.forall_mem_cons] at hall
  obtain ⟨haudio, -, htranscript, hentity, hintent, -, -, -, -, -, hfinished, -⟩ := hall
  simp only [texts, List.forall_mem_cons]
  refine ⟨haudio, ?_⟩
  simp only [toEngine]
  cases hresponse : m.fields.streamingResponse with
  | transcript n =>
    simp only [Field.message, hresponse] at htranscript
    have hword := Codec.fields_ok (c := SLUTranscript.codec) htranscript
    simp only [SLUTranscript.codec, List.forall_mem_cons] at hword
    simpa using hword.1
  | entity n =>
    simp only [Field.message, hresponse] at hentity
    have htexts := Codec.fields_ok (c := SLUEntity.codec) hentity
    simp only [SLUEntity.codec, List.forall_mem_cons] at htexts
    simpa using And.intro htexts.1 htexts.2.1
  | intent n =>
    simp only [Field.message, hresponse] at hintent
    have hname := Codec.fields_ok (c := SLUIntent.codec) hintent
    simp only [SLUIntent.codec, List.forall_mem_cons] at hname
    simpa using hname.1
  | finished n =>
    simp only [Field.message, hresponse] at hfinished
    have herror := Codec.fields_ok (c := SLUFinished.codec) hfinished
    simp only [SLUFinished.codec, List.forall_mem_cons, Field.message] at herror
    cases he : n.fields.error with
    | none => simp [he]
    | some e =>
      rw [he] at herror
      have hmessage := Codec.fields_ok (c := SLUError.codec) herror.1
      simp only [SLUError.codec, List.forall_mem_cons] at hmessage
      simpa [he] using hmessage.2.1
  | _ => simp

/-- **What is accepted** is text in UTF-8, and is accepted again if it is written. -/
theorem accepted_again {slices : List (List UInt8)} {m : Message SLUResponse} (hread : codec.deserialize slices = some m) :
    (∀ text ∈ texts (toEngine m), ∃ chars : List Char, text = chars.flatMap String.utf8EncodeChar) ∧
      ∀ slices', codec.serialize m = some slices'.flatten → codec.deserialize slices' = some m := by
  have hok := lawful.ok_deserialize hread
  refine ⟨fun text htext => (isStructurallyValidUTF8_iff text).mp (texts_of_ok hok text htext), fun slices' h => ?_⟩
  exact lawful.deserialize_serialize hok h

/-- The first of the two responses. -/
theorem accepted_again_started :
    ∃ slices, codec.deserialize slices = some started ∧
      ∀ slices', codec.serialize started = some slices'.flatten → codec.deserialize slices' = some started := by
  have hserialize : codec.serialize started = some [codec.write started].flatten :=
    Codec.serialize_eq_some.mpr ⟨by rw [size_started]; decide, by simp⟩
  have hread := lawful.deserialize_serialize ok_started hserialize
  exact ⟨[codec.write started], hread, (accepted_again hread).2⟩

end SLUResponse

/-! ## Sizes -/

/-- **`ByteSizeLong` is the number of bytes that are written**, for every message the plugin exchanges. -/
theorem sizes_are_lengths :
    (∀ m, (SLURequest.codec.write m).length = SLURequest.codec.size m) ∧
      (∀ m, (SLUResponse.codec.write m).length = SLUResponse.codec.size m) ∧
      (∀ m, (WLURequest.codec.write m).length = WLURequest.codec.size m) ∧
      (∀ m, (WLUResponse.codec.write m).length = WLUResponse.codec.size m) ∧
      (∀ m, (TextsRequest.codec.write m).length = TextsRequest.codec.size m) ∧
      (∀ m, (TextsResponse.codec.write m).length = TextsResponse.codec.size m) ∧
      (∀ m, (LoginRequest.codec.write m).length = LoginRequest.codec.size m) ∧
      ∀ m, (LoginResponse.codec.write m).length = LoginResponse.codec.size m :=
  ⟨SLURequest.lawful.length_write, SLUResponse.lawful.length_write, WLURequest.lawful.length_write,
    WLUResponse.lawful.length_write, TextsRequest.lawful.length_write, TextsResponse.lawful.length_write,
    LoginRequest.lawful.length_write, LoginResponse.lawful.length_write⟩

end SpeechlyPlugin.Proto
