import SpeechlyPlugin.Plugin.World
import SpeechlyPlugin.Proto.Responses

/-!
# From the microphone to the service, and back

What the service decodes of a stream is the configuration and then sessions, and the audio of a session encodes the first
samples spoken after its `Recorder.Start`.  What `Tick` handles is what the service has sent, in its order and with nothing
left out.
-/

namespace SpeechlyPlugin.Plugin

open Engine Lib Client Recorder

/-! ## Requests that are on their way -/

/-- Later the samples of a `Recorder.Start` are only more. -/
theorem Prefixes.later {ps : List (List UInt8)} {l : List Obs} (h : Prefixes ps (spoken l)) (new : List Obs) :
    Prefixes ps (spoken (l ++ new)) := by
  induction new using List.reverseRecOn with
  | nil => rwa [List.append_nil]
  | append_singleton new o ih =>
    rw [← List.append_assoc, spoken, spokenState_concat]
    have hsame : (spokenState (l ++ new)).1 = spoken (l ++ new) := rfl
    cases o with
    | recorderStart => exact ih.append []
    | speechAudio call =>
      simp only [addSpoken]
      split
      · exact ih.grow call.samples
      · exact ih
    | handled r b => cases b <;> exact ih
    | _ => exact ih

/-- The first requests that have been accepted encode what has been spoken, as all of them do. -/
def SysState.Audible (s : SysState) : Prop := ∀ rs, rs <+: acceptedOf s.trace → Prefixes (payloads rs) (spoken s.trace)

/-- A step accepts one request or none. -/
theorem accepts_step {s t : SysState} {a : SysLabel} (ht : sys.step s a = some t) :
    acceptedOf t.trace = acceptedOf s.trace ∨ ∃ r, acceptedOf t.trace = acceptedOf s.trace ++ [r] := by
  cases ha : a.ofPlugin with
  | true =>
    cases SysState.touches_step ha ht with
    | keeps _ haccepted => exact Or.inl haccepted
    | writes _ _ _ haccepted => exact Or.inr ⟨_, haccepted⟩
    | reads _ _ _ _ haccepted => exact Or.inl haccepted
  | false =>
    cases SysState.step_of_sysStep ht <;> first | exact Or.inl rfl | cases ha

theorem audible_step {s t : SysState} {a : SysLabel} (h : s.Audible) (hview : t.view.Inv) (ht : sys.step s a = some t) :
    t.Audible := by
  intro rs hrs
  obtain ⟨new, htrace, -⟩ := SysState.step_adds ht
  have hold : rs <+: acceptedOf s.trace → Prefixes (payloads rs) (spoken t.trace) := fun hrs => by
    rw [htrace]
    exact (h rs hrs).later new
  rcases accepts_step ht with haccepted | ⟨r, haccepted⟩
  · exact hold (haccepted ▸ hrs)
  · rw [haccepted, List.prefix_concat_iff] at hrs
    rcases hrs with rfl | hrs
    · rw [← haccepted]
      exact hview.prefixes
    · exact hold hrs

theorem SysReach.audible {s : SysState} (h : SysReach s) : s.Audible := by
  obtain ⟨u, languageCode, h⟩ := h
  refine h.induct (fun t a v hr ht ha => ?_) ?_
  · exact audible_step ht (SysState.inv_step t a v (SysState.SysReach.inv ⟨u, languageCode, hr⟩) ha) ha
  · intro rs hrs
    rw [List.prefix_nil.mp hrs]
    exact fun n p hn => by simp [payloads] at hn

/-! ## The service -/

/-- A request leaves as these slices. -/
def Sends (r : SLURequest) (slices : List (List UInt8)) : Prop :=
  Proto.SLURequest.codec.serialize (Proto.SLURequest.ofEngine r) = some slices.flatten

/-- What the service reads in these slices. -/
def serviceReads (slices : List (List UInt8)) : Option SLURequest :=
  (Proto.SLURequest.codec.deserialize slices).bind Proto.SLURequest.toEngine

theorem serviceReads_sends {rs : List SLURequest} {wire : List (List (List UInt8))} (hfits : ∀ r ∈ rs, Proto.Fits r)
    (hwire : List.Forall₂ Sends rs wire) : wire.mapM serviceReads = some rs := by
  induction hwire with
  | nil => rfl
  | @cons r slices rs wire hr _ ih =>
    have hread : serviceReads slices = some r := (Proto.SLURequest.request_arrives (hfits r (by simp)) hr).2
    rw [List.mapM_cons, hread, ih fun r hr => hfits r (by simp [hr])]
    rfl

/-- The requests of sessions have no numbers and no text. -/
theorem fits_session {audio : List (List (List UInt8))} : ∀ r ∈ audio.flatMap session, Proto.Fits r := by
  intro r hr
  obtain ⟨bytes, -, hr⟩ := List.mem_flatMap.mp hr
  simp only [session, List.mem_append, List.mem_cons, List.mem_map, List.not_mem_nil, or_false] at hr
  obtain (rfl | ⟨_, _, rfl⟩) | rfl := hr <;> trivial

theorem fits_config (language : FString) : Proto.Fits (.config ⟨1, kSampleRate, language.toUtf8⟩) := by
  have hchannels : (-2 ^ 31 : ℤ) ≤ 1 ∧ (1 : ℤ) < 2 ^ 31 := by decide
  have hrate : -2 ^ 31 ≤ kSampleRate ∧ kSampleRate < 2 ^ 31 := by decide
  exact ⟨hchannels, hrate, Proto.valid_toUtf8 language⟩

/-- What has been written of the requests of a connection. -/
theorem written_cases {languageCode : StdString} {s : WorldState} (h : WorldReach languageCode s) :
    s.net.written = [] ∨ ∃ sent, s.net.written = .config ⟨1, kSampleRate, languageCode⟩ :: sent ∧
      acceptedOf s.sys.trace = sent ++ s.net.client.requestQueue := by
  have hinv := h.inv
  rcases hinv.fifo.sent with ⟨hwritten, -⟩ | ⟨sent, hwritten, haccepted, -⟩
  · exact Or.inl hwritten
  · refine Or.inr ⟨sent, ?_, ?_⟩
    · rw [hwritten, hinv.config]
    · rw [← hinv.accepted, haccepted]

/-! ## A conversation -/

/-- `Init` logs in, and `Run` opens and configures the stream and posts its first read. -/
def entering : List WorldLabel :=
  [.loginSucceeds, .network .thread, .complete 1 true default, .network (.next 1), .network .thread, .complete 2 true default,
    .network (.next 2), .network .thread, .network .thread, .network .thread]

/-- `Start`, a sound, and the service's `started`, which `Tick` reads; another sound, and `Stop`. -/
def conversation : List WorldLabel :=
  entering ++ (startCall ++ [hum 24]).map .plugin ++
    [.network .timeout, .network .thread, .network .thread, .network .thread, .arrive 3 [[10, 1], [97, 82, 0]] default,
      .network (.next 3), .network .thread, .network .thread, .network .thread] ++
    (tickCall 1 ++ [hum 1] ++ stopCall).map .plugin ++
    [.complete 4 true default, .network (.next 4), .network .thread, .network .thread, .network .thread,
      .complete 6 true default, .network (.next 6), .network .thread, .network .thread, .network .thread]

/-- What the conversation has come to. -/
theorem conversation_ends :
    ∃ s, WorldReach (FString.lit "en").toUtf8 s ∧
      s.net.written = [.config ⟨1, 16000, [101, 110]⟩, .event .START, .audio [255, 63, 255, 63], .event .STOP] ∧
      s.arrived = [[[10, 1], [97, 82, 0]]] ∧ handledOf s.sys.trace = [⟨[97], 0, .started⟩] := by
  have hrun : (world.run (.init .new (FString.lit "en").toUtf8) conversation).map
      (fun s => (s.net.written, s.arrived, handledOf s.sys.trace)) =
        some ([.config ⟨1, 16000, [101, 110]⟩, .event .START, .audio [255, 63, 255, 63], .event .STOP],
          [[[10, 1], [97, 82, 0]]], [⟨[97], 0, .started⟩]) := by
    decide +kernel
  obtain ⟨s, hs, hrun⟩ := Option.map_eq_some_iff.mp hrun
  simp only [Prod.mk.injEq] at hrun
  exact ⟨s, ⟨.new, conversation, hs⟩, hrun⟩

/-- Seen from the plugin, it is a run of `sys`. -/
theorem sysReach_of_world_conversation :
    ∃ s, WorldReach (FString.lit "en").toUtf8 s ∧
      s.net.written = [.config ⟨1, 16000, [101, 110]⟩, .event .START, .audio [255, 63, 255, 63], .event .STOP] ∧
      handledOf s.sys.trace = [⟨[97], 0, .started⟩] ∧ SysReach s.sys.shared := by
  obtain ⟨s, hs, hwritten, -, hhandled⟩ := conversation_ends
  exact ⟨s, hs, hwritten, hhandled, sysReach_of_world hs⟩

theorem sends_write {r : SLURequest} (h : Proto.SLURequest.codec.size (Proto.SLURequest.ofEngine r) ≤ Proto.INT_MAX) :
    Sends r [Proto.SLURequest.codec.write (Proto.SLURequest.ofEngine r)] :=
  Proto.Codec.serialize_eq_some.mpr ⟨h, by simp⟩

/-! ## The theorems -/

/-- **From the microphone to the service.**  From the bytes of the stream, in slices of any lengths, the service reads what was
written: the configuration with the language of `Connect`, and then sessions, up to the requests that are still queued.  The
audio of the `n`-th session is made of 16-bit samples, the first of those spoken after the `n`-th `Recorder.Start`. -/
theorem requests_reach_service {language : FString} {s : WorldState} (h : WorldReach language.toUtf8 s)
    {wire : List (List (List UInt8))} (hwire : List.Forall₂ Sends s.net.written wire) :
    wire.mapM serviceReads = some s.net.written ∧
      (s.net.written = [] ∨ ∃ sent, s.net.written = .config ⟨1, kSampleRate, language.toUtf8⟩ :: sent ∧
        acceptedOf s.sys.trace = sent ++ s.net.client.requestQueue ∧
        (∃ audio : List (List (List UInt8)), sent <+: audio.flatMap session) ∧
        ∀ (n : ℕ) (payload : List UInt8), (payloads sent)[n]? = some payload →
          ∃ samples, (spoken s.sys.trace)[n]? = some samples ∧ payload.length = 2 * (readShorts payload).length ∧
            readShorts payload <+: samples.map toSample) := by
  have hsys := sysReach_of_world h
  rcases written_cases h with hnil | ⟨sent, hwritten, haccepted⟩
  · rw [hnil] at hwire ⊢
    cases hwire
    exact ⟨rfl, Or.inl rfl⟩
  have hprefix : sent <+: acceptedOf s.sys.shared.trace := ⟨_, haccepted.symm⟩
  obtain ⟨b, hsessions, -⟩ := (SysState.SysReach.inv hsys).sessions
  obtain ⟨audio, haudio⟩ := hsessions.prefix
  have hsent : sent <+: audio.flatMap session := hprefix.trans haudio
  have hfits : ∀ r ∈ s.net.written, Proto.Fits r := by
    rw [hwritten, List.forall_mem_cons]
    exact ⟨fits_config language, fun r hr => fits_session r (hsent.subset hr)⟩
  refine ⟨serviceReads_sends hfits hwire, Or.inr ⟨sent, hwritten, haccepted, ⟨audio, hsent⟩, fun n payload hn => ?_⟩⟩
  obtain ⟨samples, out, hsamples, rfl, hout⟩ := hsys.audible sent hprefix n payload hn
  refine ⟨samples, hsamples, ?_, ?_⟩
  · rw [length_encode, readShorts_encode, List.length_map]
  · rw [readShorts_encode]
    exact hout.map _

/-- The requests of the conversation, each in one slice. -/
theorem requests_reach_service_conversation :
    ∃ (s : WorldState) (wire : List (List (List UInt8))) (samples : List ℚ), WorldReach (FString.lit "en").toUtf8 s ∧
      wire.mapM serviceReads =
        some [.config ⟨1, 16000, [101, 110]⟩, .event .START, .audio [255, 63, 255, 63], .event .STOP] ∧
      (spoken s.sys.trace)[0]? = some samples ∧ [16383, 16383] <+: samples.map toSample := by
  obtain ⟨s, hs, hwritten, -, -⟩ := conversation_ends
  have hsize : ∀ r ∈ s.net.written, Proto.SLURequest.codec.size (Proto.SLURequest.ofEngine r) ≤ Proto.INT_MAX := by
    rw [hwritten]
    simp only [List.forall_mem_cons, Proto.SLURequest.ofEngine, Proto.Codec.size_known, Proto.SLURequest.codec,
      Proto.Field.message, Proto.Field.optional, Proto.SLUConfig.codec, Proto.SLUEvent.codec, List.map_cons, List.map_nil]
    decide +kernel
  have hwire : List.Forall₂ Sends s.net.written
      (s.net.written.map fun r => [Proto.SLURequest.codec.write (Proto.SLURequest.ofEngine r)]) := by
    rw [List.forall₂_map_right_iff, List.forall₂_same]
    exact fun r hr => sends_write (hsize r hr)
  obtain ⟨hread, hnil | ⟨sent, hsent, -, -, hpayloads⟩⟩ := requests_reach_service hs hwire
  · rw [hwritten] at hnil
    cases hnil
  · rw [hwritten] at hsent
    obtain rfl : [.event .START, .audio [255, 63, 255, 63], .event .STOP] = sent := (List.cons.inj hsent).2
    obtain ⟨samples, hsamples, -, hprefix⟩ := hpayloads 0 [255, 63, 255, 63] (by decide)
    exact ⟨s, _, samples, hs, hread.trans (congrArg some hwritten), hsamples, hprefix⟩

/-- A message of the service leaves as these slices. -/
def Answers (m : Proto.Message Proto.SLUResponse) (slices : List (List UInt8)) : Prop :=
  Proto.SLUResponse.codec.ok Proto.Codec.recursionLimit m = true ∧
    Proto.SLUResponse.codec.serialize m = some slices.flatten

theorem messages_answers {service : List (Proto.Message Proto.SLUResponse)} {wire : List (List (List UInt8))}
    (h : List.Forall₂ Answers service wire) : WorldState.messages wire = service.map Proto.SLUResponse.toEngine := by
  induction h with
  | nil => rfl
  | @cons m slices service wire hm _ ih =>
    have hread := Proto.SLUResponse.lawful.deserialize_serialize hm.1 hm.2
    simp only [WorldState.messages, List.filterMap_cons, hread, Option.map_some, List.map_cons]
    exact congrArg _ ih

/-- **From the service to `Tick`.**  What `Tick` has handled, with what is still queued, is what the network thread and `WLUSync`
have enqueued, in that order; and of the messages the service has sent, however they were cut, the network thread has enqueued
the first ones, up to the end of its main loop all but the last one at most. -/
theorem responses_reach_tick {languageCode : StdString} {s : WorldState} (h : WorldReach languageCode s)
    {service : List (Proto.Message Proto.SLUResponse)} (hservice : List.Forall₂ Answers service s.arrived) :
    handledOf s.sys.trace ++ s.net.client.responseQueue = s.net.enqueued.map Prod.snd ∧
      ∃ rest, service.map Proto.SLUResponse.toEngine = fromStream s.net.enqueued ++ rest ∧
        (running s.net.pc = true → rest.length ≤ 1) := by
  have hinv := h.inv
  refine ⟨?_, ?_⟩
  · rw [← hinv.returned]
    exact hinv.fifo.out
  · rw [← messages_answers hservice, ← hinv.arrived, hinv.fifo.delivery.stream]
    exact hinv.gapless.reads

theorem write_started : Proto.SLUResponse.codec.write Proto.SLUResponse.started = [10, 1, 97, 82, 0] := by
  have hsize : Proto.SLUStarted.codec.size ⟨⟨⟩, []⟩ = 0 := Proto.Codec.size_known _ _
  have hwrite : Proto.SLUStarted.codec.write ⟨⟨⟩, []⟩ = [] := by
    simp [Proto.Codec.write, Proto.SLUStarted.codec, Proto.serializeUnknownFields]
  have hinner : Proto.Field.writeMessage Proto.SLUStarted.codec ⟨⟨⟩, []⟩ = [0] := by
    simp [Proto.Field.writeMessage, hsize, hwrite, Proto.writeVarint32_eq, Base128.encode_small]
  simp [Proto.SLUResponse.started, Proto.SLUResponse.codec, Proto.Codec.write, Proto.Message.known, Proto.Field.message,
    Proto.Field.scalar, Proto.Scalar.string, Proto.Scalar.int32, Proto.writeBytes, hinner, Proto.serializeUnknownFields,
    Proto.writeVarint32_eq, Base128.encode_small]

/-- The one message of the conversation. -/
theorem responses_reach_tick_conversation :
    ∃ s, WorldReach (FString.lit "en").toUtf8 s ∧ handledOf s.sys.trace = [⟨[97], 0, .started⟩] ∧
      ∃ rest, [⟨[97], 0, .started⟩] = fromStream s.net.enqueued ++ rest ∧ (running s.net.pc = true → rest.length ≤ 1) := by
  obtain ⟨s, hs, -, harrived, hhandled⟩ := conversation_ends
  have hanswers : Answers Proto.SLUResponse.started [[10, 1], [97, 82, 0]] := by
    refine ⟨Proto.SLUResponse.ok_started, Proto.Codec.serialize_eq_some.mpr ⟨?_, ?_⟩⟩
    · rw [Proto.SLUResponse.size_started]
      decide
    · rw [write_started]
      rfl
  have hservice : List.Forall₂ Answers [Proto.SLUResponse.started] s.arrived := by
    rw [harrived]
    exact .cons hanswers .nil
  exact ⟨s, hs, hhandled, (responses_reach_tick hs hservice).2⟩

end SpeechlyPlugin.Plugin
