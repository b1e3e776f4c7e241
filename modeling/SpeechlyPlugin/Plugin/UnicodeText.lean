import SpeechlyPlugin.Plugin.WrittenText

/-!
# Unicode text

The server sends UTF-8, and `SendText` encodes what it sends; `Tick` reads the bytes back one by one.  So every text that
is stored is ASCII, at every moment of every run, and a text survives the trip exactly when it was ASCII already.
-/

namespace SpeechlyPlugin.Plugin

open Engine Lib Client USpeechly Reading

/-! ## What a message says -/

/-- A text of a message, as the Unicode text its bytes encode. -/
inductive Said where
  | word (text : FString)
  | entity (name value : FString)
  | intent (text : FString)

namespace Said

/-- The payload brings the text in UTF-8. -/
inductive SentAs : Said → Payload → Prop
  | word (text : FString) (index : ℤ) : SentAs (.word text) (.transcript ⟨text.toUtf8, index⟩)
  | entity (name value : FString) (startPosition endPosition : ℤ) :
      SentAs (.entity name value) (.entity ⟨name.toUtf8, value.toUtf8, startPosition, endPosition⟩)
  | intent (text : FString) : SentAs (.intent text) (.intent ⟨text.toUtf8⟩)

/-- The response with the text added as it is. -/
def store : Said → FSpeechlyResponse → FSpeechlyResponse
  | .word text, out => appendWord text out
  | .entity name value, out => { out with entities := out.entities.emplace name value }
  | .intent text, out => { out with intent := text }

/-- The text as `Tick` reads it. -/
def readBack : Said → Said
  | .word text => .word (FString.ofCStr text.toUtf8)
  | .entity name value => .entity (FString.ofCStr name.toUtf8) (FString.ofCStr value.toUtf8)
  | .intent text => .intent (FString.ofCStr text.toUtf8)

def IsAscii : Said → Prop
  | .word text => text.IsAscii
  | .entity name value => name.IsAscii ∧ value.IsAscii
  | .intent text => text.IsAscii

instance : ∀ said : Said, Decidable said.IsAscii
  | .word text => inferInstanceAs (Decidable text.IsAscii)
  | .entity _ _ => inferInstanceAs (Decidable (_ ∧ _))
  | .intent text => inferInstanceAs (Decidable text.IsAscii)

theorem readBack_eq_self {said : Said} (h : said.IsAscii) : said.readBack = said := by
  cases said with
  | word text => exact congrArg word (FString.ofCStr_toUtf8_iff.mpr h)
  | entity name value => exact congrArg₂ entity (FString.ofCStr_toUtf8_iff.mpr h.1) (FString.ofCStr_toUtf8_iff.mpr h.2)
  | intent text => exact congrArg intent (FString.ofCStr_toUtf8_iff.mpr h)

theorem updateOf_sentAs {said : Said} {p : Payload} (h : said.SentAs p) : updateOf p = some said.readBack.store := by
  cases h <;> rfl

end Said

/-! ## What is stored is ASCII -/

/-- All texts of the response are ASCII. -/
structure FSpeechlyResponse.IsAscii (out : FSpeechlyResponse) : Prop where
  transcript : out.transcript.IsAscii
  entities : ∀ e ∈ out.entities.entries, e.1.IsAscii ∧ e.2.IsAscii
  intent : out.intent.IsAscii

variable {u : USpeechly} {out : FSpeechlyResponse} {said : Said} {r : SLUResponse}

theorem isAscii_default : (default : FSpeechlyResponse).IsAscii := ⟨nofun, nofun, nofun⟩

theorem isAscii_appendWord {word : FString} (h : out.transcript.IsAscii) :
    (appendWord word out).transcript.IsAscii ↔ word.IsAscii := by
  have happend : ∀ s t : FString, (s.append t).IsAscii ↔ s.IsAscii ∧ t.IsAscii := fun s t => List.forall_mem_append
  have hblank : (FString.lit " ").IsAscii := by decide
  unfold appendWord
  dsimp only
  split
  · rw [happend]
    exact and_iff_right h
  · rw [happend, happend]
    exact and_iff_right ⟨h, hblank⟩

/-- A response stays ASCII when what is added is. -/
theorem Said.isAscii_store (said : Said) (h : out.IsAscii) : (said.store out).IsAscii ↔ said.IsAscii := by
  cases said with
  | word text => exact ⟨fun hs => (isAscii_appendWord h.transcript).mp hs.transcript,
      fun ht => ⟨(isAscii_appendWord h.transcript).mpr ht, h.entities, h.intent⟩⟩
  | entity name value =>
    refine ⟨fun hs => hs.entities _ KeyMap.mem_emplace_self, fun ht => ⟨h.transcript, fun e he => ?_, h.intent⟩⟩
    rcases KeyMap.mem_entries_emplace he with rfl | he
    · exact ht
    · exact h.entities e he
  | intent text => exact ⟨fun hs => hs.intent, fun ht => ⟨h.transcript, h.entities, ht⟩⟩

theorem isAscii_update {p : Payload} {f : FSpeechlyResponse → FSpeechlyResponse} (hf : updateOf p = some f)
    (h : out.IsAscii) : (f out).IsAscii := by
  cases p <;> cases hf
  case transcript t => exact (Said.isAscii_store (.word _) h).mpr (FString.isAscii_ofCStr _)
  case entity e =>
    exact (Said.isAscii_store (.entity _ _) h).mpr ⟨FString.isAscii_ofCStr _, FString.isAscii_ofCStr _⟩
  case intent i => exact (Said.isAscii_store (.intent _) h).mpr (FString.isAscii_ofCStr _)
  case segmentEnd => exact ⟨h.transcript, h.entities, h.intent⟩

/-- All responses of the object are ASCII. -/
def AllAscii (u : USpeechly) : Prop := ∀ key out, u.responses.find key = some out → out.IsAscii

theorem allAscii_connect (u : USpeechly) (languageCode : StdString) : AllAscii (u.connect languageCode) := nofun

theorem AllAscii.getD (h : AllAscii u) (key : FString) : ((u.responses.find key).getD default).IsAscii := by
  cases hold : u.responses.find key with
  | none => exact isAscii_default
  | some out => exact h key out hold

theorem AllAscii.handle (h : AllAscii u) (locals : TickLocals) (r : SLUResponse) :
    AllAscii (u.handleResponse locals r).1 := by
  intro key out hout
  cases hf : updateOf r.payload with
  | some f =>
    rw [handleResponse_update hf] at hout
    simp only [updateResponse, keyOfMessage, KeyMap.find_findOrAdd] at hout
    split at hout
    · cases hout
      exact isAscii_update hf (h.getD key)
    · exact h key out hout
  | none =>
    unfold handleResponse at hout
    cases hp : r.payload <;> simp only [hp, updateOf, reduceCtorEq] at hf hout
    case finished f =>
      rw [(finishContext_fields u locals (FString.ofCStr r.audioContext) f).1] at hout
      rcases find_finalizeKeys u locals (FString.ofCStr r.audioContext) key with hfind | hfind
      · exact h key out (hfind.symm.trans hout)
      · obtain ⟨w, hw, rfl⟩ := Option.map_eq_some_iff.mp (hfind.symm.trans hout)
        obtain ⟨htranscript, hentities, hintent⟩ := h key w hw
        exact ⟨htranscript, hentities, hintent⟩
    all_goals exact h key out hout

theorem AllAscii.run {s : Reading} (h : AllAscii s.plugin) (steps : List TickStep) : AllAscii (s.run steps).plugin := by
  induction steps generalizing s with
  | nil => exact h
  | cons x steps ih =>
    refine ih (s := s.step x) ?_
    cases x with
    | read r => exact h.handle s.locals r
    | tickEnd =>
      intro key out hout
      rcases @stored_tickEnd_cases s key with hgone | hsame
      · cases hgone.symm.trans hout
      · exact h key out (hsame.symm.trans hout)

/-! ## What is stored of a message -/

/-- What is stored for the key of the message is the text as it is, added to what was stored before. -/
def StoresText (u : USpeechly) (locals : TickLocals) (r : SLUResponse) (said : Said) : Prop :=
  (u.handleResponse locals r).1.responses.find (keyOf r) =
    some (said.store ((u.responses.find (keyOf r)).getD default))

theorem storesText_iff (h : AllAscii u) (locals : TickLocals) (hsaid : said.SentAs r.payload) :
    StoresText u locals r said ↔ said.IsAscii := by
  constructor
  · intro hstores
    exact (said.isAscii_store (h.getD _)).mp (h.handle locals r _ _ hstores)
  · intro hascii
    rw [StoresText, handleResponse_update (Said.updateOf_sentAs hsaid), Said.readBack_eq_self hascii]
    simp only [updateResponse, keyOfMessage, KeyMap.find_findOrAdd, if_pos (Setoid.refl (keyOf r))]

/-! ## There and back -/

/-- The service sends the text back: as a word, as an entity of this name and value, and as the intent. -/
def echo (request : WLURequest) : WLUResponse :=
  ⟨[⟨[⟨request.text, 0⟩], [⟨request.text, request.text, 0, 0⟩], some ⟨request.text⟩⟩]⟩

/-- The response that says the text. -/
def echoed (text : FString) : FSpeechlyResponse := ⟨text, KeyMap.empty.emplace text text, text, true⟩

/-- `SendText` to this service, and the next `Tick` broadcasts the text as it was sent. -/
def EchoSurvives (u : USpeechly) (guid : StdString) (text : FString) : Prop :=
  ∃ w w' broadcasts, u.sendText (fun request => some (echo request)) guid text = .ok w ∧
    w.tick = .ok (w', broadcasts, true) ∧
    lastResponse ((FString.ofCStr guid).printKey 1) broadcasts = some (echoed text)

theorem sendText_eq {service : WLURequest → Option WLUResponse} {reply : WLUResponse} {guid : StdString} {text : FString}
    (hu : u.Listening)
    (hreply : ∀ c : SpeechlyClient, u.client = some c → service (c.wluRequest text.toUtf8) = some reply) :
    u.sendText service guid text = .ok (u.deliver (wluMessages guid reply)) := by
  obtain ⟨c, hc, hrefuses, -⟩ := hu
  unfold sendText
  rw [if_pos (isConnected_of_client hc hrefuses)]
  simp only [hc, hreply c hc, wluSync_eq, deliver, Option.map_some, wluMessages_eq]

/-- What the four messages of the reply leave for their key. -/
theorem track_echo (guid : StdString) (text : FString) (languageCode : StdString) :
    (wluMessages guid (echo ⟨languageCode, text.toUtf8⟩)).foldl
      (track (FString.ofCStr guid) ((FString.ofCStr guid).printKey 1)) none =
      some (echoed (FString.ofCStr text.toUtf8)) := by
  have hfin : Finishes (FString.ofCStr guid) (fakeEnding guid) := ⟨rfl, Setoid.refl _⟩
  have hone : ∀ v p f, updateOf p = some f →
      track (FString.ofCStr guid) ((FString.ofCStr guid).printKey 1) v ⟨guid, 1, p⟩ = some (f (v.getD default)) :=
    fun v p f hf => (track_update hf).trans (if_pos (Setoid.refl _))
  rw [wluMessages_eq]
  simp only [echo, segmentMessages, List.flatMap_cons, List.flatMap_nil, List.map_cons, List.map_nil, Option.toList_some,
    List.cons_append, List.nil_append, List.append_nil, List.foldl_cons, List.foldl_nil]
  rw [track_skip rfl, if_pos hfin, hone _ _ _ rfl, hone _ _ _ rfl, hone _ _ _ rfl]
  rfl

/-- **The trip** on the GUID of no earlier message: the `Tick` broadcasts the text as it was read back. -/
theorem echo_broadcast {rss : List (List SLUResponse)} {guid : StdString} (hu : u.Fresh) (hguid : IsGuid guid)
    (hnew : ∀ r ∈ rss.flatten, ¬FString.ofCStr r.audioContext ≈ FString.ofCStr guid) (text : FString)
    (languageCode : StdString) :
    lastResponse ((FString.ofCStr guid).printKey 1)
      ((u.batches rss).1.batch (wluMessages guid (echo ⟨languageCode, text.toUtf8⟩))).2 =
      some (echoed (FString.ofCStr text.toUtf8)) := by
  set msgs := wluMessages guid (echo ⟨languageCode, text.toUtf8⟩) with hmsgs
  have hkeyed : ∀ rs : List SLUResponse, ∀ r ∈ rs, (updateOf r.payload).isSome →
      keyOf r ≈ (FString.ofCStr guid).printKey 1 → FString.ofCStr r.audioContext ≈ FString.ofCStr guid :=
    fun _ _ _ _ hk => context_of_printKey hguid.dash_notMem (by decide) hk
  have hbefore := hu.sim.batches (hkeyed rss.flatten)
  rw [trackTick_none fun r hr hf hk => hnew r hr (hkeyed _ r hr hf hk), Option.or_none] at hbefore
  have hall := hu.sim.batches (hkeyed (rss ++ [msgs]).flatten)
  rw [List.foldl_append, trackTick_none fun r hr hf hk => hnew r hr (hkeyed _ r hr hf hk), Option.or_none,
    batches_concat, lastResponse_append, hbefore, Option.or_none] at hall
  rw [hall, List.foldl_cons, List.foldl_nil, trackTick, hmsgs, track_echo, Option.or_none]

theorem echoSurvives_iff {rss : List (List SLUResponse)} {guid : StdString} (hu : u.Fresh) (hguid : IsGuid guid)
    (hnew : ∀ r ∈ rss.flatten, ¬FString.ofCStr r.audioContext ≈ FString.ofCStr guid) (text : FString) :
    EchoSurvives (u.batches rss).1 guid text ↔ text.IsAscii := by
  have hlisten : (u.batches rss).1.Listening := hu.listening.batches
  have ⟨c, hc, _⟩ := hlisten
  have hsend : (u.batches rss).1.sendText (fun request => some (echo request)) guid text =
      .ok ((u.batches rss).1.deliver (wluMessages guid (echo (c.wluRequest text.toUtf8)))) :=
    sendText_eq hu.listening.batches fun c' hc' => by rw [Option.some.inj (hc'.symm.trans hc)]
  have hlen : (wluMessages guid (echo (c.wluRequest text.toUtf8))).length ≤ 10 := by
    rw [wluMessages_eq]
    exact (show 4 ≤ 10 by decide)
  have htick := tick_deliver hlisten hlen
  have hlast := echo_broadcast hu hguid hnew text c.languageCode
  constructor
  · rintro ⟨w, w', broadcasts, hw, hw', hout⟩
    cases hsend.symm.trans hw
    cases htick.symm.trans hw'
    have hsame := congrArg FSpeechlyResponse.transcript (Option.some.inj (hlast.symm.trans hout))
    exact FString.ofCStr_toUtf8_iff.mp hsame
  · intro hascii
    rw [FString.ofCStr_toUtf8_iff.mpr hascii] at hlast
    exact ⟨_, _, _, hsend, htick, hlast⟩

/-! ## The theorem -/

/-- **Which texts survive.**  At every moment of every run, a text that a message brings in UTF-8 is stored as it is exactly
when it is ASCII; after every run of ticks, a text given to `SendText` comes back as it is exactly when it is ASCII. -/
theorem text_survives_iff (u : USpeechly) (languageCode : StdString) {rss : List (List SLUResponse)}
    (hlen : ∀ rs ∈ rss, rs.length ≤ 10) :
    ∃ v sent, (u.connect languageCode).ticks rss = .ok (v, sent) ∧
      (∀ (read : List SLUResponse) (r : SLUResponse) (said : Said), said.SentAs r.payload →
        (StoresText (v.handleAll .new read).1 (v.handleAll .new read).2 r said ↔ said.IsAscii)) ∧
      ∀ (guid : StdString) (text : FString), IsGuid guid →
        (∀ r ∈ rss.flatten, ¬FString.ofCStr r.audioContext ≈ FString.ofCStr guid) →
        (EchoSurvives v guid text ↔ text.IsAscii) := by
  have hu := fresh_connect u languageCode
  refine ⟨_, _, ticks_eq hu.listening hlen, fun read r said hsaid => ?_,
    fun guid text hguid hnew => echoSurvives_iff hu hguid hnew text⟩
  have hmoment := ((allAscii_connect u languageCode).run (s := init _) (stepsOf rss)).run (read.map .read)
  rw [← handleAll_eq_run locals_stepsOf, run_stepsOf rfl] at hmoment
  exact storesText_iff hmoment _ hsaid

/-- U+00E9. -/
def eAcute : FString := ⟨[Char.ofNat 0xE9]⟩

/-- After a word of ASCII: the next one is stored, and a text with U+00E9 does not come back. -/
theorem text_survives_iff_hi :
    ∃ v sent, (USpeechly.new.connect []).ticks [[transcriptOf [97] 0 [104, 105]]] = .ok (v, sent) ∧
      StoresText v .new (transcriptOf [97] 0 [104, 111]) (.word (FString.lit "ho")) ∧
      EchoSurvives v (List.replicate 32 48) (FString.lit "ho") ∧ ¬EchoSurvives v (List.replicate 32 48) eAcute := by
  obtain ⟨v, sent, hticks, hstores, hecho⟩ := @text_survives_iff .new [] [[transcriptOf [97] 0 [104, 105]]] (by decide)
  have hguid : IsGuid (List.replicate 32 48) := by decide +kernel
  have hnew : ∀ r ∈ [[transcriptOf [97] 0 [104, 105]]].flatten,
      ¬FString.ofCStr r.audioContext ≈ FString.ofCStr (List.replicate 32 48) := by decide +kernel
  refine ⟨v, sent, hticks, (hstores [] _ _ (.word (FString.lit "ho") 0)).mpr (by decide),
    (hecho _ _ hguid hnew).mpr (by decide), fun h => ?_⟩
  exact absurd ((hecho _ _ hguid hnew).mp h) (by decide)

/-- The two UTF-8 bytes of U+00E9 are stored as `??`; as a text that was sent it does not come back either. -/
theorem text_lost_eAcute :
    eAcute.toUtf8 = [0xC3, 0xA9] ∧ (Said.word eAcute).SentAs (transcriptOf [97] 0 [0xC3, 0xA9]).payload ∧
      (((USpeechly.new.connect []).handleResponse .new (transcriptOf [97] 0 [0xC3, 0xA9])).1.responses.find
        (keyOf (transcriptOf [97] 0 [0xC3, 0xA9]))).map FSpeechlyResponse.transcript = some (FString.lit "??") ∧
      ¬StoresText (USpeechly.new.connect []) .new (transcriptOf [97] 0 [0xC3, 0xA9]) (.word eAcute) ∧
      ¬EchoSurvives (USpeechly.new.connect []) (List.replicate 32 48) eAcute := by
  have hutf8 : eAcute.toUtf8 = [0xC3, 0xA9] := by decide +kernel
  have hsent : (Said.word eAcute).SentAs (transcriptOf [97] 0 [0xC3, 0xA9]).payload := by
    rw [← hutf8]
    exact .word eAcute 0
  refine ⟨hutf8, hsent, by decide +kernel, fun h => ?_, fun h => ?_⟩
  · exact absurd ((storesText_iff (allAscii_connect .new []) .new hsent).mp h) (by decide)
  · have hguid : IsGuid (List.replicate 32 48) := by decide +kernel
    have hecho : EchoSurvives ((USpeechly.new.connect []).batches []).1 (List.replicate 32 48) eAcute := h
    exact absurd ((echoSurvives_iff (fresh_connect .new []) hguid (by simp) eAcute).mp hecho) (by decide)

end SpeechlyPlugin.Plugin
