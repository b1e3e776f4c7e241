import SpeechlyPlugin.Plugin.Account
import SpeechlyPlugin.Plugin.Index
import SpeechlyPlugin.Plugin.Service
import SpeechlyPlugin.Plugin.Surviving

/-!
# From the service to the listener

The steps of the other threads leave the results alone, so that the game thread goes through its ticks as if nothing else
happened.  Whenever it is outside of `Tick`, the listener has been told of every segment what the responses read so far say of
it, and these are the first ones the service has sent.
-/

namespace SpeechlyPlugin.Plugin

open Engine Lib Client Recorder Reading

/-! ## The threads and the run of ticks -/

/-- The sets of the `Tick` the game thread is in. -/
def SysState.locals (s : SysState) : TickLocals :=
  match s.pc with
  | .tickRead _ locals | .tickEnd locals => locals
  | _ => .new

/-- The game thread reads responses. -/
def GamePc.reads : GamePc → Bool
  | .tickRead _ _ | .tickEnd _ => true
  | _ => false

/-- The game thread is in `Tick`. -/
def GamePc.ticks : GamePc → Bool
  | .tickTest | .tickDisconnected | .tickRead _ _ | .tickEnd _ => true
  | _ => false

theorem GamePc.not_ticks {pc : GamePc} {P : Prop} (hpc : pc.ticks = false) (hticks : pc.ticks = true) : P :=
  absurd (hpc.symm.trans hticks) Bool.false_ne_true

/-- What is broadcast when the ticker is removed. -/
def Parting (ticker : Bool) (last : List Broadcast) : Prop :=
  if ticker then last = []
  else ∃ message, last = [.error default ((FString.lit "Disconnected: ").append message)]

theorem Parting.lastResponse {ticker : Bool} {last : List Broadcast} (h : Parting ticker last) (key : FString) :
    lastResponse key last = none := by
  cases ticker with
  | true =>
    obtain rfl : last = [] := h
    rfl
  | false =>
    obtain ⟨message, rfl⟩ := h
    rfl

/-- The results, the sets of the `Tick` and the broadcasts are those of a run of ticks. -/
structure SysState.Follows (s : SysState) (x : Reading) : Prop where
  responses : s.plugin.responses = x.plugin.responses
  contextToKeys : s.plugin.contextToKeys = x.plugin.contextToKeys
  locals : s.locals = x.locals
  broadcasts : ∃ last, s.broadcasts = x.broadcasts ++ last ∧ Parting s.ticker last
  ticker : s.pc.ticks = true → s.ticker = true

namespace SysState

variable {s t : SysState} {x : Reading}

/-- A step that leaves the results alone. -/
theorem Follows.keep (h : s.Follows x) (hresponses : t.plugin.responses = s.plugin.responses)
    (hkeys : t.plugin.contextToKeys = s.plugin.contextToKeys) (hlocals : t.locals = s.locals)
    (hbroadcasts : t.broadcasts = s.broadcasts) (hticker : t.ticker = s.ticker)
    (hticks : t.pc.ticks = true → s.ticker = true) : t.Follows x where
  responses := hresponses.trans h.responses
  contextToKeys := hkeys.trans h.contextToKeys
  locals := hlocals.trans h.locals
  broadcasts := by
    rw [hbroadcasts, hticker]
    exact h.broadcasts
  ticker hpc := hticker.trans (hticks hpc)

/-- A step of another thread. -/
theorem Follows.other (h : s.Follows x) (hresponses : t.plugin.responses = s.plugin.responses)
    (hkeys : t.plugin.contextToKeys = s.plugin.contextToKeys) (hpc : t.pc = s.pc) (hbroadcasts : t.broadcasts = s.broadcasts)
    (hticker : t.ticker = s.ticker) : t.Follows x := by
  refine h.keep hresponses hkeys ?_ hbroadcasts hticker fun hticks => h.ticker (hpc ▸ hticks)
  simp only [SysState.locals, hpc]

theorem follows_speech (h : s.Follows x) (call : SpeechAudio) : (s.speech call).Follows x := by
  unfold speech
  cases hspeech : s.plugin.onSpeechAudio call with
  | error fault => exact h.other rfl rfl rfl rfl rfl
  | ok y =>
    obtain ⟨u, accepted⟩ := y
    obtain ⟨rfl, -⟩ | ⟨_, _, -, ⟨-, -, rfl⟩ | ⟨-, c, hc, -, rfl⟩⟩ := USpeechly.onSpeechAudio_inv hspeech <;>
      exact h.other rfl rfl rfl rfl rfl

theorem handledOf_quiet {new : List Obs} (hquiet : ∀ o ∈ new, o.quiet = true) : handledOf new = [] := by
  refine List.filterMap_eq_nil_iff.mpr fun o ho => ?_
  cases o <;> first | rfl | exact absurd (hquiet _ ho) Bool.false_ne_true

theorem handledOf_capture (s : SysState) (c : Capture) : handledOf (s.capture c).trace = handledOf s.trace := by
  unfold capture
  split
  · rfl
  · rfl
  · rename_i recorder call _
    obtain ⟨new, htrace, hquiet, -⟩ := speech_adds { s with plugin := { s.plugin with recorder := recorder } } call
    rw [htrace, handledOf_append, handledOf_quiet hquiet, List.append_nil]

theorem pc_capture (s : SysState) (c : Capture) : (s.capture c).pc = s.pc := by
  unfold capture
  split
  · rfl
  · rfl
  · unfold speech
    split <;> rfl

theorem follows_capture (h : s.Follows x) (c : Capture) : (s.capture c).Follows x := by
  unfold capture
  split
  · exact h.other rfl rfl rfl rfl rfl
  · exact h.other rfl rfl rfl rfl rfl
  · rename_i recorder call _
    have hrecorder : SysState.Follows { s with plugin := { s.plugin with recorder := recorder } } x :=
      h.other rfl rfl rfl rfl rfl
    exact follows_speech hrecorder call

/-- What the end of a `Tick` does depends on the results there are. -/
theorem endTick_congr {u v : USpeechly} (hresponses : v.responses = u.responses) (hkeys : v.contextToKeys = u.contextToKeys)
    (locals : TickLocals) :
    (v.endTick locals).1.responses = (u.endTick locals).1.responses ∧
      (v.endTick locals).1.contextToKeys = (u.endTick locals).1.contextToKeys ∧
      (v.endTick locals).2 = (u.endTick locals).2 := by
  have hfold (contexts : List FString) :
      (contexts.foldl USpeechly.removeContext v).responses = (contexts.foldl USpeechly.removeContext u).responses ∧
        (contexts.foldl USpeechly.removeContext v).contextToKeys =
          (contexts.foldl USpeechly.removeContext u).contextToKeys := by
    induction contexts generalizing u v with
    | nil => exact ⟨hresponses, hkeys⟩
    | cons c contexts ih =>
      refine ih ?_ ?_
      · simp only [USpeechly.removeContext, hresponses, hkeys]
      · simp only [USpeechly.removeContext, hkeys]
  refine ⟨(hfold _).1, (hfold _).2, ?_⟩
  simp only [USpeechly.endTick, USpeechly.changedResponses, hresponses]

/-- The error of the client is broadcast. -/
theorem disconnected_eq {u : USpeechly} (hlost : u.isConnected = false) {b : Broadcast} (h : u.disconnected = .ok b) :
    ∃ c, u.client = some c ∧ c.bHasError = true ∧
      b = .error default ((FString.lit "Disconnected: ").append c.errorMessage) := by
  unfold USpeechly.isConnected at hlost
  unfold USpeechly.disconnected at h
  cases hc : u.client with
  | none =>
    rw [hc] at h
    cases h
  | some c =>
    simp only [hc, Bool.not_eq_false'] at hlost
    simp only [hc, hlost, if_true] at h
    cases h
    exact ⟨c, rfl, hlost, rfl⟩

/-- Where the game thread goes on to is no `Tick` that has read. -/
theorem locals_eq_new (hreads : s.pc.reads = false) : s.locals = .new := by
  unfold SysState.locals
  cases hpc : s.pc <;> rw [hpc] at hreads <;> first | rfl | cases hreads

/-- The game thread moves on outside of the loop of `Tick`. -/
theorem Follows.outside (h : s.Follows x) (hresponses : t.plugin.responses = s.plugin.responses)
    (hkeys : t.plugin.contextToKeys = s.plugin.contextToKeys) (hreads : s.pc.reads = false) (hreads' : t.pc.reads = false)
    (hbroadcasts : t.broadcasts = s.broadcasts) (hticker : t.ticker = s.ticker)
    (hticks : t.pc.ticks = true → s.ticker = true) : t.Follows x :=
  h.keep hresponses hkeys ((locals_eq_new hreads').trans (locals_eq_new hreads).symm) hbroadcasts hticker hticks

theorem follows_goto (h : s.Follows x) {isConnected : Bool} {pc : GamePc} (hpc : s.pc.Goes isConnected pc) :
    (s.goto pc).Follows x := by
  have hticker := h.ticker
  generalize hat : s.pc = pc₀ at hpc hticker
  cases hpc with
  | enough => exact h.keep rfl rfl (by simp [SysState.locals, hat, goto]) rfl rfl fun _ => hticker rfl
  | start | stop => exact h.outside rfl rfl (by rw [hat]; rfl) rfl rfl rfl (GamePc.not_ticks rfl)
  | tick => exact h.keep rfl rfl (by simp [SysState.locals, hat, goto]) rfl rfl fun _ => hticker rfl
  | disconnected => exact h.outside rfl rfl (by rw [hat]; rfl) rfl rfl rfl fun _ => hticker rfl

/-- A step from `s` to `t` is a run of the ticks, which is over when `Tick` is. -/
structure Advances (x : Reading) (s t : SysState) (steps : List TickStep) : Prop where
  handled : handledOf t.trace = handledOf s.trace ++ responsesOf steps
  follows : t.Follows (x.run steps)
  whole : t.pc.reads = false → s.pc.reads = false ∧ steps = [] ∨ steps = [.tickEnd]

theorem Advances.still (hhandled : handledOf t.trace = handledOf s.trace) (ht : t.Follows x)
    (hreads : t.pc.reads = false → s.pc.reads = false) : Advances x s t [] :=
  ⟨by rw [hhandled]; simp [responsesOf], ht, fun h => Or.inl ⟨hreads h, rfl⟩⟩

/-- `Tick` reports a disconnection that is there. -/
def Lost (s : SysState) : Prop := s.pc = .tickDisconnected → s.plugin.isConnected = false

/-- A step of the game thread. -/
theorem advances_game (h : s.Follows x) (hlost : s.Lost) {p : Platform} (ht : s.game p = some t) :
    ∃ steps, Advances x s t steps := by
  cases gameStep ht with
  | crash => exact ⟨[], .still rfl (h.other rfl rfl rfl rfl rfl) id⟩
  | goto hpc =>
    refine ⟨[], .still rfl (follows_goto h hpc) fun hreads => ?_⟩
    generalize s.pc = pc, s.plugin.isConnected = isConnected at hpc
    cases hpc <;> first | rfl | cases hreads
  | noStart hpc | noStop hpc | buffering hpc | empty hpc | startReset hpc | stopReset hpc =>
    have hreads : s.pc.reads = false := by rw [hpc]; rfl
    exact ⟨[], .still rfl (h.outside rfl rfl hreads rfl rfl rfl (GamePc.not_ticks rfl)) fun _ => hreads⟩
  | recorderStart hpc | startStop hpc | stopRecorder hpc =>
    have hreads : s.pc.reads = false := by rw [hpc]; rfl
    refine ⟨[], .still ?_ (h.outside rfl rfl hreads rfl rfl rfl (GamePc.not_ticks rfl)) fun _ => hreads⟩
    simp [observe, SysState.stopRecorder, finishCall, goto, handledOf]
  | refused hpc hc hrefuses =>
    generalize hat : s.pc = pc at hpc
    have hreads : s.pc.reads = false := by
      rw [hat]
      cases hpc <;> rfl
    cases hpc <;>
      exact ⟨[], .still rfl (h.outside rfl rfl hreads rfl rfl rfl (GamePc.not_ticks rfl)) fun _ => hreads⟩
  | accepted hpc hc hrefuses =>
    have hreads : s.pc.reads = false := by
      generalize s.pc = pc at hpc
      cases hpc <;> rfl
    refine ⟨[], .still ?_ (h.outside rfl rfl hreads rfl rfl rfl (GamePc.not_ticks rfl)) fun _ => hreads⟩
    simp [finishCall, observe, handledOf]
  | @disconnected b hpc hdis =>
    have hreads : s.pc.reads = false := by rw [hpc]; rfl
    obtain ⟨last, hlast, hparting⟩ := h.broadcasts
    rw [h.ticker (by rw [hpc]; rfl)] at hparting
    obtain rfl : last = [] := hparting
    obtain ⟨c, -, -, rfl⟩ := disconnected_eq (hlost hpc) hdis
    refine ⟨[], .still rfl ⟨h.responses, h.contextToKeys, ?_, ⟨_, ?_, c.errorMessage, rfl⟩, GamePc.not_ticks rfl⟩ fun _ => hreads⟩
    · rw [← h.locals, locals_eq_new hreads]
      rfl
    · rw [hlast, List.append_nil]
  | noResponse hpc _ =>
    have hfollows := h.keep (t := s.goto (.tickEnd s.locals)) rfl rfl rfl rfl rfl fun _ => h.ticker (by rw [hpc]; rfl)
    rw [SysState.locals, hpc] at hfollows
    exact ⟨[], .still rfl hfollows fun hreads => absurd hreads.symm Bool.false_ne_true⟩
  | @handled maxReads locals c r rs u hpc hc hrefuses hq hu =>
    obtain rfl : locals = x.locals := by rw [← h.locals, SysState.locals, hpc]
    have hresponses : u.responses = x.plugin.responses := by rw [hu]; exact h.responses
    have hkeys : u.contextToKeys = x.plugin.contextToKeys := by rw [hu]; exact h.contextToKeys
    obtain ⟨hresponses', hkeys', hlocals'⟩ := Alike.handleResponse_congr hresponses hkeys x.locals r
    refine ⟨[.read r], by simp [observe, handledOf, responsesOf],
      ⟨hresponses', hkeys', hlocals', h.broadcasts, fun _ => h.ticker (by rw [hpc]; rfl)⟩,
      fun hreads => absurd hreads.symm Bool.false_ne_true⟩
  | @endTick locals hpc =>
    obtain rfl : locals = x.locals := by rw [← h.locals, SysState.locals, hpc]
    have hticker : s.ticker = true := h.ticker (by rw [hpc]; rfl)
    obtain ⟨last, hlast, hparting⟩ := h.broadcasts
    rw [hticker] at hparting
    obtain rfl : last = [] := hparting
    obtain ⟨hresponses, hkeys, hbroadcasts⟩ := endTick_congr h.responses h.contextToKeys x.locals
    refine ⟨[.tickEnd], by simp [responsesOf], ⟨hresponses, hkeys, rfl, ⟨[], ?_, ?_⟩, GamePc.not_ticks rfl⟩,
      fun _ => Or.inr rfl⟩
    · rw [List.append_nil, hlast, List.append_nil, hbroadcasts]
      rfl
    · rw [hticker]
      rfl

/-- **A step of the threads is a run of the ticks.** -/
theorem advances_step (h : s.Follows x) (hlost : s.Lost) {a : SysLabel} (ht : sys.step s a = some t) :
    ∃ steps, Advances x s t steps := by
  cases step_of_sysStep ht with
  | start hpc | stop hpc =>
    have hreads : s.pc.reads = false := by rw [hpc]; rfl
    refine ⟨[], .still ?_ (h.outside rfl rfl hreads rfl rfl rfl (GamePc.not_ticks rfl)) fun _ => hreads⟩
    simp [observe, goto, handledOf]
  | tick hpc hticker =>
    have hreads : s.pc.reads = false := by rw [hpc]; rfl
    exact ⟨[], .still rfl (h.outside rfl rfl hreads rfl rfl rfl fun _ => hticker) fun _ => hreads⟩
  | game hgame => exact advances_game h hlost hgame
  | capture c =>
    exact ⟨[], .still (handledOf_capture s c) (follows_capture h c) fun hreads => (pc_capture s c) ▸ hreads⟩
  | _ => exact ⟨[], .still rfl (h.other rfl rfl rfl rfl rfl) id⟩

/-! ## A lost connection -/

/-- Nobody takes the error of a client back. -/
theorem Lost.other (h : s.Lost) (hpc : t.pc = s.pc) (hconn : t.plugin.isConnected = true → s.plugin.isConnected = true) :
    t.Lost := by
  intro ht
  have hs : s.plugin.isConnected = false := h (hpc ▸ ht)
  by_contra htrue
  rw [hconn (Bool.not_eq_false _ ▸ htrue)] at hs
  cases hs

theorem connected_onClient {f : SpeechlyClient → SpeechlyClient} (hf : ∀ c, c.bHasError = true → (f c).bHasError = true)
    (h : (s.onClient f).plugin.isConnected = true) : s.plugin.isConnected = true := by
  unfold USpeechly.isConnected onClient at h
  unfold USpeechly.isConnected
  cases hc : s.plugin.client with
  | none =>
    rw [hc] at h
    cases h
  | some c =>
    simp only [hc, Option.map_some, Bool.not_eq_true'] at h ⊢
    by_contra herror
    rw [hf c (Bool.not_eq_false _ ▸ herror)] at h
    cases h

theorem connected_speech {call : SpeechAudio} (h : (s.speech call).plugin.isConnected = true) :
    s.plugin.isConnected = true := by
  unfold speech at h
  cases hspeech : s.plugin.onSpeechAudio call with
  | error fault =>
    rw [hspeech] at h
    exact h
  | ok y =>
    obtain ⟨u, accepted⟩ := y
    rw [hspeech] at h
    obtain ⟨rfl, -⟩ | ⟨_, _, -, ⟨-, -, rfl⟩ | ⟨-, c, hc, -, rfl⟩⟩ := USpeechly.onSpeechAudio_inv hspeech
    · exact h
    · exact h
    · unfold USpeechly.isConnected
      have hsame : (c.write (.audio (s.plugin.audioBuffer ++ encode call.samples))).1.bHasError = c.bHasError := by
        unfold SpeechlyClient.write
        split <;> rfl
      rw [hc]
      simpa [USpeechly.isConnected, hsame] using h

theorem connected_capture {c : Capture} (h : (s.capture c).plugin.isConnected = true) : s.plugin.isConnected = true := by
  unfold capture at h
  split at h
  · exact h
  · exact h
  · rename_i recorder call _
    exact connected_speech (s := { s with plugin := { s.plugin with recorder := recorder } }) h

theorem lost_step (h : s.Lost) {a : SysLabel} (ht : sys.step s a = some t) : t.Lost := by
  cases step_of_sysStep ht with
  | start | stop | tick => exact fun hpc => by cases hpc
  | game hgame =>
    cases gameStep hgame with
    | crash => exact h.other rfl id
    | goto hpc =>
      rintro rfl
      show s.plugin.isConnected = false
      generalize s.pc = pc, s.plugin.isConnected = isConnected at hpc ⊢
      cases hpc
      rfl
    | refused hpc =>
      rintro rfl
      generalize s.pc = pc at hpc
      cases hpc
    | _ => exact fun hpc => by cases hpc
  | capture c => exact h.other (pc_capture s c) connected_capture
  | dequeue => exact h.other rfl (connected_onClient fun _ herror => herror)
  | respond r => exact h.other rfl (connected_onClient fun _ herror => herror)
  | hasError => exact h.other rfl (connected_onClient fun _ _ => rfl)
  | notRunning => exact h.other rfl (connected_onClient fun _ herror => herror)
  | errorMessage => exact h.other rfl (connected_onClient fun _ herror => herror)

end SysState

theorem SysReach.lost {s : SysState} (h : SysReach s) : s.Lost := by
  obtain ⟨u, languageCode, h⟩ := h
  refine h.inv (I := SysState.Lost) (fun _ _ _ hlost ht => SysState.lost_step hlost ht) fun hpc => ?_
  cases hpc

/-- **Every run of the threads follows a run of ticks** over the responses that have been read. -/
theorem SysReach.follows {s : SysState} (h : SysReach s) : ∃ u languageCode steps,
    responsesOf steps = handledOf s.trace ∧ s.Follows ((Reading.init (USpeechly.connect u languageCode)).run steps) ∧
      (s.pc.reads = false → ∃ rss, steps = stepsOf rss) := by
  obtain ⟨u, languageCode, h⟩ := h
  refine ⟨u, languageCode, ?_⟩
  refine h.induct (I := fun s => ∃ steps, responsesOf steps = handledOf s.trace ∧
    s.Follows ((Reading.init (u.connect languageCode)).run steps) ∧ (s.pc.reads = false → ∃ rss, steps = stepsOf rss))
    (fun s a t hreach hs ht => ?_) ?_
  · obtain ⟨steps, hsteps, hfollows, hrss⟩ := hs
    obtain ⟨more, hmore⟩ := SysState.advances_step hfollows (SysReach.lost ⟨u, languageCode, hreach⟩) ht
    refine ⟨steps ++ more, ?_, ?_, fun hreads => ?_⟩
    · rw [responsesOf_append, hsteps, hmore.handled]
    · rw [run_append]
      exact hmore.follows
    · rcases hmore.whole hreads with ⟨hreads, rfl⟩ | rfl
      · rw [List.append_nil]
        exact hrss hreads
      · obtain ⟨rss, rs, rfl⟩ := steps_eq steps
        exact ⟨rss ++ [rs], by simp [stepsOf]⟩
  · exact ⟨[], rfl, ⟨rfl, rfl, rfl, ⟨[], rfl, rfl⟩, GamePc.not_ticks rfl⟩, fun _ => ⟨[], rfl⟩⟩

/-! ## What the listener knows -/

theorem Indexed.congr {u v : USpeechly} (h : Indexed u) (hresponses : v.responses = u.responses)
    (hkeys : v.contextToKeys = u.contextToKeys) : Indexed v := by
  refine ⟨?_, ?_, ?_, ?_⟩
  · rw [hresponses, hkeys]
    exact h.union
  · rw [hkeys]
    exact h.disjoint
  · rw [hkeys]
    exact h.nonempty
  · rw [hkeys]
    exact h.printed

/-- The last broadcast is that of the run of ticks. -/
theorem SysState.Follows.sent {s : SysState} {x : Reading} (h : s.Follows x) (key : FString) :
    lastResponse key s.broadcasts = x.sent key := by
  obtain ⟨last, hlast, hparting⟩ := h.broadcasts
  rw [hlast, lastResponse_append, hparting.lastResponse, Option.none_or]
  rfl

/-- What the listener knows of the responses `read`: outside of the loop of `Tick` it has the account of every segment, and what
is stored is this account until the context is finished. -/
def SysState.Informed (s : SysState) (read : List SLUResponse) : Prop :=
  s.pc.reads = false → ∀ (c : FString) (i : ℤ), 0 ≤ i →
    Account c (c.printKey i) read (lastResponse (c.printKey i) s.broadcasts) ∧
      s.plugin.responses.find (c.printKey i) =
        if ∃ r ∈ read, Finishes c r then none else lastResponse (c.printKey i) s.broadcasts

/-- **The listener is informed in every interleaving** of the game thread, the audio thread and the network thread: the index of
the responses is consistent at every step, and after every `Tick` the listener has been told of every segment all that has been
read of it. -/
theorem listener_informed {s : SysState} (h : SysReach s) (hseg : ∀ r ∈ handledOf s.trace, 0 ≤ r.segmentId) :
    Indexed s.plugin ∧ (NoneLate (handledOf s.trace) → s.Informed (handledOf s.trace)) := by
  obtain ⟨u, languageCode, steps, hsteps, hfollows, hwhole⟩ := h.follows
  constructor
  · have hcoherent := (coherent_init u languageCode).run (hsteps ▸ hseg)
    exact hcoherent.indexed.congr hfollows.responses hfollows.contextToKeys
  · intro hlate hreads c i hi
    obtain ⟨rss, rfl⟩ := hwhole hreads
    rw [responsesOf_stepsOf] at hsteps
    have haccount := account (c := c) u languageCode (hsteps ▸ hseg) (hsteps ▸ hlate) hi
    rw [hsteps] at haccount
    rw [hfollows.sent, hfollows.responses]
    exact haccount

/-- A transcript in a context and a segment, then the end of the segment. -/
def transcribing : List SysLabel :=
  [.respond (transcriptOf [97] 0 [120]), .respond ⟨[97], 0, .segmentEnd⟩] ++ tickCall 2

/-- The result of the segment is made of the two responses. -/
theorem listener_informed_segment :
    ∃ s, sys.run (.init (USpeechly.new.connect [])) transcribing = some s ∧
      ∃ out, lastResponse ((FString.lit "a").printKey 0) s.broadcasts = some out ∧ out.bIsFinal = true ∧
        Digest out [transcriptOf [97] 0 [120], ⟨[97], 0, .segmentEnd⟩] := by
  have hrun : (sys.run (.init (USpeechly.new.connect [])) transcribing).map
      (fun s => (handledOf s.trace, s.pc.reads, (lastResponse ((FString.lit "a").printKey 0) s.broadcasts).isSome)) =
        some ([transcriptOf [97] 0 [120], ⟨[97], 0, .segmentEnd⟩], false, true) := by
    decide +kernel
  obtain ⟨s, hs, hrun⟩ := Option.map_eq_some_iff.mp hrun
  simp only [Prod.mk.injEq] at hrun
  obtain ⟨hhandled, hreads, hsome⟩ := hrun
  obtain ⟨out, hout⟩ := Option.isSome_iff_exists.mp hsome
  obtain ⟨-, hinformed⟩ := listener_informed ⟨.new, [], _, hs⟩ (by rw [hhandled]; decide)
  obtain ⟨haccount, -⟩ := hinformed (by rw [hhandled]; decide) hreads (FString.lit "a") 0 le_rfl
  rw [hhandled] at haccount
  have hkey : ofKey ((FString.lit "a").printKey 0) [transcriptOf [97] 0 [120], ⟨[97], 0, .segmentEnd⟩] =
      [transcriptOf [97] 0 [120], ⟨[97], 0, .segmentEnd⟩] := by decide
  refine ⟨s, hs, out, hout, ?_, hkey ▸ haccount.digest out hout⟩
  rw [haccount.final out hout]
  exact ⟨⟨[97], 0, .segmentEnd⟩, by simp, Or.inl ⟨rfl, by decide⟩⟩

/-- **From the service to the listener.**  As long as no text is sent, the listener is informed of the first messages the service
has sent, in whatever slices they came; the next ones are queued, and up to the end of the main loop one more at most is under
way. -/
theorem service_reaches_listener {languageCode : StdString} {s : WorldState} (h : WorldReach languageCode s)
    {service : List (Proto.Message Proto.SLUResponse)} (hservice : List.Forall₂ Answers service s.arrived)
    (hspeech : ∀ x ∈ s.net.enqueued, x.1 = .stream) (hseg : ∀ m ∈ service, 0 ≤ (Proto.SLUResponse.toEngine m).segmentId)
    (hlate : NoneLate (service.map Proto.SLUResponse.toEngine)) :
    Indexed s.sys.plugin ∧ s.sys.Informed (handledOf s.sys.trace) ∧
      ∃ rest, service.map Proto.SLUResponse.toEngine =
          handledOf s.sys.trace ++ (s.net.client.responseQueue ++ rest) ∧
        (running s.net.pc = true → rest.length ≤ 1) := by
  obtain ⟨hhandled, rest, hrest, hlast⟩ := responses_reach_tick h hservice
  have hstream : fromStream s.net.enqueued = s.net.enqueued.map Prod.snd := by
    rw [fromStream, List.filter_eq_self.mpr fun x hx => by simpa using hspeech x hx]
  rw [hstream, ← hhandled, List.append_assoc] at hrest
  have hread : ∀ r ∈ handledOf s.sys.trace, 0 ≤ r.segmentId := by
    intro r hr
    have hmem : r ∈ service.map Proto.SLUResponse.toEngine := by
      rw [hrest]
      exact List.mem_append_left _ hr
    obtain ⟨m, hm, rfl⟩ := List.mem_map.mp hmem
    exact hseg m hm
  have hpairs : NoneLate (handledOf s.sys.trace) := by
    rw [hrest] at hlate
    exact (List.pairwise_append.mp hlate).1
  obtain ⟨hindexed, hinformed⟩ := listener_informed (sysReach_of_world h) hread
  exact ⟨hindexed.congr rfl rfl, hinformed hpairs, rest, hrest, hlast⟩

/-- The end of a segment as a message of the service. -/
def segmentEnded : Proto.Message Proto.SLUResponse := .known ⟨[97], 0, .segmentEnd (.known ⟨⟩)⟩

theorem answers_segmentEnded : Answers segmentEnded [[10, 1, 97], [50, 0]] := by
  have htext : Proto.isStructurallyValidUTF8 [97] = true := by decide
  have hsize : Proto.SLUSegmentEnd.codec.size ⟨⟨⟩, []⟩ = 0 := Proto.Codec.size_known _ _
  have hwrite : Proto.SLUSegmentEnd.codec.write ⟨⟨⟩, []⟩ = [] := by
    simp [Proto.Codec.write, Proto.SLUSegmentEnd.codec, Proto.serializeUnknownFields]
  have hinner : Proto.Field.writeMessage Proto.SLUSegmentEnd.codec ⟨⟨⟩, []⟩ = [0] := by
    simp [Proto.Field.writeMessage, hsize, hwrite, Proto.writeVarint32_eq, Base128.encode_small]
  refine ⟨?_, Proto.Codec.serialize_eq_some.mpr ⟨?_, ?_⟩⟩
  · simp [segmentEnded, Proto.SLUResponse.codec, Proto.Field.message, Proto.Field.scalar, Proto.Scalar.int32,
      Proto.Scalar.string, Proto.Field.okMessage, Proto.Codec.recursionLimit, Proto.SLUSegmentEnd.codec, htext]
  · simp only [segmentEnded, Proto.Codec.size_known, Proto.SLUResponse.codec, Proto.Field.message, Proto.Field.scalar,
      Proto.Scalar.int32, Proto.Scalar.string, Proto.SLUSegmentEnd.codec, List.map_cons, List.map_nil]
    decide +kernel
  · simp [segmentEnded, Proto.SLUResponse.codec, Proto.Codec.write, Proto.Message.known, Proto.Field.message,
      Proto.Field.scalar, Proto.Scalar.string, Proto.Scalar.int32, Proto.writeBytes, hinner, Proto.serializeUnknownFields,
      Proto.writeVarint32_eq, Base128.encode_small]

/-- `Init` logs in, the message arrives in two slices, and `Tick` handles it. -/
def delivering : List WorldLabel :=
  entering ++ [.arrive 3 [[10, 1, 97], [50, 0]] default, .network (.next 3), .network .thread, .network .thread,
    .network .thread] ++ (tickCall 1).map .plugin

/-- The listener is told that the segment is final, though nobody has said that its context is. -/
theorem service_reaches_listener_segment :
    ∃ s, WorldReach (FString.lit "en").toUtf8 s ∧
      ∃ out, lastResponse ((FString.lit "a").printKey 0) s.sys.broadcasts = some out ∧ out.bIsFinal = true := by
  have hrun : (world.run (.init .new (FString.lit "en").toUtf8) delivering).map
      (fun s => (s.arrived, s.net.enqueued.map Prod.fst, handledOf s.sys.trace, s.sys.pc.reads,
        (lastResponse ((FString.lit "a").printKey 0) s.sys.broadcasts).isSome)) =
        some ([[[10, 1, 97], [50, 0]]], [.stream], [⟨[97], 0, .segmentEnd⟩], false, true) := by
    decide +kernel
  obtain ⟨s, hs, hrun⟩ := Option.map_eq_some_iff.mp hrun
  simp only [Prod.mk.injEq] at hrun
  obtain ⟨harrived, hsource, hhandled, hreads, hsome⟩ := hrun
  obtain ⟨out, hout⟩ := Option.isSome_iff_exists.mp hsome
  have hservice : List.Forall₂ Answers [segmentEnded] s.arrived := by
    rw [harrived]
    exact .cons answers_segmentEnded .nil
  have hspeech : ∀ x ∈ s.net.enqueued, x.1 = .stream := by
    intro x hx
    have hmem : x.1 ∈ s.net.enqueued.map Prod.fst := List.mem_map_of_mem hx
    rw [hsource] at hmem
    exact List.mem_singleton.mp hmem
  obtain ⟨-, hinformed, -⟩ := service_reaches_listener ⟨.new, delivering, hs⟩ hservice hspeech (by decide) (by decide)
  rw [hhandled] at hinformed
  obtain ⟨haccount, -⟩ := hinformed hreads (FString.lit "a") 0 le_rfl
  refine ⟨s, ⟨.new, delivering, hs⟩, out, hout, ?_⟩
  rw [haccount.final out hout]
  exact ⟨⟨[97], 0, .segmentEnd⟩, by simp, Or.inl ⟨rfl, by decide⟩⟩

end SpeechlyPlugin.Plugin
