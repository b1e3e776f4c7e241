import SpeechlyPlugin.Plugin.Sessions
import SpeechlyPlugin.Plugin.Ticks

/-!
# What one step adds to the history

Most steps add events that say nothing about STOP, `Start` and the responses; the others are the call of `Start`, the STOP
that is accepted, and the response that has been handled, which alone can change `LastAudioContext`.
-/

namespace SpeechlyPlugin.Plugin

open Engine Lib Client Recorder

/-- The event is not the call of `Start`, not an accepted STOP and not a response. -/
def Obs.quiet : Obs → Bool
  | .start => false
  | .accepted (.event .STOP) => false
  | .handled _ _ => false
  | _ => true

/-- The step can fail. -/
def GamePc.fails : GamePc → Bool
  | .startRecorder | .startWrite | .stopWrite | .tickDisconnected | .tickRead _ _ => true
  | _ => false

/-- Where a test leads, and the end of the loop of `Tick`. -/
inductive GamePc.Goes : GamePc → Bool → GamePc → Prop where
  | start : Goes .startTest true .startBuffering
  | stop : Goes .stopTest true .stopWrite
  | tick : Goes .tickTest true (.tickRead 10 .new)
  | disconnected : Goes .tickTest false .tickDisconnected
  | enough (isConnected : Bool) (locals : TickLocals) : Goes (.tickRead 0 locals) isConnected (.tickEnd locals)

/-- The event that is written, and where the call goes on if it is refused. -/
inductive GamePc.Writes : GamePc → SLUEvent → GamePc → Prop where
  | start : Writes .startWrite .START .startReset
  | stop : Writes .stopWrite .STOP .stopReset

theorem GamePc.Writes.fails {pc refused : GamePc} {e : SLUEvent} (h : pc.Writes e refused) : pc.fails = true := by
  cases h <;> rfl

namespace SysState

variable {s t : SysState} {p : Platform}

/-! ## What the calls of the client lead to -/

/-- What `Client->Write` of an event leads to. -/
theorem writeEvent_cases (s : SysState) (e : SLUEvent) (refused : GamePc) :
    (∃ fault, s.writeEvent e refused = s.crash fault) ∨
    (∃ c, s.plugin.client = some c ∧ c.refuses = true ∧ s.writeEvent e refused = { s with pc := refused }) ∨
    ∃ c, s.plugin.client = some c ∧ c.refuses = false ∧
      s.writeEvent e refused = ({ s with plugin := { s.plugin with client := some (c.enqueueRequest (.event e)) } }.observe
        (.accepted (.event e))).finishCall (e == SLUEvent.START) true := by
  unfold writeEvent USpeechly.clientWrite
  cases hc : s.plugin.client with
  | none => exact Or.inl ⟨_, rfl⟩
  | some c =>
    cases hrefuses : c.refuses with
    | false =>
      refine Or.inr (Or.inr ⟨c, rfl, hrefuses, ?_⟩)
      simp only [SpeechlyClient.write, hrefuses, Bool.false_eq_true, if_false]
    | true =>
      refine Or.inr (Or.inl ⟨c, rfl, hrefuses, ?_⟩)
      have hplugin : { s.plugin with client := some c } = s.plugin := by rw [← hc]
      simp only [SpeechlyClient.write, hrefuses, if_true, hplugin]

/-- What one round of the loop of `Tick` leads to. -/
theorem readOne_cases (s : SysState) (maxReads : ℕ) (locals : TickLocals) :
    (∃ fault, s.readOne maxReads locals = s.crash fault) ∨
    s.plugin.clientRead = .ok none ∧ s.readOne maxReads locals = s.goto (.tickEnd locals) ∨
    ∃ c r rs, s.plugin.client = some c ∧ c.refuses = false ∧ c.responseQueue = r :: rs ∧
      let u := { s.plugin with client := some { c with responseQueue := rs } }
      s.readOne maxReads locals =
        { s with
          plugin := (u.handleResponse locals r).1, pc := .tickRead maxReads (u.handleResponse locals r).2 }.observe
          (.handled r (u.stopsRecorder r)) := by
  unfold readOne USpeechly.clientRead
  cases hc : s.plugin.client with
  | none => exact Or.inl ⟨_, rfl⟩
  | some c =>
    simp only [SpeechlyClient.read]
    cases hrefuses : c.refuses with
    | true => exact Or.inr (Or.inl ⟨rfl, rfl⟩)
    | false =>
      simp only [Bool.false_eq_true, if_false, SpeechlyClient.dequeueResponse]
      cases hq : c.responseQueue with
      | nil => exact Or.inr (Or.inl ⟨rfl, rfl⟩)
      | cons r rs => exact Or.inr (Or.inr ⟨c, r, rs, rfl, hrefuses, hq, rfl⟩)

/-! ## A step of the game thread -/

/-- What a step of the game thread inside a call does. -/
inductive GameStep (s : SysState) (p : Platform) : SysState → Prop where
  | crash (fault : Fault) (hpc : s.pc.fails = true) : GameStep s p (s.crash fault)
  | goto {pc : GamePc} (hpc : s.pc.Goes s.plugin.isConnected pc) : GameStep s p (s.goto pc)
  | noStart (hpc : s.pc = .startTest) (hconn : s.plugin.isConnected = false) : GameStep s p (s.finishCall true false)
  | noStop (hpc : s.pc = .stopTest) (hconn : s.plugin.isConnected = false) : GameStep s p (s.finishCall false false)
  | buffering (hpc : s.pc = .startBuffering) :
      GameStep s p { s with plugin := { s.plugin with bIsBuffering := true }, pc := .startEmpty }
  | empty (hpc : s.pc = .startEmpty) :
      GameStep s p { s with plugin := { s.plugin with audioBuffer := [] }, pc := .startRecorder }
  | recorderStart {recorder : SpeechRecorder} (hpc : s.pc = .startRecorder)
      (hstart : s.plugin.recorder.start p = .ok recorder) :
      GameStep s p
        ({ s with plugin := { s.plugin with recorder := recorder }, pc := .startWrite }.observe .recorderStart)
  | refused {e : SLUEvent} {pc : GamePc} {c : SpeechlyClient} (hpc : s.pc.Writes e pc) (hc : s.plugin.client = some c)
      (hrefuses : c.refuses = true) : GameStep s p { s with pc := pc }
  | accepted {e : SLUEvent} {pc : GamePc} {c : SpeechlyClient} (hpc : s.pc.Writes e pc) (hc : s.plugin.client = some c)
      (hrefuses : c.refuses = false) :
      GameStep s p (({ s with plugin := { s.plugin with client := some (c.enqueueRequest (.event e)) } }.observe
        (.accepted (.event e))).finishCall (e == SLUEvent.START) true)
  | startReset (hpc : s.pc = .startReset) :
      GameStep s p { s with plugin := { s.plugin with client := none }, pc := .startStop }
  | stopReset (hpc : s.pc = .stopReset) :
      GameStep s p ({ s with plugin := { s.plugin with client := none } }.finishCall false false)
  | startStop (hpc : s.pc = .startStop) : GameStep s p (s.stopRecorder.finishCall true false)
  | stopRecorder (hpc : s.pc = .stopRecorder) : GameStep s p (s.stopRecorder.goto .stopTest)
  | disconnected {b : Broadcast} (hpc : s.pc = .tickDisconnected) (hdis : s.plugin.disconnected = .ok b) :
      GameStep s p { s with pc := .idle, ticker := false, broadcasts := s.broadcasts ++ [b] }
  | noResponse {maxReads : ℕ} {locals : TickLocals} (hpc : s.pc = .tickRead (maxReads + 1) locals)
      (hread : s.plugin.clientRead = .ok none) : GameStep s p (s.goto (.tickEnd locals))
  | handled {maxReads : ℕ} {locals : TickLocals} {c : SpeechlyClient} {r : SLUResponse} {rs : List SLUResponse}
      {u : USpeechly} (hpc : s.pc = .tickRead (maxReads + 1) locals) (hc : s.plugin.client = some c)
      (hrefuses : c.refuses = false) (hq : c.responseQueue = r :: rs)
      (hu : u = { s.plugin with client := some { c with responseQueue := rs } }) :
      GameStep s p ({ s with
        plugin := (u.handleResponse locals r).1, pc := .tickRead maxReads (u.handleResponse locals r).2 }.observe
        (.handled r (u.stopsRecorder r)))
  | endTick {locals : TickLocals} (hpc : s.pc = .tickEnd locals) :
      GameStep s p { s with
        plugin := (s.plugin.endTick locals).1, pc := .idle
        broadcasts := s.broadcasts ++ (s.plugin.endTick locals).2 }

theorem gameStep_writeEvent {e : SLUEvent} {refused : GamePc} (hpc : s.pc.Writes e refused) :
    GameStep s p (s.writeEvent e refused) := by
  obtain ⟨fault, heq⟩ | ⟨c, hc, hrefuses, heq⟩ | ⟨c, hc, hrefuses, heq⟩ := s.writeEvent_cases e refused <;> rw [heq]
  · exact .crash fault hpc.fails
  · exact .refused hpc hc hrefuses
  · exact .accepted hpc hc hrefuses

/-- **Inversion of a step.** -/
theorem gameStep (ht : s.game p = some t) : GameStep s p t := by
  unfold game at ht
  cases hpc : s.pc <;> simp only [hpc, reduceCtorEq, Option.some.injEq] at ht
  case startTest =>
    subst ht
    cases hconn : s.plugin.isConnected with
    | true => exact .goto (by rw [hpc, hconn]; exact .start)
    | false => exact .noStart hpc hconn
  case startBuffering =>
    subst ht
    exact .buffering hpc
  case startEmpty =>
    subst ht
    exact .empty hpc
  case startRecorder =>
    subst ht
    unfold startRecorder
    split
    · exact .recorderStart hpc ‹_›
    · exact .crash _ (by rw [hpc]; rfl)
  case startWrite =>
    subst ht
    exact gameStep_writeEvent (by rw [hpc]; exact .start)
  case startReset =>
    subst ht
    exact .startReset hpc
  case startStop =>
    subst ht
    exact .startStop hpc
  case stopRecorder =>
    subst ht
    exact .stopRecorder hpc
  case stopTest =>
    subst ht
    cases hconn : s.plugin.isConnected with
    | true => exact .goto (by rw [hpc, hconn]; exact .stop)
    | false => exact .noStop hpc hconn
  case stopWrite =>
    subst ht
    exact gameStep_writeEvent (by rw [hpc]; exact .stop)
  case stopReset =>
    subst ht
    exact .stopReset hpc
  case tickTest =>
    subst ht
    apply GameStep.goto
    rw [hpc]
    cases s.plugin.isConnected with
    | true => exact .tick
    | false => exact .disconnected
  case tickDisconnected =>
    subst ht
    unfold tickDisconnected
    split
    · exact .disconnected hpc ‹_›
    · exact .crash _ (by rw [hpc]; rfl)
  case tickRead maxReads locals =>
    cases maxReads with
    | zero =>
      cases ht
      exact .goto (by rw [hpc]; exact .enough _ locals)
    | succ maxReads =>
      cases ht
      obtain ⟨fault, heq⟩ | ⟨hread, heq⟩ | ⟨c, r, rs, hc, hrefuses, hq, heq⟩ := s.readOne_cases maxReads locals <;> rw [heq]
      · exact .crash fault (by rw [hpc]; rfl)
      · exact .noResponse hpc hread
      · exact .handled hpc hc hrefuses hq rfl
  case tickEnd locals =>
    subst ht
    exact .endTick hpc

/-! ## The end of a `Tick` -/

/-- The end of a `Tick` leaves the audio alone. -/
theorem endTick_frame (u : USpeechly) (locals : TickLocals) :
    (u.endTick locals).1 = { u with
      responses := (u.endTick locals).1.responses, contextToKeys := (u.endTick locals).1.contextToKeys } := by
  have hfold : ∀ (contexts : List FString) (u : USpeechly), contexts.foldl USpeechly.removeContext u = { u with
      responses := (contexts.foldl USpeechly.removeContext u).responses
      contextToKeys := (contexts.foldl USpeechly.removeContext u).contextToKeys } := by
    intro contexts
    induction contexts with
    | nil => intro u; rfl
    | cons context contexts ih => intro u; rw [List.foldl_cons, ih]; rfl
  exact hfold _ u

/-! ## One step -/

/-- What a step from `s` to `t` adds to the history. -/
inductive Adds (s t : SysState) : List Obs → Prop where
  | quiet {new : List Obs} (hquiet : ∀ o ∈ new, o.quiet = true)
      (hctx : t.plugin.lastAudioContext = s.plugin.lastAudioContext) : Adds s t new
  | start (hctx : t.plugin.lastAudioContext = s.plugin.lastAudioContext) : Adds s t [.start]
  | stop (hfault : s.fault = none) (hpc : s.pc = .stopWrite) (halive : s.plugin.alive = true)
      (hctx : t.plugin.lastAudioContext = s.plugin.lastAudioContext) : Adds s t [.accepted (.event .STOP)]
  | handled (r : SLUResponse)
      (hctx : t.plugin.lastAudioContext =
        if isStarted r.payload then FString.ofCStr r.audioContext else s.plugin.lastAudioContext) :
      Adds s t [.handled r (s.plugin.stopsRecorder r)]

theorem Adds.nothing (hctx : t.plugin.lastAudioContext = s.plugin.lastAudioContext) : Adds s t [] :=
  .quiet (by simp) hctx

theorem handleResponse_lastAudioContext (u : USpeechly) (locals : TickLocals) (r : SLUResponse) :
    (u.handleResponse locals r).1.lastAudioContext =
      if isStarted r.payload then FString.ofCStr r.audioContext else u.lastAudioContext := by
  cases hr : r.payload with
  | finished f =>
    simp only [USpeechly.handleResponse, hr, USpeechly.finishContext, isStarted, Bool.false_eq_true, if_false]
    split <;> rfl
  | _ => simp [USpeechly.handleResponse, hr, isStarted, USpeechly.updateResponse, USpeechly.keyOfMessage]

/-- `OnSpeechAudio` adds the call and audio requests. -/
theorem speech_adds (s : SysState) (call : SpeechAudio) :
    ∃ new, (s.speech call).trace = s.trace ++ new ∧ (∀ o ∈ new, o.quiet = true) ∧
      (s.speech call).plugin.lastAudioContext = s.plugin.lastAudioContext := by
  unfold speech
  cases hspeech : s.plugin.onSpeechAudio call with
  | error fault => exact ⟨[.speechAudio call], rfl, by simp [Obs.quiet], rfl⟩
  | ok x =>
    obtain ⟨u, accepted⟩ := x
    refine ⟨.speechAudio call :: accepted.map .accepted, by simp, ?_, (USpeechly.onSpeechAudio_frame hspeech).2.1⟩
    obtain ⟨-, rfl, -⟩ | ⟨_, _, -, ⟨-, rfl, -⟩ | ⟨-, c, -, rfl, -⟩⟩ := USpeechly.onSpeechAudio_inv hspeech
    · simp [Obs.quiet]
    · simp [Obs.quiet]
    · split <;> simp [Obs.quiet]

theorem game_adds (hfault : s.fault = none) (ht : s.game p = some t) : ∃ new, t.trace = s.trace ++ new ∧ Adds s t new := by
  cases gameStep ht with
  | recorderStart => exact ⟨[.recorderStart], rfl, .quiet (by simp [Obs.quiet]) rfl⟩
  | startStop => exact ⟨[.recorderStop], rfl, .quiet (by simp [Obs.quiet]) rfl⟩
  | stopRecorder => exact ⟨[.recorderStop], rfl, .quiet (by simp [Obs.quiet]) rfl⟩
  | accepted hpc hc hrefuses =>
    generalize hat : s.pc = pc at hpc
    cases hpc with
    | start => exact ⟨[.accepted (.event .START)], rfl, .quiet (by simp [Obs.quiet]) rfl⟩
    | stop =>
      refine ⟨[.accepted (.event .STOP)], rfl, .stop hfault hat ?_ rfl⟩
      simp only [USpeechly.alive, hc, hrefuses, Bool.not_false]
  | handled _ _ _ _ hu =>
    subst hu
    exact ⟨[.handled _ _], rfl, .handled _ (handleResponse_lastAudioContext _ _ _)⟩
  | endTick =>
    refine ⟨[], (List.append_nil _).symm, .nothing ?_⟩
    simp only
    rw [endTick_frame]
  | _ => exact ⟨[], (List.append_nil _).symm, .nothing rfl⟩

/-- **What a step adds.** -/
theorem step_adds {a : SysLabel} (ht : sys.step s a = some t) : ∃ new, t.trace = s.trace ++ new ∧ Adds s t new := by
  cases step_of_sysStep ht with
  | start => exact ⟨[.start], rfl, .start rfl⟩
  | stop => exact ⟨[.stop], rfl, .quiet (by simp [Obs.quiet]) rfl⟩
  | tick => exact ⟨[], by simp [goto], .nothing rfl⟩
  | game hgame => exact game_adds (fault_of_sysStep ht) hgame
  | capture c =>
    unfold capture
    split
    · exact ⟨[], by simp [crash], .nothing rfl⟩
    · exact ⟨[], by simp, .nothing rfl⟩
    · rename_i recorder call _
      obtain ⟨new, htrace, hquiet, hctx⟩ := speech_adds { s with plugin := { s.plugin with recorder := recorder } } call
      exact ⟨new, htrace, .quiet hquiet hctx⟩
  | _ => exact ⟨[], by simp [onClient], .nothing rfl⟩

end SysState

end SpeechlyPlugin.Plugin
