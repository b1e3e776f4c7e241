import SpeechlyPlugin.Plugin.Surviving
import SpeechlyPlugin.Plugin.Assertions
import SpeechlyPlugin.Plugin.Requests

/-!
# Reconnecting

Two histories that end in a `Connect`, and the same events after it.  The two runs go through the same points and do the same
there: what survives `Connect` is overwritten before it is read, or cannot be told apart.
-/

namespace SpeechlyPlugin.Plugin

open Engine Lib Client Recorder

section

variable {k : Setting} {past past' : SysState} {audio : Bool} {p : Platform}

/-! ## One connection, twice -/

/-- The same has been added to two lists. -/
def Added {α : Type} (base base' l l' : List α) : Prop := ∃ new, l = base ++ new ∧ l' = base' ++ new

theorem Added.append {α : Type} {base base' l l' : List α} (h : Added base base' l l') (more : List α) :
    Added base base' (l ++ more) (l' ++ more) := by
  obtain ⟨new, rfl, rfl⟩ := h
  exact ⟨new ++ more, by rw [List.append_assoc], by rw [List.append_assoc]⟩

/-- Two runs at the same point, `past` and `past'` being where the connection began; `audio` tells whether a capture is under
way. -/
structure SysSame (k : Setting) (past past' : SysState) (audio : Bool) (s t : SysState) : Prop where
  alike : Alike k s.plugin t.plugin
  pc : t.pc = s.pc
  fault : t.fault = s.fault
  ticker : t.ticker = s.ticker
  trace : Added past.trace past'.trace s.trace t.trace
  broadcasts : Added past.broadcasts past'.broadcasts s.broadcasts t.broadcasts
  /-- whoever may read `bIsBuffering` and `AudioBuffer` reads the same -/
  sending : audio = true ∨ s.plugin.recorder.bIsCapturing = true ∨ s.pc = .startRecorder → SameAudio s.plugin t.plugin
  shut : s.pc = .startEmpty → t.plugin.bIsBuffering = s.plugin.bIsBuffering

/-- `Start` is between its assignments to `bIsBuffering` and `AudioBuffer` and `Recorder.Start()`. -/
def GamePc.prepares : GamePc → Bool
  | .startEmpty | .startRecorder => true
  | _ => false

namespace SysSame

variable {s t : SysState}

/-- The game thread goes on, in a place where nothing is asked of `AudioBuffer`. -/
theorem goto (h : SysSame k past past' audio s t) {pc : GamePc} (hpc : pc.prepares = false) :
    SysSame k past past' audio (s.goto pc) (t.goto pc) where
  alike := h.alike
  pc := rfl
  fault := h.fault
  ticker := h.ticker
  trace := h.trace
  broadcasts := h.broadcasts
  sending := by
    intro hs
    refine h.sending (hs.imp_right (Or.imp_right fun hs => ?_))
    rw [show pc = .startRecorder from hs] at hpc
    cases hpc
  shut := by
    intro hs
    rw [show pc = .startEmpty from hs] at hpc
    cases hpc

theorem observe (h : SysSame k past past' audio s t) (o : Obs) :
    SysSame k past past' audio (s.observe o) (t.observe o) :=
  { h with trace := h.trace.append [o] }

theorem crash (h : SysSame k past past' audio s t) (e : Fault) : SysSame k past past' audio (s.crash e) (t.crash e) :=
  { h with fault := rfl }

theorem finishCall (h : SysSame k past past' audio s t) (started b : Bool) :
    SysSame k past past' audio (s.finishCall started b) (t.finishCall started b) :=
  { h with
    pc := rfl
    sending := fun hs => h.sending (hs.imp_right (Or.imp_right fun hs => by cases hs))
    shut := fun hs => by cases hs }

/-- Another object, its recorder capturing only if the old one was. -/
theorem setPlugin (h : SysSame k past past' audio s t) {u v : USpeechly} (halike : Alike k u v)
    (hcap : u.recorder.bIsCapturing = true → s.plugin.recorder.bIsCapturing = true)
    (hsame : SameAudio s.plugin t.plugin → SameAudio u v)
    (hshut : t.plugin.bIsBuffering = s.plugin.bIsBuffering → v.bIsBuffering = u.bIsBuffering) :
    SysSame k past past' audio { s with plugin := u } { t with plugin := v } :=
  { h with
    alike := halike
    sending := fun hs => hsame (h.sending (hs.imp_right (Or.imp_left hcap)))
    shut := fun hs => hshut (h.shut hs) }

theorem stopRecorder (h : SysSame k past past' audio s t) : SysSame k past past' audio s.stopRecorder t.stopRecorder := by
  refine SysSame.observe (h.setPlugin (h.alike.setRecorder h.alike.recorder.stop) ?_ ?_ ?_) _
  · exact fun hcap => by cases hcap
  · exact fun hsame => ⟨hsame.buffering, hsame.audio⟩
  · exact fun hshut => hshut

/-- `Client->Write` of an event. -/
theorem writeEvent (h : SysSame k past past' audio s t) (e : SLUEvent) {refused : GamePc}
    (hpc : refused.prepares = false) :
    SysSame k past past' audio (s.writeEvent e refused) (t.writeEvent e refused) := by
  have hwrite := h.alike.clientWrite (.event e)
  unfold SysState.writeEvent
  cases hu : s.plugin.clientWrite (.event e) with
  | error fault =>
    rw [hu] at hwrite
    rw [hwrite.eq_error]
    exact h.crash fault
  | ok x =>
    rw [hu] at hwrite
    obtain ⟨⟨v, b'⟩, hv, hflag, halike, client, client', hx, hy⟩ := hwrite.eq_ok
    obtain ⟨u, b⟩ := x
    simp only at hflag halike hx hy
    rw [hv, hflag]
    have hnew : SysSame k past past' audio { s with plugin := u } { t with plugin := v } := by
      refine h.setPlugin halike ?_ ?_ ?_ <;> rw [hx]
      · exact id
      · rw [hy]
        exact fun hsame => ⟨hsame.buffering, hsame.audio⟩
      · rw [hy]
        exact id
    cases b with
    | true => exact (hnew.observe _).finishCall _ _
    | false => exact hnew.goto hpc

/-- `Client.Reset()`. -/
theorem reset (h : SysSame k past past' audio s t) :
    SysSame k past past' audio { s with plugin := { s.plugin with client := none } }
      { t with plugin := { t.plugin with client := none } } :=
  h.setPlugin (h.alike.setClient fun c hc => by cases hc) id (fun hsame => ⟨hsame.buffering, hsame.audio⟩) id

theorem startRecorder (h : SysSame k past past' audio s t) (hp : Device k.sampleRatio k.filter p)
    (hpc : s.pc = .startRecorder) : SysSame k past past' audio (s.startRecorder p) (t.startRecorder p) := by
  have hstart := h.alike.recorder.start hp
  have hsame := h.sending (Or.inr (Or.inr hpc))
  unfold SysState.startRecorder
  cases hr : s.plugin.recorder.start p with
  | error fault =>
    rw [hr] at hstart
    rw [hstart.eq_error]
    exact h.crash fault
  | ok r =>
    rw [hr] at hstart
    obtain ⟨r', hr', halike, -⟩ := hstart.eq_ok
    rw [hr']
    exact SysSame.observe (s := { s with plugin := { s.plugin with recorder := r }, pc := .startWrite })
      (t := { t with plugin := { t.plugin with recorder := r' }, pc := .startWrite })
      { h with
        alike := h.alike.setRecorder halike
        pc := rfl
        sending := fun _ => ⟨hsame.buffering, hsame.audio⟩
        shut := fun hs => by cases hs } .recorderStart

theorem tickDisconnected (h : SysSame k past past' audio s t) :
    SysSame k past past' audio s.tickDisconnected t.tickDisconnected := by
  unfold SysState.tickDisconnected
  rw [h.alike.disconnected]
  split
  · exact { h with
      pc := rfl
      ticker := rfl
      broadcasts := h.broadcasts.append _
      sending := fun hs => h.sending (hs.imp_right (Or.imp_right fun hs => by cases hs))
      shut := fun hs => by cases hs }
  · exact h.crash _

theorem tickEnd (h : SysSame k past past' audio s t) (locals : TickLocals) :
    SysSame k past past' audio
      { s with
        plugin := (s.plugin.endTick locals).1, pc := .idle, broadcasts := s.broadcasts ++ (s.plugin.endTick locals).2 }
      { t with
        plugin := (t.plugin.endTick locals).1, pc := .idle
        broadcasts := t.broadcasts ++ (t.plugin.endTick locals).2 } := by
  obtain ⟨halike, hout⟩ := h.alike.endTick locals
  have hcap : (s.plugin.endTick locals).1.recorder = s.plugin.recorder := by rw [SysState.endTick_frame]
  rw [hout]
  exact { h with
    alike := halike
    pc := rfl
    broadcasts := h.broadcasts.append _
    sending := fun hs => by
      rw [hcap] at hs
      have hsame := h.sending (hs.imp_right (Or.imp_right fun hs => by cases hs))
      rw [SysState.endTick_frame s.plugin, SysState.endTick_frame t.plugin]
      exact ⟨hsame.buffering, hsame.audio⟩
    shut := fun hs => by cases hs }

/-- The steps inside `Start`, `Stop` and `Tick`. -/
theorem game (h : SysSame k past past' audio s t) (hp : Device k.sampleRatio k.filter p)
    (hread : ∀ maxReads locals, s.pc ≠ .tickRead (maxReads + 1) locals) :
    Option.Rel (SysSame k past past' audio) (s.game p) (t.game p) := by
  unfold SysState.game
  rw [h.pc]
  cases hpc : s.pc with
  | idle => exact .none
  | startTest =>
    rw [h.alike.isConnected]
    refine .some ?_
    split
    · exact h.goto rfl
    · exact h.finishCall _ _
  | startBuffering =>
    refine .some { h with alike := ?_, pc := rfl, sending := fun hs => ?_, shut := fun _ => rfl }
    · exact ⟨h.alike.client, h.alike.queue, h.alike.recorder, h.alike.responses, h.alike.contextToKeys, h.alike.context⟩
    · exact ⟨rfl, (h.sending (hs.imp_right (Or.imp_right fun hs => by cases hs))).audio⟩
  | startEmpty =>
    refine .some { h with alike := ?_, pc := rfl, sending := fun _ => ⟨h.shut hpc, rfl⟩, shut := fun hs => by cases hs }
    exact ⟨h.alike.client, h.alike.queue, h.alike.recorder, h.alike.responses, h.alike.contextToKeys, h.alike.context⟩
  | startRecorder => exact .some (h.startRecorder hp hpc)
  | startWrite => exact .some (h.writeEvent _ rfl)
  | startReset => exact .some (h.reset.goto rfl)
  | startStop => exact .some (h.stopRecorder.finishCall _ _)
  | stopRecorder => exact .some (h.stopRecorder.goto rfl)
  | stopTest =>
    rw [h.alike.isConnected]
    refine .some ?_
    split
    · exact h.goto rfl
    · exact h.finishCall _ _
  | stopWrite => exact .some (h.writeEvent _ rfl)
  | stopReset => exact .some (h.reset.finishCall _ _)
  | tickTest =>
    rw [h.alike.isConnected]
    refine .some ?_
    split <;> exact h.goto rfl
  | tickDisconnected => exact .some h.tickDisconnected
  | tickRead maxReads locals =>
    cases maxReads with
    | zero => exact .some (h.goto rfl)
    | succ maxReads => exact absurd hpc (hread maxReads locals)
  | tickEnd locals => exact .some (h.tickEnd locals)

/-- The rest of a round of `Tick`. -/
theorem handle (h : SysSame k past past' audio s t) {r : SLUResponse} (hr : k.Fresh r) (maxReads : ℕ)
    (locals : TickLocals) :
    SysSame k past past' audio
      ({ s with
        plugin := (s.plugin.handleResponse locals r).1
        pc := .tickRead maxReads (s.plugin.handleResponse locals r).2 }.observe (.handled r (s.plugin.stopsRecorder r)))
      ({ t with
        plugin := (t.plugin.handleResponse locals r).1
        pc := .tickRead maxReads (t.plugin.handleResponse locals r).2 }.observe (.handled r (t.plugin.stopsRecorder r))) := by
  obtain ⟨halike, hlocals⟩ := h.alike.handleResponse locals hr
  obtain ⟨haudio, hbuf, -⟩ := SysState.handleResponse_frame s.plugin locals r
  obtain ⟨haudio', hbuf', -⟩ := SysState.handleResponse_frame t.plugin locals r
  rw [hlocals, h.alike.stopsRecorder hr]
  apply SysSame.observe
  refine { h with alike := halike, pc := rfl, sending := fun hs => ?_, shut := fun hs => by cases hs }
  have hcap : (s.plugin.handleResponse locals r).1.recorder.bIsCapturing = true →
      s.plugin.recorder.bIsCapturing = true := by
    rw [USpeechly.handleResponse_recorder]
    split
    · exact fun hcap => by cases hcap
    · exact id
  have hsame := h.sending (hs.imp_right (Or.imp hcap fun hs => by cases hs))
  exact ⟨by rw [hbuf, hbuf', hsame.buffering], by rw [haudio, haudio', hsame.audio]⟩

/-- The network thread. -/
theorem onClient (h : SysSame k past past' audio s t) {f : SpeechlyClient → SpeechlyClient}
    (hf : ∀ c, f (withLanguage k.languageCode c) = withLanguage k.languageCode (f c))
    (hqueue : ∀ c, (∀ r ∈ c.responseQueue, k.Fresh r) → ∀ r ∈ (f c).responseQueue, k.Fresh r) :
    SysSame k past past' audio (s.onClient f) (t.onClient f) := by
  have hclient : t.plugin.client.map f = (s.plugin.client.map f).map (withLanguage k.languageCode) := by
    rw [h.alike.client, Option.map_map, Option.map_map]
    congr 1
    funext c
    exact hf c
  have hnew : ∀ c, s.plugin.client.map f = some c → ∀ r ∈ c.responseQueue, k.Fresh r := by
    intro c hc
    obtain ⟨c', hc', rfl⟩ := Option.map_eq_some_iff.mp hc
    exact hqueue c' (h.alike.queue c' hc')
  unfold SysState.onClient
  rw [hclient]
  exact h.setPlugin (h.alike.setClient hnew) id (fun hsame => ⟨hsame.buffering, hsame.audio⟩) id

end SysSame

/-- Two runs of the plugin at the same point. -/
structure SameRun (k : Setting) (past past' : SysState) (s t : AppState) : Prop where
  sys : SysSame k past past' s.audio.isSome s.sys t.sys
  pc : t.pc = s.pc
  inside : s.pc = .calls ∨ ∃ maxReads locals r, s.pc = .tickHandle maxReads locals r ∧ k.Fresh r
  audio : t.audio = s.audio
  ended : t.ended = s.ended
  thread : s.clientThread = some s.clients
  thread' : t.clientThread = some t.clients

/-- What happens after `Connect`: no further `Connect`, and responses of new audio contexts. -/
def Setting.Later (k : Setting) : AppLabel → Prop
  | .callStart | .callStop | .callTick | .capture _ | .speech | .threadEnds => True
  | .game p => Device k.sampleRatio k.filter p
  | .network (.respond r) => k.Fresh r
  | .network _ => True
  | .callConnect _ | .callSendText _ _ | .destroy => False

namespace SameRun

variable {s t : AppState}

theorem setSys (h : SameRun k past past' s t) {sys sys' : SysState}
    (hsys : SysSame k past past' s.audio.isSome sys sys') : SameRun k past past' { s with sys := sys } { t with sys := sys' } :=
  { h with sys := hsys }

/-- `Client->Read`. -/
theorem read (h : SameRun k past past' s t) (maxReads : ℕ) (locals : TickLocals) :
    SameRun k past past' (s.read maxReads locals) (t.read maxReads locals) := by
  have hread := h.sys.alike.clientRead
  unfold AppState.read
  cases hu : s.sys.plugin.clientRead with
  | error fault =>
    rw [hu] at hread
    rw [hread.eq_error]
    exact h.setSys (h.sys.crash fault)
  | ok x =>
    rw [hu] at hread
    obtain ⟨y, hv, hxy⟩ := hread.eq_ok
    rw [hv]
    cases hxy with
    | none => exact h.setSys (h.sys.goto rfl)
    | some hxy =>
      rename_i x y
      obtain ⟨r, u⟩ := x
      obtain ⟨r', v⟩ := y
      obtain ⟨hr, hfresh, halike, client, client', hx, hy⟩ := hxy
      simp only at hr hfresh halike hx hy
      subst hr hx hy
      refine { h with sys := ?_, pc := rfl, inside := Or.inr ⟨maxReads, locals, r', rfl, hfresh⟩ }
      exact h.sys.setPlugin halike id (fun hsame => ⟨hsame.buffering, hsame.audio⟩) id

/-- The game thread. -/
theorem game (h : SameRun k past past' s t) (hp : Device k.sampleRatio k.filter p) :
    Option.Rel (SameRun k past past') (s.game p) (t.game p) := by
  unfold AppState.game
  rw [h.pc]
  rcases h.inside with hpc | ⟨maxReads, locals, r, hpc, hr⟩
  · simp only [hpc, h.sys.pc, h.audio]
    split
    · exact .some (h.read _ _)
    · rename_i hread
      split
      · exact .none
      · have hgame := h.sys.game hp fun maxReads locals hcall => hread _ _ hcall
        generalize s.sys.game p = x at hgame
        generalize t.sys.game p = y at hgame
        cases hgame with
        | none => exact .none
        | some hsys => exact .some { h.setSys hsys with pc := rfl, inside := Or.inl rfl, audio := rfl }
  · simp only [hpc, h.audio, h.sys.alike.stopsRecorder hr]
    split
    · exact .none
    · refine .some { h with sys := ?_, pc := rfl, inside := Or.inl rfl }
      exact h.sys.handle hr maxReads locals

/-- The audio thread calls `OnAudioCapture`. -/
theorem capture (h : SameRun k past past' s t) (c : Capture) :
    SameRun k past past' (s.capture c) (t.capture c) := by
  have hcapture := h.sys.alike.recorder.onAudioCapture c
  unfold AppState.capture
  rw [h.sys.alike.isConnected]
  cases hr : s.sys.plugin.recorder.onAudioCapture c with
  | error fault =>
    rw [hr] at hcapture
    rw [hcapture.eq_error]
    exact h.setSys (h.sys.crash fault)
  | ok x =>
    obtain ⟨recorder, call⟩ := x
    rw [hr] at hcapture
    obtain ⟨⟨recorder', call'⟩, hr', halike, hcap, hcall, hcalled⟩ := hcapture.eq_ok
    simp only at halike hcap hcall hcalled
    subst hcall
    rw [hr']
    have hnew : SysSame k past past' s.audio.isSome { s.sys with plugin := { s.sys.plugin with recorder := recorder } }
        { t.sys with plugin := { t.sys.plugin with recorder := recorder' } } :=
      h.sys.setPlugin (h.sys.alike.setRecorder halike) (fun hs => hcap.symm.trans hs)
        (fun hsame => ⟨hsame.buffering, hsame.audio⟩) id
    cases call' with
    | none => exact h.setSys hnew
    | some call =>
      -- whoever is called finds the recorder capturing
      have hsame := h.sys.sending (Or.inr (Or.inl (hcalled rfl)))
      refine { h with sys := ?_, audio := rfl }
      exact { hnew.observe (.speechAudio call) with sending := fun _ => ⟨hsame.buffering, hsame.audio⟩ }

/-- The audio thread goes on in `OnSpeechAudio`. -/
theorem speech (h : SameRun k past past' s t) : Option.Rel (SameRun k past past') s.speech t.speech := by
  unfold AppState.speech
  rw [h.audio]
  cases haudio : s.audio with
  | none => exact .none
  | some pc =>
    have hsame := h.sys.sending (Or.inl (by rw [haudio]; rfl))
    cases pc with
    | convert call =>
      have hconvert := h.sys.alike.convertSpeech hsame call
      dsimp only
      cases hu : s.sys.plugin.convertSpeech call with
      | error fault =>
        rw [hu] at hconvert
        rw [hconvert.eq_error]
        exact .some (h.setSys (h.sys.crash fault))
      | ok x =>
        obtain ⟨u, bytes⟩ := x
        rw [hu] at hconvert
        obtain ⟨⟨v, bytes'⟩, hv, hbytes, halike, hsame'⟩ := hconvert.eq_ok
        simp only at hbytes halike hsame'
        subst hbytes
        rw [hv]
        refine .some { h with sys := ?_, audio := rfl }
        exact { h.sys with alike := halike, sending := fun _ => hsame', shut := fun _ => hsame'.buffering }
    | write bytes =>
      have hwrite := h.sys.alike.writeSpeech hsame bytes
      dsimp only
      cases hu : s.sys.plugin.writeSpeech bytes with
      | error fault =>
        rw [hu] at hwrite
        rw [hwrite.eq_error]
        exact .some (h.setSys (h.sys.crash fault))
      | ok x =>
        obtain ⟨u, accepted⟩ := x
        rw [hu] at hwrite
        obtain ⟨⟨v, accepted'⟩, hv, haccepted, halike, hsame'⟩ := hwrite.eq_ok
        simp only at haccepted halike hsame'
        subst haccepted
        rw [hv]
        refine .some { h with sys := ?_, audio := rfl }
        exact { h.sys with
          alike := halike
          trace := h.sys.trace.append _
          sending := fun _ => hsame'
          shut := fun _ => hsame'.buffering }

/-- The network thread. -/
theorem network (h : SameRun k past past' s t) {a : NetworkAct} (ha : k.Later (.network a)) :
    SameRun k past past' (s.onThread a.change) (t.onThread a.change) := by
  rw [onThread_last h.thread, onThread_last h.thread']
  apply h.setSys
  apply h.sys.onClient
  · intro c
    cases a <;> rfl
  · intro c hc
    cases a with
    | respond r =>
      intro r' hr'
      rcases List.mem_append.mp hr' with hr' | hr'
      · exact hc r' hr'
      · rw [List.mem_singleton.mp hr']
        exact ha
    | _ => exact hc

theorem idle (h : SameRun k past past' s t) : t.idle = s.idle := by
  unfold AppState.idle
  rw [h.pc, h.sys.pc]

theorem threadRuns (h : SameRun k past past' s t) : t.threadRuns = s.threadRuns := by
  unfold AppState.threadRuns
  rw [h.thread, h.thread', h.ended]
  rfl

/-- A call begins. -/
theorem begin (h : SameRun k past past' s t) {pc : GamePc} (hpc : pc.prepares = false) {o : Obs} :
    SameRun k past past' { s with sys := (s.sys.goto pc).observe o } { t with sys := (t.sys.goto pc).observe o } :=
  h.setSys ((h.sys.goto hpc).observe o)

/-- **One step.** -/
theorem step (h : SameRun k past past' s t) {a : AppLabel} (ha : k.Later a) :
    Option.Rel (SameRun k past past') (app.step s a) (app.step t a) := by
  simp only [app, appStep, h.sys.fault]
  split
  · exact .none
  cases a <;> dsimp only
  case callStart =>
    rw [h.idle]
    split
    · exact .some (h.begin rfl)
    · exact .none
  case callStop =>
    rw [h.idle]
    split
    · exact .some (h.begin rfl)
    · exact .none
  case callTick =>
    rw [h.idle, h.sys.ticker]
    split
    · exact .some (h.setSys (h.sys.goto rfl))
    · exact .none
  case game p => exact h.game ha
  case capture c =>
    rw [h.audio, h.pc]
    split
    · exact .none
    · exact .none
    · exact .some (h.capture c)
  case speech => exact h.speech
  case network a =>
    rw [h.threadRuns]
    split
    · exact .some (h.network ha)
    · exact .none
  case threadEnds =>
    rw [h.threadRuns]
    split
    · exact .some { h with ended := rfl }
    · exact .none
  all_goals exact ha.elim

end SameRun

end

/-! ## What `Connect` leaves -/

section

variable {p : Platform}

/-- The run has just come out of `Connect`. -/
def JustConnected (s : AppState) : Prop :=
  ∃ before p, AppReach before ∧ before.pc = .createThread ∧ app.step before (.game p) = some s

/-- An audio context of a run: the empty one, or that of a response it has handled. -/
def SysState.Context (s : SysState) (x : FString) : Prop :=
  x = default ∨ ∃ r stopped, Obs.handled r stopped ∈ s.trace ∧ x = FString.ofCStr r.audioContext

/-- What is known of the recorder in every state. -/
structure RecorderSound (r : SpeechRecorder) : Prop where
  sampleRate : r.sampleRate = 16000
  buffer : r.bIsCapturing = false → r.buffer = []
  opened : r.bIsCapturing = true → r.isStreamOpen = true

theorem RecorderSound.stop {r : SpeechRecorder} (h : RecorderSound r) : RecorderSound r.stop where
  sampleRate := h.sampleRate
  buffer := fun _ => rfl
  opened := fun hcap => by cases hcap

theorem RecorderSound.start {r r' : SpeechRecorder} (h : RecorderSound r) (hstart : r.start p = .ok r') :
    RecorderSound r' := by
  obtain ⟨-, hstart⟩ := check_bind_eq_ok hstart
  obtain ⟨r₁, h₁, hstart⟩ := bind_eq_ok hstart
  obtain ⟨hopen, hstart⟩ := check_bind_eq_ok hstart
  obtain ⟨-, hstart⟩ := check_bind_eq_ok hstart
  cases hstart
  have hrate : r₁.sampleRate = 16000 := by
    split at h₁
    · cases h₁
      exact h.sampleRate
    · have hfilter := generateFilter_eq (r := { r with sampleRatio := (p.preferredSampleRate : ℚ) / r.sampleRate }) p
        h.sampleRate
      unfold SpeechRecorder.openCaptureStream at h₁
      simp only [hfilter] at h₁
      obtain ⟨-, h₁⟩ := check_bind_eq_ok h₁
      cases h₁
      exact h.sampleRate
  refine ⟨hrate, fun hcap => ?_, fun _ => hopen⟩
  cases hcap

theorem RecorderSound.capture {r r' : SpeechRecorder} {c : Capture} {out : Option SpeechAudio} (h : RecorderSound r)
    (hcapture : r.onAudioCapture c = .ok (r', out)) : RecorderSound r' := by
  obtain ⟨-, -, hcap, hrate, hopen⟩ := SpeechRecorder.onAudioCapture_frame hcapture
  refine ⟨hrate.trans h.sampleRate, fun hidle => ?_, fun hcap' => ?_⟩
  · have hidle := hcap.symm.trans hidle
    rw [SpeechRecorder.onAudioCapture_idle hidle] at hcapture
    cases hcapture
    exact h.buffer hidle
  · rw [hopen]
    exact h.opened (hcap.symm.trans hcap')

theorem handleResponse_sound {u : USpeechly} (h : RecorderSound u.recorder) (locals : TickLocals) (r : SLUResponse) :
    RecorderSound (u.handleResponse locals r).1.recorder := by
  rw [USpeechly.handleResponse_recorder]
  split
  · exact h.stop
  · exact h

/-- The steps of `SysState.game` change the recorder by `Start` and `Stop` alone. -/
theorem game_recorder {s t : SysState} (h : RecorderSound s.plugin.recorder) (ht : s.game p = some t) :
    RecorderSound t.plugin.recorder := by
  cases SysState.gameStep ht with
  | recorderStart _ hstart => exact h.start hstart
  | startStop | stopRecorder => exact h.stop
  | handled _ _ _ _ hu =>
    apply handleResponse_sound
    rw [hu]
    exact h
  | endTick =>
    simp only
    rw [SysState.endTick_frame]
    exact h
  | _ => exact h

/-! ### The audio contexts of the past -/

theorem context_mono {s t : SysState} {new : List Obs} (h : s.Context s.plugin.lastAudioContext)
    (htrace : t.trace = s.trace ++ new) (hctx : t.plugin.lastAudioContext = s.plugin.lastAudioContext) :
    t.Context t.plugin.lastAudioContext := by
  rw [hctx]
  apply h.imp_right
  rintro ⟨r, stopped, hr, hx⟩
  exact ⟨r, stopped, by rw [htrace]; exact List.mem_append_left _ hr, hx⟩

theorem context_handled {s t : SysState} {r : SLUResponse} {stopped : Bool} (h : s.Context s.plugin.lastAudioContext)
    (htrace : t.trace = s.trace ++ [.handled r stopped])
    (hctx : t.plugin.lastAudioContext =
      if isStarted r.payload then FString.ofCStr r.audioContext else s.plugin.lastAudioContext) :
    t.Context t.plugin.lastAudioContext := by
  split at hctx
  · exact Or.inr ⟨r, stopped, by rw [htrace]; simp, hctx⟩
  · exact context_mono h htrace hctx

theorem context_adds {s t : SysState} {new : List Obs} (h : s.Context s.plugin.lastAudioContext)
    (htrace : t.trace = s.trace ++ new) (hadds : SysState.Adds s t new) : t.Context t.plugin.lastAudioContext := by
  cases hadds with
  | quiet _ hctx => exact context_mono h htrace hctx
  | start hctx => exact context_mono h htrace hctx
  | stop _ _ _ hctx => exact context_mono h htrace hctx
  | handled r hctx => exact context_handled h htrace hctx

/-- What is known of the fields that survive `Connect`, and of those that do not once it has reset them. -/
structure Past (s : AppState) : Prop where
  recorder : RecorderSound s.sys.plugin.recorder
  context : s.sys.Context s.sys.plugin.lastAudioContext
  reset : s.pc = .createThread → ∃ languageCode, s.sys.plugin.client = some (.new languageCode kSampleRate) ∧
    s.sys.plugin.responses = .empty ∧ s.sys.plugin.contextToKeys = .empty

section

variable {s t : AppState} {a : AppLabel}

/-- A step that leaves the recorder, the audio context and the history alone, outside of `Connect`. -/
theorem Past.keep (h : Past s) (hrecorder : t.sys.plugin.recorder = s.sys.plugin.recorder) {new : List Obs}
    (htrace : t.sys.trace = s.sys.trace ++ new)
    (hctx : t.sys.plugin.lastAudioContext = s.sys.plugin.lastAudioContext) (hpc : t.pc ≠ .createThread) : Past t where
  recorder := by
    rw [hrecorder]
    exact h.recorder
  context := context_mono h.context htrace hctx
  reset := fun hs => absurd hs hpc

theorem ne_createThread_of_idle (h : s.idle = true) : s.pc ≠ .createThread := by
  rw [(idle_iff.mp h).1]
  simp

theorem past_read (h : Past s) (hpc : s.pc = .calls) (maxReads : ℕ) (locals : TickLocals) :
    Past (s.read maxReads locals) := by
  unfold AppState.read USpeechly.clientRead
  have hcalls : s.pc ≠ .createThread := by
    rw [hpc]
    simp
  cases hc : s.sys.plugin.client with
  | none => exact h.keep rfl (List.append_nil _).symm rfl hcalls
  | some c =>
    dsimp only
    cases c.read with
    | none => exact h.keep rfl (List.append_nil _).symm rfl hcalls
    | some x => exact h.keep rfl (List.append_nil _).symm rfl (by simp [AppState.goto])

theorem past_onThread (h : Past s) (hpc : s.pc ≠ .createThread) (f : SpeechlyClient → SpeechlyClient) :
    Past (s.onThread f) := by
  obtain ⟨client, -, hs⟩ := onThread_eq s f
  rw [hs]
  exact h.keep rfl (List.append_nil _).symm rfl hpc

theorem past_game (h : Past s) (hfault : s.sys.fault = none) (ht : s.game p = some t) : Past t := by
  cases AppState.gameStep ht with
  | read hpc => exact past_read h hpc _ _
  | call hpc _ _ hsys =>
    obtain ⟨new, htrace, hadds⟩ := SysState.game_adds hfault hsys
    exact ⟨game_recorder h.recorder hsys, context_adds h.context htrace hadds, fun hs => by cases hpc.symm.trans hs⟩
  | handle =>
    refine ⟨handleResponse_sound h.recorder _ _, context_handled h.context rfl ?_, fun hs => by cases hs⟩
    exact SysState.handleResponse_lastAudioContext _ _ _
  | sendTextGoes | sendTextEnds | createThread | members =>
    exact h.keep rfl (List.append_nil _).symm rfl (by simp [AppState.goto])
  | sendText hpc =>
    unfold AppState.sendText
    split
    · exact h.keep rfl (List.append_nil _).symm rfl (by simp [AppState.goto])
    · exact h.keep rfl (List.append_nil _).symm rfl (by simp [AppState.crash, hpc])
  | stopRecorder => exact ⟨h.recorder.stop, h.context, fun hs => by cases hs⟩
  | kill hpc =>
    have hthread := past_onThread h (by simp [hpc]) (·.stop)
    exact hthread.keep rfl (List.append_nil _).symm rfl (by simp [AppState.goto])
  | @noThread next | @join next =>
    exact h.keep rfl (List.append_nil _).symm rfl (by cases next <;> simp [AppState.goto, Closing.pc])
  | reset => exact ⟨h.recorder, h.context, fun _ => ⟨_, rfl, rfl, rfl⟩⟩

theorem past_capture (h : Past s) (c : Capture) : Past (s.capture c) := by
  unfold AppState.capture
  cases hcap : s.sys.plugin.recorder.onAudioCapture c with
  | error fault => exact ⟨h.recorder, h.context, h.reset⟩
  | ok x =>
    obtain ⟨recorder, call⟩ := x
    cases call with
    | none => exact ⟨h.recorder.capture hcap, h.context, h.reset⟩
    | some call => exact ⟨h.recorder.capture hcap, context_mono h.context rfl rfl, h.reset⟩

theorem past_speech (h : Past s) (hs : Annotated s) (ht : s.speech = some t) : Past t := by
  have hpc : s.pc ≠ .createThread := by
    intro hpc
    have hpoint := hs.point
    simp only [AppState.AtPoint, hpc] at hpoint
    unfold AppState.speech at ht
    rw [hpoint.2.1.1] at ht
    cases ht
  unfold AppState.speech at ht
  split at ht
  · split at ht
    · rename_i u bytes hconv
      cases ht
      obtain ⟨⟨charAudio, audioBuffer, n, rfl⟩, -⟩ := convertSpeech_eq_ok hconv
      exact h.keep rfl (List.append_nil _).symm rfl hpc
    · cases ht
      exact h.keep rfl (List.append_nil _).symm rfl hpc
  · split at ht
    · rename_i u accepted hwrite
      cases ht
      obtain ⟨c, audioBuffer, -, rfl⟩ := writeSpeech_eq_ok hwrite
      exact h.keep rfl rfl rfl hpc
    · cases ht
      exact h.keep rfl (List.append_nil _).symm rfl hpc
  · cases ht

theorem past_step (hs : Annotated s) (h : Past s) (ht : app.step s a = some t) : Past t := by
  cases AppState.step_of_appStep ht with
  | game hgame => exact past_game h (fault_of_appStep ht) hgame
  | capture c => exact past_capture h c
  | speech hspeech => exact past_speech h hs hspeech
  | network a hruns =>
    refine past_onThread h (fun hpc => ?_) a.change
    have hpoint := hs.point
    simp only [AppState.AtPoint, hpc] at hpoint
    rw [AppState.threadRuns, hpoint.2.2.1] at hruns
    cases hruns
  | threadEnds => exact ⟨h.recorder, h.context, h.reset⟩
  | start hidle | stop hidle => exact h.keep rfl rfl rfl (ne_createThread_of_idle (s := s) hidle)
  | tick hidle => exact h.keep rfl (List.append_nil _).symm rfl (ne_createThread_of_idle (s := s) hidle)
  | connect | sendText | destroy => exact h.keep rfl (List.append_nil _).symm rfl (by simp [AppState.goto])

theorem past_new : Past .new where
  recorder := ⟨rfl, fun _ => rfl, fun hcap => by cases hcap⟩
  context := Or.inl rfl
  reset := fun hs => by cases hs

theorem AppReach.past (h : AppReach s) : Past s := by
  have hboth : Annotated s ∧ Past s :=
    Machine.Reach.inv (I := fun s => Annotated s ∧ Past s)
      (fun s a t hs ht => ⟨annotated_step hs.1 ht, past_step hs.1 hs.2 ht⟩) ⟨annotated_new, past_new⟩ h
  exact hboth.2

end

/-! ## The theorem -/

/-- Where the new connection begins. -/
structure Begun (s : AppState) : Prop where
  idle : s.idle = true
  fault : s.sys.fault = none
  ticker : s.sys.ticker = true
  audio : s.audio = none
  ended : s.ended = false
  thread : s.clientThread = some s.clients
  client : ∃ languageCode, s.sys.plugin.client = some (.new languageCode kSampleRate)
  responses : s.sys.plugin.responses = .empty
  contextToKeys : s.sys.plugin.contextToKeys = .empty
  recorder : RecorderSound s.sys.plugin.recorder
  capturing : s.sys.plugin.recorder.bIsCapturing = false
  context : s.sys.Context s.sys.plugin.lastAudioContext

theorem JustConnected.begun {s : AppState} (h : JustConnected s) : Begun s := by
  obtain ⟨before, p, hbefore, hpc, hs⟩ := h
  have hpast := AppReach.past hbefore
  have hpoint := (AppReach.annotated hbefore).point
  simp only [AppState.AtPoint, hpc] at hpoint
  obtain ⟨hcall, ⟨haudio, hcap⟩, -, -⟩ := hpoint
  obtain ⟨languageCode, hclient, hresponses, hkeys⟩ := hpast.reset hpc
  have hfault := fault_of_appStep hs
  simp only [app, appStep, hfault, Option.isSome_none, Bool.false_eq_true, if_false, AppState.game, hpc,
    Option.some.injEq] at hs
  subst hs
  refine ⟨?_, rfl, rfl, haudio, rfl, rfl, ⟨languageCode, hclient⟩, hresponses, hkeys, hpast.recorder, hcap, hpast.context⟩
  exact idle_iff.mpr ⟨rfl, hcall⟩

/-- Two connections at their beginning. -/
theorem sameRun_begun {s s' : AppState} (h : Begun s) (h' : Begun s') {sampleRatio : ℚ} {filter : List ℚ}
    (hdevice : OnDevice sampleRatio filter s.sys.plugin.recorder)
    (hdevice' : OnDevice sampleRatio filter s'.sys.plugin.recorder) :
    ∃ languageCode, SameRun ⟨sampleRatio, filter, languageCode, fun x => s.sys.Context x ∨ s'.sys.Context x⟩ s.sys s'.sys
      s s' := by
  obtain ⟨hpc, hcall⟩ := idle_iff.mp h.idle
  obtain ⟨hpc', hcall'⟩ := idle_iff.mp h'.idle
  obtain ⟨languageCode, hclient⟩ := h.client
  obtain ⟨languageCode', hclient'⟩ := h'.client
  refine ⟨languageCode', ⟨⟨?_, hcall'.trans hcall.symm, h'.fault.trans h.fault.symm, h'.ticker.trans h.ticker.symm,
    ⟨[], by simp, by simp⟩, ⟨[], by simp, by simp⟩, ?_, ?_⟩, hpc'.trans hpc.symm, Or.inl hpc, h'.audio.trans h.audio.symm,
    h'.ended.trans h.ended.symm, h.thread, h'.thread⟩⟩
  · refine ⟨?_, ?_, ⟨h.recorder.sampleRate, h'.recorder.sampleRate, ?_, h'.capturing.trans h.capturing.symm, hdevice,
      hdevice', ?_⟩, h'.responses.trans h.responses.symm, h'.contextToKeys.trans h.contextToKeys.symm,
      Or.inr ⟨Or.inl h.context, Or.inr h'.context⟩⟩
    · rw [hclient, hclient']
      rfl
    · intro c hc
      rw [hclient] at hc
      cases hc
      exact fun r hr => absurd hr List.not_mem_nil
    · rw [h.recorder.buffer h.capturing, h'.recorder.buffer h'.capturing]
    · intro hcap
      cases h.capturing.symm.trans hcap
  · rw [h.audio, h.capturing, hcall]
    rintro (hs | hs | hs) <;> cases hs
  · rw [hcall]
    exact fun hs => by cases hs

/-- `Start`, `Stop`, `Tick`, captures and what the threads do; no `Connect`, no `SendText`, no destructor. -/
def AppLabel.later : AppLabel → Bool
  | .callConnect _ | .callSendText _ _ | .destroy => false
  | _ => true

/-- **A clean slate.**  After two histories that end in a `Connect`, the same events lead to the same: the runs take the same
steps, the clients accept the same requests, the same is broadcast, and the recorder captures in both or in neither; if the
capture device has one ratio and one filter, and the audio contexts of the new responses are none of the two histories. -/
theorem clean_slate {s s' : AppState} (h : JustConnected s) (h' : JustConnected s') {sampleRatio : ℚ} {filter : List ℚ}
    (hopen : OnDevice sampleRatio filter s.sys.plugin.recorder) (hopen' : OnDevice sampleRatio filter s'.sys.plugin.recorder)
    {as : List AppLabel} (hlater : ∀ a ∈ as, a.later = true) (hdevice : ∀ p, .game p ∈ as → Device sampleRatio filter p)
    (hfresh : ∀ r, .network (.respond r) ∈ as → ∀ x, s.sys.Context x ∨ s'.sys.Context x →
      ¬ FString.ofCStr r.audioContext ≈ x) :
    Option.Rel (fun t t' =>
      (∃ new, t.sys.trace = s.sys.trace ++ new ∧ t'.sys.trace = s'.sys.trace ++ new) ∧
      (∃ new, t.sys.broadcasts = s.sys.broadcasts ++ new ∧ t'.sys.broadcasts = s'.sys.broadcasts ++ new) ∧
      t'.sys.plugin.recorder.bIsCapturing = t.sys.plugin.recorder.bIsCapturing) (app.run s as) (app.run s' as) := by
  obtain ⟨languageCode, hsame⟩ := sameRun_begun h.begun h'.begun hopen hopen'
  generalize hk : (⟨sampleRatio, filter, languageCode, fun x => s.sys.Context x ∨ s'.sys.Context x⟩ : Setting) = k at hsame
  have hall : ∀ a ∈ as, k.Later a := by
    subst hk
    intro a ha
    cases a with
    | game p => exact hdevice p ha
    | network act =>
      cases act with
      | respond r => exact hfresh r ha
      | _ => trivial
    | callConnect _ => cases hlater _ ha
    | callSendText _ _ => cases hlater _ ha
    | destroy => cases hlater _ ha
    | _ => trivial
  have hrun := run_rel (fun _ _ _ ha hs => SameRun.step hs ha) hall hsame
  generalize app.run s as = x at hrun
  generalize app.run s' as = y at hrun
  cases hrun with
  | none => exact .none
  | some hrun => exact .some ⟨hrun.sys.trace, hrun.sys.broadcasts, hrun.sys.alike.recorder.capturing⟩

/-- A `Tick` handles the `started` of a context. -/
def startedTick (context : StdString) : List AppLabel :=
  [.network (.respond ⟨context, 0, .started⟩), .callTick] ++ gameSteps 5

/-- A `Connect` that kills the thread of another. -/
def connectAgain : List AppLabel := .callConnect [] :: gameSteps 2 ++ .threadEnds :: gameSteps 3

/-- `Start`, and a `Tick` handles a `finished`. -/
def finishedAfterStart (context : StdString) : List AppLabel :=
  .callStart :: gameSteps 5 ++ [.network (.respond ⟨context, 0, .finished ⟨none⟩⟩), .callTick] ++ gameSteps 3

/-- The last step of a `Connect` comes next. -/
def AppPc.creates : AppPc → Bool
  | .createThread => true
  | _ => false

theorem justConnected_of_run (as : List AppLabel) (p : Platform) {s : AppState} (hs : app.run .new (as ++ [.game p]) = some s)
    (hpc : (app.run .new as).map (·.pc.creates) = some true) : JustConnected s := by
  obtain ⟨before, hbefore, hpc⟩ := Option.map_eq_some_iff.mp hpc
  obtain ⟨mid, hmid, hstep⟩ := Machine.run_concat.mp hs
  cases hbefore.symm.trans hmid
  refine ⟨before, p, ⟨as, hbefore⟩, ?_, hstep⟩
  cases hat : before.pc <;> rw [hat] at hpc <;> first | rfl | cases hpc

/-- After the first `Connect`, and after one that follows a connection with the context `a`, a `finished` of the context `b`. -/
theorem clean_slate_twice :
    ∃ s s', app.run .new connectOnce = some s ∧
      app.run .new (connectOnce ++ startedTick [97] ++ connectAgain) = some s' ∧
      Option.Rel (fun t t' =>
        (∃ new, t.sys.trace = s.sys.trace ++ new ∧ t'.sys.trace = s'.sys.trace ++ new) ∧
        (∃ new, t.sys.broadcasts = s.sys.broadcasts ++ new ∧ t'.sys.broadcasts = s'.sys.broadcasts ++ new) ∧
        t'.sys.plugin.recorder.bIsCapturing = t.sys.plugin.recorder.bIsCapturing)
        (app.run s (finishedAfterStart [98])) (app.run s' (finishedAfterStart [98])) := by
  have hrun : (app.run .new connectOnce).map (fun s => (s.sys.trace, s.sys.plugin.recorder.isStreamOpen)) =
      some ([], false) := by
    decide +kernel
  have hrun' : (app.run .new (connectOnce ++ startedTick [97] ++ connectAgain)).map
      (fun s => (s.sys.trace, s.sys.plugin.recorder.isStreamOpen)) =
      some ([.handled ⟨[97], 0, .started⟩ false], false) := by
    decide +kernel
  obtain ⟨s, hs, hrun⟩ := Option.map_eq_some_iff.mp hrun
  obtain ⟨s', hs', hrun'⟩ := Option.map_eq_some_iff.mp hrun'
  simp only [Prod.mk.injEq] at hrun hrun'
  obtain ⟨htrace, hclosed⟩ := hrun
  obtain ⟨htrace', hclosed'⟩ := hrun'
  have hconnected : JustConnected s :=
    justConnected_of_run (.callConnect [] :: gameSteps 3) (device 16000) hs (by decide +kernel)
  have hconnected' : JustConnected s' :=
    justConnected_of_run
      (connectOnce ++ startedTick [97] ++ (.callConnect [] :: gameSteps 2 ++ .threadEnds :: gameSteps 2)) (device 16000) hs'
      (by decide +kernel)
  have hopen : OnDevice 1 (deviceFilter (device 16000)) s.sys.plugin.recorder := by
    intro hopen
    cases hclosed.symm.trans hopen
  have hopen' : OnDevice 1 (deviceFilter (device 16000)) s'.sys.plugin.recorder := by
    intro hopen
    cases hclosed'.symm.trans hopen
  refine ⟨s, s', hs, hs', clean_slate hconnected hconnected' hopen hopen' (by decide) ?_ ?_⟩
  · intro p hp
    have hp : p = device 16000 := by
      simpa [finishedAfterStart, gameSteps, List.mem_replicate] using hp
    rw [hp]
    exact ⟨rfl, by norm_num [device], rfl⟩
  · intro r hr x hx
    have hr : r = ⟨[98], 0, .finished ⟨none⟩⟩ := by
      simpa [finishedAfterStart, gameSteps, List.mem_replicate] using hr
    rw [hr]
    obtain (rfl | ⟨q, stopped, hq, rfl⟩) | (rfl | ⟨q, stopped, hq, rfl⟩) := hx
    · decide
    · rw [htrace] at hq
      cases hq
    · decide
    · rw [htrace'] at hq
      cases List.mem_singleton.mp hq
      decide

/-! ## Where the past shows -/

/-- `Start` up to `Recorder.Start()`, on a device whose stream cannot be opened. -/
def startUnopened : List AppLabel :=
  .callStart :: List.replicate 4 (.game { device 16000 with opensCaptureStream := false })

/-- After one `Connect`, or after a connection with the context `a`, the same events: a `finished` of the context `A`, or one
without a context, stops the recorder in one run alone; and so does a device that is no longer there when only one of them has
its stream open. -/
theorem past_shows :
    (app.run .new (connectOnce ++ finishedAfterStart [65])).map (·.sys.plugin.recorder.bIsCapturing) = some true ∧
    (app.run .new (connectOnce ++ startedTick [97] ++ connectAgain ++ finishedAfterStart [65])).map
      (·.sys.plugin.recorder.bIsCapturing) = some false ∧
    (app.run .new (connectOnce ++ finishedAfterStart [])).map (·.sys.plugin.recorder.bIsCapturing) = some false ∧
    (app.run .new (connectOnce ++ startedTick [97] ++ connectAgain ++ finishedAfterStart [])).map
      (·.sys.plugin.recorder.bIsCapturing) = some true ∧
    (app.run .new (connectOnce ++ startUnopened)).map
      (fun s => (s.sys.fault, s.sys.plugin.recorder.bIsCapturing)) = some (some .checkFailed, false) ∧
    (app.run .new (connectOnce ++ (.callStart :: gameSteps 5) ++ connectAgain ++ startUnopened)).map
      (fun s => (s.sys.fault, s.sys.plugin.recorder.bIsCapturing)) = some (none, true) := by
  decide +kernel

end

end SpeechlyPlugin.Plugin
