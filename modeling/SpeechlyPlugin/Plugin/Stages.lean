import SpeechlyPlugin.Plugin.Sessions

/-!
# The stages of a session

What sessions depend on is a view of the state, and the invariant about it goes by the stage of the game thread: from
`Recorder.Start` on the plugin holds the gate of the samples since the last call of `Start`, shut until START is accepted;
then the payload of the open session is what has passed the gate.  There is one lemma for each thing a step can do to the
view.
-/

namespace SpeechlyPlugin.Plugin

open Engine Lib Client Recorder

/-! ## The view -/

/-- Where the game thread is, as far as sessions go. -/
inductive Stage where
  /-- no session is open -/
  | resting
  | preparing
  /-- `bIsBuffering` has been set -/
  | shut
  /-- `AudioBuffer` has been emptied -/
  | emptied
  /-- the recorder runs, START has not been written -/
  | opening
  /-- START was refused -/
  | failed
  | speaking
  /-- the recorder has been stopped, STOP has not been written -/
  | closing
  deriving DecidableEq

/-- The recorder may run. -/
def Stage.records : Stage → Bool
  | .opening | .failed | .speaking => true
  | _ => false

/-- A session is open. -/
def Stage.inSession : Stage → Bool
  | .speaking | .closing => true
  | _ => false

/-- What sessions depend on. -/
structure View where
  stage : Stage
  /-- the program runs, and the client takes requests -/
  live : Bool
  bIsCapturing : Bool
  bIsBuffering : Bool
  audioBuffer : List UInt8
  accepted : List SLURequest
  spoken : List (List ℚ) × Bool
  /-- what has come to the gate since the last call of `Start` -/
  ops : List (GateOp ℚ)

namespace SysState

variable (s : SysState)

def stage : Stage :=
  match s.pc with
  | .startTest | .startBuffering => .preparing
  | .startEmpty => .shut
  | .startRecorder => .emptied
  | .startWrite => .opening
  | .startReset | .startStop => .failed
  | .stopRecorder => .speaking
  | .stopTest | .stopWrite => .closing
  | .stopReset => .resting
  | _ => if s.started then .speaking else .resting

def view : View where
  stage := s.stage
  live := s.fault.isNone && s.plugin.alive
  bIsCapturing := s.plugin.recorder.bIsCapturing
  bIsBuffering := s.plugin.bIsBuffering
  audioBuffer := s.plugin.audioBuffer
  accepted := acceptedOf s.trace
  spoken := spokenState s.trace
  ops := gateOps (sinceStart s.trace)

end SysState

namespace View

/-- The view after one more event. -/
def observe (v : View) (o : Obs) : View :=
  { v with accepted := addAccepted v.accepted o, spoken := addSpoken v.spoken o, ops := addOp v.ops o }

end View

namespace SysState

variable {s : SysState}

theorem view_observe (o : Obs) : (s.observe o).view = s.view.observe o := by
  simp only [view, observe, View.observe, spokenState_concat, acceptedOf_concat, ops_concat]
  rfl

end SysState

/-! ## The invariant -/

namespace View

variable (v : View)

/-- Between `Recorder.Start` and START: what is spoken is held back. -/
structure Opening : Prop where
  spoken : ∃ ys, v.spoken.1 = ys ++ [Gate.given v.ops] ∧ (payloads v.accepted).length = ys.length
  holds : Holds v.bIsBuffering v.audioBuffer (Gate.run v.ops).1
  shut : .unlock ∉ v.ops

/-- In a session: the payload is what has passed the gate. -/
structure InSession : Prop where
  spoken : ∃ ys ps, v.spoken.1 = ys ++ [Gate.given v.ops] ∧
    payloads v.accepted = ps ++ [encode (Gate.run v.ops).2] ∧ ps.length = ys.length
  holds : Holds v.bIsBuffering v.audioBuffer (Gate.run v.ops).1

/-- What is known while the client takes requests. -/
def Live : Prop :=
  match v.stage with
  | .resting | .preparing | .shut | .emptied => (payloads v.accepted).length = v.spoken.1.length
  | .opening => v.Opening
  | .failed => False
  | .speaking | .closing => v.InSession

/-- **The invariant.** -/
structure Inv : Prop where
  records : v.bIsCapturing = true → v.stage.records = true
  spoken_open : v.spoken.2 = v.bIsCapturing
  ops_nil : v.stage = .preparing ∨ v.stage = .shut ∨ v.stage = .emptied → v.ops = []
  shut : v.stage = .shut ∨ v.stage = .emptied → v.bIsBuffering = true
  empty : v.stage = .emptied → v.audioBuffer = []
  sessions : ∃ b, Sessions v.accepted b ∧ (v.live = true → b = v.stage.inSession)
  prefixes : Prefixes (payloads v.accepted) v.spoken.1
  live : v.live = true → v.Live

variable {v}

/-- The client is lost. -/
theorem Inv.die (h : v.Inv) (live : Bool) (hlive : live = true → v.live = true) : ({ v with live := live } : View).Inv where
  records := h.records
  spoken_open := h.spoken_open
  ops_nil := h.ops_nil
  shut := h.shut
  empty := h.empty
  sessions := by
    obtain ⟨b, hb, hbs⟩ := h.sessions
    exact ⟨b, hb, fun h => hbs (hlive h)⟩
  prefixes := h.prefixes
  live := fun hl => by
    have hv := h.live (hlive hl)
    cases hst : v.stage <;> simp only [Live, hst] at hv ⊢
    case opening => exact ⟨hv.spoken, hv.holds, hv.shut⟩
    case speaking | closing => exact ⟨hv.spoken, hv.holds⟩
    all_goals exact hv

/-- The client is lost. -/
theorem Inv.lost (h : v.Inv) : ({ v with live := false } : View).Inv :=
  h.die false (by simp)

/-- A call comes to its end on a client that is lost. -/
theorem Inv.abandon (h : v.Inv) {stage : Stage} {live : Bool} (hlive : live = false)
    (hrecords : v.bIsCapturing = true → stage.records = true)
    (hstage : stage = .failed ∨ stage = .resting ∨ stage = .speaking) :
    ({ v with stage := stage, live := live } : View).Inv where
  records := hrecords
  spoken_open := h.spoken_open
  ops_nil := fun hst => by rcases hstage with rfl | rfl | rfl <;> simp at hst
  shut := fun hst => by rcases hstage with rfl | rfl | rfl <;> simp at hst
  empty := fun hst => by rcases hstage with rfl | rfl | rfl <;> simp at hst
  sessions := by
    obtain ⟨b, hb, -⟩ := h.sessions
    exact ⟨b, hb, fun hl => by simp [hlive] at hl⟩
  prefixes := h.prefixes
  live := fun hl => by simp [hlive] at hl

/-! ### `Start` -/

/-- The steps of `Start` before `Recorder.Start()`. -/
theorem Inv.prepare (h : v.Inv) {stage : Stage} {bIsBuffering : Bool} {audioBuffer : List UInt8}
    {ops : List (GateOp ℚ)} (hfrom : v.stage = .resting ∨ v.stage = .preparing ∨ v.stage = .shut)
    (hto : stage = .preparing ∨ stage = .shut ∨ stage = .emptied) (hops : ops = [])
    (hshut : stage = .shut ∨ stage = .emptied → bIsBuffering = true) (hempty : stage = .emptied → audioBuffer = []) :
    ({ v with stage := stage, bIsBuffering := bIsBuffering, audioBuffer := audioBuffer, ops := ops } : View).Inv where
  records := fun hcap => absurd (h.records hcap) (by rcases hfrom with hs | hs | hs <;> simp [hs, Stage.records])
  spoken_open := h.spoken_open
  ops_nil := fun _ => hops
  shut := hshut
  empty := hempty
  sessions := by
    obtain ⟨b, hb, hbs⟩ := h.sessions
    have hfrom' : v.stage.inSession = false := by rcases hfrom with hs | hs | hs <;> simp [hs, Stage.inSession]
    have hto' : stage.inSession = false := by rcases hto with rfl | rfl | rfl <;> rfl
    exact ⟨b, hb, fun hl => by rw [hbs hl, hfrom', hto']⟩
  prefixes := h.prefixes
  live := fun hl => by
    have hv := h.live hl
    rcases hfrom with hs | hs | hs <;> rcases hto with rfl | rfl | rfl <;> simpa only [Live, hs] using hv

/-- `Recorder.Start()`: the gate is empty and shut, and a new list of samples begins. -/
theorem Inv.recorderStart (h : v.Inv) (hstage : v.stage = .emptied) :
    ({ v with stage := .opening, bIsCapturing := true, spoken := addSpoken v.spoken .recorderStart } : View).Inv where
  records := fun _ => rfl
  spoken_open := rfl
  ops_nil := nofun
  shut := nofun
  empty := nofun
  sessions := by
    obtain ⟨b, hb, hbs⟩ := h.sessions
    rw [hstage] at hbs
    exact ⟨b, hb, hbs⟩
  prefixes := h.prefixes.append []
  live := fun hl => by
    have hv := h.live hl
    have hops := h.ops_nil (Or.inr (Or.inr hstage))
    simp only [Live, hstage] at hv
    simp only [Live]
    refine ⟨⟨v.spoken.1, ?_, hv⟩, ?_, ?_⟩
    · simp only [hops]
      rfl
    · simp only [hops]
      exact ⟨h.shut (Or.inr hstage), h.empty hstage⟩
    · simp [hops]

/-- START is accepted. -/
theorem Inv.acceptStart (h : v.Inv) (hstage : v.stage = .opening) (hlive : v.live = true) {live : Bool} :
    ({ v with stage := .speaking, live := live, accepted := v.accepted ++ [.event .START] } : View).Inv := by
  have hv := h.live hlive
  simp only [Live, hstage] at hv
  obtain ⟨ys, hys, hlen⟩ := hv.spoken
  refine ⟨fun _ => rfl, h.spoken_open, by simp, by simp, by simp, ?_, ?_, fun _ => ?_⟩
  · obtain ⟨b, hb, hbs⟩ := h.sessions
    have hb' : b = false := by simpa [hstage, Stage.inSession] using hbs hlive
    subst hb'
    exact ⟨true, .start hb, fun _ => rfl⟩
  · have hprefixes := h.prefixes
    rw [hys] at hprefixes
    simp only [payloads_concat, addPayload, hys]
    exact (hprefixes.init hlen).concat hlen List.nil_prefix
  · refine ⟨⟨ys, payloads v.accepted, hys, ?_, hlen⟩, hv.holds⟩
    simp only [payloads_concat, addPayload, Gate.run_out hv.shut]
    rfl

/-! ### `Stop` -/

/-- `Recorder.Stop()`. -/
theorem Inv.recorderStop (h : v.Inv) : ({ v with bIsCapturing := false, spoken := (v.spoken.1, false) } : View).Inv where
  records := nofun
  spoken_open := rfl
  ops_nil := h.ops_nil
  shut := h.shut
  empty := h.empty
  sessions := h.sessions
  prefixes := h.prefixes
  live := fun hl => by
    have hv := h.live hl
    cases hst : v.stage <;> simp only [Live, hst] at hv ⊢
    case opening => exact ⟨hv.spoken, hv.holds, hv.shut⟩
    case speaking | closing => exact ⟨hv.spoken, hv.holds⟩
    all_goals exact hv

/-- `Stop` has stopped the recorder. -/
theorem Inv.close (h : v.Inv) (hstage : v.stage = .speaking) (hcap : v.bIsCapturing = false) :
    ({ v with stage := .closing } : View).Inv where
  records := fun h => by simp [hcap] at h
  spoken_open := h.spoken_open
  ops_nil := nofun
  shut := nofun
  empty := nofun
  sessions := by
    obtain ⟨b, hb, hbs⟩ := h.sessions
    rw [hstage] at hbs
    exact ⟨b, hb, hbs⟩
  prefixes := h.prefixes
  live := fun hl => by
    have hv := h.live hl
    simp only [Live, hstage] at hv
    exact ⟨hv.spoken, hv.holds⟩

/-- STOP is accepted. -/
theorem Inv.acceptStop (h : v.Inv) (hstage : v.stage = .closing) (hlive : v.live = true) {live : Bool} :
    ({ v with stage := .resting, live := live, accepted := v.accepted ++ [.event .STOP] } : View).Inv := by
  have hpayloads : payloads (v.accepted ++ [.event .STOP]) = payloads v.accepted := by simp [addPayload]
  have hv := h.live hlive
  simp only [Live, hstage] at hv
  obtain ⟨ys, ps, hys, hps, hlen⟩ := hv.spoken
  refine ⟨fun hcap => absurd (h.records hcap) (by simp [hstage, Stage.records]), h.spoken_open, by simp, by simp,
    by simp, ?_, ?_, fun _ => ?_⟩
  · obtain ⟨b, hb, hbs⟩ := h.sessions
    have hb' : b = true := by simpa [hstage, Stage.inSession] using hbs hlive
    subst hb'
    exact ⟨false, .stop hb, fun _ => rfl⟩
  · simp only [hpayloads]
    exact h.prefixes
  · simp only [Live, hpayloads, hps, hys, List.length_append, hlen, List.length_singleton]

/-! ### `Tick` -/

/-- `bIsBuffering = false`: the gate is opened. -/
theorem Inv.unlock (h : v.Inv) (hstage : v.stage = .resting ∨ v.stage = .speaking) :
    ({ v with bIsBuffering := false, ops := v.ops ++ [.unlock] } : View).Inv where
  records := h.records
  spoken_open := h.spoken_open
  ops_nil := fun hst => by rcases hstage with hs | hs <;> simp [hs] at hst
  shut := fun hst => by rcases hstage with hs | hs <;> simp [hs] at hst
  empty := fun hst => by rcases hstage with hs | hs <;> simp [hs] at hst
  sessions := h.sessions
  prefixes := h.prefixes
  live := fun hl => by
    have hv := h.live hl
    rcases hstage with hs | hs <;> simp only [Live, hs] at hv ⊢
    · exact hv
    · refine ⟨?_, ?_⟩
      · simp only [Gate.given_concat_unlock, Gate.run_concat, Gate.step]
        exact hv.spoken
      · simp only [Gate.run_concat, Gate.step]
        exact ⟨rfl, hv.holds.held⟩

/-! ### `OnSpeechAudio` -/

/-- A call on a client that is lost. -/
theorem Inv.speakDead (h : v.Inv) (hcap : v.bIsCapturing = true) (hlive : v.live = false) (call : SpeechAudio)
    {audioBuffer : List UInt8} {bIsBuffering : Bool} {ops : List (GateOp ℚ)} :
    ({ v with
      bIsBuffering := bIsBuffering, audioBuffer := audioBuffer, ops := ops
      spoken := addSpoken v.spoken (.speechAudio call) } : View).Inv := by
  have hrec := h.records hcap
  have hspoken : addSpoken v.spoken (.speechAudio call) = (v.spoken.1.modifyLast (· ++ call.samples), true) := by
    simp only [addSpoken, h.spoken_open, hcap, if_true]
  refine ⟨h.records, ?_, fun hst => ?_, fun hst => ?_, fun hst => ?_, ?_, ?_, fun hl => ?_⟩
  · simp only [hspoken, hcap]
  · rcases hst with hst | hst | hst <;> simp [show v.stage = _ from hst, Stage.records] at hrec
  · rcases hst with hst | hst <;> simp [show v.stage = _ from hst, Stage.records] at hrec
  · simp [show v.stage = _ from hst, Stage.records] at hrec
  · exact h.sessions
  · simp only [hspoken]
    exact h.prefixes.grow _
  · rw [show v.live = true from hl] at hlive
    cases hlive

/-- **A call on a client that takes requests** comes to the gate; what passes goes out. -/
theorem Inv.speak (h : v.Inv) (hcap : v.bIsCapturing = true) (hlive : v.live = true) (call : SpeechAudio)
    {audioBuffer : List UInt8} {bIsBuffering : Bool} {accepted : List SLURequest}
    (hgate : ∀ g : Gate ℚ, Holds v.bIsBuffering v.audioBuffer g →
      Holds bIsBuffering audioBuffer (g.put call.samples).1 ∧ accepted = audioRequests (g.put call.samples).2) :
    ({ v with
      bIsBuffering := bIsBuffering, audioBuffer := audioBuffer, accepted := v.accepted ++ accepted
      ops := v.ops ++ [.put call.samples], spoken := addSpoken v.spoken (.speechAudio call) } : View).Inv := by
  have hrec := h.records hcap
  have hspoken : addSpoken v.spoken (.speechAudio call) = (v.spoken.1.modifyLast (· ++ call.samples), true) := by
    simp only [addSpoken, h.spoken_open, hcap, if_true]
  have hv := h.live hlive
  obtain ⟨b, hb, hbs⟩ := h.sessions
  have hb' := hbs hlive
  cases hstage : v.stage <;> simp only [hstage, Stage.records, Bool.false_eq_true] at hrec
  case failed => simp only [Live, hstage] at hv
  case opening =>
    -- the gate is shut: nothing goes out
    simp only [Live, hstage] at hv
    obtain ⟨hholds, haccepted⟩ := hgate _ hv.holds
    obtain ⟨ys, hys, hlen⟩ := hv.spoken
    have hnone : accepted = [] := by
      have hout : (Gate.run (v.ops ++ [.put call.samples])).2 = [] := Gate.run_out (by simp [hv.shut])
      rw [Gate.run_concat, Gate.step] at hout
      rw [haccepted, (List.append_eq_nil_iff.mp hout).2]
      rfl
    subst hnone
    refine ⟨fun _ => rfl, by simp only [hspoken, hcap], by simp, by simp, by simp, ?_, ?_, fun _ => ?_⟩
    · exact ⟨b, by simpa using hb, fun _ => by rw [hb', hstage]⟩
    · simp only [hspoken, List.append_nil]
      exact h.prefixes.grow _
    · simp only [Live]
      refine ⟨⟨ys, ?_, by simpa using hlen⟩, ?_, by simp [hv.shut]⟩
      · simp only [hspoken, hys, List.modifyLast_concat, Gate.given_concat_put]
      · simp only [Gate.run_concat, Gate.step]
        exact hholds
  case speaking =>
    simp only [Live, hstage] at hv
    obtain ⟨hholds, rfl⟩ := hgate _ hv.holds
    obtain ⟨ys, ps, hys, hps, hlen⟩ := hv.spoken
    have hb'' : b = true := by simpa [hstage, Stage.inSession] using hb'
    subst hb''
    have hrun : (Gate.run (v.ops ++ [.put call.samples])).2 =
        (Gate.run v.ops).2 ++ ((Gate.run v.ops).1.put call.samples).2 := by
      rw [Gate.run_concat, Gate.step]
    have hpayloads := payloads_audioRequests hps ((Gate.run v.ops).1.put call.samples).2
    rw [← hrun] at hpayloads
    have hys' : (addSpoken v.spoken (.speechAudio call)).1 = ys ++ [Gate.given (v.ops ++ [.put call.samples])] := by
      rw [hspoken, hys, Gate.given_concat_put, List.modifyLast_concat]
    refine ⟨fun _ => rfl, by simp only [hspoken, hcap], by simp, by simp, by simp, ?_, ?_, fun _ => ?_⟩
    · exact ⟨true, hb.audioRequests _, fun _ => rfl⟩
    · have hprefixes := h.prefixes
      rw [hps, hys] at hprefixes
      simp only [hpayloads, hys']
      exact (hprefixes.dropLast.init hlen).concat hlen (Gate.run_prefix _)
    · simp only [Live]
      refine ⟨⟨ys, ps, hys', hpayloads, hlen⟩, ?_⟩
      simp only [Gate.run_concat, Gate.step]
      exact hholds

end View

end SpeechlyPlugin.Plugin
