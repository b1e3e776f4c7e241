import SpeechlyPlugin.Plugin.Requests

/-!
# The end of an utterance

What waits in `AudioBuffer` goes out with the next call of `OnSpeechAudio` that comes after `started`; `Stop` does not send
it.  So the audio of a session is complete when STOP is accepted exactly if nothing was spoken or something was spoken
after `started`.
-/

namespace SpeechlyPlugin.Plugin

open Engine Lib Client Recorder

/-- `OnSpeechAudio` is given samples, and `Tick` has handled a `started` before. -/
def SpeaksAfterStarted (pre : List Obs) (o : Obs) : Prop :=
  (∃ r b, .handled r b ∈ pre ∧ isStarted r.payload = true) ∧ ∃ call, o = .speechAudio call ∧ call.samples ≠ []

/-- The events since `Start` do not leave samples in `AudioBuffer`. -/
def Flushed (l : List Obs) : Prop := samplesOf l = [] ∨ Sometime SpeaksAfterStarted l

/-- The audio accepted since START encodes all samples `OnSpeechAudio` was given since `Start`. -/
def Complete (l : List Obs) : Prop :=
  ∃ payload, (payloads (acceptedOf l)).getLast? = some payload ∧
    readShorts payload = (samplesOf (sinceStart l)).map toSample

theorem unlock_mem_gateOps {l : List Obs} :
    .unlock ∈ gateOps l ↔ ∃ r b, .handled r b ∈ l ∧ isStarted r.payload = true := by
  simp only [gateOps, List.mem_filterMap]
  constructor
  · rintro ⟨o, ho, heq⟩
    cases o with
    | handled r b =>
      refine ⟨r, b, ho, ?_⟩
      by_contra hr
      simp [hr] at heq
    | speechAudio call => simp at heq
    | _ => simp at heq
  · rintro ⟨r, b, ho, hr⟩
    exact ⟨_, ho, by simp [hr]⟩

theorem sometime_passes_gateOps {l : List Obs} : Sometime Gate.Passes (gateOps l) ↔ Sometime SpeaksAfterStarted l := by
  induction l using List.reverseRecOn with
  | nil => exact iff_of_false not_sometime_nil not_sometime_nil
  | append_singleton l o ih =>
    rw [sometime_concat, gateOps_append, ← ih]
    cases o with
    | speechAudio call =>
      have hop : gateOps [.speechAudio call] = [.put call.samples] := rfl
      rw [hop, sometime_concat, Gate.Passes, SpeaksAfterStarted, unlock_mem_gateOps]
      simp
    | handled r b =>
      cases hr : isStarted r.payload with
      | false => simp [gateOps, hr, SpeaksAfterStarted]
      | true =>
        have hop : gateOps [.handled r b] = [.unlock] := by simp [gateOps, hr]
        rw [hop, sometime_concat]
        simp [Gate.Passes, SpeaksAfterStarted]
    | _ => simp [gateOps, SpeaksAfterStarted]

/-- Nothing is held back exactly if the events have flushed the buffer. -/
theorem flushed_iff {l : List Obs} : Flushed l ↔ (Gate.run (gateOps l)).1.held = [] := by
  rw [Gate.held_eq_nil_iff, sometime_passes_gateOps, given_gateOps, Flushed]

/-- The state STOP is accepted in. -/
theorem SysState.complete_iff {s : SysState} (h : s.view.Inv) (hfault : s.fault = none) (hpc : s.pc = .stopWrite)
    (halive : s.plugin.alive = true) : Complete s.trace ↔ Flushed (sinceStart s.trace) := by
  have hlive : s.view.live = true := by simp only [view, hfault, halive, Option.isNone_none, Bool.and_self]
  have hstage : s.view.stage = .closing := by simp only [view, stage, hpc]
  have hv := h.live hlive
  simp only [View.Live, hstage] at hv
  obtain ⟨ys, ps, -, hps, -⟩ := hv.spoken
  have hlast : (payloads (acceptedOf s.trace)).getLast? = some (encode (Gate.run (gateOps (sinceStart s.trace))).2) := by
    rw [show payloads (acceptedOf s.trace) = _ from hps, List.getLast?_concat]
    rfl
  -- what was given is what has gone out and what is held back
  rw [flushed_iff, Complete, hlast, ← given_gateOps, ← Gate.run_conserves]
  simp only [Option.some.injEq, exists_eq_left', readShorts_encode, List.map_append]
  constructor
  · intro heq
    simpa using heq.symm
  · intro hheld
    rw [hheld]
    simp

/-- **When the end of an utterance is not lost.**  In every run and at every accepted STOP, the audio is complete if and
only if nothing has been spoken since `Start`, or something has been spoken after a `started` was handled. -/
theorem complete_iff_flushed {s : SysState} (h : SysReach s) {pre post : List Obs}
    (hstop : s.trace = pre ++ .accepted (.event .STOP) :: post) : Complete pre ↔ Flushed (sinceStart pre) := by
  obtain ⟨u, languageCode, h⟩ := h
  have hall : Along (fun pre o => o = .accepted (.event .STOP) → (Complete pre ↔ Flushed (sinceStart pre))) s.trace := by
    refine h.induct (I := fun s => Along (fun pre o =>
      o = .accepted (.event .STOP) → (Complete pre ↔ Flushed (sinceStart pre))) s.trace) ?_ along_nil
    intro s a t hs ih ht
    obtain ⟨new, htrace, hadds⟩ := SysState.step_adds ht
    rw [htrace]
    cases hadds with
    | quiet hquiet hctx =>
      refine ih.append_skip fun o ho pre heq => ?_
      have := hquiet o ho
      rw [heq] at this
      cases this
    | start hctx => exact along_concat.mpr ⟨ih, nofun⟩
    | handled r hctx => exact along_concat.mpr ⟨ih, nofun⟩
    | stop hfault hpc halive hctx =>
      exact along_concat.mpr ⟨ih, fun _ =>
        SysState.complete_iff (SysState.SysReach.inv ⟨u, languageCode, hs⟩) hfault hpc halive⟩
  exact hall pre _ post hstop rfl

/-- A sample before `started` and one after it: both are there at STOP. -/
theorem complete_hum :
    ∃ s pre, sys.run (.init (USpeechly.new.connect [])) (startCall ++ [hum 24, .respond ⟨[97], 0, .started⟩] ++ tickCall 1 ++
        [hum 1] ++ stopCall) = some s ∧ s.trace = pre ++ [.accepted (.event .STOP)] ∧
      samplesOf (sinceStart pre) = [1 / 2, 1 / 2] ∧ Complete pre := by
  have hrun : (sys.run (.init (USpeechly.new.connect [])) (startCall ++ [hum 24, .respond ⟨[97], 0, .started⟩] ++
      tickCall 1 ++ [hum 1] ++ stopCall)).map SysState.trace =
        some ([.start, .recorderStart, .accepted (.event .START), .speechAudio ⟨[1 / 2], 1⟩,
          .handled ⟨[97], 0, .started⟩ false, .speechAudio ⟨[1 / 2], 1⟩, .accepted (.audio [255, 63, 255, 63]), .stop,
          .recorderStop] ++ [.accepted (.event .STOP)]) := by
    decide +kernel
  obtain ⟨s, hs, htrace⟩ := Option.map_eq_some_iff.mp hrun
  refine ⟨s, _, hs, htrace, by decide +kernel, (complete_iff_flushed ⟨.new, [], _, hs⟩ htrace).mpr (Or.inr ?_)⟩
  exact ⟨[.recorderStart, .accepted (.event .START), .speechAudio ⟨[1 / 2], 1⟩, .handled ⟨[97], 0, .started⟩ false],
    .speechAudio ⟨[1 / 2], 1⟩, [.accepted (.audio [255, 63, 255, 63]), .stop, .recorderStop], by decide +kernel,
    ⟨⟨[97], 0, .started⟩, false, by simp, rfl⟩, ⟨[1 / 2], 1⟩, rfl, by simp [SpeechAudio.samples]⟩

/-- One sample, and `Stop` before `started`: the sample stays in `AudioBuffer`. -/
theorem tail_lost :
    ∃ s pre, sys.run (.init (USpeechly.new.connect [])) (startCall ++ [hum 24] ++ stopCall) = some s ∧
      s.trace = pre ++ [.accepted (.event .STOP)] ∧ samplesOf (sinceStart pre) = [1 / 2] ∧ ¬Complete pre := by
  have hrun : (sys.run (.init (USpeechly.new.connect [])) (startCall ++ [hum 24] ++ stopCall)).map SysState.trace =
      some ([.start, .recorderStart, .accepted (.event .START), .speechAudio ⟨[1 / 2], 1⟩, .stop, .recorderStop] ++
        [.accepted (.event .STOP)]) := by
    decide +kernel
  obtain ⟨s, hs, htrace⟩ := Option.map_eq_some_iff.mp hrun
  refine ⟨s, _, hs, htrace, by decide +kernel, ?_⟩
  rintro ⟨payload, hlast, hread⟩
  cases hlast
  exact absurd hread (by decide +kernel)

end SpeechlyPlugin.Plugin
