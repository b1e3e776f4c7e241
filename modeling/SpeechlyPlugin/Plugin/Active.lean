import SpeechlyPlugin.Plugin.Requests

/-!
# The active context

`Tick` takes a context for the active one if its `started` was the last that was handled.  Between a `Start` and its
`started` that is the context of an earlier utterance, whose late `finished` then stops the recorder.
-/

namespace SpeechlyPlugin.Plugin

open Engine Lib Client Recorder

variable {l : List Obs} {c : ℕ → StdString}

/-! ## What is asked of the server, and of `Tick` -/

/-- `Tick` has handled a `started`. -/
def Obs.isStartedResponse : Obs → Bool
  | .handled r _ => isStarted r.payload
  | _ => false

/-- How often `Start` has been called. -/
def starts (l : List Obs) : ℕ := l.countP Obs.isStart

/-- How many `started` have been handled. -/
def starteds (l : List Obs) : ℕ := l.countP Obs.isStartedResponse

/-- The server gives the `n`-th START the context `c n`, sends `started` in this order, and before `finished`. -/
def Orderly (c : ℕ → StdString) (pre : List Obs) : Obs → Prop
  | .handled r _ =>
    (isStarted r.payload = true → r.audioContext = c (starteds pre) ∧ starteds pre < starts pre) ∧
      (isFinished r.payload = true → ∃ n < starteds pre, r.audioContext = c n)
  | _ => True

/-- `Tick` stops the recorder only for the context of the last `Start`. -/
def StopsActive (c : ℕ → StdString) (pre : List Obs) : Obs → Prop
  | .handled r true => r.audioContext = c (starts pre - 1)
  | _ => True

/-- A `finished` that comes after a further `Start` comes after the `started` of a context that the engine tells from its
own. -/
def Passed (c : ℕ → StdString) (pre : List Obs) : Obs → Prop
  | .handled r _ =>
    isFinished r.payload = true → ∀ n < starts pre - 1, r.audioContext = c n →
      ¬FString.ofCStr (c n) ≈ FString.ofCStr (c (starteds pre - 1))
  | _ => True

instance (c : ℕ → StdString) (pre : List Obs) : DecidablePred (Orderly c pre)
  | .handled _ _ => inferInstanceAs (Decidable ((_ → _ ∧ _) ∧ (_ → ∃ _ < _, _)))
  | .start | .stop | .recorderStart | .recorderStop | .speechAudio _ | .accepted _ => .isTrue trivial

instance (c : ℕ → StdString) (pre : List Obs) : DecidablePred (StopsActive c pre)
  | .handled _ true => inferInstanceAs (Decidable (_ = _))
  | .handled _ false | .start | .stop | .recorderStart | .recorderStop | .speechAudio _ | .accepted _ => .isTrue trivial

instance (c : ℕ → StdString) (pre : List Obs) : DecidablePred (Passed c pre)
  | .handled _ _ => inferInstanceAs (Decidable (_ → ∀ n < _, _ → ¬_))
  | .start | .stop | .recorderStart | .recorderStop | .speechAudio _ | .accepted _ => .isTrue trivial

/-! ## Every step -/

/-- What is known of `LastAudioContext`. -/
structure Follows (c : ℕ → StdString) (s : SysState) : Prop where
  le : starteds s.trace ≤ starts s.trace
  last : 0 < starteds s.trace → s.plugin.lastAudioContext = FString.ofCStr (c (starteds s.trace - 1))

/-- One response that `Tick` handles. -/
theorem Follows.stopsActive_iff (hc : Function.Injective c) {s : SysState} (h : Follows c s) {r : SLUResponse}
    (ho : Orderly c s.trace (.handled r (s.plugin.stopsRecorder r))) :
    StopsActive c s.trace (.handled r (s.plugin.stopsRecorder r)) ↔
      Passed c s.trace (.handled r (s.plugin.stopsRecorder r)) := by
  cases hr : r.payload with
  | finished f =>
    obtain ⟨n, hn, hctx⟩ := ho.2 (by rw [hr]; rfl)
    have hlast := h.last (by omega)
    have hle := h.le
    have hstops : s.plugin.stopsRecorder r = true ↔
        FString.ofCStr (c n) ≈ FString.ofCStr (c (starteds s.trace - 1)) := by
      simp only [USpeechly.stopsRecorder, hr, USpeechly.isActive, hlast, hctx, decide_eq_true_eq]
    have hpassed : Passed c s.trace (.handled r (s.plugin.stopsRecorder r)) ↔
        (n < starts s.trace - 1 → s.plugin.stopsRecorder r = false) := by
      rw [← Bool.not_eq_true, hstops]
      constructor
      · intro hp hlate
        exact hp (by rw [hr]; rfl) n hlate hctx
      · intro hp _ m hm hctx'
        have hmn : n = m := hc (hctx.symm.trans hctx')
        subst hmn
        exact hp hm
    rw [hpassed]
    cases hstop : s.plugin.stopsRecorder r with
    | false => simp [StopsActive]
    | true =>
      have hactive : StopsActive c s.trace (.handled r true) ↔ n = starts s.trace - 1 := by
        rw [StopsActive, hctx]
        exact hc.eq_iff
      rw [hactive]
      simp only [Bool.true_eq_false, imp_false]
      omega
  | _ => simp [StopsActive, Passed, USpeechly.stopsRecorder, hr, isFinished]

theorem Follows.step {s t : SysState} (h : Follows c s) {new : List Obs} (htrace : t.trace = s.trace ++ new)
    (hadds : s.Adds t new) (ho : Along (Orderly c) t.trace) : Follows c t := by
  have hstarts : starts t.trace = starts s.trace + starts new := by rw [htrace, starts, List.countP_append, starts, starts]
  have hstarteds : starteds t.trace = starteds s.trace + starteds new := by
    rw [htrace, starteds, List.countP_append, starteds, starteds]
  have hle := h.le
  cases hadds with
  | quiet hquiet hctx =>
    have hnone : starteds new = 0 := List.countP_eq_zero.mpr fun o hmem => by
      have := hquiet o hmem
      cases o <;> simp_all [Obs.quiet, Obs.isStartedResponse]
    rw [hnone] at hstarteds
    exact ⟨by omega, by rw [hstarteds, hctx]; exact h.last⟩
  | start hctx =>
    have hnone : starteds [.start] = 0 := rfl
    rw [hnone] at hstarteds
    exact ⟨by omega, by rw [hstarteds, hctx]; exact h.last⟩
  | stop hfault hpc halive hctx =>
    have hnone : starteds [.accepted (.event .STOP)] = 0 := rfl
    rw [hnone] at hstarteds
    exact ⟨by omega, by rw [hstarteds, hctx]; exact h.last⟩
  | handled r hctx =>
    rw [htrace] at ho
    have hor := (along_concat.mp ho).2.1
    have hone : starteds [.handled r (s.plugin.stopsRecorder r)] = if isStarted r.payload then 1 else 0 := by
      cases hr : isStarted r.payload <;> simp [starteds, Obs.isStartedResponse, hr]
    rw [hone] at hstarteds
    cases hr : isStarted r.payload with
    | true =>
      obtain ⟨hctx', hlt⟩ := hor hr
      simp only [hr, if_true] at hstarteds hctx
      exact ⟨by omega, fun _ => by rw [hctx, hctx', hstarteds, Nat.add_sub_cancel]⟩
    | false =>
      simp only [hr, Bool.false_eq_true, if_false] at hstarteds hctx
      exact ⟨by omega, by rw [hstarteds, hctx]; exact h.last⟩

/-- **When only the active context stops the recorder.** -/
theorem stopsActive_iff_passed (hc : Function.Injective c) {s : SysState} (h : SysReach s)
    (ho : Along (Orderly c) s.trace) : Along (StopsActive c) s.trace ↔ Along (Passed c) s.trace := by
  obtain ⟨u, languageCode, h⟩ := h
  have key : Along (Orderly c) s.trace →
      Along (fun pre o => StopsActive c pre o ↔ Passed c pre o) s.trace ∧ Follows c s := by
    refine h.inv (I := fun s => Along (Orderly c) s.trace →
      Along (fun pre o => StopsActive c pre o ↔ Passed c pre o) s.trace ∧ Follows c s) ?_
      fun _ => ⟨along_nil, le_rfl, fun h => absurd h (lt_irrefl 0)⟩
    intro s a t ih ht ho
    obtain ⟨new, htrace, hadds⟩ := SysState.step_adds ht
    have ho' := ho
    rw [htrace] at ho'
    obtain ⟨hall, hfollows⟩ := ih ho'.of_append
    refine ⟨?_, hfollows.step htrace hadds ho⟩
    rw [htrace]
    cases hadds with
    | quiet hquiet hctx =>
      refine hall.append_skip fun o hmem pre => ?_
      have := hquiet o hmem
      cases o <;> simp_all [Obs.quiet, StopsActive, Passed]
    | start hctx => exact along_concat.mpr ⟨hall, Iff.rfl⟩
    | stop hfault hpc halive hctx => exact along_concat.mpr ⟨hall, Iff.rfl⟩
    | handled r hctx => exact along_concat.mpr ⟨hall, hfollows.stopsActive_iff hc (along_concat.mp ho').2⟩
  exact (key ho).1.congr

/-- When the ids differ for the engine, it is the `started` of the next utterance that has to come first. -/
theorem passed_iff (hc : ∀ m n, FString.ofCStr (c m) ≈ FString.ofCStr (c n) → m = n) {pre : List Obs} {n : ℕ}
    (hn : n < starteds pre) :
    ¬FString.ofCStr (c n) ≈ FString.ofCStr (c (starteds pre - 1)) ↔ n + 1 < starteds pre := by
  constructor
  · intro hne
    by_contra hlast
    have hlast : starteds pre - 1 = n := by omega
    rw [hlast] at hne
    exact hne (Setoid.refl _)
  · intro hlt heq
    have := hc _ _ heq
    omega

/-! ## Two utterances -/

/-- The ids `a`, `aa`, … -/
def idOf (n : ℕ) : StdString := List.replicate (n + 1) 97

theorem idOf_injective : Function.Injective idOf := fun m n h => by
  have := congrArg List.length h
  simpa [idOf] using this

/-- Two utterances; the `finished` of the first comes when the second has started. -/
def inTime : List SysLabel :=
  startCall ++ [.respond ⟨idOf 0, 0, .started⟩] ++ tickCall 1 ++ stopCall ++ startCall ++
    [.respond ⟨idOf 1, 0, .started⟩, .respond ⟨idOf 0, 0, .finished ⟨none⟩⟩, .respond ⟨idOf 1, 0, .finished ⟨none⟩⟩] ++ tickCall 3

/-- It stops nothing, and the `finished` of the second stops the recorder. -/
theorem stopsActive_in_time :
    ∃ s, sys.run (.init (USpeechly.new.connect [])) inTime = some s ∧
      s.trace = [.start, .recorderStart, .accepted (.event .START), .handled ⟨idOf 0, 0, .started⟩ false, .stop, .recorderStop,
        .accepted (.event .STOP), .start, .recorderStart, .accepted (.event .START), .handled ⟨idOf 1, 0, .started⟩ false,
        .handled ⟨idOf 0, 0, .finished ⟨none⟩⟩ false, .handled ⟨idOf 1, 0, .finished ⟨none⟩⟩ true] ∧
      Along (StopsActive idOf) s.trace := by
  have hrun : (sys.run (.init (USpeechly.new.connect [])) inTime).map SysState.trace =
      some [.start, .recorderStart, .accepted (.event .START), .handled ⟨idOf 0, 0, .started⟩ false, .stop, .recorderStop,
        .accepted (.event .STOP), .start, .recorderStart, .accepted (.event .START), .handled ⟨idOf 1, 0, .started⟩ false,
        .handled ⟨idOf 0, 0, .finished ⟨none⟩⟩ false, .handled ⟨idOf 1, 0, .finished ⟨none⟩⟩ true] := by
    decide +kernel
  obtain ⟨s, hs, htrace⟩ := Option.map_eq_some_iff.mp hrun
  refine ⟨s, hs, htrace, (stopsActive_iff_passed idOf_injective ⟨.new, [], inTime, hs⟩ ?_).mpr ?_⟩
  · rw [htrace]
    decide +kernel
  · rw [htrace]
    decide +kernel

/-- `Stop`, `Start`, and only then the `finished` of the first utterance: the recorder is stopped in the second. -/
theorem late_finished_stops :
    ∃ s, sys.run (.init (USpeechly.new.connect [])) (startCall ++ [.respond ⟨idOf 0, 0, .started⟩] ++ tickCall 1 ++
        stopCall ++ startCall ++ [.respond ⟨idOf 0, 0, .finished ⟨none⟩⟩] ++ tickCall 1) = some s ∧
      Along (Orderly idOf) s.trace ∧ ¬Along (StopsActive idOf) s.trace := by
  have hrun : (sys.run (.init (USpeechly.new.connect [])) (startCall ++ [.respond ⟨idOf 0, 0, .started⟩] ++ tickCall 1 ++
      stopCall ++ startCall ++ [.respond ⟨idOf 0, 0, .finished ⟨none⟩⟩] ++ tickCall 1)).map SysState.trace =
      some [.start, .recorderStart, .accepted (.event .START), .handled ⟨idOf 0, 0, .started⟩ false, .stop, .recorderStop,
        .accepted (.event .STOP), .start, .recorderStart, .accepted (.event .START),
        .handled ⟨idOf 0, 0, .finished ⟨none⟩⟩ true] := by
    decide +kernel
  obtain ⟨s, hs, htrace⟩ := Option.map_eq_some_iff.mp hrun
  refine ⟨s, hs, ?_, ?_⟩
  · rw [htrace]
    decide +kernel
  · rw [htrace]
    decide +kernel

end SpeechlyPlugin.Plugin
