import SpeechlyPlugin.Plugin.Assertions
import SpeechlyPlugin.Recorder.Stream

/-!
# The one call through an empty `Client`

`Start` and `Stop` empty `Client` when a `Write` is refused after the test of `IsConnected`.  Everyone else who calls through
`Client` holds it by then, whenever the network thread raises its error; `Tick` alone, on a client that is gone, asks
`Client->HasError()` before it reports the disconnection.
-/

namespace SpeechlyPlugin.Plugin

open Engine Lib Client Recorder

section

variable {s t : AppState} {a : AppLabel} {p : Platform}

/-- `Tick` is called while there is a client. -/
def TickFindsClient (s : AppState) : AppLabel → Prop
  | .callTick => s.HasClient
  | _ => True

/-- `Tick` is at its first test, or has found no connection. -/
def GamePc.testsConnection : GamePc → Bool
  | .tickTest | .tickDisconnected => true
  | _ => false

/-- Only the test leads to `tickDisconnected`. -/
theorem game_tests {s t : SysState} (ht : s.game p = some t) (htests : t.pc.testsConnection = true) :
    s.pc.testsConnection = true ∧ t.plugin.client = s.plugin.client := by
  cases SysState.gameStep ht with
  | crash => exact ⟨htests, rfl⟩
  | goto hpc =>
    generalize s.pc = pc, s.plugin.isConnected = conn at hpc
    cases hpc with
    | disconnected => exact ⟨rfl, rfl⟩
    | _ => cases htests
  | refused hpc =>
    generalize s.pc = pc at hpc
    cases hpc <;> cases htests
  | _ => cases htests

/-- `Tick` comes to its test, or past it without a connection, with the client it has been called with. -/
theorem hasClient_atTest (hs : Annotated s) (hbefore : s.pc = .calls → s.sys.pc.testsConnection = true → s.HasClient)
    (hfinds : TickFindsClient s a) (ht : app.step s a = some t) (hpc : t.pc = .calls)
    (htests : t.sys.pc.testsConnection = true) : t.HasClient := by
  have hloose : t.sys.pc.loose = false := by
    cases hcall : t.sys.pc <;> rw [hcall] at htests <;> first | rfl | cases htests
  rcases intoCall_step hs ht hpc hloose with helse | ⟨p, hpc, hgame⟩ | hcall | hcall | ⟨-, hplugin⟩
  · exact helse.client.trans (hbefore (helse.pc.symm.trans hpc) (by rw [← helse.call]; exact htests))
  · obtain ⟨htests, hclient⟩ := game_tests hgame htests
    exact (congrArg Option.isSome hclient).trans (hbefore hpc htests)
  · rw [hcall] at htests
    cases htests
  · rw [hcall] at htests
    cases htests
  · rw [AppState.HasClient, hplugin]
    exact hfinds

/-- **`Tick` on an empty `Client`.** -/
theorem tick_without_client (hfault : s.sys.fault = none) (hidle : s.idle = true) (hticker : s.sys.ticker = true)
    (hgone : ¬ s.HasClient) (p : Platform) :
    ∃ t, app.run s [.callTick, .game p, .game p] = some t ∧ t.sys.fault = some .nullPointer := by
  obtain ⟨hpc, hcall⟩ := idle_iff.mp hidle
  have hclient : s.sys.plugin.client = none := by
    cases hc : s.sys.plugin.client with
    | none => rfl
    | some c => exact absurd (by rw [AppState.HasClient, hc]; rfl) hgone
  obtain ⟨sys, pc, audio, clients, clientThread, ended⟩ := s
  obtain ⟨plugin, pc', started, ticker, fault, trace, broadcasts, bSuccess⟩ := sys
  obtain ⟨lastAudioContext, client, recorder⟩ := plugin
  cases hpc
  cases hcall
  cases hfault
  cases hticker
  cases hclient
  exact ⟨_, rfl, rfl⟩

/-- A run in which every `Tick` is called on a client makes no call through the empty `Client`. -/
theorem no_nullPointer {as : List AppLabel} (hunder : app.Under TickFindsClient .new as) (hrun : app.run .new as = some s) :
    s.sys.fault ≠ some .nullPointer := by
  intro hnull
  have hinv : Annotated s ∧ (s.pc = .calls → s.sys.pc.testsConnection = true → s.HasClient) := by
    refine Machine.Under.inv (I := fun s => Annotated s ∧
      (s.pc = .calls → s.sys.pc.testsConnection = true → s.HasClient)) ?_ hunder
      ⟨annotated_new, fun _ htests => by cases htests⟩ hrun
    intro s a t hC hs ht
    exact ⟨annotated_step hs.1 ht, fun hpc htests => hasClient_atTest hs.1 hs.2 hC ht hpc htests⟩
  obtain ⟨hpc, hcall, hgone⟩ := hinv.1.fault hnull
  exact hgone (hinv.2 hpc (by rw [hcall]; rfl))

/-- **Calls through `Client`.**  In a run, and however far the game thread takes the calls that are under way in it, no step
calls a method through the empty `Client`, if and only if `Tick` is never called while `Client` is empty. -/
theorem nullPointer_iff_tick {as : List AppLabel} (hrun : app.run .new as = some s) :
    (∀ bs (ps : List Platform) u, bs <+: as → app.run .new (bs ++ ps.map .game) = some u → u.sys.fault ≠ some .nullPointer) ↔
      app.Under TickFindsClient .new as := by
  constructor
  · intro hsafe
    apply Machine.under_of_steps hrun
    intro bs a t t' hbs ht ht'
    by_contra hgone
    cases AppState.step_of_appStep ht' <;> try exact hgone trivial
    case tick hidle hticker =>
      obtain ⟨u, hu, hnull⟩ := tick_without_client (fault_of_appStep ht') hidle hticker hgone (device 16000)
      refine hsafe _ [device 16000, device 16000] u hbs ?_ hnull
      rw [List.append_assoc, Machine.run_append, ht]
      exact hu
  · intro hunder bs ps u hbs hu
    refine no_nullPointer (Machine.under_append.mpr ⟨hunder.of_prefix hbs, fun t _ => ?_⟩) hu
    apply Machine.under_of_forall
    intro a ha t
    obtain ⟨p, -, rfl⟩ := List.mem_map.mp ha
    trivial

/-- A `Tick` after `Connect`. -/
theorem nullPointer_iff_tick_connected :
    ∃ s, app.run .new (connectOnce ++ [.callTick]) = some s ∧
      ((∀ bs (ps : List Platform) u, bs <+: connectOnce ++ [.callTick] → app.run .new (bs ++ ps.map .game) = some u →
        u.sys.fault ≠ some .nullPointer) ↔
      app.Under TickFindsClient .new (connectOnce ++ [.callTick])) := by
  have hrun : (app.run .new (connectOnce ++ [.callTick])).isSome = true := by decide +kernel
  obtain ⟨s, hs⟩ := Option.isSome_iff_exists.mp hrun
  exact ⟨s, hs, nullPointer_iff_tick hs⟩

/-- `Connect`, and then a `Stop` whose `Write` is refused: the network thread has raised its error after the test. -/
def stopRefused : List AppLabel :=
  .callConnect [] :: List.replicate 4 (.game (device 16000)) ++
    [.callStop, .game (device 16000), .game (device 16000), .network .hasError, .game (device 16000), .game (device 16000)]

/-- The `Tick` after it. -/
theorem tick_dereferences :
    (app.run .new stopRefused).map (fun s => (s.idle, s.sys.ticker, s.sys.plugin.client.isSome, s.sys.fault)) =
      some (true, true, false, none) ∧
    (app.run .new (stopRefused ++ [.callTick, .game (device 16000), .game (device 16000)])).map (·.sys.fault) =
      some (some .nullPointer) := by
  decide +kernel

end

end SpeechlyPlugin.Plugin
