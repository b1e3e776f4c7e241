import SpeechlyPlugin.Plugin.EmptyClient

/-!
# The client of a thread

`Connect` and the destructor kill the thread and wait for it before they replace or destroy the client.  `Start` and `Stop`
destroy it at once when their `Write` is refused, and the next `Kill` calls the `Stop` of an object that is gone.
-/

namespace SpeechlyPlugin.Plugin

open Engine Lib Client Recorder

/-- The client that `ClientThread` was created to run is still there. -/
def AppState.ThreadClientExists (s : AppState) : Prop := ∀ n, s.clientThread = some n → s.clientExists n = true

/-- A client that was there before the step is not there after it. -/
def Destroys (s t : AppState) : Prop := ∃ n, s.clientExists n = true ∧ t.clientExists n = false

/-- The game thread is about to write an event. -/
def GamePc.writesEvent : GamePc → Bool
  | .startWrite | .stopWrite => true
  | _ => false

/-- The game thread is about to destroy the client in `Start` or `Stop`. -/
def GamePc.resets : GamePc → Bool
  | .startReset | .stopReset => true
  | _ => false

/-- The step is not a `Client->Write` of `Start` or `Stop` that the client refuses. -/
def WriteAccepted (s : AppState) : AppLabel → Prop
  | .game _ => s.pc = .calls → s.sys.pc.writesEvent = true → s.sys.plugin.client.any (·.refuses) = false
  | _ => True

section

variable {s t : AppState} {a : AppLabel} {p : Platform}

/-! ## Inside `Start`, `Stop` and `Tick` -/

/-- `Client.Reset()` alone empties `Client`. -/
theorem game_client {s t : SysState} (ht : s.game p = some t) :
    t.plugin.client.isSome = s.plugin.client.isSome ∨ s.pc.resets = true ∧ t.plugin.client = none := by
  cases SysState.gameStep ht with
  | startReset hpc | stopReset hpc => exact Or.inr ⟨by rw [hpc]; rfl, rfl⟩
  | accepted _ hc => exact Or.inl (by rw [hc]; rfl)
  | handled _ hc _ _ hu =>
    subst hu
    refine Or.inl ?_
    simp only [SysState.observe, USpeechly.handleResponse_client, hc, Option.isSome_some]
  | endTick =>
    refine Or.inl ?_
    simp only
    rw [SysState.endTick_frame]
  | _ => exact Or.inl rfl

/-- `Client.Reset()` is there for a `Write` that is refused. -/
theorem game_resets {s t : SysState} (ht : s.game p = some t) (hresets : t.pc.resets = true) :
    s.pc.writesEvent = true ∧ s.plugin.client.any (·.refuses) = true := by
  cases SysState.gameStep ht with
  | crash _ hpc =>
    have hresets : s.pc.resets = true := hresets
    have hnot : s.pc.fails = false := by
      cases hcall : s.pc <;> rw [hcall] at hresets <;> first | rfl | cases hresets
    cases hnot.symm.trans hpc
  | goto hpc =>
    generalize s.pc = pc, s.plugin.isConnected = conn at hpc
    cases hpc <;> cases hresets
  | refused hpc hc hrefuses =>
    refine ⟨?_, by rw [hc]; exact hrefuses⟩
    generalize s.pc = pc at hpc
    cases hpc <;> rfl
  | _ => cases hresets

/-! ## One step -/

/-- What a step does to the client and its thread. -/
inductive ClientStep (s t : AppState) : Prop where
  | keep (hclient : t.sys.plugin.client.isSome = s.sys.plugin.client.isSome) (hclients : t.clients = s.clients)
      (hthread : t.clientThread = s.clientThread ∨ t.clientThread = none ∨
        t.clientThread = some t.clients ∧ t.HasClient)
  /-- the client is replaced or destroyed, and no thread is there -/
  | replace (hbefore : s.clientThread = none) (hafter : t.clientThread = none)
  /-- `Client.Reset()` in `Start` or `Stop` -/
  | reset (hpc : s.pc = .calls) (hresets : s.sys.pc.resets = true)

theorem clientStep_elsewhere (h : Elsewhere s t) : ClientStep s t := .keep h.client h.clients (Or.inl h.clientThread)

theorem clientStep_read (s : AppState) (maxReads : ℕ) (locals : TickLocals) : ClientStep s (s.read maxReads locals) := by
  unfold AppState.read USpeechly.clientRead
  cases hc : s.sys.plugin.client with
  | none => exact .keep rfl rfl (Or.inl rfl)
  | some c =>
    dsimp only
    cases c.read with
    | none => exact .keep rfl rfl (Or.inl rfl)
    | some x => exact .keep (by rw [hc]; rfl) rfl (Or.inl rfl)

theorem clientStep_game (hs : Annotated s) (ht : s.game p = some t) : ClientStep s t := by
  have hpoint := hs.point
  unfold AppState.AtPoint at hpoint
  cases AppState.gameStep ht with
  | read => exact clientStep_read s _ _
  | call hpc _ _ hsys =>
    rcases game_client hsys with hclient | ⟨hresets, -⟩
    · exact .keep hclient rfl (Or.inl rfl)
    · exact .reset hpc hresets
  | handle => exact .keep (congrArg Option.isSome USpeechly.handleResponse_client) rfl (Or.inl rfl)
  | sendTextGoes | sendTextEnds | stopRecorder | noThread => exact .keep rfl rfl (Or.inl rfl)
  | sendText =>
    unfold AppState.sendText
    cases hc : s.sys.plugin.client with
    | none => exact .keep rfl rfl (Or.inl rfl)
    | some c => exact .keep (by rw [hc]; rfl) rfl (Or.inl rfl)
  | kill =>
    have helse := elsewhere_onThread s (·.stop)
    exact .keep helse.client helse.clients (Or.inl helse.clientThread)
  | join => exact .keep rfl rfl (Or.inr (Or.inl rfl))
  | reset hpc | members hpc =>
    rw [hpc] at hpoint
    exact .replace hpoint.2.2 hpoint.2.2
  | createThread hpc =>
    rw [hpc] at hpoint
    exact .keep rfl rfl (Or.inr (Or.inr ⟨rfl, hpoint.2.2.2⟩))

theorem clientStep_step (hs : Annotated s) (ht : app.step s a = some t) : ClientStep s t := by
  cases AppState.step_of_appStep ht with
  | game hgame => exact clientStep_game hs hgame
  | capture c => exact clientStep_elsewhere (elsewhere_capture s c)
  | speech hspeech => exact clientStep_elsewhere (elsewhere_speech hspeech)
  | network a => exact clientStep_elsewhere (elsewhere_onThread s a.change)
  | connect | start | stop | sendText | tick | destroy | threadEnds => exact .keep rfl rfl (Or.inl rfl)

/-- What is known in a run whose writes are accepted. -/
structure Owned (s : AppState) : Prop where
  annotated : Annotated s
  exists_client : s.ThreadClientExists
  noReset : s.pc = .calls → s.sys.pc.resets = false

/-- A step that is no `Client.Reset()` of `Start` or `Stop` destroys no client that has its thread. -/
theorem Owned.destroys (h : Owned s) (ht : app.step s a = some t) (hdestroys : Destroys s t) : s.clientThread = none := by
  obtain ⟨n, hbefore, hafter⟩ := hdestroys
  rcases clientStep_step h.annotated ht with ⟨hclient, hclients, -⟩ | ⟨hnone, -⟩ | ⟨hpc, hresets⟩
  · rw [AppState.clientExists, hclient, hclients, ← AppState.clientExists, hbefore] at hafter
    cases hafter
  · exact hnone
  · cases (h.noReset hpc).symm.trans hresets

theorem Owned.threadClientExists (h : Owned s) (ht : app.step s a = some t) : t.ThreadClientExists := by
  intro n hn
  rcases clientStep_step h.annotated ht with ⟨hclient, hclients, hthread⟩ | ⟨-, hnone⟩ | ⟨hpc, hresets⟩
  · rcases hthread with hthread | hthread | ⟨hthread, hc⟩
    · have hexists := h.exists_client n (hthread.symm.trans hn)
      rwa [AppState.clientExists, hclient, hclients]
    · cases hthread.symm.trans hn
    · have hn : t.clients = n := Option.some.inj (hthread.symm.trans hn)
      rw [AppState.clientExists, show t.sys.plugin.client.isSome = true from hc, hn]
      simp
  · cases hnone.symm.trans hn
  · cases (h.noReset hpc).symm.trans hresets

theorem Owned.noReset_step (h : Owned s) (haccepted : WriteAccepted s a) (ht : app.step s a = some t) (hpc : t.pc = .calls) :
    t.sys.pc.resets = false := by
  by_contra hresets
  have hresets : t.sys.pc.resets = true := by simpa using hresets
  have hloose : t.sys.pc.loose = false := by
    cases hcall : t.sys.pc <;> rw [hcall] at hresets <;> first | rfl | cases hresets
  rcases intoCall_step h.annotated ht hpc hloose with helse | ⟨p, hpc, hgame⟩ | hcall | hcall | ⟨hcall, -⟩
  · have hbefore := h.noReset (helse.pc.symm.trans hpc)
    rw [← helse.call, hresets] at hbefore
    cases hbefore
  · obtain ⟨hwrites, hrefuses⟩ := game_resets hgame hresets
    cases (haccepted hpc hwrites).symm.trans hrefuses
  all_goals
    rw [hcall] at hresets
    cases hresets

theorem Owned.step (h : Owned s) (haccepted : WriteAccepted s a) (ht : app.step s a = some t) : Owned t :=
  ⟨annotated_step h.annotated ht, h.threadClientExists ht, h.noReset_step haccepted ht⟩

theorem owned_new : Owned .new where
  annotated := annotated_new
  exists_client := fun n hn => by cases hn
  noReset := fun _ => rfl

/-! ## The theorem -/

/-- `Client.Reset()` leaves the thread alone. -/
theorem reset_step (hfault : s.sys.fault = none) (hpc : s.pc = .calls) (hresets : s.sys.pc.resets = true) (p : Platform) :
    ∃ t, app.step s (.game p) = some t ∧ t.sys.plugin.client = none ∧ t.clientThread = s.clientThread := by
  obtain ⟨sys, pc, audio, clients, clientThread, ended⟩ := s
  obtain ⟨plugin, pc', started, ticker, fault, trace, broadcasts, bSuccess⟩ := sys
  cases hpc
  cases hfault
  cases pc' <;> first | exact ⟨_, rfl, rfl, rfl⟩ | cases hresets

/-- A `Write` of `Start` or `Stop` that is refused: the next step destroys the client, and its thread has not been killed. -/
theorem refused_destroys (hs : Annotated s) (hpc : s.pc = .calls) (hwrites : s.sys.pc.writesEvent = true)
    (hrefuses : s.sys.plugin.client.any (·.refuses) = true) (ht : app.step s (.game p) = some t) :
    ∃ u, app.step t (.game p) = some u ∧ Destroys t u ∧ t.clientThread ≠ none := by
  obtain ⟨c, hc, hrefuses⟩ := Option.any_eq_true _ _ |>.mp hrefuses
  have hclient : s.HasClient := by
    rw [AppState.HasClient, hc]
    rfl
  obtain ⟨n, hn⟩ := Option.isSome_iff_exists.mp (hs.clientThread hclient (by rw [hpc]; rfl))
  have hfault := fault_of_appStep ht
  have hwrite : ∀ r, s.sys.plugin.clientWrite r = .ok ({ s.sys.plugin with client := some c }, false) := by
    intro r
    simp only [USpeechly.clientWrite, hc, SpeechlyClient.write, hrefuses, if_true]
  have hrefused : ∃ refused, refused.resets = true ∧
      app.step s (.game p) = some { s with sys := { s.sys with plugin := { s.sys.plugin with client := some c }, pc := refused } } := by
    cases hcall : s.sys.pc <;> rw [hcall] at hwrites <;> try cases hwrites
    · refine ⟨.startReset, rfl, ?_⟩
      simp only [app, appStep, hfault, AppState.game, hpc, hcall, SysState.game, SysState.writeEvent, hwrite]
      rfl
    · refine ⟨.stopReset, rfl, ?_⟩
      simp only [app, appStep, hfault, AppState.game, hpc, hcall, SysState.game, SysState.writeEvent, hwrite]
      rfl
  obtain ⟨refused, hresets, hfirst⟩ := hrefused
  cases ht.symm.trans hfirst
  have hreset := reset_step (s := { s with
    sys := { s.sys with plugin := { s.sys.plugin with client := some c }, pc := refused } }) hfault hpc hresets p
  obtain ⟨u, hu, hgone, -⟩ := hreset
  refine ⟨u, hu, ⟨s.clients, ?_, ?_⟩, ?_⟩
  · simp [AppState.clientExists]
  · simp [AppState.clientExists, hgone]
  · rw [hn]
    exact Option.some_ne_none n

/-- **A thread and its client.**  In a run, the client that `ClientThread` was created to run exists as long as `ClientThread`
is set, and no step destroys or replaces a client before the thread has been killed and joined, if and only if no `Write` of
`Start` or `Stop` is refused. -/
theorem threadClientExists_iff_writeAccepted {as : List AppLabel} (hrun : app.run .new as = some s) :
    (∀ bs u, bs <+: as → app.run .new bs = some u →
      u.ThreadClientExists ∧ ∀ a t, app.step u a = some t → Destroys u t → u.clientThread = none) ↔
      app.Under WriteAccepted .new as := by
  constructor
  · intro hexists
    apply Machine.under_of_steps hrun
    intro bs a t t' hbs ht ht'
    cases a <;> try trivial
    rename_i p
    intro hpc hwrites
    by_contra hrefuses
    have hs : Annotated t := AppReach.annotated ⟨bs, ht⟩
    obtain ⟨u, hu, hdestroys, hthread⟩ := refused_destroys hs hpc hwrites (by simpa using hrefuses) ht'
    have hnext := hexists _ t' hbs (Machine.run_concat.mpr ⟨t, ht, ht'⟩)
    exact hthread (hnext.2 (.game p) u hu hdestroys)
  · intro hunder bs u hbs hu
    have howned : Owned u :=
      Machine.Under.inv (fun _ _ _ hC hs ht => Owned.step hs hC ht) (hunder.of_prefix hbs) owned_new hu
    exact ⟨howned.exists_client, fun a t ht => howned.destroys ht⟩

/-- A `Start` whose `Write` is accepted. -/
theorem threadClientExists_iff_writeAccepted_start :
    ∃ s, app.run .new (connectOnce ++ .callStart :: gameSteps 5) = some s ∧
      ((∀ bs u, bs <+: connectOnce ++ .callStart :: gameSteps 5 → app.run .new bs = some u →
        u.ThreadClientExists ∧ ∀ a t, app.step u a = some t → Destroys u t → u.clientThread = none) ↔
      app.Under WriteAccepted .new (connectOnce ++ .callStart :: gameSteps 5)) := by
  have hrun : (app.run .new (connectOnce ++ .callStart :: gameSteps 5)).isSome = true := by decide +kernel
  obtain ⟨s, hs⟩ := Option.isSome_iff_exists.mp hrun
  exact ⟨s, hs, threadClientExists_iff_writeAccepted hs⟩

/-- The `Stop` of `stopRefused` destroys the client under its thread, which has not ended; the next `Connect` is about to kill
that thread. -/
theorem kill_after_reset :
    ∃ s, app.run .new (stopRefused ++ [.callConnect [], .game (device 16000)]) = some s ∧ s.ended = false ∧
      ¬ s.ThreadClientExists := by
  have hrun : (app.run .new (stopRefused ++ [.callConnect [], .game (device 16000)])).map
      (fun s => (s.clientThread, s.clientExists 1, s.ended)) = some (some 1, false, false) := by
    decide +kernel
  obtain ⟨s, hs, hrun⟩ := Option.map_eq_some_iff.mp hrun
  simp only [Prod.mk.injEq] at hrun
  obtain ⟨hthread, hgone, hended⟩ := hrun
  refine ⟨s, hs, hended, fun hexists => ?_⟩
  cases hgone.symm.trans (hexists 1 hthread)

end

end SpeechlyPlugin.Plugin
