import SpeechlyPlugin.Plugin.System

/-!
# Calls without interruption

When the game thread runs alone through a call, its steps compute the function of the source: `Start`, `Stop` and `Tick`.
-/

namespace SpeechlyPlugin.Plugin

open Engine Lib Client Recorder

/-- The game thread alone leads from `s` to a state with `Q`. -/
def Leads (p : Platform) (s : SysState) (Q : SysState → Prop) : Prop :=
  ∃ (n : ℕ) (t : SysState), sys.run s (List.replicate n (.game p)) = some t ∧ Q t

/-- What a call of `Start` or `Stop` has come to. -/
def Returned (x : Except Fault (USpeechly × Bool)) (t : SysState) : Prop :=
  match x with
  | .ok (u, b) => t.fault = none ∧ t.pc = .idle ∧ t.plugin = u ∧ t.bSuccess = some b
  | .error fault => t.fault = some fault

/-- What the loop of `Tick` has come to, from `s`. -/
def HasRead (s : SysState) (x : Except Fault (USpeechly × TickLocals)) (t : SysState) : Prop :=
  match x with
  | .ok (u, locals) =>
    t.fault = none ∧ t.pc = .tickEnd locals ∧ t.plugin = u ∧ t.ticker = s.ticker ∧ t.broadcasts = s.broadcasts
  | .error fault => t.fault = some fault

/-- What a `Tick` has come to, from `s`. -/
def Ticked (s : SysState) (x : Except Fault (USpeechly × List Broadcast × Bool)) (t : SysState) : Prop :=
  match x with
  | .ok (u, broadcasts, again) =>
    t.fault = none ∧ t.pc = .idle ∧ t.plugin = u ∧ t.ticker = again ∧ t.broadcasts = s.broadcasts ++ broadcasts
  | .error fault => t.fault = some fault

section

variable {p : Platform} {s t m : SysState} {Q R : SysState → Prop}

theorem Leads.now (h : Q s) : Leads p s Q := ⟨0, s, rfl, h⟩

theorem Leads.step (hfault : s.fault = none) (hstep : s.game p = some m) (h : Leads p m Q) : Leads p s Q := by
  obtain ⟨n, t, hrun, ht⟩ := h
  refine ⟨n + 1, t, ?_, ht⟩
  rw [List.replicate_succ, Machine.run_cons]
  exact ⟨m, by simp only [sys, sysStep, hfault, hstep]; rfl, hrun⟩

theorem Leads.trans (h : Leads p s Q) (hQ : ∀ t, Q t → Leads p t R) : Leads p s R := by
  obtain ⟨n, t, hrun, ht⟩ := h
  obtain ⟨k, v, hrun', hv⟩ := hQ t ht
  refine ⟨n + k, v, ?_, hv⟩
  rw [List.replicate_add, Machine.run_append, hrun]
  exact hrun'

/-! ## `Start` and `Stop` -/

/-- `Start` from its `Client->Write` on. -/
theorem leads_startWrite (hfault : s.fault = none) (hpc : s.pc = .startWrite) :
    Leads p s (Returned (s.plugin.clientWrite (.event .START) >>= fun x =>
      if !x.2 then .ok ({ x.1 with client := none, recorder := x.1.recorder.stop }, x.2) else .ok (x.1, x.2))) := by
  have hgame : s.game p = some (s.writeEvent .START .startReset) := by simp only [SysState.game, hpc]
  unfold SysState.writeEvent at hgame
  cases hw : s.plugin.clientWrite (.event .START) with
  | error fault =>
    rw [hw] at hgame
    exact .step hfault hgame (.now rfl)
  | ok x =>
    obtain ⟨u, b⟩ := x
    rw [hw] at hgame
    cases b with
    | true => exact .step hfault hgame (.now ⟨hfault, rfl, rfl, rfl⟩)
    | false => exact .step hfault hgame (.step hfault rfl (.step hfault rfl (.now ⟨hfault, rfl, rfl, rfl⟩)))

/-- `Start` from `Recorder.Start()` on. -/
theorem leads_startRecorder (hfault : s.fault = none) (hpc : s.pc = .startRecorder) :
    Leads p s (Returned (s.plugin.recorder.start p >>= fun recorder =>
      ({ s.plugin with recorder := recorder } : USpeechly).clientWrite (.event .START) >>= fun x =>
        if !x.2 then .ok ({ x.1 with client := none, recorder := x.1.recorder.stop }, x.2) else .ok (x.1, x.2))) := by
  have hgame : s.game p = some (s.startRecorder p) := by simp only [SysState.game, hpc]
  unfold SysState.startRecorder at hgame
  cases hrec : s.plugin.recorder.start p with
  | error fault =>
    rw [hrec] at hgame
    exact .step hfault hgame (.now rfl)
  | ok recorder =>
    rw [hrec] at hgame
    exact .step hfault hgame (leads_startWrite hfault rfl)

/-- **`Start`.** -/
theorem leads_start (hfault : s.fault = none) (hpc : s.pc = .startTest) : Leads p s (Returned (s.plugin.start p)) := by
  have htest : s.game p = some (if s.plugin.isConnected then s.goto .startBuffering else s.finishCall true false) := by
    simp only [SysState.game, hpc]
  unfold USpeechly.start
  cases hconn : s.plugin.isConnected with
  | false =>
    rw [hconn] at htest
    exact .step hfault htest (.now ⟨hfault, rfl, rfl, rfl⟩)
  | true =>
    rw [hconn] at htest
    refine .step hfault htest (.step hfault rfl (.step hfault rfl ?_))
    exact leads_startRecorder (s := { s with
      plugin := { s.plugin with bIsBuffering := true, audioBuffer := [] }, pc := .startRecorder }) hfault rfl

/-- `Stop` from its `Client->Write` on. -/
theorem leads_stopWrite (hfault : s.fault = none) (hpc : s.pc = .stopWrite) :
    Leads p s (Returned (s.plugin.clientWrite (.event .STOP) >>= fun x =>
      if !x.2 then .ok ({ x.1 with client := none }, x.2) else .ok (x.1, x.2))) := by
  have hgame : s.game p = some (s.writeEvent .STOP .stopReset) := by simp only [SysState.game, hpc]
  unfold SysState.writeEvent at hgame
  cases hw : s.plugin.clientWrite (.event .STOP) with
  | error fault =>
    rw [hw] at hgame
    exact .step hfault hgame (.now rfl)
  | ok x =>
    obtain ⟨u, b⟩ := x
    rw [hw] at hgame
    cases b with
    | true => exact .step hfault hgame (.now ⟨hfault, rfl, rfl, rfl⟩)
    | false => exact .step hfault hgame (.step hfault rfl (.now ⟨hfault, rfl, rfl, rfl⟩))

/-- `Stop` from its test on. -/
theorem leads_stopTest (hfault : s.fault = none) (hpc : s.pc = .stopTest) :
    Leads p s (Returned (if s.plugin.isConnected then s.plugin.clientWrite (.event .STOP) >>= fun x =>
      if !x.2 then .ok ({ x.1 with client := none }, x.2) else .ok (x.1, x.2) else .ok (s.plugin, false))) := by
  have htest : s.game p = some (if s.plugin.isConnected then s.goto .stopWrite else s.finishCall false false) := by
    simp only [SysState.game, hpc]
  cases hconn : s.plugin.isConnected with
  | false =>
    rw [hconn] at htest
    exact .step hfault htest (.now ⟨hfault, rfl, rfl, rfl⟩)
  | true =>
    rw [hconn] at htest
    exact .step hfault htest (leads_stopWrite hfault rfl)

/-- **`Stop`.** -/
theorem leads_stop (hfault : s.fault = none) (hpc : s.pc = .stopRecorder) : Leads p s (Returned s.plugin.stop) := by
  have hgame : s.game p = some (s.stopRecorder.goto .stopTest) := by simp only [SysState.game, hpc]
  exact .step hfault hgame (leads_stopTest hfault rfl)

/-! ## `Tick` -/

/-- The loop, with `maxReads` rounds left. -/
theorem leads_read : ∀ (maxReads : ℕ) (locals : TickLocals) (s : SysState), s.fault = none →
    s.pc = .tickRead maxReads locals → Leads p s (HasRead s (USpeechly.readResponses s.plugin locals maxReads)) := by
  intro maxReads
  induction maxReads with
  | zero =>
    intro locals s hfault hpc
    have hgame : s.game p = some (s.goto (.tickEnd locals)) := by simp only [SysState.game, hpc]
    exact .step hfault hgame (.now ⟨hfault, rfl, rfl, rfl, rfl⟩)
  | succ maxReads ih =>
    intro locals s hfault hpc
    have hgame : s.game p = some (s.readOne maxReads locals) := by simp only [SysState.game, hpc]
    unfold SysState.readOne at hgame
    unfold USpeechly.readResponses
    cases hread : s.plugin.clientRead with
    | error fault =>
      rw [hread] at hgame
      exact .step hfault hgame (.now rfl)
    | ok x =>
      rw [hread] at hgame
      cases x with
      | none => exact .step hfault hgame (.now ⟨hfault, rfl, rfl, rfl, rfl⟩)
      | some x =>
        obtain ⟨r, u⟩ := x
        refine .step hfault hgame ?_
        exact ih (u.handleResponse locals r).2 ({ s with
          plugin := (u.handleResponse locals r).1, pc := .tickRead maxReads (u.handleResponse locals r).2 }.observe
            (.handled r (u.stopsRecorder r))) hfault rfl

/-- **`Tick`.** -/
theorem leads_tick (hfault : s.fault = none) (hpc : s.pc = .tickTest) (hticker : s.ticker = true) :
    Leads p s (Ticked s s.plugin.tick) := by
  have htest : s.game p = some (s.goto (if s.plugin.isConnected then .tickRead 10 .new else .tickDisconnected)) := by
    simp only [SysState.game, hpc]
  unfold USpeechly.tick
  cases hconn : s.plugin.isConnected with
  | false =>
    rw [hconn] at htest
    have hgame : (s.goto .tickDisconnected).game p = some (s.goto .tickDisconnected).tickDisconnected := rfl
    have hplugin : (s.goto .tickDisconnected).plugin = s.plugin := rfl
    unfold SysState.tickDisconnected at hgame
    rw [hplugin] at hgame
    refine .step hfault htest ?_
    cases hb : s.plugin.disconnected with
    | error fault =>
      rw [hb] at hgame
      exact .step hfault hgame (.now rfl)
    | ok b =>
      rw [hb] at hgame
      exact .step hfault hgame (.now ⟨hfault, rfl, rfl, rfl, rfl⟩)
  | true =>
    rw [hconn] at htest
    refine .step hfault htest ((leads_read 10 .new (s.goto (.tickRead 10 .new)) hfault rfl).trans fun t ht => ?_)
    have hplugin : (s.goto (.tickRead 10 .new)).plugin = s.plugin := rfl
    rw [hplugin] at ht
    cases hread : USpeechly.readResponses s.plugin .new 10 with
    | error fault =>
      rw [hread] at ht
      exact .now ht
    | ok x =>
      rw [hread] at ht
      obtain ⟨hfault', hpc', hplugin', hticker', hbroadcasts⟩ := ht
      refine .step hfault' (m := { t with
        plugin := (t.plugin.endTick x.2).1, pc := .idle
        broadcasts := t.broadcasts ++ (t.plugin.endTick x.2).2 }) ?_ (.now ?_)
      · simp only [SysState.game, hpc']
      · rw [hplugin', hbroadcasts]
        exact ⟨hfault', rfl, rfl, hticker'.trans hticker, rfl⟩

end

end SpeechlyPlugin.Plugin
