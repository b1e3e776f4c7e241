import SpeechlyPlugin.Client.Gapless

/-!
# After the main loop

`Exit` writes no request and keeps no response, and after `Finish` nothing is posted.  The queue is shut down last, so that
the branches of `Run` and `Exit` for a queue that is shut down earlier are never taken.
-/

namespace SpeechlyPlugin.Client

open Engine Lib NetState

variable {s t u : NetState}

/-- What a step after the main loop leaves as it is. -/
structure Leaving (s t : NetState) : Prop where
  running : running s.pc = false → running t.pc = false
  written : Client.running s.pc = false → t.written = s.written
  stream : Client.running s.pc = false → fromStream t.enqueued = fromStream s.enqueued
  finish : beforeFinish s.pc = false → beforeFinish t.pc = false
  posted : beforeFinish s.pc = false → t.posted = s.posted

theorem Leaving.refl (s : NetState) : Leaving s s := ⟨id, fun _ => rfl, fun _ => rfl, id, fun _ => rfl⟩

theorem Leaving.trans (h : Leaving s t) (h' : Leaving t u) : Leaving s u where
  running hs := h'.running (h.running hs)
  written hs := (h'.written (h.running hs)).trans (h.written hs)
  stream hs := (h'.stream (h.running hs)).trans (h.stream hs)
  finish hs := h'.finish (h.finish hs)
  posted hs := (h'.posted (h.finish hs)).trans (h.posted hs)

/-- A step of the main loop. -/
theorem Leaving.before (hruns : Client.running s.pc = true) : Leaving s t := by
  have hfinish : beforeFinish s.pc = true := by
    cases hpc : s.pc <;> rw [hpc] at hruns <;> first | rfl | cases hruns
  constructor <;> intro hs
  · cases hruns.symm.trans hs
  · cases hruns.symm.trans hs
  · cases hruns.symm.trans hs
  · cases hfinish.symm.trans hs
  · cases hfinish.symm.trans hs

/-- A step between two places of `Exit`. -/
theorem Leaving.exits (hruns : Client.running t.pc = false) (hwritten : t.written = s.written)
    (henqueued : t.enqueued = s.enqueued) (hfinish : beforeFinish s.pc = false → beforeFinish t.pc = false)
    (hposted : beforeFinish s.pc = false → t.posted = s.posted) : Leaving s t :=
  ⟨fun _ => hruns, fun _ => hwritten, fun _ => by rw [henqueued], hfinish, hposted⟩

/-- The thread stays where it is. -/
theorem Leaving.elsewhere (hpc : t.pc = s.pc) (hwritten : t.written = s.written)
    (hstream : fromStream t.enqueued = fromStream s.enqueued) (hposted : t.posted = s.posted) : Leaving s t := by
  constructor <;> intro hs
  · rw [hpc]; exact hs
  · exact hwritten
  · exact hstream
  · rw [hpc]; exact hs
  · exact hposted

theorem leaving_drainRead (hpc : s.pc = .drainRead) : Leaving s (s.postRead .drainNext) := by
  have hfinish : beforeFinish s.pc = true := by rw [hpc]; rfl
  unfold NetState.postRead
  split
  · cases hread : (s.goto .drainNext).streamRead with
    | error fault => exact .exits rfl rfl rfl (by simp [hfinish]) (by simp [hfinish])
    | ok t =>
      cases (check_bind_eq_ok (check_bind_eq_ok hread).2).2
      exact .exits rfl rfl rfl (by simp [hfinish]) (by simp [hfinish])
  · exact .exits rfl rfl rfl (by simp [hfinish]) (by simp [hfinish])

theorem leaving_thread (ht : s.thread = some t) : Leaving s t := by
  unfold NetState.thread at ht
  cases hpc : s.pc <;> simp only [hpc, reduceCtorEq, Option.some.injEq] at ht
  case exit =>
    split at ht
    · cases ht
      split <;> exact .exits rfl rfl rfl (by simp [hpc, beforeFinish]) (by simp [hpc, beforeFinish])
    · cases ht
      exact .exits rfl rfl rfl (fun _ => rfl) fun _ => rfl
  case drainRead =>
    subst ht
    exact leaving_drainRead hpc
  case finish =>
    subst ht
    exact .exits rfl rfl rfl (fun _ => rfl) (by simp [hpc, beforeFinish])
  case shutdown =>
    subst ht
    exact .exits rfl rfl rfl (fun _ => rfl) fun _ => rfl
  all_goals exact .before (by rw [hpc]; rfl)

theorem leaving_gotEvent {tag : ℕ} {ok : Bool} (ht : s.gotEvent tag ok = some t) : Leaving s t := by
  unfold NetState.gotEvent at ht
  cases hpc : s.pc <;> simp only [hpc, reduceCtorEq, Option.some.injEq] at ht
  case drainNext =>
    subst ht
    cases ok <;> exact .exits rfl rfl rfl (by simp [hpc, beforeFinish]) (by simp [hpc, beforeFinish])
  case awaitFinish n =>
    split at ht <;> cases ht
    · exact .exits rfl rfl rfl (fun _ => rfl) fun _ => rfl
    · exact .elsewhere rfl rfl rfl rfl
  case awaitShutdown =>
    subst ht
    exact .elsewhere rfl rfl rfl rfl
  all_goals exact .before (by rw [hpc]; rfl)

theorem leaving_timeout (ht : s.timeout = some t) : Leaving s t := by
  unfold NetState.timeout at ht
  cases hpc : s.pc <;> simp only [hpc, reduceCtorEq, Option.some.injEq] at ht <;> subst ht
  case loopNext => exact .before (by rw [hpc]; rfl)
  case drainNext => exact .exits rfl rfl rfl (by simp [hpc, beforeFinish]) (by simp [hpc, beforeFinish])
  all_goals exact .exits rfl rfl rfl (fun _ => rfl) fun _ => rfl

theorem leaving_drained (ht : s.drained = some t) : Leaving s t := by
  unfold NetState.drained at ht
  cases hpc : s.pc <;> simp only [hpc, reduceCtorEq, Option.some.injEq] at ht <;> subst ht
  case drainNext => exact .exits rfl rfl rfl (by simp [hpc, beforeFinish]) (by simp [hpc, beforeFinish])
  case awaitFinish | awaitShutdown => exact .exits rfl rfl rfl (fun _ => rfl) fun _ => rfl
  all_goals exact .before (by rw [hpc]; rfl)

theorem leaving_step {a : NetLabel} (ht : netStep s a = some t) : Leaving s t := by
  cases netStep_cases ht with
  | thread ht => exact leaving_thread ht
  | next ht =>
    obtain ⟨p, ok, -, -, -, ht⟩ := next_cases ht
    have htaken : Leaving s { s with inflight := s.inflight.erase p } := .elsewhere rfl rfl rfl rfl
    exact htaken.trans (leaving_gotEvent ht)
  | timeout ht => exact leaving_timeout ht
  | drained _ _ ht => exact leaving_drained ht
  | complete ht =>
    obtain ⟨p, -, -, -, rfl⟩ := complete_cases ht
    exact .elsewhere rfl rfl rfl rfl
  | wluEnqueue => exact .elsewhere rfl rfl (by simp [fromStream]) rfl
  | writeRefused | readRefused => exact .refl s
  | _ => exact .elsewhere rfl rfl rfl rfl

/-- **`Exit` is the end.**  Whatever comes after the main loop, no more requests are written and no more responses of the
stream are kept; after `Finish` no operation is posted. -/
theorem nothing_after_exit {as : List NetLabel} (hrun : net.run s as = some t) :
    (running s.pc = false → running t.pc = false ∧ t.written = s.written ∧ fromStream t.enqueued = fromStream s.enqueued) ∧
      (beforeFinish s.pc = false → beforeFinish t.pc = false ∧ t.posted = s.posted) := by
  have hleaving : Leaving s t :=
    Machine.Reach.inv (I := Leaving s) (fun _ _ _ h ht => h.trans (leaving_step ht)) (.refl s) ⟨as, hrun⟩
  exact ⟨fun hs => ⟨hleaving.running hs, hleaving.written hs, hleaving.stream hs⟩,
    fun hs => ⟨hleaving.finish hs, hleaving.posted hs⟩⟩

/-- The request that is accepted before the thread has seen the stop stays in the queue. -/
theorem nothing_after_exit_stopping :
    ∃ s t, net.run (.init (.new [] 16000)) (opening ++ [.thread, .thread, .thread, .writeTest (.event .START), .stop,
        .timeout, .thread, .thread]) = some s ∧
      net.run s [.writeEnqueue (.event .START), .thread, .complete 3 false default, .next 3, .thread] = some t ∧
      t.client.requestQueue = [.event .START] ∧ running t.pc = false ∧ t.written = s.written := by
  refine ⟨_, _, rfl, rfl, rfl, ?_⟩
  have hrun : net.run ((net.run (.init (.new [] 16000)) (opening ++ [.thread, .thread, .thread,
      .writeTest (.event .START), .stop, .timeout, .thread, .thread])).get rfl)
      [.writeEnqueue (.event .START), .thread, .complete 3 false default, .next 3, .thread] = some _ := rfl
  have h := nothing_after_exit hrun
  exact ⟨(h.1 rfl).1, (h.1 rfl).2.1⟩

/-! ## The client refuses -/

/-- After the main loop the client refuses requests and gives no responses. -/
def Refusing (s : NetState) : Prop := running s.pc = false → s.client.refuses = true

theorem Refusing.of_running (h : running t.pc = true) : Refusing t := fun hpc => absurd (h.symm.trans hpc) (by simp)

theorem Refusing.keep (h : Refusing s) (hpc : running s.pc = false) (hrefuses : t.client.refuses = s.client.refuses) :
    Refusing t := fun _ => hrefuses.trans (h hpc)

theorem refuses_handleTag (c : SpeechlyClient) (tag : ℕ) : (c.handleTag tag).refuses = c.refuses := by
  rw [SpeechlyClient.handleTag_eq]
  rfl

theorem refusing_fail (s : NetState) (message : String) : Refusing (s.fail message) := fun _ => rfl

theorem Refusing.postRead (h : Refusing s) (hst : s.client.stream = true) (hpc : running s.pc = false) {pc : Pc} :
    Refusing (s.postRead pc) := by
  rw [postRead_eq hst]
  split <;> exact h.keep hpc rfl

theorem Refusing.thread (h : Refusing s) (hi : s.TagInv) (ht : s.thread = some t) : Refusing t := by
  have hphase := hi.phase
  cases hpc : s.pc <;> simp only [NetState.thread, hpc, reduceCtorEq, Option.some.injEq] at ht <;>
    simp only [InPhase, hpc] at hphase
  case run =>
    subst ht
    exact .of_running rfl
  case configure =>
    subst ht
    have hok : (s.goto .awaitConfig).streamWrite s.client.configRequest = _ := streamWrite_ok hphase.1 hphase.2.2
    rw [hok]
    exact .of_running rfl
  case loop =>
    subst ht
    cases hrefuses : s.client.refuses with
    | true => exact fun _ => hrefuses
    | false =>
      have hgo : (s.client.bIsRunning && !s.client.bHasError) = true := by
        simpa [SpeechlyClient.refuses, and_comm] using hrefuses
      rw [if_pos hgo]
      exact .of_running rfl
  case loopWrite =>
    subst ht
    rw [pump_eq hphase.1]
    split <;> [split; skip] <;> exact .of_running rfl
  case loopRead =>
    subst ht
    rw [postRead_eq hphase.1]
    split <;> exact .of_running rfl
  case exit =>
    simp only [hphase.1, if_true, Option.some.injEq] at ht
    subst ht
    split <;> exact h.keep (by rw [hpc]; rfl) rfl
  case drainRead =>
    subst ht
    exact h.postRead hphase.1 (by rw [hpc]; rfl)
  all_goals
    subst ht
    exact h.keep (by rw [hpc]; rfl) rfl

theorem Refusing.mainEvent {tag : ℕ} {ok : Bool} (s : NetState) : Refusing (s.mainEvent tag ok) := by
  unfold NetState.mainEvent
  split
  · cases ok
    · exact refusing_fail _ _
    · exact .of_running rfl
  · split
    · cases ok
      · exact refusing_fail _ _
      · exact .of_running rfl
    · cases ok
      · exact refusing_fail _ _
      · exact .of_running rfl

theorem Refusing.gotEvent {tag : ℕ} {ok : Bool} (h : Refusing s) (ht : s.gotEvent tag ok = some t) : Refusing t := by
  cases hpc : s.pc <;> simp only [NetState.gotEvent, hpc, reduceCtorEq, Option.some.injEq] at ht
  case awaitOpen n =>
    split at ht <;> cases ht
    · exact fun _ => rfl
    · exact .of_running rfl
  case awaitConfig =>
    split at ht <;> cases ht
    · exact refusing_fail _ _
    · exact .of_running rfl
  case loopNext =>
    subst ht
    exact .mainEvent _
  case drainNext =>
    subst ht
    exact h.keep (by rw [hpc]; rfl) (refuses_handleTag _ _)
  case awaitFinish n => split at ht <;> cases ht <;> exact h.keep (by rw [hpc]; rfl) rfl
  case awaitShutdown =>
    subst ht
    exact h.keep (by rw [hpc]; rfl) rfl

theorem Refusing.timeout (h : Refusing s) (ht : s.timeout = some t) : Refusing t := by
  cases hpc : s.pc <;> simp only [NetState.timeout, hpc, reduceCtorEq, Option.some.injEq] at ht <;> subst ht
  case loopNext => exact .of_running rfl
  all_goals exact h.keep (by rw [hpc]; rfl) rfl

theorem Refusing.drained (h : Refusing s) (ht : s.drained = some t) : Refusing t := by
  cases hpc : s.pc <;> simp only [NetState.drained, hpc, reduceCtorEq, Option.some.injEq] at ht <;> subst ht
  case awaitOpen => exact fun _ => rfl
  case awaitConfig => exact refusing_fail _ _
  case loopNext => exact fun _ => by simp [SpeechlyClient.refuses, SpeechlyClient.stop]
  all_goals exact h.keep (by rw [hpc]; rfl) rfl

theorem refusing_step {a : NetLabel} (h : Refusing s) (hi : s.TagInv) (ht : netStep s a = some t) : Refusing t := by
  cases netStep_cases ht with
  | thread ht => exact h.thread hi ht
  | next ht =>
    obtain ⟨p, ok, -, -, -, ht⟩ := next_cases ht
    have htaken : Refusing { s with inflight := s.inflight.erase p } := h
    exact htaken.gotEvent ht
  | timeout ht => exact h.timeout ht
  | drained _ _ ht => exact h.drained ht
  | complete ht =>
    obtain ⟨p, -, -, -, rfl⟩ := complete_cases ht
    intro hpc
    dsimp only
    split <;> exact h hpc
  | stop => exact fun _ => by simp [SpeechlyClient.refuses, SpeechlyClient.stop]
  | _ => exact h

theorem NetReach.refusing (h : NetReach s) : Refusing s := by
  obtain ⟨languageCode, sampleRate, h⟩ := h
  refine h.induct (fun t a u hr ht ha => refusing_step ht (NetReach.tagInv ⟨_, _, hr⟩) ha) ?_
  exact .of_running rfl

/-! ## The end of the queue -/

/-- The lines of the branches for a queue that is shut down before the end, and for a tag that is not known. -/
def deadLines : List String :=
  ["Stream prematurely shut down", "Stream error", "Speechly unknown tag", "Unknown tag with an error"]

/-- `Exit` gives up waiting for the queue to be drained. -/
def leak : String := "Speechly shutdown timed out, this can result in a memory leak"

/-- The invariant of the end. -/
structure EndInv (s : NetState) : Prop where
  shut : s.queueShutdown = true → s.pc = .awaitShutdown ∨ s.pc = .done
  drained : s.pc = .done → s.inflight = [] ∨ leak ∈ s.log
  dead : ∀ line ∈ deadLines, line ∉ s.log

theorem dead_concat {log : List String} {line : String} (h : ∀ line ∈ deadLines, line ∉ log) (hline : line ∉ deadLines) :
    ∀ other ∈ deadLines, other ∉ log ++ [line] := by
  intro other hother hmem
  rcases List.mem_append.mp hmem with hmem | hmem
  · exact h other hother hmem
  · rw [List.mem_singleton.mp hmem] at hother
    exact hline hother

/-- A step within `Run` and `Exit`, before the queue is shut down. -/
theorem EndInv.on (h : EndInv s) (hpc : s.pc ≠ .awaitShutdown ∧ s.pc ≠ .done) (hshut : t.queueShutdown = s.queueShutdown)
    (hdone : t.pc ≠ .done) (hdead : ∀ line ∈ deadLines, line ∉ t.log) : EndInv t where
  shut hs := by
    rcases h.shut (hshut ▸ hs) with e | e
    · exact absurd e hpc.1
    · exact absurd e hpc.2
  drained e := absurd e hdone
  dead := hdead

/-- The thread stays where it is. -/
theorem EndInv.elsewhere (h : EndInv s) (hshut : t.queueShutdown = s.queueShutdown) (hpc : t.pc = s.pc)
    (hops : s.inflight = [] → t.inflight = []) (hlog : t.log = s.log) : EndInv t where
  shut hs := by
    rw [hpc]
    exact h.shut (hshut ▸ hs)
  drained e := by
    rw [hlog]
    exact (h.drained (hpc ▸ e)).imp_left hops
  dead := by
    rw [hlog]
    exact h.dead

theorem EndInv.postRead (h : EndInv s) (hst : s.client.stream = true) {pc : Pc}
    (hpc : s.pc ≠ .awaitShutdown ∧ s.pc ≠ .done) (hdone : pc ≠ .done) : EndInv (s.postRead pc) := by
  rw [postRead_eq hst]
  split <;> exact h.on hpc rfl hdone h.dead

theorem EndInv.thread (h : EndInv s) (hi : s.TagInv) (ht : s.thread = some t) : EndInv t := by
  have hphase := hi.phase
  cases hpc : s.pc <;> simp only [NetState.thread, hpc, reduceCtorEq, Option.some.injEq] at ht <;>
    simp only [InPhase, hpc] at hphase
  case configure =>
    subst ht
    have hok : (s.goto .awaitConfig).streamWrite s.client.configRequest = _ := streamWrite_ok hphase.1 hphase.2.2
    rw [hok, orCrash]
    exact h.on (by simp [hpc]) rfl (by simp [wrote, post, goto]) h.dead
  case loop =>
    subst ht
    refine h.on (by simp [hpc]) rfl ?_ h.dead
    simp only [goto]
    split <;> simp
  case loopWrite =>
    subst ht
    rw [pump_eq hphase.1]
    split <;> [split; skip] <;> exact h.on (by simp [hpc]) rfl (by simp [wrote, post, goto]) h.dead
  case loopRead | drainRead =>
    subst ht
    exact h.postRead hphase.1 (by simp [hpc]) (by simp)
  case exit =>
    simp only [hphase.1, if_true, Option.some.injEq] at ht
    subst ht
    split <;> exact h.on (by simp [hpc]) rfl (by simp [goto]) h.dead
  case shutdown =>
    subst ht
    exact ⟨fun _ => Or.inl rfl, by simp, h.dead⟩
  all_goals
    subst ht
    exact h.on (by simp [hpc]) rfl (by simp) h.dead

theorem EndInv.next (h : EndInv s) (hi : s.TagInv) {tag : ℕ} (ht : s.next tag = some t) : EndInv t := by
  obtain ⟨p, ok, hp, rfl, -, ht⟩ := next_cases ht
  have hphase := hi.phase
  cases hpc : s.pc <;> simp only [gotEvent, hpc, reduceCtorEq, Option.some.injEq] at ht <;>
    simp only [InPhase, hpc] at hphase
  case awaitOpen n =>
    split at ht <;> cases ht
    · exact h.on (by simp [hpc]) rfl (by simp) (dead_concat h.dead (by decide))
    · exact h.on (by simp [hpc]) rfl (by simp [goto]) h.dead
  case awaitConfig =>
    split at ht <;> cases ht
    · exact h.on (by simp [hpc]) rfl (by simp [NetState.fail, goto]) (dead_concat h.dead (by decide))
    · exact h.on (by simp [hpc]) rfl (by simp [goto]) h.dead
  case loopNext =>
    subst ht
    simp only [mainEvent, handleTag, NetState.take, SpeechlyClient.handleTag_lastWriteSeq,
      SpeechlyClient.handleTag_lastReadSeq]
    rcases kind_of_ok hphase.2 hp with ⟨-, hw⟩ | ⟨-, hr, hw⟩
    · rw [if_pos hw]
      split
      · exact h.on (by simp [hpc]) rfl (by simp [goto]) h.dead
      · exact h.on (by simp [hpc]) rfl (by simp [NetState.fail, goto]) (dead_concat h.dead (by decide))
    · rw [if_neg hw, if_pos hr]
      split
      · exact h.on (by simp [hpc]) rfl (by simp) h.dead
      · exact h.on (by simp [hpc]) rfl (by simp [NetState.fail, goto]) (dead_concat h.dead (by decide))
  case drainNext =>
    subst ht
    refine h.on (by simp [hpc]) rfl ?_ h.dead
    cases ok <;> simp [goto]
  case awaitFinish n =>
    split at ht <;> cases ht
    · exact h.on (by simp [hpc]) rfl (by simp [goto]) h.dead
    · exact h.on (by simp [hpc]) rfl (by simp [logLine, NetState.take]) (dead_concat h.dead (by decide))
  case awaitShutdown =>
    subst ht
    exact ⟨fun _ => Or.inl rfl, by simp [NetState.take], h.dead⟩

theorem EndInv.timeout (h : EndInv s) (ht : s.timeout = some t) : EndInv t := by
  cases hpc : s.pc <;> simp only [NetState.timeout, hpc, reduceCtorEq, Option.some.injEq] at ht <;> subst ht
  case loopNext => exact h.on (by simp [hpc]) rfl (by simp [goto]) h.dead
  case drainNext | awaitFinish =>
    exact h.on (by simp [hpc]) rfl (by simp [goto]) (dead_concat h.dead (by decide))
  case awaitShutdown =>
    exact ⟨fun _ => Or.inr rfl, fun _ => Or.inr (List.mem_append_right _ (List.mem_singleton_self _)),
      dead_concat h.dead (by decide)⟩

/-- The queue says that it is shut down only to the last loop of `Exit`. -/
theorem EndInv.drained_pc (h : EndInv s) (hshut : s.queueShutdown = true) (ht : s.drained = some t) :
    s.pc = .awaitShutdown ∧ t = s.goto .done := by
  rcases h.shut hshut with hpc | hpc <;> simp only [NetState.drained, hpc, reduceCtorEq, Option.some.injEq] at ht
  exact ⟨hpc, ht.symm⟩

theorem endInv_step {a : NetLabel} (h : EndInv s) (hi : s.TagInv) (ht : netStep s a = some t) : EndInv t := by
  cases netStep_cases ht with
  | thread ht => exact h.thread hi ht
  | next ht => exact h.next hi ht
  | timeout ht => exact h.timeout ht
  | drained hshut hnil ht =>
    obtain ⟨-, rfl⟩ := h.drained_pc hshut ht
    exact ⟨fun _ => Or.inr rfl, fun _ => Or.inl hnil, h.dead⟩
  | complete ht =>
    obtain ⟨p, -, -, -, rfl⟩ := complete_cases ht
    exact h.elsewhere rfl rfl (fun hnil => by simp [hnil]) rfl
  | writeRefused | readRefused => exact h
  | _ => exact h.elsewhere rfl rfl id rfl

theorem NetReach.endInv (h : NetReach s) : EndInv s := by
  obtain ⟨languageCode, sampleRate, h⟩ := h
  refine h.induct (fun t a u hr ht ha => endInv_step ht (NetReach.tagInv ⟨_, _, hr⟩) ha) ?_
  exact ⟨by simp [init], by simp [init], by simp [init]⟩

/-- **The end of a client.**  The queue answers that it is shut down in the last loop of `Exit` and nowhere else, the branches
for such an answer elsewhere and for a tag that is not known are never taken, and the thread ends with operations in the queue
only where it says so.  From the end of the main loop on the client refuses every `Write` and `Read`. -/
theorem shutdown_is_last (h : NetReach s) :
    (∀ t, net.step s .drained = some t → s.pc = .awaitShutdown ∧ t = s.goto .done) ∧ (∀ line ∈ deadLines, line ∉ s.log) ∧
      (s.pc = .done → s.inflight = [] ∨ leak ∈ s.log) ∧ (running s.pc = false → s.client.refuses = true) := by
  have hend := h.endInv
  refine ⟨fun t ht => ?_, hend.dead, hend.drained, h.refusing⟩
  have ht : netStep s .drained = some t := ht
  cases netStep_cases ht with
  | drained hshut _ ht => exact hend.drained_pc hshut ht

/-- A run that is stopped in its main loop, up to `Finish`. -/
def stopping : List NetLabel :=
  opening ++ [.thread, .thread, .thread, .stop, .timeout, .thread, .thread, .thread, .complete 3 false default, .next 3,
    .thread]

/-- A run that ends with an empty queue. -/
theorem shutdown_is_last_stopping :
    ∃ s, net.run (.init (.new [] 16000)) (stopping ++ [.complete 4 true default, .next 4, .thread, .drained]) = some s ∧
      s.pc = .done ∧ leak ∉ s.log ∧ s.inflight = [] := by
  refine ⟨_, rfl, rfl, by decide, ?_⟩
  have h := shutdown_is_last ⟨[], 16000, stopping ++ [.complete 4 true default, .next 4, .thread, .drained], rfl⟩
  exact (h.2.2.1 rfl).resolve_right (by decide)

end SpeechlyPlugin.Client
