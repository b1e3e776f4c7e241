import SpeechlyPlugin.Client.Fifo

/-!
# What the consumer sees of the network thread

Apart from `Read` itself, no step takes a response away or comes between the test of a `Read` and its `Dequeue`; what has
been put into `ResponseQueue` stays on record, and an error is never taken back.
-/

namespace SpeechlyPlugin.Client

open Engine Lib NetState

/-- From `s` to `t` without a step of `Read`. -/
structure Onward (s t : NetState) : Prop where
  returned : t.returned = s.returned
  reader : t.reader = s.reader
  enqueued : s.enqueued <+: t.enqueued
  hasError : s.client.bHasError = true → t.client.bHasError = true

variable {s t u : NetState}

theorem Onward.refl (s : NetState) : Onward s s := ⟨rfl, rfl, List.prefix_refl _, id⟩

theorem Onward.trans (h : Onward s t) (h' : Onward t u) : Onward s u :=
  ⟨h'.returned.trans h.returned, h'.reader.trans h.reader, h.enqueued.trans h'.enqueued, fun he => h'.hasError (h.hasError he)⟩

/-- The history of the consumer and the error flag are untouched. -/
theorem Onward.same (hreturned : t.returned = s.returned) (hreader : t.reader = s.reader)
    (henqueued : t.enqueued = s.enqueued) (herror : t.client.bHasError = s.client.bHasError) : Onward s t :=
  ⟨hreturned, hreader, henqueued ▸ List.prefix_refl _, fun he => herror.trans he⟩

theorem onward_goto (s : NetState) (pc : Pc) : Onward s (s.goto pc) := .same rfl rfl rfl rfl

theorem onward_logLine (s : NetState) (line : String) : Onward s (s.logLine line) := .same rfl rfl rfl rfl

theorem onward_streamWrite {r : SLURequest} (h : s.streamWrite r = .ok t) : Onward s t := by
  cases (check_bind_eq_ok (check_bind_eq_ok h).2).2
  exact .same rfl rfl rfl rfl

theorem onward_streamRead (h : s.streamRead = .ok t) : Onward s t := by
  cases (check_bind_eq_ok (check_bind_eq_ok h).2).2
  exact .same rfl rfl rfl rfl

theorem onward_orCrash {x : Except Fault NetState} (h : ∀ t, x = .ok t → Onward s t) : Onward s (s.orCrash x) := by
  cases x with
  | ok t => exact h t rfl
  | error _ => exact .same rfl rfl rfl rfl

theorem onward_postRead (s : NetState) (pc : Pc) : Onward s (s.postRead pc) := by
  unfold NetState.postRead
  split
  · exact onward_orCrash fun t ht => (onward_goto s pc).trans (onward_streamRead ht)
  · exact onward_goto s pc

theorem onward_pump (s : NetState) : Onward s s.pump := by
  unfold NetState.pump SpeechlyClient.dequeueRequest
  split
  · cases s.client.requestQueue with
    | nil => exact .same rfl rfl rfl rfl
    | cons r rs =>
      refine onward_orCrash fun t ht => ?_
      have hdequeue : Onward s { s with client := { s.client with requestQueue := rs }, pc := .loopRead } :=
        .same rfl rfl rfl rfl
      exact hdequeue.trans (onward_streamWrite ht)
  · exact .same rfl rfl rfl rfl

theorem onward_thread (ht : s.thread = some t) : Onward s t := by
  unfold NetState.thread at ht
  cases hpc : s.pc <;> simp only [hpc, reduceCtorEq, Option.some.injEq] at ht
  case configure =>
    subst ht
    exact onward_orCrash fun t ht => (onward_goto s _).trans (onward_streamWrite ht)
  case loopWrite =>
    subst ht
    exact onward_pump s
  case loopRead | drainRead =>
    subst ht
    exact onward_postRead s _
  case exit =>
    split at ht
    · cases ht
      split <;> exact .same rfl rfl rfl rfl
    · cases ht
      exact .same rfl rfl rfl rfl
  all_goals
    subst ht
    exact .same rfl rfl rfl rfl

theorem onward_fail (s : NetState) (message : String) : Onward s (s.fail message) :=
  ⟨rfl, rfl, List.prefix_refl _, fun _ => rfl⟩

/-- A completion is taken, and its tag handled. -/
theorem onward_handleTag (s : NetState) (phase : Phase) (tag : ℕ) (ok : Bool) :
    Onward s ((s.take phase tag ok).handleTag tag) := by
  refine .same rfl rfl rfl ?_
  simp only [NetState.handleTag]
  rw [SpeechlyClient.handleTag_eq]
  rfl

theorem onward_mainEvent (s : NetState) (tag : ℕ) (ok : Bool) : Onward s (s.mainEvent tag ok) := by
  unfold NetState.mainEvent
  split
  · cases ok
    · exact onward_fail s _
    · exact .same rfl rfl rfl rfl
  · split
    · cases ok
      · exact onward_fail s _
      · exact ⟨rfl, rfl, List.prefix_append _ _, id⟩
    · cases ok
      · exact (onward_logLine s _).trans (onward_fail _ _)
      · exact .same rfl rfl rfl rfl

theorem onward_gotEvent {tag : ℕ} {ok : Bool} (ht : s.gotEvent tag ok = some t) : Onward s t := by
  unfold NetState.gotEvent at ht
  cases hpc : s.pc <;> simp only [hpc, reduceCtorEq, Option.some.injEq] at ht
  case awaitOpen streamSeq =>
    split at ht <;> cases ht
    · exact ⟨rfl, rfl, List.prefix_refl _, fun _ => rfl⟩
    · exact .same rfl rfl rfl rfl
  case awaitConfig =>
    have htag := onward_handleTag s .configuring tag ok
    split at ht <;> cases ht
    · exact htag.trans (onward_fail _ _)
    · exact htag.trans (onward_goto _ _)
  case loopNext =>
    subst ht
    exact (onward_handleTag s .main tag ok).trans (onward_mainEvent _ tag ok)
  case drainNext =>
    subst ht
    exact (onward_handleTag s .draining tag ok).trans (onward_goto _ _)
  case awaitFinish finishDoneSeq =>
    split at ht <;> cases ht <;> exact .same rfl rfl rfl rfl
  case awaitShutdown =>
    subst ht
    exact .same rfl rfl rfl rfl

theorem onward_timeout (ht : s.timeout = some t) : Onward s t := by
  unfold NetState.timeout at ht
  cases hpc : s.pc <;> simp only [hpc, reduceCtorEq, Option.some.injEq] at ht <;> subst ht <;> exact .same rfl rfl rfl rfl

theorem onward_drained (ht : s.drained = some t) : Onward s t := by
  unfold NetState.drained at ht
  cases hpc : s.pc <;> simp only [hpc, reduceCtorEq, Option.some.injEq] at ht <;> subst ht
  case awaitOpen => exact ⟨rfl, rfl, List.prefix_refl _, fun _ => rfl⟩
  case awaitConfig => exact onward_fail s _
  all_goals exact .same rfl rfl rfl rfl

/-- The label is a step of `Read`. -/
def NetLabel.isRead : NetLabel → Bool
  | .readTest => true
  | .readDequeue => true
  | _ => false

/-- **Every step but those of `Read`.** -/
theorem onward_step {a : NetLabel} (ha : a.isRead = false) (ht : netStep s a = some t) : Onward s t := by
  cases netStep_cases ht with
  | thread ht => exact onward_thread ht
  | next ht =>
    obtain ⟨p, ok, -, -, -, ht⟩ := next_cases ht
    have htaken : Onward s { s with inflight := s.inflight.erase p } := .same rfl rfl rfl rfl
    exact htaken.trans (onward_gotEvent ht)
  | timeout ht => exact onward_timeout ht
  | drained _ _ ht => exact onward_drained ht
  | complete ht =>
    obtain ⟨p, -, -, -, rfl⟩ := complete_cases ht
    refine .same rfl rfl rfl ?_
    dsimp only
    split <;> rfl
  | readRefused | readTest | readDequeue | readNothing => cases ha
  | wluEnqueue => exact ⟨rfl, rfl, List.prefix_append _ _, id⟩
  | _ => exact .same rfl rfl rfl rfl

theorem NetReach.step (h : NetReach s) {a : NetLabel} (ht : netStep s a = some t) : NetReach t := by
  obtain ⟨languageCode, sampleRate, h⟩ := h
  exact ⟨languageCode, sampleRate, Machine.Reach.step h ht⟩

end SpeechlyPlugin.Client
