import SpeechlyPlugin.Client.Fifo

/-!
# Finishing the stream

`Exit` reads until a completion comes back without `Ok` and then finishes the stream, which gRPC allows only when no
read and no write is in flight.  The loop stops at the first such completion, whichever operation it belongs to: it is
the last one in flight exactly when every write `Exit` found in flight has come back with `Ok` before.
-/

namespace SpeechlyPlugin.Client

open Engine Lib NetState

variable {s t : NetState}

/-- An operation of the kind `k` with the tag `tag` is in the list. -/
def InFlight (ops : List Posted) (k : OpKind) (tag : ℕ) : Prop := ∃ p ∈ ops, p.kind = k ∧ p.tag = tag

theorem inFlight_complete {ops : List Posted} {p : Posted} {ok : Bool} {k : OpKind} {tag : ℕ} :
    InFlight (ops.map fun q => if q = p then { q with done := some ok } else q) k tag ↔ InFlight ops k tag := by
  constructor
  · rintro ⟨q, hq, hk, ht⟩
    obtain ⟨q, hq', rfl⟩ := List.mem_map.mp hq
    refine ⟨q, hq', ?_, ?_⟩
    · rw [← hk]
      split <;> rfl
    · rw [← ht]
      split <;> rfl
  · rintro ⟨q, hq, hk, ht⟩
    refine ⟨_, List.mem_map_of_mem hq, ?_, ?_⟩ <;> split <;> assumption

theorem inFlight_append {ops : List Posted} {p : Posted} {k : OpKind} {tag : ℕ} (hk : p.kind ≠ k) :
    InFlight (ops ++ [p]) k tag ↔ InFlight ops k tag := by
  constructor
  · rintro ⟨q, hq, e, ht⟩
    rw [List.mem_append, List.mem_singleton] at hq
    rcases hq with hq | rfl
    · exact ⟨q, hq, e, ht⟩
    · exact absurd e hk
  · rintro ⟨q, hq, e, ht⟩
    exact ⟨q, List.mem_append_left _ hq, e, ht⟩

theorem InFlight.of_erase {ops : List Posted} {p : Posted} {k : OpKind} {tag : ℕ} (h : InFlight (ops.erase p) k tag) :
    InFlight ops k tag := by
  obtain ⟨q, hq, hk, ht⟩ := h
  exact ⟨q, List.mem_of_mem_erase hq, hk, ht⟩

/-- What is in flight of the kind `k` stays so when an operation of another kind is taken. -/
theorem InFlight.erase {ops : List Posted} {p : Posted} {k : OpKind} {tag : ℕ} (h : InFlight ops k tag) (hp : p.kind ≠ k) :
    InFlight (ops.erase p) k tag := by
  obtain ⟨q, hq, hk, ht⟩ := h
  have hqp : q ≠ p := fun e => hp (by rw [← e, hk])
  exact ⟨q, (List.mem_erase_of_ne hqp).mpr hq, hk, ht⟩

/-! ## The drain loop -/

/-- The writes in flight are those `Exit` found, except those taken with `Ok` since. -/
def Drains (s : NetState) : Prop :=
  (∀ tag, InFlight s.inflight .write tag → InFlight s.atExit .write tag) ∧
    ∀ tag, InFlight s.atExit .write tag → InFlight s.inflight .write tag ∨ ⟨.draining, tag, true⟩ ∈ s.taken

/-- How the drain loop can have ended: with the read, or with a write and the read still in flight. -/
def Drained (s : NetState) : Prop :=
  (Drains s ∧ ∀ tag, ¬InFlight s.inflight .read tag) ∨
    ((∃ tag, InFlight s.inflight .read tag) ∧
      ∃ tag, InFlight s.atExit .write tag ∧ ⟨.draining, tag, true⟩ ∉ s.taken)

/-- The invariant of `Exit` up to the call of `Finish`. -/
def DrainInv (s : NetState) : Prop :=
  match s.pc with
  | .drainRead => Drains s
  | .drainNext => Drains s ∧ ∃ tag, InFlight s.inflight .read tag
  | .finish => "Timed out or shutdown while waiting for cancellation" ∉ s.log → Drained s
  | _ => True

/-- After `if (CanRead()) StreamRead(&Response)` a read is in flight. -/
theorem drainInv_postRead (hst : s.client.stream = true) (hok : s.slots.Ok) (h : Drains s) :
    DrainInv (s.postRead .drainNext) := by
  rw [postRead_eq hst]
  split
  · refine ⟨?_, s.client.seq + 1, _, List.mem_append_right _ (List.mem_singleton_self _), rfl, rfl⟩
    have hw (tag : ℕ) : InFlight (s.goto .drainNext).reading.inflight .write tag ↔ InFlight s.inflight .write tag :=
      inFlight_append (by simp)
    exact ⟨fun tag ht => h.1 tag ((hw tag).mp ht), fun tag ht => (h.2 tag ht).imp_left (hw tag).mpr⟩
  · rename_i hr
    refine ⟨h, ?_⟩
    obtain ⟨p, hp, hk⟩ := hok.filled .read (by simpa [slots, SpeechlyClient.canRead] using hr)
    exact ⟨p.tag, p, hp, hk, rfl⟩

theorem drainInv_thread (hi : s.TagInv) (h : DrainInv s) (ht : s.thread = some t) : DrainInv t := by
  have hphase := hi.phase
  cases hpc : s.pc <;> simp only [NetState.thread, hpc, reduceCtorEq, Option.some.injEq] at ht <;>
    simp only [InPhase, hpc] at hphase <;> simp only [DrainInv, hpc] at h
  case run => subst ht; trivial
  case configure =>
    subst ht
    have hok : (s.goto .awaitConfig).streamWrite s.client.configRequest = _ := streamWrite_ok hphase.1 hphase.2.2
    rw [hok]
    trivial
  case loop =>
    subst ht
    simp only [goto]
    split <;> trivial
  case loopWrite =>
    subst ht
    rw [pump_eq hphase.1]
    split <;> [split; skip] <;> trivial
  case loopRead =>
    subst ht
    rw [postRead_eq hphase.1]
    split <;> trivial
  case exit =>
    simp only [hphase.1, if_true, Option.some.injEq] at ht
    subst ht
    split <;> exact ⟨fun _ => id, fun _ => Or.inl⟩
  case drainRead =>
    subst ht
    exact drainInv_postRead hphase.1 hphase.2 h
  case finish => subst ht; trivial
  case shutdown => subst ht; trivial

theorem drainInv_next (hi : s.TagInv) (hf : FifoInv s) (h : DrainInv s) {tag : ℕ} (ht : s.next tag = some t) :
    DrainInv t := by
  obtain ⟨p, ok, hp, rfl, -, ht⟩ := next_cases ht
  have hnd : s.inflight.Nodup := hi.tagged.nodup
  cases hpc : s.pc <;> simp only [gotEvent, hpc, reduceCtorEq, Option.some.injEq] at ht <;>
    simp only [DrainInv, hpc] at h
  case awaitOpen n => split at ht <;> cases ht <;> trivial
  case awaitConfig => split at ht <;> cases ht <;> trivial
  case loopNext =>
    subst ht
    simp only [mainEvent]
    split <;> [split; split <;> split] <;> trivial
  case drainNext =>
    subst ht
    obtain ⟨⟨hfrom, hto⟩, hread⟩ := h
    cases ok with
    | true =>
      refine ⟨fun tag htag => hfrom tag htag.of_erase, fun tag htag => ?_⟩
      rcases hto tag htag with ⟨q, hq, hk, ht⟩ | hx
      · by_cases hqp : q = p
        · rw [← ht, hqp]
          exact Or.inr (List.mem_append_right _ (List.mem_singleton_self _))
        · exact Or.inl ⟨q, hnd.mem_erase_iff.mpr ⟨hqp, hq⟩, hk, ht⟩
      · exact Or.inr (List.mem_append_left _ hx)
    | false =>
      intro _
      have hdisc := hi.phase
      simp only [InPhase, hpc] at hdisc
      rcases kind_of_ok hdisc.2 hp with ⟨hk, -⟩ | ⟨hk, -⟩
      · -- a write has failed, and the read is still in flight
        obtain ⟨tag, hr⟩ := hread
        refine Or.inr ⟨⟨tag, hr.erase (by simp [hk])⟩, p.tag, hfrom _ ⟨p, hp, hk, rfl⟩, ?_⟩
        simp only [goto, handleTag, take, List.mem_append, List.mem_singleton, Taken.mk.injEq, reduceCtorEq, and_false,
          or_false]
        exact fun hx => hf.delivery.taken_gone _ hx p hp rfl
      · -- the read has failed, and the writes are as before
        refine Or.inl ⟨⟨fun tag htag => hfrom tag htag.of_erase, fun tag htag => ?_⟩, ?_⟩
        · exact (hto tag htag).imp (fun hw => hw.erase (by simp [hk])) (List.mem_append_left _)
        · rintro tag ⟨q, hq, hqk, -⟩
          obtain ⟨hne, hq⟩ := hnd.mem_erase_iff.mp hq
          exact hne (hi.reads q hq p hp hqk hk)
  case awaitFinish n => split at ht <;> cases ht <;> trivial
  case awaitShutdown => subst ht; trivial

theorem drainInv_timeout (ht : s.timeout = some t) : DrainInv t := by
  cases hpc : s.pc <;> simp only [NetState.timeout, hpc, reduceCtorEq, Option.some.injEq] at ht <;> subst ht
  case drainNext => exact fun hlog => absurd (by simp [goto, logLine]) hlog
  all_goals trivial

theorem drainInv_drained (ht : s.drained = some t) : DrainInv t := by
  cases hpc : s.pc <;> simp only [NetState.drained, hpc, reduceCtorEq, Option.some.injEq] at ht <;> subst ht
  case drainNext => exact fun hlog => absurd (by simp [goto, logLine]) hlog
  all_goals trivial

theorem drainInv_complete (h : DrainInv s) {tag : ℕ} {ok : Bool} {message : SLUResponse}
    (ht : s.complete tag ok message = some t) : DrainInv t := by
  obtain ⟨p, -, -, -, ht⟩ := complete_cases ht
  have hin (k : OpKind) (tag : ℕ) : InFlight t.inflight k tag ↔ InFlight s.inflight k tag := by
    rw [ht]
    exact inFlight_complete
  have hpc : t.pc = s.pc := by rw [ht]
  have hexit : t.atExit = s.atExit := by rw [ht]
  have htaken : t.taken = s.taken := by rw [ht]
  have hlog : t.log = s.log := by rw [ht]
  simpa only [DrainInv, Drained, Drains, hpc, hexit, htaken, hlog, hin] using h

theorem drainInv_step (hi : s.TagInv) (hf : FifoInv s) {a : NetLabel} (h : DrainInv s) (ht : netStep s a = some t) :
    DrainInv t := by
  cases netStep_cases ht with
  | thread ht => exact drainInv_thread hi h ht
  | next ht => exact drainInv_next hi hf h ht
  | timeout ht => exact drainInv_timeout ht
  | drained _ _ ht => exact drainInv_drained ht
  | complete ht => exact drainInv_complete h ht
  | _ => exact h

theorem NetReach.drainInv (h : NetReach s) : DrainInv s := by
  obtain ⟨languageCode, sampleRate, h⟩ := h
  have hinit : DrainInv (init (.new languageCode sampleRate)) := trivial
  refine h.induct (fun t a u hr ht ha => ?_) hinit
  have hr : NetReach t := ⟨_, _, hr⟩
  exact drainInv_step hr.tagInv hr.fifoInv ht ha

/-! ## The call of `Finish` -/

/-- **When `Finish` is called as gRPC allows.**  Without a timeout, `Finish` is called with no read and no write in
flight if and only if every write in flight at the call of `Exit` has come back with `Ok` to the drain loop. -/
theorem finish_iff (h : NetReach s) (hpc : s.pc = .finish)
    (hlog : "Timed out or shutdown while waiting for cancellation" ∉ s.log) :
    (∀ p ∈ s.inflight, p.kind ≠ .read ∧ p.kind ≠ .write) ↔
      ∀ p ∈ s.atExit, p.kind = .write → ⟨.draining, p.tag, true⟩ ∈ s.taken := by
  have hd := h.drainInv
  simp only [DrainInv, hpc] at hd
  rcases hd hlog with ⟨⟨hfrom, hto⟩, hread⟩ | ⟨⟨tag, p, hp, hk, -⟩, tag', ⟨q, hq, hqk, rfl⟩, hno⟩
  · constructor
    · intro hnone p hp hk
      refine (hto p.tag ⟨p, hp, hk, rfl⟩).resolve_left ?_
      rintro ⟨q, hq, hqk, -⟩
      exact (hnone q hq).2 hqk
    · refine fun hall p hp => ⟨fun hk => hread p.tag ⟨p, hp, hk, rfl⟩, fun hk => ?_⟩
      obtain ⟨q, hq, hqk, hqt⟩ := hfrom p.tag ⟨p, hp, hk, rfl⟩
      exact h.fifoInv.delivery.taken_gone _ (hall q hq hqk) p hp hqt.symm
  · exact ⟨fun hnone => absurd hk (hnone p hp).1, fun hall => absurd (hall q hq hqk) hno⟩

/-- A run that is stopped with a write and a read in flight, up to the first completion the drain loop takes. -/
def stopped : List NetLabel :=
  opening ++ [.writeTest (.event .START), .writeEnqueue (.event .START), .thread, .thread, .thread, .timeout, .stop,
    .thread, .thread, .thread]

/-- The write comes back before the read fails. -/
theorem finish_clear :
    ∃ s, net.run (.init (.new [] 16000)) (stopped ++ [.complete 3 true default, .next 3, .thread,
        .complete 4 false default, .next 4]) = some s ∧
      s.atExit = [⟨3, .write, none⟩, ⟨4, .read, none⟩] ∧ ∀ p ∈ s.inflight, p.kind ≠ .read ∧ p.kind ≠ .write := by
  refine ⟨_, rfl, rfl, ?_⟩
  exact (finish_iff ⟨[], 16000, stopped ++ [.complete 3 true default, .next 3, .thread, .complete 4 false default,
    .next 4], rfl⟩ rfl (by decide)).mpr (by decide)

/-- The read fails first, and `Finish` is called while gRPC still has the write. -/
theorem finish_write_pending :
    ∃ s, net.run (.init (.new [] 16000)) (stopped ++ [.complete 4 false default, .next 4]) = some s ∧
      s.pc = .finish ∧ "Timed out or shutdown while waiting for cancellation" ∉ s.log ∧
      s.inflight = [⟨3, .write, none⟩] :=
  ⟨_, rfl, rfl, by decide, rfl⟩

end SpeechlyPlugin.Client
