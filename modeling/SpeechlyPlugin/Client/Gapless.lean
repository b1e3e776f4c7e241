import SpeechlyPlugin.Client.Onward

/-!
# Responses without gaps

The thread leaves no message of the stream out: what it has put into `ResponseQueue` is the first messages the reads have
brought, and while it is in its main loop, all of them but the one whose completion it has not taken yet.
-/

namespace SpeechlyPlugin.Client

open Engine Lib NetState

/-- Before the end of the main loop. -/
def running (pc : Pc) : Bool := starting pc || mainLoop pc

section

variable {ops : List Posted} {posted : List ℕ} {received : List (ℕ × SLUResponse)} {taken : List Taken}
  {enqueued : List (Source × SLUResponse)} {response : SLUResponse} {p : Posted} {runs : Bool}

/-- The messages up to some point have been taken in the main loop, and none after it; while the main loop runs there is at
most one of those, and its completion is still to be taken. -/
def Gapless (ops : List Posted) (received : List (ℕ × SLUResponse)) (taken : List Taken) (runs : Bool) : Prop :=
  ∃ pre post, received = pre ++ post ∧ (∀ x ∈ pre, ⟨.main, x.1, true⟩ ∈ taken) ∧
    (∀ x ∈ post, ⟨.main, x.1, true⟩ ∉ taken) ∧
    (runs = true → post = [] ∨ ∃ p ∈ ops, p.kind = .read ∧ p.done = some true ∧ ∃ r, post = [(p.tag, r)])

/-- What has been taken in the main loop is a prefix of what has been received. -/
theorem Gapless.reads (h : Gapless ops received taken runs) :
    ∃ rest, received.map Prod.snd = mainReads received taken ++ rest ∧ (runs = true → rest.length ≤ 1) := by
  obtain ⟨pre, post, rfl, hpre, hpost, hruns⟩ := h
  have hmain : mainReads (pre ++ post) taken = pre.map Prod.snd := by
    rw [mainReads, List.filter_append, List.filter_eq_self.mpr (by simpa using hpre),
      List.filter_eq_nil_iff.mpr (by simpa using hpost), List.append_nil]
  refine ⟨post.map Prod.snd, by rw [hmain, List.map_append], fun hr => ?_⟩
  obtain rfl | ⟨_, _, _, _, r, rfl⟩ := hruns hr <;> simp

/-- The main loop may end. -/
theorem Gapless.move (h : Gapless ops received taken runs) {runs' : Bool} (hruns : runs' = true → runs = true) :
    Gapless ops received taken runs' := by
  obtain ⟨pre, post, heq, hpre, hpost, hlast⟩ := h
  exact ⟨pre, post, heq, hpre, hpost, fun hr => hlast (hruns hr)⟩

theorem Gapless.post (h : Gapless ops received taken runs) (q : Posted) : Gapless (ops ++ [q]) received taken runs := by
  obtain ⟨pre, post, heq, hpre, hpost, hlast⟩ := h
  refine ⟨pre, post, heq, hpre, hpost, fun hr => (hlast hr).imp_right ?_⟩
  rintro ⟨p, hp, hread⟩
  exact ⟨p, List.mem_append_left _ hp, hread⟩

/-- gRPC completes the operation `p`: with its message, the read waits to be taken. -/
theorem Gapless.complete (h : Gapless ops received taken runs) (hone : OneRead ops)
    (hgone : ∀ x ∈ taken, ∀ p ∈ ops, p.tag ≠ x.tag) (hp : p ∈ ops) (hdone : p.done = none) (ok : Bool)
    (message : SLUResponse) :
    Gapless (ops.map fun q => if q = p then { q with done := some ok } else q)
      (if p.kind = .read ∧ ok then received ++ [(p.tag, message)] else received) taken runs := by
  obtain ⟨pre, post, rfl, hpre, hpost, hlast⟩ := h
  have hother : ∀ q ∈ ops, q.done = some true → q ∈ ops.map fun q => if q = p then { q with done := some ok } else q := by
    intro q hq hd
    have hqp : q ≠ p := by
      rintro rfl
      cases hd.symm.trans hdone
    exact List.mem_map.mpr ⟨q, hq, if_neg hqp⟩
  split
  · rename_i hread
    refine ⟨pre, post ++ [(p.tag, message)], by rw [List.append_assoc], hpre, ?_, fun hr => Or.inr ?_⟩
    · intro x hx
      rw [List.mem_append, List.mem_singleton] at hx
      rcases hx with hx | rfl
      · exact hpost x hx
      · exact fun htaken => hgone _ htaken p hp rfl
    · obtain rfl | ⟨q, hq, hk, hd, -⟩ := hlast hr
      · refine ⟨{ p with done := some ok }, List.mem_map.mpr ⟨p, hp, if_pos rfl⟩, hread.1, ?_, message, rfl⟩
        simp only [hread.2]
      · -- no other read is in flight
        cases hone q hq p hp hk hread.1
        cases hd.symm.trans hdone
  · refine ⟨pre, post, rfl, hpre, hpost, fun hr => (hlast hr).imp_right ?_⟩
    rintro ⟨q, hq, hk, hd, hr⟩
    exact ⟨q, hother q hq hd, hk, hd, hr⟩

/-- The completion of `p` is taken, but not of a read with `Ok` in the main loop. -/
theorem Gapless.take (h : Gapless ops received taken runs)
    (hd : Delivery ops posted received taken enqueued response) (hp : p ∈ ops) (phase : Phase) {ok : Bool}
    (hdone : p.done = some ok) {runs' : Bool} (hruns : runs' = true → runs = true)
    (hother : runs' = true ∨ phase = .main → p.kind = .read → ok = false) :
    Gapless (ops.erase p) received (taken ++ [⟨phase, p.tag, ok⟩]) runs' := by
  obtain ⟨pre, post, rfl, hpre, hpost, hlast⟩ := h
  refine ⟨pre, post, rfl, fun x hx => List.mem_append_left _ (hpre x hx), fun x hx => ?_, fun hr => ?_⟩
  · rw [List.mem_append, List.mem_singleton]
    rintro (htaken | e)
    · exact hpost x hx htaken
    · injection e with hphase htag hok
      obtain ⟨hk, -⟩ := hd.pending p hp x (List.mem_append_right _ hx) htag
      rw [hother (Or.inr hphase.symm) hk] at hok
      cases hok
  · refine (hlast (hruns hr)).imp_right ?_
    rintro ⟨q, hq, hk, hqdone, hr'⟩
    have hqp : q ≠ p := by
      rintro rfl
      rw [hother (Or.inl hr) hk, hqdone] at hdone
      cases hdone
    exact ⟨q, (List.mem_erase_of_ne hqp).mpr hq, hk, hqdone, hr'⟩

/-- The completion of a read is taken with `Ok` in the main loop: it was the last message. -/
theorem Gapless.deliver (h : Gapless ops received taken true)
    (hd : Delivery ops posted received taken enqueued response) (hone : OneRead ops) (hp : p ∈ ops) (hk : p.kind = .read)
    (hdone : p.done = some true) : Gapless (ops.erase p) received (taken ++ [⟨.main, p.tag, true⟩]) true := by
  obtain ⟨earlier, heq⟩ := hd.filled p hp hk hdone
  obtain ⟨pre, post, hsplit, hpre, hpost, hlast⟩ := h
  refine ⟨received, [], (List.append_nil _).symm, fun x hx => ?_, by simp, fun _ => Or.inl rfl⟩
  rw [hsplit, List.mem_append] at hx
  rcases hx with hx | hx
  · exact List.mem_append_left _ (hpre x hx)
  · obtain rfl | ⟨q, hq, hqk, -, r, rfl⟩ := hlast rfl
    · cases hx
    · cases hone q hq p hp hqk hk
      simp only [List.mem_singleton] at hx
      subst hx
      exact List.mem_append_right _ (List.mem_singleton_self _)

end

/-! ## Runs -/

variable {s t : NetState}

/-- The invariant over the state. -/
def GaplessInv (s : NetState) : Prop := Gapless s.inflight s.received s.taken (running s.pc)

theorem GaplessInv.move (h : GaplessInv s) (hops : t.inflight = s.inflight) (hreceived : t.received = s.received)
    (htaken : t.taken = s.taken) (hruns : running t.pc = true → running s.pc = true) : GaplessInv t := by
  unfold GaplessInv
  rw [hops, hreceived, htaken]
  exact Gapless.move h hruns

theorem GaplessInv.posting (h : GaplessInv s) {q : Posted} (hops : t.inflight = s.inflight ++ [q])
    (hreceived : t.received = s.received) (htaken : t.taken = s.taken) (hruns : running t.pc = true → running s.pc = true) :
    GaplessInv t := by
  unfold GaplessInv
  rw [hops, hreceived, htaken]
  exact (Gapless.move h hruns).post q

theorem GaplessInv.postRead (h : GaplessInv s) (hst : s.client.stream = true) {pc : Pc}
    (hruns : running pc = true → running s.pc = true) : GaplessInv (s.postRead pc) := by
  rw [postRead_eq hst]
  split
  · exact h.posting (q := ⟨s.client.seq + 1, .read, none⟩) rfl rfl rfl hruns
  · exact h.move rfl rfl rfl hruns

theorem GaplessInv.pump (h : GaplessInv s) (hst : s.client.stream = true) (hpc : s.pc = .loopWrite) : GaplessInv s.pump := by
  have hruns : running s.pc = true := by rw [hpc]; rfl
  rw [pump_eq hst]
  split
  · split
    · exact h.posting (q := ⟨s.client.seq + 1, .write, none⟩) rfl rfl rfl fun _ => hruns
    · exact h.move rfl rfl rfl fun _ => hruns
  · exact h.move rfl rfl rfl fun _ => hruns

theorem not_running {pc : Pc} {P : Prop} (hpc : running pc = false) (hruns : running pc = true) : P :=
  absurd (hpc.symm.trans hruns) Bool.false_ne_true

theorem GaplessInv.thread (h : GaplessInv s) (hi : s.TagInv) (ht : s.thread = some t) : GaplessInv t := by
  have hphase := hi.phase
  cases hpc : s.pc <;> simp only [NetState.thread, hpc, reduceCtorEq, Option.some.injEq] at ht <;>
    simp only [InPhase, hpc] at hphase
  case run =>
    subst ht
    exact h.posting rfl rfl rfl fun _ => by rw [hpc]; rfl
  case configure =>
    subst ht
    have hok : (s.goto .awaitConfig).streamWrite s.client.configRequest = _ := streamWrite_ok hphase.1 hphase.2.2
    rw [hok, orCrash]
    exact h.posting rfl rfl rfl fun _ => by rw [hpc]; rfl
  case loop =>
    subst ht
    exact h.move rfl rfl rfl fun _ => by rw [hpc]; rfl
  case loopWrite =>
    subst ht
    exact h.pump hphase.1 hpc
  case loopRead =>
    subst ht
    exact h.postRead hphase.1 fun _ => by rw [hpc]; rfl
  case exit =>
    simp only [hphase.1, if_true, Option.some.injEq] at ht
    subst ht
    split <;> exact h.move rfl rfl rfl (not_running rfl)
  case drainRead =>
    subst ht
    exact h.postRead hphase.1 (not_running rfl)
  case finish =>
    subst ht
    exact h.posting rfl rfl rfl (not_running rfl)
  case shutdown =>
    subst ht
    exact h.move rfl rfl rfl (not_running rfl)

theorem GaplessInv.next (h : GaplessInv s) (hi : s.TagInv) (hf : FifoInv s) {tag : ℕ} (ht : s.next tag = some t) :
    GaplessInv t := by
  obtain ⟨p, ok, hp, rfl, hdone, ht⟩ := next_cases ht
  have hphase := hi.phase
  have htake (phase : Phase) {runs : Bool} (hruns : runs = true → running s.pc = true)
      (hother : runs = true ∨ phase = .main → p.kind = .read → ok = false) :=
    Gapless.take h hf.delivery hp phase hdone hruns hother
  -- the main loop is not entered, or left
  have hleft (phase : Phase) (hother : phase = .main → p.kind = .read → ok = false) :
      Gapless (s.inflight.erase p) s.received (s.taken ++ [⟨phase, p.tag, ok⟩]) false :=
    htake phase (by simp) fun h => hother (h.resolve_left (by simp))
  cases hpc : s.pc <;> simp only [gotEvent, hpc, reduceCtorEq, Option.some.injEq] at ht <;>
    simp only [InPhase, hpc] at hphase <;> simp only [hpc] at htake
  case awaitOpen n =>
    obtain ⟨-, ⟨q, hq, hk⟩, -⟩ := hphase
    have hopen : p.kind = .read → ok = false := fun e => by
      rw [hq, List.mem_singleton] at hp
      cases (hk.symm.trans (congrArg Op.kind hp.symm)).trans e
    split at ht <;> cases ht
    · exact hleft .opening (by simp)
    · exact htake .opening (fun _ => rfl) fun _ => hopen
  case awaitConfig =>
    split at ht <;> cases ht
    · exact hleft .configuring (by simp)
    · rename_i hgood
      refine htake .configuring (fun _ => rfl) fun _ hk => ?_
      rcases kind_of_ok hphase.2 hp with ⟨hw, -⟩ | ⟨-, -, hne⟩
      · cases hw.symm.trans hk
      · simp only [Bool.not_eq_true', ne_eq, Bool.or_eq_true, decide_eq_true_eq, not_or, handleTag, NetState.take,
          SpeechlyClient.handleTag_lastWriteSeq] at hgood
        exact absurd (by simpa using hgood.2) hne
  case loopNext =>
    subst ht
    simp only [mainEvent, handleTag, NetState.take, SpeechlyClient.handleTag_lastWriteSeq,
      SpeechlyClient.handleTag_lastReadSeq]
    rcases kind_of_ok hphase.2 hp with ⟨hk, hw⟩ | ⟨hk, hr, hw⟩
    · have hother : p.kind = .read → ok = false := fun e => by rw [hk] at e; cases e
      rw [if_pos hw]
      split
      · exact htake .main (fun _ => rfl) fun _ => hother
      · exact hleft .main fun _ => hother
    · rw [if_neg hw, if_pos hr]
      split
      · rename_i hok
        rw [hok] at hdone ⊢
        have hruns : running s.pc = true := by rw [hpc]; rfl
        have hg : Gapless s.inflight s.received s.taken true := hruns ▸ h
        exact hg.deliver hf.delivery hi.reads hp hk hdone
      · rename_i hok
        exact hleft .main fun _ _ => by simpa using hok
  case drainNext =>
    subst ht
    unfold GaplessInv
    have hdrain : running (if ok = true then Pc.drainRead else Pc.finish) = false := by cases ok <;> rfl
    show Gapless _ _ _ (running (if ok = true then Pc.drainRead else Pc.finish))
    rw [hdrain]
    exact hleft .draining (by simp)
  case awaitFinish n =>
    split at ht <;> cases ht <;> exact hleft .finishing (by simp)
  case awaitShutdown =>
    subst ht
    exact hleft .shuttingDown (by simp)

theorem gaplessInv_step {a : NetLabel} (h : GaplessInv s) (hi : s.TagInv) (hf : FifoInv s) (ht : netStep s a = some t) :
    GaplessInv t := by
  cases netStep_cases ht with
  | thread ht => exact h.thread hi ht
  | next ht => exact h.next hi hf ht
  | timeout ht =>
    cases hpc : s.pc <;> simp only [NetState.timeout, hpc, reduceCtorEq, Option.some.injEq] at ht <;> subst ht <;>
      exact h.move rfl rfl rfl (by rw [hpc]; exact id)
  | drained _ _ ht =>
    cases hpc : s.pc <;> simp only [NetState.drained, hpc, reduceCtorEq, Option.some.injEq] at ht <;> subst ht <;>
      exact h.move rfl rfl rfl (not_running rfl)
  | complete ht =>
    obtain ⟨p, hp, rfl, hdone, rfl⟩ := complete_cases ht
    exact Gapless.complete h hi.reads hf.delivery.taken_gone hp hdone _ _
  | writeRefused | readRefused => exact h
  | _ => exact h.move rfl rfl rfl id

theorem gaplessInv_init (client : SpeechlyClient) : GaplessInv (.init client) :=
  ⟨[], [], rfl, by simp, by simp, fun _ => Or.inl rfl⟩

theorem NetReach.gaplessInv (h : NetReach s) : GaplessInv s := by
  obtain ⟨languageCode, sampleRate, h⟩ := h
  refine h.induct (fun t a u hr ht ha => ?_) (gaplessInv_init _)
  exact gaplessInv_step ht (NetReach.tagInv ⟨_, _, hr⟩) (NetReach.fifoInv ⟨_, _, hr⟩) ha

/-- **Responses without gaps.**  What the thread has put into `ResponseQueue` is the first messages of the stream, and up to
the end of the main loop all of them but one at most. -/
theorem responses_without_gaps (h : NetReach s) :
    ∃ rest, s.received.map Prod.snd = fromStream s.enqueued ++ rest ∧ (running s.pc = true → rest.length ≤ 1) := by
  rw [h.fifoInv.delivery.stream]
  exact h.gaplessInv.reads

/-- The first response of a stream has come, and the thread has not taken it yet. -/
theorem responses_without_gaps_first :
    ∃ s, net.run (.init (.new [] 16000)) (opening ++ [.thread, .thread, .thread, .complete 3 true ⟨[99], 0, .started⟩]) =
        some s ∧ s.received.map Prod.snd = [⟨[99], 0, .started⟩] ∧ fromStream s.enqueued = [] ∧
      ∃ rest, s.received.map Prod.snd = fromStream s.enqueued ++ rest ∧ (running s.pc = true → rest.length ≤ 1) := by
  refine ⟨_, rfl, rfl, rfl, ?_⟩
  exact responses_without_gaps
    ⟨[], 16000, opening ++ [.thread, .thread, .thread, .complete 3 true ⟨[99], 0, .started⟩], rfl⟩

end SpeechlyPlugin.Client
