import SpeechlyPlugin.Client.Tags

/-!
# Requests and responses in order

What the thread writes is the configuration and then the accepted requests, one after the other.  What it puts into
`ResponseQueue` is the messages of the reads whose `Ok` completion it takes in the main loop, each once and in the order
of the stream: all reads fill one `Response`, and the next read is posted only after the last one has been taken.
-/

namespace SpeechlyPlugin.Client

open Engine Lib NetState

variable {s t : NetState}

/-! ## Responses -/

section

variable {ops : List Posted} {posted : List ℕ} {received : List (ℕ × SLUResponse)} {taken : List Taken}
  {enqueued : List (Source × SLUResponse)} {response : SLUResponse} {p : Posted}

/-- The messages of the reads taken in the main loop with `Ok`, in stream order. -/
def mainReads (received : List (ℕ × SLUResponse)) (taken : List Taken) : List SLUResponse :=
  (received.filter fun x => ⟨.main, x.1, true⟩ ∈ taken).map Prod.snd

/-- What the thread itself has put into `ResponseQueue`. -/
def fromStream (enqueued : List (Source × SLUResponse)) : List SLUResponse :=
  (enqueued.filter fun x => x.1 = .stream).map Prod.snd

/-- The invariant of the delivery, over the operations in flight, the history and the shared `Response`. -/
structure Delivery (ops : List Posted) (posted : List ℕ) (received : List (ℕ × SLUResponse)) (taken : List Taken)
    (enqueued : List (Source × SLUResponse)) (response : SLUResponse) : Prop where
  stream : fromStream enqueued = mainReads received taken
  received_posted : ∀ x ∈ received, x.1 ∈ posted
  received_nodup : (received.map Prod.fst).Nodup
  taken_posted : ∀ x ∈ taken, x.tag ∈ posted
  taken_gone : ∀ x ∈ taken, ∀ p ∈ ops, p.tag ≠ x.tag
  pending : ∀ p ∈ ops, ∀ x ∈ received, x.1 = p.tag → p.kind = .read ∧ p.done = some true
  filled : ∀ p ∈ ops, p.kind = .read → p.done = some true →
    ∃ earlier, received = earlier ++ [(p.tag, response)]

/-- A new operation is posted. -/
theorem Delivery.post (h : Delivery ops posted received taken enqueued response) {tag : ℕ} (hnew : tag ∉ posted)
    (kind : OpKind) :
    Delivery (ops ++ [⟨tag, kind, none⟩]) (posted ++ [tag]) received taken enqueued response where
  stream := h.stream
  received_posted x hx := List.mem_append_left _ (h.received_posted x hx)
  received_nodup := h.received_nodup
  taken_posted x hx := List.mem_append_left _ (h.taken_posted x hx)
  taken_gone x hx p hp := by
    rw [List.mem_append, List.mem_singleton] at hp
    rcases hp with hp | rfl
    · exact h.taken_gone x hx p hp
    · rintro rfl
      exact hnew (h.taken_posted x hx)
  pending p hp x hx e := by
    rw [List.mem_append, List.mem_singleton] at hp
    rcases hp with hp | rfl
    · exact h.pending p hp x hx e
    · have hx := h.received_posted x hx
      rw [e] at hx
      exact absurd hx hnew
  filled p hp hk hd := by
    rw [List.mem_append, List.mem_singleton] at hp
    rcases hp with hp | rfl
    · exact h.filled p hp hk hd
    · cases hd

theorem mainReads_concat {x : ℕ × SLUResponse} (hx : ⟨.main, x.1, true⟩ ∉ taken) :
    mainReads (received ++ [x]) taken = mainReads received taken := by
  simp [mainReads, hx]

/-- gRPC completes the operation `p`. -/
theorem Delivery.complete (h : Delivery ops posted received taken enqueued response) (htags : (ops.map Op.tag).Nodup)
    (hone : OneRead ops) (hp : p ∈ ops) (hposted : p.tag ∈ posted) (hdone : p.done = none) (ok : Bool)
    (message : SLUResponse) :
    Delivery (ops.map fun q => if q = p then { q with done := some ok } else q) posted
      (if p.kind = .read ∧ ok then received ++ [(p.tag, message)] else received) taken enqueued
      (if p.kind = .read then message else response) := by
  -- nothing has been received under the tag of `p` yet
  have hfresh : ∀ x ∈ received, x.1 ≠ p.tag := by
    intro x hx e
    have hd := (h.pending p hp x hx e).2
    rw [hdone] at hd
    cases hd
  have hgone : ∀ ok', (⟨.main, p.tag, ok'⟩ : Taken) ∉ taken := fun ok' hx => h.taken_gone _ hx p hp rfl
  constructor
  case stream =>
    split
    · rw [h.stream, mainReads_concat (hgone true)]
    · exact h.stream
  case received_posted =>
    intro x hx
    split at hx
    · rw [List.mem_append, List.mem_singleton] at hx
      rcases hx with hx | rfl
      · exact h.received_posted x hx
      · exact hposted
    · exact h.received_posted x hx
  case received_nodup =>
    split
    · rw [List.map_append]
      refine h.received_nodup.append (List.nodup_singleton _) ?_
      intro tag ht ht'
      obtain ⟨x, hx, rfl⟩ := List.mem_map.mp ht
      simp only [List.map_cons, List.map_nil, List.mem_singleton] at ht'
      exact hfresh x hx ht'
    · exact h.received_nodup
  case taken_posted => exact h.taken_posted
  case taken_gone =>
    intro x hx q hq
    obtain ⟨q, hq', rfl⟩ := List.mem_map.mp hq
    have := h.taken_gone x hx q hq'
    split <;> exact this
  case pending =>
    intro q hq x hx e
    obtain ⟨q, hq', rfl⟩ := List.mem_map.mp hq
    have e : x.1 = q.tag := by rw [e]; split <;> rfl
    by_cases hqp : q = p
    · rw [hqp] at e
      rw [if_pos hqp, hqp]
      split at hx
      · rename_i hread
        exact ⟨hread.1, by rw [hread.2]⟩
      · exact absurd e (hfresh x hx)
    · rw [if_neg hqp]
      have hne : q.tag ≠ p.tag := fun e' => hqp (List.inj_on_of_nodup_map htags hq' hp e')
      split at hx
      · rw [List.mem_append, List.mem_singleton] at hx
        rcases hx with hx | rfl
        · exact h.pending q hq' x hx e
        · exact absurd e.symm hne
      · exact h.pending q hq' x hx e
  case filled =>
    intro q hq hk hd
    obtain ⟨q, hq', rfl⟩ := List.mem_map.mp hq
    by_cases hqp : q = p
    · rw [if_pos hqp, hqp] at hk hd ⊢
      have hok : ok = true := Option.some.inj hd
      have hk : p.kind = .read := hk
      exact ⟨received, by simp [hk, hok]⟩
    · rw [if_neg hqp] at hk hd ⊢
      -- `p` is no read, so `Response` and the messages are as before
      have hpk : p.kind ≠ .read := fun e => hqp (hone q hq' p hp hk e)
      simp only [hpk, false_and, if_false]
      exact h.filled q hq' hk hd

/-- An operation in flight is not one whose completion has been taken, the last one included. -/
theorem gone_concat (htags : (ops.map Op.tag).Nodup) (hgone : ∀ x ∈ taken, ∀ q ∈ ops, q.tag ≠ x.tag) (hp : p ∈ ops)
    {phase : Phase} {ok : Bool} : ∀ x ∈ taken ++ [⟨phase, p.tag, ok⟩], ∀ q ∈ ops.erase p, q.tag ≠ x.tag := by
  intro x hx q hq
  obtain ⟨hne, hq⟩ := (htags.of_map).mem_erase_iff.mp hq
  rw [List.mem_append, List.mem_singleton] at hx
  rcases hx with hx | rfl
  · exact hgone x hx q hq
  · exact fun e => hne (List.inj_on_of_nodup_map htags hq hp e)

/-- The completion of `p` is taken, but not of a read with `Ok` in the main loop. -/
theorem Delivery.take (h : Delivery ops posted received taken enqueued response) (htags : (ops.map Op.tag).Nodup)
    (hp : p ∈ ops) (hposted : p.tag ∈ posted) (phase : Phase) {ok : Bool}
    (hother : phase = .main → p.kind = .read → ok = false) :
    Delivery (ops.erase p) posted received (taken ++ [⟨phase, p.tag, ok⟩]) enqueued response where
  stream := by
    rw [h.stream, mainReads, mainReads]
    congr 1
    refine List.filter_congr fun x hx => decide_eq_decide.mpr ?_
    rw [List.mem_append, List.mem_singleton]
    refine ⟨Or.inl, fun hx' => hx'.resolve_right fun e => ?_⟩
    injection e with hphase htag hok
    obtain ⟨hk, -⟩ := h.pending p hp x hx htag
    rw [hother hphase.symm hk] at hok
    cases hok
  received_posted := h.received_posted
  received_nodup := h.received_nodup
  taken_posted x hx := by
    rw [List.mem_append, List.mem_singleton] at hx
    rcases hx with hx | rfl
    · exact h.taken_posted x hx
    · exact hposted
  taken_gone := gone_concat htags h.taken_gone hp
  pending q hq := h.pending q (List.mem_of_mem_erase hq)
  filled q hq := h.filled q (List.mem_of_mem_erase hq)

/-- The completion of a read is taken with `Ok` in the main loop, and `Response` is enqueued. -/
theorem Delivery.deliver (h : Delivery ops posted received taken enqueued response) (htags : (ops.map Op.tag).Nodup)
    (hp : p ∈ ops) (hposted : p.tag ∈ posted) (hk : p.kind = .read) (hdone : p.done = some true) :
    Delivery (ops.erase p) posted received (taken ++ [⟨.main, p.tag, true⟩]) (enqueued ++ [(.stream, response)])
      response := by
  obtain ⟨earlier, he⟩ := h.filled p hp hk hdone
  have hgone : (⟨.main, p.tag, true⟩ : Taken) ∉ taken := fun hx => h.taken_gone _ hx p hp rfl
  have hnd := h.received_nodup
  constructor
  case stream =>
    -- only the last message received is new in the filter
    have hlast : mainReads received (taken ++ [⟨.main, p.tag, true⟩]) = mainReads earlier taken ++ [response] := by
      rw [he, mainReads, List.filter_append, List.map_append, mainReads]
      congr 1
      · congr 1
        refine List.filter_congr fun x hx => decide_eq_decide.mpr ?_
        rw [List.mem_append, List.mem_singleton]
        refine ⟨fun hx' => hx'.resolve_right fun e => ?_, Or.inl⟩
        injection e with _ htag
        rw [he, List.map_append, List.nodup_append] at hnd
        exact hnd.2.2 _ (List.mem_map_of_mem hx) p.tag (by simp) htag
      · simp
    have hbefore : mainReads received taken = mainReads earlier taken := by rw [he, mainReads_concat hgone]
    have hstream := h.stream
    rw [hlast, ← hbefore, ← hstream]
    simp [fromStream]
  case received_posted => exact h.received_posted
  case received_nodup => exact hnd
  case taken_posted =>
    intro x hx
    rw [List.mem_append, List.mem_singleton] at hx
    rcases hx with hx | rfl
    · exact h.taken_posted x hx
    · exact hposted
  case taken_gone => exact gone_concat htags h.taken_gone hp
  case pending => exact fun q hq => h.pending q (List.mem_of_mem_erase hq)
  case filled => exact fun q hq => h.filled q (List.mem_of_mem_erase hq)

/-- `WLUSync` enqueues a response of its own. -/
theorem Delivery.wlu (h : Delivery ops posted received taken enqueued response) (r : SLUResponse) :
    Delivery ops posted received taken (enqueued ++ [(.wlu, r)]) response :=
  { h with stream := by rw [← h.stream]; simp [fromStream] }

end

/-! ## Requests -/

/-- Before the configuration is written. -/
def starting : Pc → Bool
  | .run | .awaitOpen _ | .configure => true
  | _ => false

/-- Where the configuration has been written and requests may follow. -/
def mainLoop : Pc → Bool
  | .awaitConfig | .loop | .loopWrite | .loopRead | .loopNext => true
  | _ => false

/-- Nothing has been written, or the configuration and the accepted requests up to those still queued. -/
def Sent (c : SpeechlyClient) (pc : Pc) (written accepted : List SLURequest) : Prop :=
  (written = [] ∧ accepted = c.requestQueue ∧ mainLoop pc = false) ∨
    (∃ sent, written = c.configRequest :: sent ∧ accepted = sent ++ c.requestQueue ∧ starting pc = false)

section

variable {c c' : SpeechlyClient} {pc pc' : Pc} {written accepted : List SLURequest}

theorem Sent.move (h : Sent c pc written accepted) (hq : c'.requestQueue = c.requestQueue)
    (hc : c'.configRequest = c.configRequest) (hm : mainLoop pc = false → mainLoop pc' = false)
    (hs : starting pc = false → starting pc' = false) : Sent c' pc' written accepted := by
  rcases h with ⟨hw, ha, hpc⟩ | ⟨sent, hw, ha, hpc⟩
  · exact Or.inl ⟨hw, by rw [ha, hq], hm hpc⟩
  · exact Or.inr ⟨sent, by rw [hw, hc], by rw [ha, hq], hs hpc⟩

theorem Sent.accept (h : Sent c pc written accepted) (r : SLURequest) :
    Sent (c.enqueueRequest r) pc written (accepted ++ [r]) := by
  rcases h with ⟨hw, ha, hpc⟩ | ⟨sent, hw, ha, hpc⟩
  · exact Or.inl ⟨hw, by rw [ha]; rfl, hpc⟩
  · exact Or.inr ⟨sent, hw, by rw [ha, List.append_assoc]; rfl, hpc⟩

end

/-! ## The invariant -/

/-- The invariant of the two queues. -/
structure FifoInv (s : NetState) : Prop where
  sent : Sent s.client s.pc s.written s.accepted
  delivery : Delivery s.inflight s.posted s.received s.taken s.enqueued s.client.response
  out : s.returned ++ s.client.responseQueue = s.enqueued.map Prod.snd

/-- The next tag is new. -/
theorem next_tag_new (hi : s.TagInv) : s.client.seq + 1 ∉ s.posted := fun hm =>
  absurd (hi.tagged.posted_le hm).2 (Nat.not_succ_le_self _)

theorem FifoInv.postRead (h : FifoInv s) (hi : s.TagInv) (hst : s.client.stream = true) {pc : Pc}
    (hm : mainLoop s.pc = false → mainLoop pc = false) (hs : starting s.pc = false → starting pc = false) :
    FifoInv (s.postRead pc) := by
  rw [postRead_eq hst]
  split
  · exact ⟨h.sent.move rfl rfl hm hs, h.delivery.post (next_tag_new hi) .read, h.out⟩
  · exact ⟨h.sent.move rfl rfl hm hs, h.delivery, h.out⟩

theorem FifoInv.pump (h : FifoInv s) (hi : s.TagInv) (hpc : s.pc = .loopWrite) : FifoInv s.pump := by
  have hmove : Sent s.client .loopRead s.written s.accepted :=
    h.sent.move rfl rfl (by rw [hpc]; exact id) (by rw [hpc]; exact id)
  rw [pump_eq (hi.stream_ok (by rw [hpc]; rfl)).1]
  split
  · split
    · -- the first request of the queue is the next one after those sent
      rename_i r rs hq
      rcases hmove with ⟨-, -, hpc⟩ | ⟨sent, hw, ha, -⟩
      · cases hpc
      · refine ⟨Or.inr ⟨sent ++ [r], ?_, ?_, rfl⟩, h.delivery.post (next_tag_new hi) .write, h.out⟩
        · show s.written ++ [r] = _
          rw [hw]
          rfl
        · show s.accepted = _
          rw [ha, hq, List.append_assoc]
          rfl
    · exact ⟨hmove, h.delivery, h.out⟩
  · exact ⟨hmove, h.delivery, h.out⟩

theorem FifoInv.thread (h : FifoInv s) (hi : s.TagInv) (ht : s.thread = some t) : FifoInv t := by
  have hphase := hi.phase
  have hsent := h.sent
  cases hpc : s.pc <;> simp only [NetState.thread, hpc, reduceCtorEq, Option.some.injEq] at ht <;>
    simp only [InPhase, hpc] at hphase <;> rw [hpc] at hsent
  case run =>
    subst ht
    exact ⟨hsent.move rfl rfl id id, h.delivery.post (next_tag_new hi) .openStream, h.out⟩
  case configure =>
    subst ht
    have hok : (s.goto .awaitConfig).streamWrite s.client.configRequest = _ := streamWrite_ok hphase.1 hphase.2.2
    rw [hok, orCrash]
    refine ⟨Or.inr ⟨[], ?_, ?_, rfl⟩, h.delivery.post (next_tag_new hi) .write, h.out⟩
    · rcases hsent with ⟨hw, -⟩ | ⟨_, -, -, hs⟩
      · show s.written ++ [s.client.configRequest] = _
        rw [hw]
        rfl
      · cases hs
    · rcases hsent with ⟨-, ha, -⟩ | ⟨_, -, -, hs⟩
      · exact ha
      · cases hs
  case loop =>
    subst ht
    refine ⟨hsent.move rfl rfl (by simp [mainLoop]) fun _ => ?_, h.delivery, h.out⟩
    simp only [goto]
    split <;> rfl
  case loopWrite =>
    subst ht
    exact h.pump hi hpc
  case loopRead =>
    subst ht
    exact h.postRead hi hphase.1 (by rw [hpc]; exact id) (by rw [hpc]; exact id)
  case exit =>
    simp only [hphase.1, if_true, Option.some.injEq] at ht
    subst ht
    split <;> exact ⟨hsent.move rfl rfl id id, h.delivery, h.out⟩
  case drainRead =>
    subst ht
    exact h.postRead hi hphase.1 (by rw [hpc]; exact id) (by rw [hpc]; exact id)
  case finish =>
    subst ht
    exact ⟨hsent.move rfl rfl id id, h.delivery.post (next_tag_new hi) .finish, h.out⟩
  case shutdown =>
    subst ht
    exact ⟨hsent.move rfl rfl id id, h.delivery, h.out⟩

theorem FifoInv.next (h : FifoInv s) (hi : s.TagInv) {tag : ℕ} (ht : s.next tag = some t) : FifoInv t := by
  obtain ⟨p, ok, hp, rfl, hdone, ht⟩ := next_cases ht
  have hphase := hi.phase
  have hsent := h.sent
  have htags : (s.inflight.map Op.tag).Nodup := hi.tagged.tags_nodup
  have hposted : p.tag ∈ s.posted := hi.tagged.ops_posted p hp
  have htake (phase : Phase) (hne : phase = .main → p.kind = .read → ok = false) :=
    h.delivery.take htags hp hposted phase hne
  -- `HandleTag` leaves the queues and `Response` alone
  have hhandled (phase : Phase) (hne : phase = .main → p.kind = .read → ok = false) :
      Delivery (s.inflight.erase p) s.posted s.received (s.taken ++ [⟨phase, p.tag, ok⟩]) s.enqueued
        (s.client.handleTag p.tag).response := by
    rw [SpeechlyClient.handleTag_response]
    exact htake phase hne
  have hmove {pc : Pc} (hm : mainLoop s.pc = false → mainLoop pc = false)
      (hs : starting s.pc = false → starting pc = false) :
      Sent (s.client.handleTag p.tag) pc s.written s.accepted :=
    hsent.move (SpeechlyClient.handleTag_requestQueue _ _) (SpeechlyClient.handleTag_configRequest _ _) hm hs
  have hout : s.returned ++ (s.client.handleTag p.tag).responseQueue = s.enqueued.map Prod.snd := by
    rw [SpeechlyClient.handleTag_responseQueue, h.out]
  cases hpc : s.pc <;> simp only [gotEvent, hpc, reduceCtorEq, Option.some.injEq] at ht <;>
    simp only [InPhase, hpc] at hphase <;> rw [hpc] at hsent hmove
  case awaitOpen n =>
    split at ht <;> cases ht
    · exact ⟨hsent.move rfl rfl id fun _ => rfl, htake .opening (by simp), h.out⟩
    · exact ⟨hsent.move rfl rfl id id, htake .opening (by simp), h.out⟩
  case awaitConfig =>
    split at ht <;> cases ht <;> exact ⟨hmove (by simp [mainLoop]) id, hhandled .configuring (by simp), hout⟩
  case loopNext =>
    subst ht
    simp only [mainEvent, handleTag, NetState.take, SpeechlyClient.handleTag_lastWriteSeq,
      SpeechlyClient.handleTag_lastReadSeq, SpeechlyClient.handleTag_response]
    rcases kind_of_ok hphase.2 hp with ⟨hk, hw⟩ | ⟨hk, hr, hw⟩
    · -- a write has completed
      have hd := hhandled .main fun _ e => by rw [hk] at e; cases e
      rw [if_pos hw]
      split <;> exact ⟨hmove (by simp [mainLoop]) id, hd, hout⟩
    · rw [if_neg hw, if_pos hr]
      split
      · -- a read has completed, and `Response` is enqueued
        rename_i hok
        rw [hok] at hdone ⊢
        refine ⟨hmove (by simp [mainLoop]) id, ?_, ?_⟩
        · show Delivery _ _ _ _ _ (s.client.handleTag p.tag).response
          rw [SpeechlyClient.handleTag_response]
          exact h.delivery.deliver htags hp hposted hk hdone
        · show s.returned ++ ((s.client.handleTag p.tag).responseQueue ++ [s.client.response]) = _
          rw [← List.append_assoc, hout, List.map_append]
          rfl
      · rename_i hok
        exact ⟨hmove (by simp [mainLoop]) id, hhandled .main fun _ _ => by simpa using hok, hout⟩
  case drainNext =>
    subst ht
    refine ⟨hmove (fun _ => ?_) (fun _ => ?_), hhandled .draining (by simp), hout⟩ <;> simp only [goto] <;> split <;> rfl
  case awaitFinish n =>
    split at ht <;> cases ht
    · exact ⟨hsent.move rfl rfl id id, htake .finishing (by simp), h.out⟩
    · exact ⟨hsent.move rfl rfl id id, htake .finishing (by simp), h.out⟩
  case awaitShutdown =>
    subst ht
    exact ⟨hsent.move rfl rfl id id, htake .shuttingDown (by simp), h.out⟩

theorem FifoInv.timeout (h : FifoInv s) (ht : s.timeout = some t) : FifoInv t := by
  have hsent := h.sent
  cases hpc : s.pc <;> simp only [NetState.timeout, hpc, reduceCtorEq, Option.some.injEq] at ht <;>
    rw [hpc] at hsent <;> subst ht <;> exact ⟨hsent.move rfl rfl id id, h.delivery, h.out⟩

theorem FifoInv.drained (h : FifoInv s) (ht : s.drained = some t) : FifoInv t := by
  have hsent := h.sent
  cases hpc : s.pc <;> simp only [NetState.drained, hpc, reduceCtorEq, Option.some.injEq] at ht <;>
    rw [hpc] at hsent <;> subst ht <;>
    exact ⟨hsent.move rfl rfl (fun _ => rfl) (fun _ => rfl), h.delivery, h.out⟩

theorem FifoInv.complete (h : FifoInv s) (hi : s.TagInv) {tag : ℕ} {ok : Bool} {message : SLUResponse}
    (ht : s.complete tag ok message = some t) : FifoInv t := by
  obtain ⟨p, hp, rfl, hdone, rfl⟩ := complete_cases ht
  have hd := h.delivery.complete hi.tagged.tags_nodup hi.reads hp (hi.tagged.ops_posted p hp) hdone ok message
  by_cases hk : p.kind = .read
  · simp only [hk, true_and, if_true] at hd ⊢
    exact ⟨h.sent.move rfl rfl id id, hd, h.out⟩
  · simp only [hk, false_and, if_false] at hd ⊢
    exact ⟨h.sent, hd, h.out⟩

theorem fifoInv_step {a : NetLabel} (h : FifoInv s) (hi : s.TagInv) (ht : netStep s a = some t) : FifoInv t := by
  cases netStep_cases ht with
  | thread ht => exact h.thread hi ht
  | next ht => exact h.next hi ht
  | timeout ht => exact h.timeout ht
  | drained _ _ ht => exact h.drained ht
  | complete ht => exact h.complete hi ht
  | writeRefused | readRefused => exact h
  | writeTest | readTest | readNothing => exact ⟨h.sent, h.delivery, h.out⟩
  | @writeEnqueue r => exact ⟨h.sent.accept r, h.delivery, h.out⟩
  | readDequeue _ hq =>
    refine ⟨h.sent.move rfl rfl id id, h.delivery, ?_⟩
    rw [← h.out, hq, List.append_assoc]
    rfl
  | @wluEnqueue r =>
    refine ⟨h.sent.move rfl rfl id id, h.delivery.wlu r, ?_⟩
    show s.returned ++ (s.client.responseQueue ++ [r]) = _
    rw [← List.append_assoc, h.out, List.map_append]
    rfl
  | stop => exact ⟨h.sent.move rfl rfl id id, h.delivery, h.out⟩

theorem NetReach.fifoInv (h : NetReach s) : FifoInv s := by
  obtain ⟨languageCode, sampleRate, h⟩ := h
  refine h.induct (fun t a u hr ht ha => fifoInv_step ht (NetReach.tagInv ⟨_, _, hr⟩) ha) ?_
  exact ⟨Or.inl ⟨rfl, rfl, rfl⟩, ⟨rfl, nofun, List.nodup_nil, nofun, nofun, nofun, nofun⟩, rfl⟩

/-- A call of `Write` that nothing interrupts is its test and its `Enqueue`. -/
theorem write_steps (r : SLURequest) (h : (s.client.write r).2 = true) :
    ∃ t, net.run s [.writeTest r, .writeEnqueue r] = some t ∧ t.client = (s.client.write r).1 ∧
      t.accepted = s.accepted ++ [r] := by
  have hok : s.client.refuses = false := by
    simp only [SpeechlyClient.write] at h
    split at h
    · cases h
    · rename_i hn
      simpa using hn
  refine ⟨{ s with
    writers := (s.writers ++ [r]).erase r
    client := s.client.enqueueRequest r
    accepted := s.accepted ++ [r] }, ?_, ?_, rfl⟩
  · simp [Machine.run, net, netStep, hok]
  · simp [SpeechlyClient.write, hok]

/-- **Requests and responses in order.** -/
theorem requests_and_responses_in_order (h : NetReach s) :
    (s.written = [] ∨ ∃ sent, s.written = s.client.configRequest :: sent ∧ s.accepted = sent ++ s.client.requestQueue) ∧
      fromStream s.enqueued = mainReads s.received s.taken ∧ (s.received.map Prod.fst).Nodup ∧
      s.returned ++ s.client.responseQueue = s.enqueued.map Prod.snd := by
  have hi := h.fifoInv
  refine ⟨?_, hi.delivery.stream, hi.delivery.received_nodup, hi.out⟩
  rcases hi.sent with ⟨hw, -⟩ | ⟨sent, hw, ha, -⟩
  · exact Or.inl hw
  · exact Or.inr ⟨sent, hw, ha⟩

/-- A request written and a response read. -/
theorem requests_and_responses_loop :
    ∃ s, net.run (.init (.new [] 16000)) (opening ++ [.writeTest (.event .START), .writeEnqueue (.event .START),
        .thread, .thread, .thread, .complete 4 true ⟨[99], 0, .started⟩, .next 4, .readTest, .readDequeue]) = some s ∧
      s.written = [.config ⟨1, 16000, []⟩, .event .START] ∧ s.returned = [⟨[99], 0, .started⟩] ∧
      fromStream s.enqueued = mainReads s.received s.taken := by
  refine ⟨_, rfl, rfl, rfl, ?_⟩
  exact (requests_and_responses_in_order ⟨[], 16000, opening ++ [.writeTest (.event .START),
    .writeEnqueue (.event .START), .thread, .thread, .thread, .complete 4 true ⟨[99], 0, .started⟩, .next 4, .readTest,
    .readDequeue], rfl⟩).2.1

end SpeechlyPlugin.Client
