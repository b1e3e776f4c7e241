import SpeechlyPlugin.Client.Ending

/-!
# Nothing that is accepted is stuck

As long as the client runs and gRPC has failed nothing, the thread and gRPC alone can bring out every request that has been
accepted: no flag keeps a write back once the one before it has been completed, and `Next`, which has no deadline, never waits
for an operation that is not there.

A client that has been stopped or has failed can always end its thread, even if gRPC completes only what `Next` waits for.
-/

namespace SpeechlyPlugin.Client

open Engine Lib NetState

variable {s t m : NetState}

/-! ## What `Next` waits for -/

/-- Where the thread waits without a deadline, the operation it waits for is in flight. -/
def Waits (s : NetState) : Prop :=
  match s.pc with
  | .awaitOpen streamSeq => ∀ p ∈ s.inflight, p.tag = streamSeq
  | .awaitConfig => s.client.bWriteAllowed = false
  | _ => True

theorem waits_thread (hi : s.TagInv) (ht : s.thread = some t) : Waits t := by
  have hphase := hi.phase
  cases hpc : s.pc <;> simp only [NetState.thread, hpc, reduceCtorEq, Option.some.injEq] at ht <;>
    simp only [InPhase, hpc] at hphase
  case run =>
    subst ht
    simp [Waits, post, hphase.2.1]
  case configure =>
    subst ht
    have hok : (s.goto .awaitConfig).streamWrite s.client.configRequest = _ := streamWrite_ok hphase.1 hphase.2.2
    rw [hok]
    rfl
  case loop =>
    subst ht
    cases s.client.bIsRunning && !s.client.bHasError <;> trivial
  case loopWrite =>
    subst ht
    rw [pump_eq hphase.1]
    split <;> [split; skip] <;> trivial
  case loopRead | drainRead =>
    subst ht
    rw [postRead_eq hphase.1]
    split <;> trivial
  case exit =>
    simp only [hphase.1, if_true, Option.some.injEq] at ht
    subst ht
    split <;> trivial
  all_goals
    subst ht
    trivial

theorem waits_step {a : NetLabel} (h : Waits s) (hi : s.TagInv) (ht : netStep s a = some t) : Waits t := by
  cases netStep_cases ht with
  | thread ht => exact waits_thread hi ht
  | next ht =>
    obtain ⟨p, ok, -, -, -, ht⟩ := next_cases ht
    cases hpc : s.pc <;> simp only [gotEvent, hpc, reduceCtorEq, Option.some.injEq] at ht
    case awaitOpen | awaitConfig => split at ht <;> cases ht <;> trivial
    case loopNext =>
      subst ht
      simp only [mainEvent]
      split <;> [split; split <;> split] <;> trivial
    case drainNext =>
      subst ht
      cases ok <;> trivial
    case awaitFinish =>
      split at ht <;> cases ht <;> trivial
    case awaitShutdown =>
      subst ht
      trivial
  | timeout ht =>
    cases hpc : s.pc <;> simp only [NetState.timeout, hpc, reduceCtorEq, Option.some.injEq] at ht <;> subst ht <;> trivial
  | drained _ _ ht =>
    cases hpc : s.pc <;> simp only [NetState.drained, hpc, reduceCtorEq, Option.some.injEq] at ht <;> subst ht <;> trivial
  | complete ht =>
    obtain ⟨p, -, -, -, rfl⟩ := complete_cases ht
    cases hpc : s.pc <;> simp only [Waits, hpc] at h ⊢
    case awaitOpen =>
      intro q hq
      obtain ⟨q, hmem, rfl⟩ := List.mem_map.mp hq
      split <;> exact h q hmem
    case awaitConfig =>
      split <;> exact h
  | _ => exact h

theorem NetReach.waits (h : NetReach s) : Waits s := by
  obtain ⟨languageCode, sampleRate, h⟩ := h
  exact h.induct (fun t a u hr ht ha => waits_step ht (NetReach.tagInv ⟨_, _, hr⟩) ha) trivial

/-! ## Steps that succeed -/

/-- A step of the thread, or a completion with `Ok`. -/
def NetLabel.succeeds : NetLabel → Bool
  | .thread | .next _ | .timeout | .complete _ true _ => true
  | _ => false

/-- Steps that succeed lead from `s` to a state with `Q`. -/
abbrev Brings (s : NetState) (Q : NetState → Prop) : Prop := net.Leads (fun _ a => a.succeeds = true) s Q

theorem Brings.step {a : NetLabel} {Q : NetState → Prop} (ha : a.succeeds = true) (ht : netStep s a = some t)
    (h : Brings t Q) : Brings s Q := Machine.Leads.step ha ht h

/-- An operation in flight is found by its tag. -/
theorem find?_tag {ops : List Posted} (htags : (ops.map Op.tag).Nodup) {p : Posted} (hp : p ∈ ops) {P : Posted → Bool}
    (hP : P p = true) (htag : ∀ q, P q = true → q.tag = p.tag) : ops.find? P = some p := by
  cases hfind : ops.find? P with
  | none => exact absurd hP (by simpa using List.find?_eq_none.mp hfind p hp)
  | some q =>
    have hq := htag q (List.find?_some hfind)
    rw [List.inj_on_of_nodup_map htags (List.mem_of_find?_eq_some hfind) hp hq]

/-- The completion of an operation that has been completed can be taken. -/
theorem next_eq (hi : s.TagInv) {p : Posted} (hp : p ∈ s.inflight) {ok : Bool} (hdone : p.done = some ok) :
    s.next p.tag = gotEvent { s with inflight := s.inflight.erase p } p.tag ok := by
  have hfind : s.inflight.find? (fun q => q.tag = p.tag ∧ q.done ≠ none) = some p :=
    find?_tag hi.tagged.tags_nodup hp (by simp [hdone]) fun q hq => by simpa using (of_decide_eq_true hq).1
  obtain ⟨tag, kind, done⟩ := p
  cases hdone
  simp only [NetState.next, hfind]

/-- gRPC can complete an operation. -/
theorem complete_eq (hi : s.TagInv) {p : Posted} (hp : p ∈ s.inflight) (hdone : p.done = none) (ok : Bool)
    (message : SLUResponse) : ∃ t, s.complete p.tag ok message = some t := by
  have hfind : s.inflight.find? (fun q => q.tag = p.tag ∧ q.done = none) = some p :=
    find?_tag hi.tagged.tags_nodup hp (by simp [hdone]) fun q hq => by simpa using (of_decide_eq_true hq).1
  unfold NetState.complete
  rw [hfind]
  dsimp only
  split <;> exact ⟨_, rfl⟩

/-- What has changed from `s` to `t` when the operation `p` has been completed, with `flag` unless it had been before. -/
structure Completed (s : NetState) (p : Posted) (flag ok : Bool) (t : NetState) : Prop where
  reach : NetReach t
  before : p.done = some ok ∨ ok = flag
  pc : t.pc = s.pc
  client : t.client = { s.client with response := t.client.response }
  accepted : t.accepted = s.accepted
  ops : ∀ q ∈ t.inflight, q ∈ s.inflight ∨ q = { p with done := some flag }
  done : ∃ q ∈ t.inflight, q.tag = p.tag ∧ q.done = some ok

/-- gRPC completes an operation. -/
theorem completed_of_complete (h : NetReach s) {p : Posted} (hp : p ∈ s.inflight) {flag : Bool} {message : SLUResponse}
    (ht : s.complete p.tag flag message = some t) : Completed s p flag flag t := by
  have hreach : NetReach t := h.step (a := .complete p.tag flag message) ht
  obtain ⟨q, hq, htag, -, rfl⟩ := complete_cases ht
  obtain rfl : q = p := List.inj_on_of_nodup_map h.tagInv.tagged.tags_nodup hq hp htag
  refine ⟨hreach, Or.inr rfl, rfl, ?_, rfl, ?_, { q with done := some flag }, ?_, rfl, rfl⟩
  · dsimp only
    split <;> rfl
  · intro x hx
    obtain ⟨x, hmem, rfl⟩ := List.mem_map.mp hx
    split
    · rename_i hsame
      exact Or.inr (by rw [hsame])
    · exact Or.inl hmem
  · exact List.mem_map.mpr ⟨q, hp, if_pos rfl⟩

/-- An operation in flight is completed, unless it is already. -/
theorem brings_completed (h : NetReach s) {p : Posted} (hp : p ∈ s.inflight) :
    ∃ ok, Brings s (Completed s p true ok) := by
  cases hdone : p.done with
  | some ok =>
    refine ⟨ok, .now ⟨h, Or.inl hdone, rfl, rfl, rfl, fun _ => Or.inl, p, hp, rfl, hdone⟩⟩
  | none =>
    obtain ⟨t, ht⟩ := complete_eq h.tagInv hp hdone true default
    exact ⟨true, Brings.step (a := .complete p.tag true default) rfl ht (.now (completed_of_complete h hp ht))⟩

/-! ## The way of a request -/

/-- A state the requests of `queue` come out of: the client runs and gRPC has failed nothing. -/
structure Flows (accepted : List SLURequest) (config : SLURequest) (queue : List SLURequest) (s : NetState) : Prop where
  reach : NetReach s
  refuses : s.client.refuses = false
  good : ∀ p ∈ s.inflight, p.done ≠ some false
  accepted : s.accepted = accepted
  config : s.client.configRequest = config
  queue : s.client.requestQueue = queue

variable {accepted : List SLURequest} {config r : SLURequest} {queue : List SLURequest}

theorem Flows.goes (h : Flows accepted config queue s) : s.client.bIsRunning = true ∧ s.client.bHasError = false := by
  have hrefuses := h.refuses
  simp only [SpeechlyClient.refuses, Bool.or_eq_false_iff, Bool.not_eq_false'] at hrefuses
  exact ⟨hrefuses.2, hrefuses.1⟩

/-- A step that posts an operation, or none. -/
theorem Flows.move (h : Flows accepted config queue s) {a : NetLabel} (ht : netStep s a = some t)
    (hrefuses : t.client.refuses = s.client.refuses) (hops : ∀ p ∈ t.inflight, p ∈ s.inflight ∨ p.done = none)
    (haccepted : t.accepted = s.accepted) (hconfig : t.client.configRequest = s.client.configRequest)
    {queue' : List SLURequest} (hqueue : t.client.requestQueue = queue') : Flows accepted config queue' t where
  reach := h.reach.step ht
  refuses := hrefuses.trans h.refuses
  good p hp := by
    rcases hops p hp with hp | hp
    · exact h.good p hp
    · simp [hp]
  accepted := haccepted.trans h.accepted
  config := hconfig.trans h.config
  queue := hqueue

/-- An operation in flight is completed with `Ok`. -/
theorem Flows.brings_done (h : Flows accepted config queue s) {p : Posted} (hp : p ∈ s.inflight) :
    Brings s fun t => Flows accepted config queue t ∧ t.pc = s.pc ∧ t.client.lastWriteSeq = s.client.lastWriteSeq ∧
      ∃ q ∈ t.inflight, q.tag = p.tag ∧ q.done = some true := by
  obtain ⟨ok, hbrings⟩ := brings_completed h.reach hp
  refine hbrings.trans fun t ht => .now ?_
  have hok : ok = true := by
    cases ok with
    | true => rfl
    | false => exact absurd (ht.before.resolve_right Bool.false_ne_true) (h.good p hp)
  subst hok
  refine ⟨⟨ht.reach, ?_, ?_, ht.accepted.trans h.accepted, ?_, ?_⟩, ht.pc, by rw [ht.client], ht.done⟩
  · rw [ht.client]
    exact h.refuses
  · intro q hq
    rcases ht.ops q hq with hq | hq
    · exact h.good q hq
    · simp [hq]
  · rw [ht.client]
    exact h.config
  · rw [ht.client]
    exact h.queue

/-- A completion with `Ok` is taken, and the thread goes on with what it finds. -/
theorem Flows.took (h : Flows accepted config queue s) {p : Posted} (hp : p ∈ s.inflight) (hdone : p.done = some true)
    (ht : gotEvent { s with inflight := s.inflight.erase p } p.tag true = some t)
    (hrefuses : t.client.refuses = s.client.refuses) (hops : t.inflight = s.inflight.erase p)
    (haccepted : t.accepted = s.accepted) (hconfig : t.client.configRequest = s.client.configRequest)
    (hqueue : t.client.requestQueue = s.client.requestQueue) :
    netStep s (.next p.tag) = some t ∧ Flows accepted config queue t := by
  have hstep : netStep s (.next p.tag) = some t := (next_eq h.reach.tagInv hp hdone).trans ht
  refine ⟨hstep, h.move hstep hrefuses (fun q hq => Or.inl ?_) haccepted hconfig (hqueue.trans h.queue)⟩
  rw [hops] at hq
  exact List.mem_of_mem_erase hq

/-- The thread is about to write the next request. -/
def Ready (accepted : List SLURequest) (config : SLURequest) (queue : List SLURequest) (s : NetState) : Prop :=
  Flows accepted config queue s ∧ s.pc = .loopWrite ∧ s.client.bWriteAllowed = true

theorem Flows.loop (h : Flows accepted config queue s) (hpc : s.pc = .loop) :
    netStep s .thread = some (s.goto .loopWrite) ∧ Flows accepted config queue (s.goto .loopWrite) := by
  have hstep : netStep s .thread = some (s.goto .loopWrite) := by
    simp [netStep, NetState.thread, hpc, h.goes]
  exact ⟨hstep, h.move hstep rfl (fun _ => Or.inl) rfl rfl h.queue⟩

theorem Flows.ready_loop (h : Flows accepted config queue s) (hpc : s.pc = .loop) (hw : s.client.bWriteAllowed = true) :
    Brings s (Ready accepted config queue) :=
  Brings.step (a := .thread) rfl (h.loop hpc).1 (.now ⟨(h.loop hpc).2, rfl, hw⟩)

/-- The write in flight, if there is one, is completed and its completion taken. -/
theorem Flows.ready_loopNext (h : Flows accepted config queue s) (hpc : s.pc = .loopNext) :
    Brings s (Ready accepted config queue) := by
  cases hw : s.client.bWriteAllowed with
  | true =>
    have hstep : netStep s .timeout = some (s.goto .loop) := by simp [netStep, NetState.timeout, hpc]
    have hloop : Flows accepted config queue (s.goto .loop) := h.move hstep rfl (fun _ => Or.inl) rfl rfl h.queue
    exact Brings.step (a := .timeout) rfl hstep (hloop.ready_loop rfl hw)
  | false =>
    have hone := h.reach.tagInv.oneAtATime (by rw [hpc]; rfl)
    obtain ⟨p, hp, -, htag⟩ := hone.write_iff.mp hw
    refine (h.brings_done hp).trans fun t ht => ?_
    obtain ⟨ht, htpc, hseq, q, hq, hqtag, hdone⟩ := ht
    have htag : q.tag = t.client.lastWriteSeq := by rw [hqtag, htag, hseq]
    obtain ⟨hstep, hloop⟩ := ht.took (t := { t with
        inflight := t.inflight.erase q
        taken := t.taken ++ [⟨.main, q.tag, true⟩]
        client := { t.client with bWriteAllowed := true }
        pc := .loop }) hq hdone
      (by simp [gotEvent, htpc, hpc, mainEvent, NetState.handleTag, SpeechlyClient.handleTag, NetState.take, htag, goto])
      rfl rfl rfl rfl rfl
    exact Brings.step (a := .next q.tag) rfl hstep (hloop.ready_loop rfl rfl)

theorem Flows.ready_loopRead (h : Flows accepted config queue s) (hpc : s.pc = .loopRead) :
    Brings s (Ready accepted config queue) := by
  have hst := (h.reach.tagInv.stream_ok (by rw [hpc]; rfl)).1
  have hstep : netStep s .thread = some (s.postRead .loopNext) := by simp [netStep, NetState.thread, hpc]
  rw [postRead_eq hst] at hstep
  split at hstep
  · refine Brings.step (a := .thread) rfl hstep (Flows.ready_loopNext (h.move hstep rfl ?_ rfl rfl h.queue) rfl)
    intro p hp
    simp only [reading, post, goto, List.mem_append, List.mem_singleton] at hp
    exact hp.imp_right fun e => by rw [e]
  · exact Brings.step (a := .thread) rfl hstep (Flows.ready_loopNext (h.move hstep rfl (fun _ => Or.inl) rfl rfl h.queue) rfl)

theorem Flows.ready_loopWrite (h : Flows accepted config queue s) (hpc : s.pc = .loopWrite) :
    Brings s (Ready accepted config queue) := by
  cases hw : s.client.bWriteAllowed with
  | true => exact .now ⟨h, hpc, hw⟩
  | false =>
    have hst := (h.reach.tagInv.stream_ok (by rw [hpc]; rfl)).1
    have hstep : netStep s .thread = some (s.goto .loopRead) := by
      simp [netStep, NetState.thread, hpc, pump_eq hst, SpeechlyClient.canWrite, hw]
    exact Brings.step (a := .thread) rfl hstep (Flows.ready_loopRead (h.move hstep rfl (fun _ => Or.inl) rfl rfl h.queue) rfl)

theorem Flows.ready_awaitConfig (h : Flows accepted config queue s) (hpc : s.pc = .awaitConfig) :
    Brings s (Ready accepted config queue) := by
  have hw : s.client.bWriteAllowed = false := by
    have hwaits := h.reach.waits
    rwa [Waits, hpc] at hwaits
  have hone := h.reach.tagInv.oneAtATime (by rw [hpc]; rfl)
  obtain ⟨p, hp, -, htag⟩ := hone.write_iff.mp hw
  refine (h.brings_done hp).trans fun t ht => ?_
  obtain ⟨ht, htpc, hseq, q, hq, hqtag, hdone⟩ := ht
  have htag : q.tag = t.client.lastWriteSeq := by rw [hqtag, htag, hseq]
  obtain ⟨hstep, hloop⟩ := ht.took (t := { t with
      inflight := t.inflight.erase q
      taken := t.taken ++ [⟨.configuring, q.tag, true⟩]
      client := { t.client with bWriteAllowed := true }
      pc := .loop }) hq hdone
    (by simp [gotEvent, htpc, hpc, NetState.handleTag, SpeechlyClient.handleTag, NetState.take, htag, goto])
    rfl rfl rfl rfl rfl
  exact Brings.step (a := .next q.tag) rfl hstep (hloop.ready_loop rfl rfl)

theorem Flows.ready_configure (h : Flows accepted config queue s) (hpc : s.pc = .configure) :
    Brings s (Ready accepted config queue) := by
  have hphase := h.reach.tagInv.phase
  simp only [InPhase, hpc] at hphase
  have hok : (s.goto .awaitConfig).streamWrite s.client.configRequest = _ := streamWrite_ok hphase.1 hphase.2.2
  have hstep : netStep s .thread = some ((s.goto .awaitConfig).wrote s.client.configRequest) := by
    simp [netStep, NetState.thread, hpc, hok, orCrash]
  refine Brings.step (a := .thread) rfl hstep (Flows.ready_awaitConfig (h.move hstep rfl ?_ rfl rfl h.queue) rfl)
  intro p hp
  simp only [wrote, post, goto, List.mem_append, List.mem_singleton] at hp
  exact hp.imp_right fun e => by rw [e]

theorem Flows.ready_awaitOpen (h : Flows accepted config queue s) {streamSeq : ℕ} (hpc : s.pc = .awaitOpen streamSeq) :
    Brings s (Ready accepted config queue) := by
  have hphase := h.reach.tagInv.phase
  have hwaits := h.reach.waits
  simp only [InPhase, hpc] at hphase
  simp only [Waits, hpc] at hwaits
  obtain ⟨-, ⟨p, hops, -⟩, -⟩ := hphase
  have hp : p ∈ s.inflight := by rw [hops]; exact List.mem_singleton_self p
  refine (h.brings_done hp).trans fun t ht => ?_
  obtain ⟨ht, htpc, -, q, hq, hqtag, hdone⟩ := ht
  have htag : q.tag = streamSeq := by rw [hqtag, hwaits p hp]
  obtain ⟨hstep, hconfigure⟩ := ht.took (t := { t with
      inflight := t.inflight.erase q
      taken := t.taken ++ [⟨.opening, q.tag, true⟩]
      pc := .configure }) hq hdone (by simp [gotEvent, htpc, hpc, NetState.take, htag, goto]) rfl rfl rfl rfl rfl
  exact Brings.step (a := .next q.tag) rfl hstep (hconfigure.ready_configure rfl)

theorem Flows.ready_run (h : Flows accepted config queue s) (hpc : s.pc = .run) : Brings s (Ready accepted config queue) := by
  obtain ⟨t, ht⟩ : ∃ t, netStep s .thread = some t := by simp [netStep, NetState.thread, hpc]
  have hopen := ht
  simp only [netStep, NetState.thread, hpc, Option.some.injEq] at hopen
  subst hopen
  refine Brings.step (a := .thread) rfl ht (Flows.ready_awaitOpen (h.move ht rfl ?_ rfl rfl h.queue) rfl)
  intro p hp
  simp only [post, List.mem_append, List.mem_singleton] at hp
  exact hp.imp_right fun e => by rw [e]

/-- From wherever the client runs, the thread comes to the next write. -/
theorem Flows.brings_ready (h : Flows accepted config queue s) : Brings s (Ready accepted config queue) := by
  have hruns : running s.pc = true := by
    by_contra hne
    have hrefuses := h.reach.refusing (by simpa using hne)
    rw [h.refuses] at hrefuses
    cases hrefuses
  cases hpc : s.pc with
  | run => exact h.ready_run hpc
  | awaitOpen => exact h.ready_awaitOpen hpc
  | configure => exact h.ready_configure hpc
  | awaitConfig => exact h.ready_awaitConfig hpc
  | loop => exact Brings.step (a := .thread) rfl (h.loop hpc).1 ((h.loop hpc).2.ready_loopWrite rfl)
  | loopWrite => exact h.ready_loopWrite hpc
  | loopRead => exact h.ready_loopRead hpc
  | loopNext => exact h.ready_loopNext hpc
  | _ => rw [hpc] at hruns; cases hruns

/-- The first request of the queue is written. -/
theorem Flows.writes (h : Flows accepted config (r :: queue) s) (hpc : s.pc = .loopWrite)
    (hw : s.client.bWriteAllowed = true) : ∃ t, netStep s .thread = some t ∧ Flows accepted config queue t := by
  have hst := (h.reach.tagInv.stream_ok (by rw [hpc]; rfl)).1
  have ht : netStep s .thread =
      some (wrote { s with client := { s.client with requestQueue := queue }, pc := .loopRead } r) := by
    simp [netStep, NetState.thread, hpc, pump_eq hst, SpeechlyClient.canWrite, hw, h.queue]
  refine ⟨_, ht, h.move ht rfl ?_ rfl rfl rfl⟩
  intro p hp
  simp only [wrote, post, List.mem_append, List.mem_singleton] at hp
  exact hp.imp_right fun e => by rw [e]

/-- Induction on the queue. -/
theorem Flows.brings_empty (h : Flows accepted config queue s) : Brings s (Ready accepted config []) := by
  induction queue generalizing s with
  | nil => exact h.brings_ready
  | cons r queue ih =>
    refine h.brings_ready.trans fun t ht => ?_
    obtain ⟨ht, hpc, hw⟩ := ht
    obtain ⟨u, hstep, hu⟩ := ht.writes hpc hw
    exact Brings.step (a := .thread) rfl hstep (ih hu)

/-- **Nothing is stuck.**  While the client runs and gRPC has failed none of its operations, there is always a way on without
an error in which the configuration and all requests accepted so far are written. -/
theorem accepted_can_be_written (h : NetReach s) (halive : s.client.refuses = false)
    (hgood : ∀ p ∈ s.inflight, p.done ≠ some false) :
    ∃ as t, (∀ a ∈ as, NetLabel.succeeds a = true) ∧ net.run s as = some t ∧ t.client.refuses = false ∧
      t.client.requestQueue = [] ∧ t.accepted = s.accepted ∧ t.written = s.client.configRequest :: s.accepted := by
  have hflows : Flows s.accepted s.client.configRequest s.client.requestQueue s := ⟨h, halive, hgood, rfl, rfl, rfl⟩
  obtain ⟨as, t, hunder, hrun, ht, hpc, -⟩ := hflows.brings_empty
  have hall : ∀ a ∈ as, NetLabel.succeeds a = true := hunder.forall_mem hrun fun _ _ => id
  refine ⟨as, t, hall, hrun, ht.refuses, ht.queue, ht.accepted, ?_⟩
  rcases ht.reach.fifoInv.sent with ⟨-, -, hmain⟩ | ⟨sent, hwritten, haccepted, -⟩
  · rw [hpc] at hmain
    cases hmain
  · rw [ht.queue, List.append_nil, ht.accepted] at haccepted
    rw [hwritten, haccepted, ht.config]

/-- Two requests are accepted before the stream is open. -/
theorem accepted_can_be_written_two :
    ∃ s, net.run (.init (.new [] 16000)) [.writeTest (.event .START), .writeEnqueue (.event .START), .thread,
        .writeTest (.event .STOP), .writeEnqueue (.event .STOP)] = some s ∧
      ∃ as t, net.run s as = some t ∧ t.written = [.config ⟨1, 16000, []⟩, .event .START, .event .STOP] := by
  obtain ⟨as, t, -, hrun, -, -, -, hwritten⟩ := accepted_can_be_written ⟨[], 16000, [.writeTest (.event .START),
    .writeEnqueue (.event .START), .thread, .writeTest (.event .STOP), .writeEnqueue (.event .STOP)], rfl⟩ rfl (by decide)
  refine ⟨_, ?_, as, t, hrun, hwritten⟩
  rfl

/-! ## The way to the end -/

/-- The operation the thread waits for without a deadline. -/
def NetState.awaited (s : NetState) : Option ℕ :=
  match s.pc with
  | .awaitOpen streamSeq => some streamSeq
  | .awaitConfig => some s.client.lastWriteSeq
  | _ => none

/-- The completion queue has nothing to hand out, and is not at its end. -/
def NetState.quiet (s : NetState) : Prop := (∀ p ∈ s.inflight, p.done = none) ∧ ¬(s.queueShutdown ∧ s.inflight = [])

/-- Steps on which gRPC does no more than it has to: it completes what the thread waits for without a deadline, with this flag,
and a deadline passes only where the queue has nothing to answer. -/
def Needed (flag : Bool) (s : NetState) : NetLabel → Prop
  | .thread | .next _ | .drained => True
  | .timeout => s.quiet
  | .complete tag ok _ => s.awaited = some tag ∧ ok = flag
  | _ => False

/-- The thread waits for the queue. -/
def waiting : Pc → Bool
  | .awaitOpen _ | .awaitConfig | .loopNext | .drainNext | .awaitFinish _ | .awaitShutdown => true
  | _ => false

/-- How far it is from here to the end for a client that refuses. -/
def toGo : Pc → ℕ
  | .run => 15
  | .awaitOpen _ => 14
  | .configure => 13
  | .awaitConfig => 12
  | .loopWrite => 11
  | .loopRead => 10
  | .loopNext => 9
  | .loop => 8
  | .exit => 7
  | .drainRead => 6
  | .drainNext => 5
  | .finish => 4
  | .awaitFinish _ => 3
  | .shutdown => 2
  | .awaitShutdown => 1
  | .done | .crashed => 0

theorem toGo_lt (pc : Pc) : toGo pc < 16 := by cases pc <;> simp [toGo]

/-- The completions that have not been taken. -/
def NetState.completions (s : NetState) : ℕ := s.inflight.countP fun p => p.done.isSome

/-- Every completion that is taken may send the thread round once more. -/
def NetState.rank (s : NetState) : ℕ := 16 * s.completions + toGo s.pc

/-- A state of a client that has been stopped or has failed. -/
structure Stopped (s : NetState) : Prop where
  reach : NetReach s
  refuses : s.client.refuses = true

/-- The client still refuses, and the thread is nearer to the end. -/
structure Nearer (s t : NetState) : Prop where
  refuses : t.client.refuses = true
  down : t.rank < s.rank

/-- A step that takes no completion. -/
theorem Nearer.of (hrefuses : t.client.refuses = true) (hops : t.completions = s.completions)
    (hpc : (toGo t.pc).blt (toGo s.pc) = true) : Nearer s t := by
  have hlt : toGo t.pc < toGo s.pc := by simpa using hpc
  refine ⟨hrefuses, ?_⟩
  rw [NetState.rank, NetState.rank, hops]
  omega

theorem completions_post {tag : ℕ} {kind : OpKind} (hops : t.inflight = s.inflight ++ [⟨tag, kind, none⟩]) :
    t.completions = s.completions := by
  rw [NetState.completions, NetState.completions, hops, List.countP_append]
  rfl

theorem completions_erase {p : Posted} {ok : Bool} (hp : p ∈ s.inflight) (hdone : p.done = some ok)
    (hops : t.inflight = s.inflight.erase p) : t.completions < s.completions := by
  rw [NetState.completions, NetState.completions, hops, (List.perm_cons_erase hp).countP_eq,
    List.countP_cons_of_pos (by rw [hdone]; rfl)]
  exact Nat.lt_succ_self _

theorem completions_eq_zero : s.completions = 0 ↔ ∀ p ∈ s.inflight, p.done = none := by
  rw [NetState.completions, List.countP_eq_zero]
  simp only [Bool.not_eq_true, Option.isSome_eq_false_iff, Option.isNone_iff_eq_none]

/-- Wherever the thread does not wait. -/
theorem Stopped.thread (h : Stopped s) (ht : s.thread = some t) : Nearer s t := by
  have hphase := h.reach.tagInv.phase
  have hrefuses := h.refuses
  cases hpc : s.pc <;> simp only [NetState.thread, hpc, reduceCtorEq, Option.some.injEq] at ht <;>
    simp only [InPhase, hpc] at hphase
  case run | finish =>
    subst ht
    exact .of hrefuses (completions_post rfl) (by rw [hpc]; rfl)
  case configure =>
    subst ht
    have hok : (s.goto .awaitConfig).streamWrite s.client.configRequest = _ := streamWrite_ok hphase.1 hphase.2.2
    rw [hok]
    exact .of hrefuses (completions_post rfl) (by rw [hpc]; rfl)
  case loop =>
    subst ht
    have hstop : (s.client.bIsRunning && !s.client.bHasError) = false := by
      cases hrunning : s.client.bIsRunning <;> simp_all [SpeechlyClient.refuses]
    rw [if_neg (by simp [hstop])]
    exact .of hrefuses rfl (by rw [hpc]; rfl)
  case loopWrite =>
    subst ht
    rw [pump_eq hphase.1]
    split
    · split
      · exact .of hrefuses (completions_post rfl) (by rw [hpc]; rfl)
      · exact .of hrefuses rfl (by rw [hpc]; rfl)
    · exact .of hrefuses rfl (by rw [hpc]; rfl)
  case loopRead | drainRead =>
    subst ht
    rw [postRead_eq hphase.1]
    split
    · exact .of hrefuses (completions_post rfl) (by rw [hpc]; rfl)
    · exact .of hrefuses rfl (by rw [hpc]; rfl)
  case exit =>
    simp only [hphase.1, if_true, Option.some.injEq] at ht
    subst ht
    split <;> exact .of hrefuses rfl (by rw [hpc]; rfl)
  case shutdown =>
    subst ht
    exact .of hrefuses rfl (by rw [hpc]; rfl)

theorem nearer_timeout (hrefuses : s.client.refuses = true) (ht : s.timeout = some t) : Nearer s t := by
  cases hpc : s.pc <;> simp only [NetState.timeout, hpc, reduceCtorEq, Option.some.injEq] at ht <;> subst ht <;>
    exact .of hrefuses rfl (by rw [hpc]; rfl)

theorem nearer_drained (hrefuses : s.client.refuses = true) (ht : s.drained = some t) : Nearer s t := by
  cases hpc : s.pc <;> simp only [NetState.drained, hpc, reduceCtorEq, Option.some.injEq] at ht <;> subst ht
  case awaitOpen | awaitConfig => exact .of rfl rfl (by rw [hpc]; rfl)
  case loopNext => exact .of (by simp [SpeechlyClient.refuses, SpeechlyClient.stop]) rfl (by rw [hpc]; rfl)
  all_goals exact .of hrefuses rfl (by rw [hpc]; rfl)

theorem mainEvent_refuses (hrefuses : s.client.refuses = true) (tag : ℕ) (ok : Bool) :
    (s.mainEvent tag ok).client.refuses = true ∧ (s.mainEvent tag ok).inflight = s.inflight := by
  unfold NetState.mainEvent
  split
  · split
    · exact ⟨hrefuses, rfl⟩
    · exact ⟨rfl, rfl⟩
  · split <;> split
    · exact ⟨hrefuses, rfl⟩
    · exact ⟨rfl, rfl⟩
    · exact ⟨hrefuses, rfl⟩
    · exact ⟨rfl, rfl⟩

/-- Whatever the queue hands out, the client still refuses. -/
theorem gotEvent_refuses (hrefuses : s.client.refuses = true) (hwaits : waiting s.pc = true) (tag : ℕ) (ok : Bool) :
    ∃ t, s.gotEvent tag ok = some t ∧ t.client.refuses = true ∧ t.inflight = s.inflight ∧
      (s.awaited ≠ none → toGo t.pc < toGo s.pc) := by
  cases hpc : s.pc <;> simp only [hpc, waiting, Bool.false_eq_true] at hwaits <;>
    simp only [NetState.gotEvent, NetState.awaited, hpc]
  case awaitOpen =>
    split
    · exact ⟨_, rfl, rfl, rfl, fun _ => by simp [toGo]⟩
    · exact ⟨_, rfl, hrefuses, rfl, fun _ => by simp [toGo, goto]⟩
  case awaitConfig =>
    split
    · exact ⟨_, rfl, rfl, rfl, fun _ => by simp [toGo, NetState.fail, goto]⟩
    · exact ⟨_, rfl, (refuses_handleTag _ _).trans hrefuses, rfl, fun _ => by simp [toGo, goto]⟩
  case loopNext =>
    have hhandled : ((s.take .main tag ok).handleTag tag).client.refuses = true := (refuses_handleTag _ _).trans hrefuses
    obtain ⟨hevent, hops⟩ := mainEvent_refuses hhandled tag ok
    exact ⟨_, rfl, hevent, hops, fun h => absurd rfl h⟩
  case drainNext => exact ⟨_, rfl, (refuses_handleTag _ _).trans hrefuses, rfl, fun h => absurd rfl h⟩
  case awaitFinish =>
    split
    · exact ⟨_, rfl, hrefuses, rfl, fun h => absurd rfl h⟩
    · exact ⟨_, rfl, hrefuses, rfl, fun h => absurd rfl h⟩
  case awaitShutdown => exact ⟨_, rfl, hrefuses, rfl, fun h => absurd rfl h⟩

section

variable {flag : Bool}

theorem Stopped.leads (h : Stopped s) {a : NetLabel} (ha : Needed flag s a) (ht : netStep s a = some t) (hnearer : Nearer s t) :
    net.Leads (Needed flag) s fun t => Stopped t ∧ t.rank < s.rank :=
  Machine.Leads.step ha ht (.now ⟨⟨h.reach.step ht, hnearer.refuses⟩, hnearer.down⟩)

/-- A completion is taken. -/
theorem Stopped.next (h : Stopped s) (hwaits : waiting s.pc = true) {p : Posted} (hp : p ∈ s.inflight) {ok : Bool}
    (hdone : p.done = some ok) : ∃ t, netStep s (.next p.tag) = some t ∧ t.client.refuses = true ∧
      t.inflight = s.inflight.erase p ∧ (s.awaited ≠ none → toGo t.pc < toGo s.pc) := by
  obtain ⟨t, ht, hrefuses, hops, hpc⟩ :=
    gotEvent_refuses (s := { s with inflight := s.inflight.erase p }) h.refuses hwaits p.tag ok
  exact ⟨t, (next_eq h.reach.tagInv hp hdone).trans ht, hrefuses, hops, hpc⟩

/-- What the thread waits for without a deadline is in flight. -/
theorem NetReach.awaited (h : NetReach s) (hawaits : s.awaited ≠ none) : ∃ p ∈ s.inflight, s.awaited = some p.tag := by
  have hphase := h.tagInv.phase
  have hwaits := h.waits
  cases hpc : s.pc <;> simp only [NetState.awaited, hpc, ne_eq, not_true_eq_false] at hawaits <;>
    simp only [InPhase, hpc] at hphase <;> simp only [Waits, hpc] at hwaits
  case awaitOpen streamSeq =>
    obtain ⟨-, ⟨p, hops, -⟩, -⟩ := hphase
    have hp : p ∈ s.inflight := hops ▸ List.mem_singleton_self p
    exact ⟨p, hp, by simp only [NetState.awaited, hpc, hwaits p hp]⟩
  case awaitConfig =>
    obtain ⟨p, hp, -, htag⟩ := (h.tagInv.oneAtATime (by rw [hpc]; rfl)).write_iff.mp hwaits
    exact ⟨p, hp, by simp only [NetState.awaited, hpc, htag]⟩

/-- Where it waits without a deadline and nothing has been completed, gRPC completes what it waits for. -/
theorem Stopped.leads_awaited (h : Stopped s) (hawaits : s.awaited ≠ none) (hnone : ∀ p ∈ s.inflight, p.done = none) :
    net.Leads (Needed flag) s fun t => Stopped t ∧ t.rank < s.rank := by
  obtain ⟨p, hp, htag⟩ := h.reach.awaited hawaits
  obtain ⟨t, ht⟩ := complete_eq h.reach.tagInv hp (hnone p hp) flag default
  have hcompleted := completed_of_complete h.reach hp ht
  have hnodup := hcompleted.reach.tagInv.tagged.tags_nodup
  have hrefuses : t.client.refuses = true := by
    rw [hcompleted.client]
    exact h.refuses
  have hwaits : waiting s.pc = true := by
    cases hpc : s.pc <;> simp only [NetState.awaited, hpc, ne_eq, not_true_eq_false] at hawaits <;> rfl
  have hseq : t.client.lastWriteSeq = s.client.lastWriteSeq := by rw [hcompleted.client]
  have hsame : t.awaited = s.awaited := by simp only [NetState.awaited, hcompleted.pc, hseq]
  obtain ⟨q, hq, hqtag, hdone⟩ := hcompleted.done
  obtain ⟨u, hu, hrefuses', hops, hpc⟩ := Stopped.next ⟨hcompleted.reach, hrefuses⟩ (hcompleted.pc ▸ hwaits) hq hdone
  have hcomplete : Needed flag s (.complete p.tag flag default) := ⟨htag, rfl⟩
  have hnext : Needed flag t (.next q.tag) := trivial
  refine Machine.Leads.step hcomplete ht (Machine.Leads.step hnext hu (.now ⟨⟨hcompleted.reach.step hu, hrefuses'⟩, ?_⟩))
  -- the completion is taken at once, so that there is again none, and the thread has gone on
  have hzero : u.completions = 0 := by
    refine completions_eq_zero.mpr fun x hx => ?_
    rw [hops] at hx
    rcases hcompleted.ops x (List.mem_of_mem_erase hx) with hold | rfl
    · exact hnone x hold
    · obtain rfl := List.inj_on_of_nodup_map hnodup (List.mem_of_mem_erase hx) hq hqtag.symm
      exact absurd hx (List.Nodup.of_map _ hnodup).not_mem_erase
  rw [NetState.rank, hzero, NetState.rank, ← hcompleted.pc]
  have hlt := hpc (hsame ▸ hawaits)
  omega

/-- From every place but the end there is a way on. -/
theorem Stopped.leads_nearer (h : Stopped s) (hdone : s.pc ≠ .done) :
    net.Leads (Needed flag) s fun t => Stopped t ∧ t.rank < s.rank := by
  by_cases hwaits : waiting s.pc = true
  · by_cases hnone : ∀ p ∈ s.inflight, p.done = none
    · by_cases hawaits : s.awaited = none
      · by_cases hshut : s.queueShutdown = true ∧ s.inflight = []
        · obtain ⟨t, ht⟩ : ∃ t, s.drained = some t := by
            cases hpc : s.pc <;> simp [hpc, waiting, NetState.drained] at hwaits ⊢
          have hstep : netStep s .drained = some t := by simp only [netStep, if_pos hshut, ht]
          exact h.leads (a := .drained) trivial hstep (nearer_drained h.refuses ht)
        · obtain ⟨t, ht⟩ : ∃ t, s.timeout = some t := by
            cases hpc : s.pc <;> simp [hpc, waiting, NetState.timeout, NetState.awaited] at hwaits hawaits ⊢
          exact h.leads (a := .timeout) ⟨hnone, hshut⟩ ht (nearer_timeout h.refuses ht)
      · exact h.leads_awaited hawaits hnone
    · push Not at hnone
      obtain ⟨p, hp, hsome⟩ := hnone
      obtain ⟨ok, hdone⟩ := Option.ne_none_iff_exists'.mp hsome
      obtain ⟨t, ht, hrefuses, hops, -⟩ := h.next hwaits hp hdone
      have hfewer := completions_erase hp hdone hops
      have hlt := toGo_lt t.pc
      refine h.leads (a := .next p.tag) trivial ht ⟨hrefuses, ?_⟩
      rw [NetState.rank, NetState.rank]
      omega
  · obtain ⟨t, ht⟩ : ∃ t, s.thread = some t := by
      have hphase := h.reach.tagInv.phase
      cases hpc : s.pc <;> simp only [InPhase, hpc] at hphase <;> simp [hpc, waiting, NetState.thread] at hwaits hdone ⊢
      simp [hphase.1]
    exact h.leads (a := .thread) trivial ht (h.thread ht)

end

/-- **The thread can end.**  Once the client has been stopped or has failed, there is always a way to the end of the thread on
which gRPC need only complete what the thread waits for without a deadline, with whatever flag. -/
theorem thread_can_end (h : NetReach s) (hends : s.client.bHasError = true ∨ s.client.bIsRunning = false) (flag : Bool) :
    ∃ as t, net.Under (Needed flag) s as ∧ net.run s as = some t ∧ t.pc = .done := by
  have hrefuses : s.client.refuses = true := by
    rcases hends with hends | hends <;> simp [SpeechlyClient.refuses, hends]
  exact Machine.Leads.descend (P := Stopped) NetState.rank (fun _ => Stopped.leads_nearer) ⟨h, hrefuses⟩

/-- The stream cannot be opened, which leaves `bIsRunning` as it is. -/
theorem thread_can_end_failed :
    ∃ s as t, net.run (.init (.new [] 16000)) [.thread, .complete 1 false default, .next 1] = some s ∧
      s.client.bIsRunning = true ∧ net.run s as = some t ∧ t.pc = .done := by
  obtain ⟨as, t, -, hrun, hpc⟩ :=
    thread_can_end ⟨[], 16000, [.thread, .complete 1 false default, .next 1], rfl⟩ (Or.inl rfl) true
  refine ⟨_, as, t, ?_, ?_, hrun, hpc⟩
  · rfl
  · rfl

end SpeechlyPlugin.Client
