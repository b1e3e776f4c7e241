import SpeechlyPlugin.Client.Net

/-!
# One write, one read, and their tags

`CanWrite` and `CanRead` are the slots of the thread: a flag is cleared by the operation it guards and set again when
the completion of that operation is taken.  The invariant of `Run` and of `Exit` up to `Finish` is the slot discipline,
and it is what makes the comparison with `LastWriteSeq` and `LastReadSeq` recognise a completion.
-/

namespace SpeechlyPlugin.Client

open Engine Lib

namespace NetState

variable {s t : NetState} {pc : Pc} {r : SLURequest}

/-! ## The slots of the thread -/

/-- The flags, the last tags and the operations in flight, as slots. -/
def slots (s : NetState) : Slots OpKind where
  seq := s.client.seq
  last
    | .write => s.client.lastWriteSeq
    | .read => s.client.lastReadSeq
    | _ => 0
  busy
    | .write => !s.client.bWriteAllowed
    | .read => !s.client.bReadAllowed
    | _ => false
  ops := s.inflight
  posted := s.posted

/-- The state `StreamWrite` leaves when its checks hold. -/
def wrote (s : NetState) (r : SLURequest) : NetState :=
  { s.post (s.client.seq + 1) .write with
    client := { s.client with
      seq := s.client.seq + 1, lastWriteSeq := s.client.seq + 1, bWriteAllowed := false }
    written := s.written ++ [r] }

/-- The state `StreamRead` leaves when its checks hold. -/
def reading (s : NetState) : NetState :=
  { s.post (s.client.seq + 1) .read with
    client := { s.client with
      seq := s.client.seq + 1, lastReadSeq := s.client.seq + 1, bReadAllowed := false } }

theorem streamWrite_ok (hst : s.client.stream = true) (hw : s.client.canWrite = true) :
    s.streamWrite r = .ok (s.wrote r) := by
  simp only [streamWrite, hst, hw, check]
  rfl

theorem streamRead_ok (hst : s.client.stream = true) (hr : s.client.canRead = true) :
    s.streamRead = .ok s.reading := by
  simp only [streamRead, hst, hr, check]
  rfl

theorem slots_wrote : (s.wrote r).slots = s.slots.post .write := by
  simp only [slots, wrote, post, Slots.post, Slots.mk.injEq, true_and, and_true]
  constructor <;> funext k <;> cases k <;> rfl

theorem slots_reading : s.reading.slots = s.slots.post .read := by
  simp only [slots, reading, post, Slots.post, Slots.mk.injEq, true_and, and_true]
  constructor <;> funext k <;> cases k <;> rfl

/-- Once the stream is open, `if (CanRead()) StreamRead(&Response)` fails no check. -/
theorem postRead_eq (hst : s.client.stream = true) :
    s.postRead pc = if s.client.canRead then (s.goto pc).reading else s.goto pc := by
  simp only [postRead]
  by_cases hr : s.client.canRead = true
  · have hok : (s.goto pc).streamRead = .ok (s.goto pc).reading := streamRead_ok hst hr
    rw [if_pos hr, if_pos hr, hok, orCrash]
  · rw [if_neg hr, if_neg hr]

/-- Once the stream is open, the write of the main loop fails no check. -/
theorem pump_eq (hst : s.client.stream = true) :
    s.pump = if s.client.canWrite then
        match s.client.requestQueue with
        | r :: rs => { s with client := { s.client with requestQueue := rs }, pc := .loopRead }.wrote r
        | [] => s.goto .loopRead
      else s.goto .loopRead := by
  simp only [pump, SpeechlyClient.dequeueRequest]
  by_cases hw : s.client.canWrite = true
  · rw [if_pos hw, if_pos hw]
    cases s.client.requestQueue with
    | nil => rfl
    | cons r rs =>
      have hok : streamWrite { s with client := { s.client with requestQueue := rs }, pc := .loopRead } r =
          .ok (wrote { s with client := { s.client with requestQueue := rs }, pc := .loopRead } r) :=
        streamWrite_ok hst hw
      simp only [hok, orCrash]
  · rw [if_neg hw, if_neg hw]

/-! ## Taking a completion -/

/-- An operation in flight under the discipline is a write or a read. -/
theorem kind_of_ok (h : s.slots.Ok) {p : Posted} (hp : p ∈ s.inflight) :
    (p.kind = .write ∧ p.tag = s.client.lastWriteSeq) ∨
      (p.kind = .read ∧ p.tag = s.client.lastReadSeq ∧ p.tag ≠ s.client.lastWriteSeq) := by
  obtain ⟨hb, ht⟩ := h.slot p hp
  have hw := h.tag_eq_last hp .write
  rcases hk : p.kind with _ | _ | _ | _
  · rw [hk] at hb; cases hb
  · rw [hk] at ht; exact Or.inl ⟨rfl, ht⟩
  · rw [hk] at ht hw
    exact Or.inr ⟨rfl, ht, fun e => by cases hw.mp e⟩
  · rw [hk] at hb; cases hb

/-- **`HandleTag` frees the slot of the operation whose completion was taken.** -/
theorem slots_handleTag (h : s.slots.Ok) {p : Posted} (hp : p ∈ s.inflight) :
    (handleTag { s with inflight := s.inflight.erase p } p.tag).slots = s.slots.take p := by
  rcases kind_of_ok h hp with ⟨hk, ht⟩ | ⟨hk, ht, hne⟩
  · simp only [slots, handleTag, SpeechlyClient.handleTag, if_pos ht, Slots.take, hk, Slots.mk.injEq, true_and,
      and_true]
    funext k
    cases k <;> rfl
  · simp only [slots, handleTag, SpeechlyClient.handleTag, if_neg hne, if_pos ht, Slots.take, hk, Slots.mk.injEq,
      true_and, and_true]
    funext k
    cases k <;> rfl

/-- What the completion queue hands out is the completion of an operation in flight. -/
theorem next_cases {tag : ℕ} (h : s.next tag = some t) :
    ∃ p ok, p ∈ s.inflight ∧ p.tag = tag ∧ p.done = some ok ∧
      gotEvent { s with inflight := s.inflight.erase p } tag ok = some t := by
  simp only [next] at h
  split at h
  · rename_i tag' kind ok hfind
    have hp := List.mem_of_find?_eq_some hfind
    have htag := List.find?_some hfind
    simp only [ne_eq, reduceCtorEq, not_false_eq_true, and_true, decide_eq_true_eq] at htag
    subst htag
    exact ⟨_, ok, hp, rfl, rfl, h⟩
  · cases h

/-- gRPC completes an operation in flight that it has not completed yet. -/
theorem complete_cases {tag : ℕ} {ok : Bool} {message : SLUResponse} (h : s.complete tag ok message = some t) :
    ∃ p ∈ s.inflight, p.tag = tag ∧ p.done = none ∧
      t = { s with
        inflight := s.inflight.map fun q => if q = p then { q with done := some ok } else q
        client := if p.kind = .read then { s.client with response := message } else s.client
        received := if p.kind = .read ∧ ok then s.received ++ [(tag, message)] else s.received } := by
  simp only [complete] at h
  split at h
  · cases h
  · rename_i p hfind
    have hp := List.mem_of_find?_eq_some hfind
    have hprop := List.find?_some hfind
    simp only [decide_eq_true_eq] at hprop
    refine ⟨p, hp, hprop.1, hprop.2, ?_⟩
    split at h
    · rename_i hk
      cases h
      simp only [hk, true_and, if_true]
    · rename_i hk
      cases h
      simp only [hk, false_and, if_false]

/-! ## The invariant -/

/-- What holds of the slots at each place of the thread. -/
def InPhase (s : NetState) : Prop :=
  match s.pc with
  | .run => s.slots.Ok ∧ s.inflight = [] ∧ s.client.canWrite = true
  | .awaitOpen _ =>
    s.client.stream = true ∧ (∃ p, s.inflight = [p] ∧ p.kind = .openStream) ∧ Slots.Ok { s.slots with ops := [] } ∧
      s.client.canWrite = true
  | .configure => s.client.stream = true ∧ s.slots.Ok ∧ s.client.canWrite = true
  | .awaitFinish _ | .shutdown | .awaitShutdown | .done => True
  | .crashed => False
  | _ => s.client.stream = true ∧ s.slots.Ok

/-- One read fills `Response` at a time. -/
def OneRead (ops : List Posted) : Prop := ∀ p ∈ ops, ∀ q ∈ ops, p.kind = .read → q.kind = .read → p = q

theorem OneRead.of_ok (h : s.slots.Ok) : OneRead s.inflight := fun _ hp _ hq ep eq =>
  h.eq_of_kind hp hq (ep.trans eq.symm)

theorem OneRead.post {ops : List Posted} (h : OneRead ops) {p : Posted} (hp : p.kind ≠ .read) :
    OneRead (ops ++ [p]) := by
  intro a ha b hb ea eb
  rw [List.mem_append, List.mem_singleton] at ha hb
  rcases ha with ha | rfl <;> [skip; exact absurd ea hp]
  rcases hb with hb | rfl <;> [skip; exact absurd eb hp]
  exact h a ha b hb ea eb

theorem OneRead.erase {ops : List Posted} (h : OneRead ops) (p : Posted) : OneRead (ops.erase p) :=
  fun a ha b hb => h a (List.mem_of_mem_erase ha) b (List.mem_of_mem_erase hb)

theorem OneRead.complete {ops : List Posted} (h : OneRead ops) (p : Posted) (ok : Bool) :
    OneRead (ops.map fun q => if q = p then { q with done := some ok } else q) := by
  intro a ha b hb ea eb
  obtain ⟨a, ha', rfl⟩ := List.mem_map.mp ha
  obtain ⟨b, hb', rfl⟩ := List.mem_map.mp hb
  have ea : a.kind = .read := by rw [← ea]; split <;> rfl
  have eb : b.kind = .read := by rw [← eb]; split <;> rfl
  rw [h a ha' b hb' ea eb]

/-- The invariant. -/
structure TagInv (s : NetState) : Prop where
  tagged : s.slots.Tagged
  known : "Speechly unknown tag" ∉ s.log
  reads : OneRead s.inflight
  phase : s.InPhase

/-- The places of `Run` and `Exit` at which nothing but the discipline is known. -/
def inLoops : Pc → Bool
  | .awaitConfig | .loop | .loopWrite | .loopRead | .loopNext | .exit | .drainRead | .drainNext | .finish => true
  | _ => false

theorem TagInv.of_ok (hok : s.slots.Ok) (hst : s.client.stream = true) (hknown : "Speechly unknown tag" ∉ s.log)
    (hpc : inLoops s.pc = true) : s.TagInv where
  tagged := hok.toTagged
  known := hknown
  reads := .of_ok hok
  phase := by
    simp only [InPhase]
    split <;> first | exact ⟨hst, hok⟩ | (rename_i e; rw [e] at hpc; cases hpc)

theorem TagInv.stream_ok (h : s.TagInv) (hpc : inLoops s.pc = true) : s.client.stream = true ∧ s.slots.Ok := by
  have hp := h.phase
  simp only [InPhase] at hp
  split at hp <;> first | exact hp | (rename_i e; rw [e] at hpc; cases hpc)

theorem known_logLine {line : String} (h : "Speechly unknown tag" ∉ s.log) (hne : "Speechly unknown tag" ≠ line) :
    "Speechly unknown tag" ∉ (s.logLine line).log := by
  simp only [logLine, List.mem_append, List.mem_singleton, not_or]
  exact ⟨h, hne⟩

/-! ## The thread -/

theorem TagInv.postRead (h : s.TagInv) (hpc : inLoops s.pc = true) (hpc' : inLoops pc = true) :
    (s.postRead pc).TagInv := by
  obtain ⟨hst, hok⟩ := h.stream_ok hpc
  rw [postRead_eq hst]
  split
  · rename_i hr
    refine TagInv.of_ok ?_ hst h.known hpc'
    rw [slots_reading]
    refine Slots.Ok.post hok ?_
    rw [SpeechlyClient.canRead] at hr
    simp only [slots, hr, Bool.not_true]
  · exact TagInv.of_ok hok hst h.known hpc'

theorem TagInv.wrote (hok : s.slots.Ok) (hst : s.client.stream = true) (hw : s.client.canWrite = true)
    (hknown : "Speechly unknown tag" ∉ s.log) (hpc : inLoops s.pc = true) : (s.wrote r).TagInv := by
  refine TagInv.of_ok ?_ hst hknown hpc
  rw [slots_wrote]
  refine hok.post ?_
  rw [SpeechlyClient.canWrite] at hw
  simp only [slots, hw, Bool.not_true]

theorem TagInv.pump (h : s.TagInv) (hpc : s.pc = .loopWrite) : s.pump.TagInv := by
  obtain ⟨hst, hok⟩ := h.stream_ok (by rw [hpc]; rfl)
  rw [pump_eq hst]
  split
  · rename_i hw
    cases s.client.requestQueue with
    | nil => exact TagInv.of_ok hok hst h.known rfl
    | cons r rs => exact TagInv.wrote hok hst hw h.known rfl
  · exact TagInv.of_ok hok hst h.known rfl

theorem TagInv.thread (h : s.TagInv) (ht : s.thread = some t) : t.TagInv := by
  have hp := h.phase
  cases hpc : s.pc <;> simp only [NetState.thread, hpc, reduceCtorEq, Option.some.injEq] at ht <;>
    simp only [InPhase, hpc] at hp
  case run =>
    obtain ⟨hok, hnil, hw⟩ := hp
    subst ht
    have hok' : Slots.Ok { s.slots with ops := [] } := by
      rw [← hnil]
      exact hok
    refine ⟨(hok.toTagged.post .openStream).congr rfl rfl rfl, h.known, h.reads.post nofun, rfl,
      ⟨⟨s.client.seq + 1, .openStream, none⟩, ?_, rfl⟩, hok'.skip, hw⟩
    simp only [post, hnil, List.nil_append]
  case configure =>
    obtain ⟨hst, hok, hw⟩ := hp
    subst ht
    have hok' : (s.goto .awaitConfig).streamWrite s.client.configRequest = _ := streamWrite_ok hst hw
    rw [hok', orCrash]
    exact TagInv.wrote hok hst hw h.known rfl
  case loop =>
    subst ht
    obtain ⟨hst, hok⟩ := hp
    refine TagInv.of_ok hok hst h.known ?_
    simp only [goto]
    split <;> rfl
  case loopWrite =>
    subst ht
    exact h.pump hpc
  case loopRead =>
    subst ht
    exact h.postRead (by rw [hpc]; rfl) rfl
  case exit =>
    obtain ⟨hst, hok⟩ := hp
    simp only [hst, if_true, Option.some.injEq] at ht
    subst ht
    split <;> exact TagInv.of_ok hok hst h.known rfl
  case drainRead =>
    subst ht
    exact h.postRead (by rw [hpc]; rfl) rfl
  case finish =>
    subst ht
    exact ⟨(h.tagged.post .finish).congr rfl rfl rfl, h.known, h.reads.post nofun, trivial⟩
  case shutdown =>
    subst ht
    exact ⟨h.tagged, h.known, h.reads, trivial⟩

/-! ## Completions -/

theorem ok_handleTag (hok : s.slots.Ok) {p : Posted} (hp : p ∈ s.inflight) (phase : Phase) (ok : Bool) :
    ((take { s with inflight := s.inflight.erase p } phase p.tag ok).handleTag p.tag).slots.Ok := by
  have hslots := slots_handleTag hok hp
  have htake : (s.slots.take p).Ok := Slots.Ok.take hok hp
  rw [← hslots] at htake
  exact htake

theorem TagInv.fail {message : String} (hok : s.slots.Ok) (hst : s.client.stream = true)
    (hknown : "Speechly unknown tag" ∉ s.log) (hne : "Speechly unknown tag" ≠ message) : (s.fail message).TagInv :=
  TagInv.of_ok hok hst (known_logLine hknown hne) rfl

/-- The body of the main loop on a completion of the last write or of the last read. -/
theorem TagInv.mainEvent {tag : ℕ} {ok : Bool} (hok : s.slots.Ok) (hst : s.client.stream = true)
    (hknown : "Speechly unknown tag" ∉ s.log) (htag : tag = s.client.lastWriteSeq ∨ tag = s.client.lastReadSeq) :
    (s.mainEvent tag ok).TagInv := by
  simp only [NetState.mainEvent]
  by_cases hw : tag = s.client.lastWriteSeq
  · rw [if_pos hw]
    split
    · exact TagInv.of_ok hok hst hknown rfl
    · exact TagInv.fail hok hst hknown (by decide)
  · have hr : tag = s.client.lastReadSeq := htag.resolve_left hw
    rw [if_neg hw, if_pos hr]
    split
    · exact TagInv.of_ok hok hst hknown rfl
    · exact TagInv.fail hok hst hknown (by decide)

theorem TagInv.next {tag : ℕ} (h : s.TagInv) (ht : s.next tag = some t) : t.TagInv := by
  obtain ⟨p, ok, hp, rfl, -, ht⟩ := next_cases ht
  have hphase := h.phase
  have htagged : (s.slots.take p).Tagged := h.tagged.take p
  cases hpc : s.pc <;> simp only [gotEvent, hpc, reduceCtorEq, Option.some.injEq] at ht <;>
    simp only [InPhase, hpc] at hphase
  case awaitOpen n =>
    obtain ⟨hst, ⟨q, hq, -⟩, hok, hw⟩ := hphase
    have hnil : s.inflight.erase p = [] := by
      rw [hq, List.mem_singleton] at hp
      rw [hq, hp, List.erase_cons_head]
    rw [hnil] at ht
    split at ht
    · cases ht
      exact TagInv.of_ok hok hst (known_logLine h.known (by decide)) rfl
    · cases ht
      exact ⟨hok.toTagged, h.known, .of_ok hok, hst, hok, hw⟩
  case awaitConfig =>
    obtain ⟨hst, hok⟩ := hphase
    have hok' := ok_handleTag hok hp .configuring ok
    split at ht
    · cases ht
      exact TagInv.fail hok' (by simpa [handleTag, take] using hst) h.known (by decide)
    · cases ht
      exact TagInv.of_ok hok' (by simpa [goto, handleTag, take] using hst) h.known rfl
  case loopNext =>
    obtain ⟨hst, hok⟩ := hphase
    have hok' := ok_handleTag hok hp .main ok
    subst ht
    refine TagInv.mainEvent hok' (by simpa [handleTag, take] using hst) h.known ?_
    rcases kind_of_ok hok hp with ⟨-, e⟩ | ⟨-, e, -⟩
    · exact Or.inl (by simpa [handleTag, take] using e)
    · exact Or.inr (by simpa [handleTag, take] using e)
  case drainNext =>
    obtain ⟨hst, hok⟩ := hphase
    have hok' := ok_handleTag hok hp .draining ok
    subst ht
    refine TagInv.of_ok hok' (by simpa [goto, handleTag, take] using hst) h.known ?_
    simp only [goto]
    split <;> rfl
  case awaitFinish n =>
    split at ht <;> cases ht
    · exact ⟨htagged.congr rfl rfl rfl, h.known, h.reads.erase p, trivial⟩
    · refine ⟨htagged.congr rfl rfl rfl, known_logLine h.known (by decide), h.reads.erase p, ?_⟩
      simp only [InPhase, logLine, take]
  case awaitShutdown =>
    subst ht
    refine ⟨htagged.congr rfl rfl rfl, h.known, h.reads.erase p, ?_⟩
    simp only [InPhase, take]

theorem TagInv.timeout (h : s.TagInv) (ht : s.timeout = some t) : t.TagInv := by
  have hphase := h.phase
  cases hpc : s.pc <;> simp only [NetState.timeout, hpc, reduceCtorEq, Option.some.injEq] at ht <;>
    simp only [InPhase, hpc] at hphase <;> subst ht
  case loopNext => exact TagInv.of_ok hphase.2 hphase.1 h.known rfl
  case drainNext => exact TagInv.of_ok hphase.2 hphase.1 (known_logLine h.known (by decide)) rfl
  case awaitFinish n => exact ⟨h.tagged.congr rfl rfl rfl, known_logLine h.known (by decide), h.reads, trivial⟩
  case awaitShutdown => exact ⟨h.tagged.congr rfl rfl rfl, known_logLine h.known (by decide), h.reads, trivial⟩

theorem TagInv.drained (h : s.TagInv) (hnil : s.inflight = []) (ht : s.drained = some t) : t.TagInv := by
  have hphase := h.phase
  cases hpc : s.pc <;> simp only [NetState.drained, hpc, reduceCtorEq, Option.some.injEq] at ht <;>
    simp only [InPhase, hpc] at hphase <;> subst ht
  case awaitOpen n =>
    obtain ⟨-, ⟨p, hp, -⟩, -⟩ := hphase
    rw [hnil] at hp
    cases hp
  case awaitConfig => exact TagInv.fail hphase.2 hphase.1 h.known (by decide)
  case loopNext => exact TagInv.of_ok hphase.2 hphase.1 h.known rfl
  case drainNext => exact TagInv.of_ok hphase.2 hphase.1 (known_logLine h.known (by decide)) rfl
  case awaitFinish n => exact ⟨h.tagged.congr rfl rfl rfl, h.known, h.reads, trivial⟩
  case awaitShutdown => exact ⟨h.tagged.congr rfl rfl rfl, h.known, h.reads, trivial⟩

theorem TagInv.complete {tag : ℕ} {ok : Bool} {message : SLUResponse} (h : s.TagInv)
    (ht : s.complete tag ok message = some t) : t.TagInv := by
  obtain ⟨p, hp, -, -, ht⟩ := complete_cases ht
  have hphase := h.phase
  -- a message that fills `Response` changes no slot
  have hslots : t.slots = s.slots.complete p ok := by
    subst ht
    split <;> rfl
  have hpc : t.pc = s.pc := by rw [ht]
  have hlog : t.log = s.log := by rw [ht]
  have hst : t.client.stream = s.client.stream := by
    subst ht
    dsimp only
    split <;> rfl
  have hw : t.client.canWrite = s.client.canWrite := by
    subst ht
    dsimp only
    split <;> rfl
  have htagged : t.slots.Tagged := by
    rw [hslots]
    exact h.tagged.complete p ok
  have hknown : "Speechly unknown tag" ∉ t.log := by
    rw [hlog]
    exact h.known
  refine ⟨htagged, hknown, ?_, ?_⟩
  · rw [ht]
    exact h.reads.complete p ok
  simp only [InPhase, hpc, hst, hw, hslots] at hphase ⊢
  cases hs : s.pc <;> simp only [hs] at hphase ⊢
  case run =>
    rw [hphase.2.1] at hp
    cases hp
  case awaitOpen n =>
    obtain ⟨hst, ⟨q, hq, hk⟩, hok, hw⟩ := hphase
    have hops : t.inflight = _ := congrArg Slots.ops hslots
    refine ⟨hst, ⟨if q = p then { q with done := some ok } else q, ?_, ?_⟩, hok, hw⟩
    · rw [hops]
      simp only [Slots.complete, slots, hq, List.map_cons, List.map_nil]
    · split <;> exact hk
  case configure => exact ⟨hphase.1, hphase.2.1.complete p ok, hphase.2.2⟩
  all_goals exact ⟨hphase.1, hphase.2.complete p ok⟩

end NetState

/-! ## Runs -/

open NetState

variable {s t : NetState}

theorem tagInv_step {a : NetLabel} (h : s.TagInv) (ht : netStep s a = some t) : t.TagInv := by
  cases netStep_cases ht with
  | thread ht => exact h.thread ht
  | next ht => exact h.next ht
  | timeout ht => exact h.timeout ht
  | drained _ hnil ht => exact h.drained hnil ht
  | complete ht => exact h.complete ht
  | writeRefused | readRefused => exact h
  | _ => exact ⟨h.tagged, h.known, h.reads, h.phase⟩

theorem tagInv_init (languageCode : StdString) (sampleRate : ℤ) :
    (init (.new languageCode sampleRate)).TagInv := by
  have hok : (init (.new languageCode sampleRate)).slots.Ok :=
    { posted_eq := rfl
      ops_posted := by simp [slots, init]
      tags_nodup := by simp [slots, init]
      slot := by simp [slots, init]
      filled := by rintro (_ | _ | _ | _) <;> simp [slots, init, SpeechlyClient.new]
      last_le := by rintro (_ | _ | _ | _) <;> simp [slots, init, SpeechlyClient.new]
      last_ne := by
        rintro (_ | _ | _ | _) (_ | _ | _ | _) <;> simp [slots, init, SpeechlyClient.new] }
  exact ⟨hok.toTagged, by simp [init], .of_ok hok, hok, rfl, rfl⟩

theorem NetReach.tagInv (h : NetReach s) : s.TagInv := by
  obtain ⟨languageCode, sampleRate, h⟩ := h
  exact h.inv (fun _ _ _ => tagInv_step) (tagInv_init languageCode sampleRate)

/-- Up to the call of `Stream->Finish`. -/
def beforeFinish : Pc → Bool
  | .awaitFinish _ | .shutdown | .awaitShutdown | .done => false
  | _ => true

/-- What gRPC asks for on a stream, and what the flags of the thread say about it. -/
structure OneAtATime (s : NetState) : Prop where
  write_le : (s.inflight.filter fun p => p.kind = .write).length ≤ 1
  read_le : (s.inflight.filter fun p => p.kind = .read).length ≤ 1
  write_iff : s.client.bWriteAllowed = false ↔ ∃ p ∈ s.inflight, p.kind = .write ∧ p.tag = s.client.lastWriteSeq
  read_iff : s.client.bReadAllowed = false ↔ ∃ p ∈ s.inflight, p.kind = .read ∧ p.tag = s.client.lastReadSeq

theorem OneAtATime.of_ok (h : s.slots.Ok) : OneAtATime s where
  write_le := h.filter_length_le .write
  read_le := h.filter_length_le .read
  write_iff := by simpa [slots] using h.busy_iff .write
  read_iff := by simpa [slots] using h.busy_iff .read

/-- While the stream opens, nothing else is in flight. -/
theorem OneAtATime.of_openStream {p : Posted} (hp : s.inflight = [p]) (hk : p.kind = .openStream)
    (h : Slots.Ok { s.slots with ops := [] }) : OneAtATime s := by
  have hw : s.client.bWriteAllowed = true := by simpa [slots] using h.busy_iff .write
  have hr : s.client.bReadAllowed = true := by simpa [slots] using h.busy_iff .read
  constructor <;> simp [hp, hk, hw, hr]

theorem NetState.TagInv.oneAtATime (h : s.TagInv) (hpc : beforeFinish s.pc = true) : OneAtATime s := by
  have hphase := h.phase
  cases hs : s.pc <;> simp only [InPhase, hs] at hphase <;> rw [hs] at hpc
  case run => exact OneAtATime.of_ok hphase.1
  case awaitOpen n =>
    obtain ⟨-, ⟨p, hp, hk⟩, hok, -⟩ := hphase
    exact OneAtATime.of_openStream hp hk hok
  case configure => exact OneAtATime.of_ok hphase.2.1
  case awaitFinish => cases hpc
  case shutdown => cases hpc
  case awaitShutdown => cases hpc
  case done => cases hpc
  all_goals exact OneAtATime.of_ok hphase.2

/-- **Tags and flags.**  Up to `Finish` at most one write and one read are in flight and the flags say which; all tags
are distinct, as words too; no `check` fails and every completion taken in the main loop is recognised. -/
theorem tags_and_flags (h : NetReach s) :
    (beforeFinish s.pc = true → OneAtATime s) ∧ s.posted.Nodup ∧
      (∀ w, s.client.seq < 2 ^ w → (s.posted.map (BitVec.ofNat w)).Nodup) ∧
      s.pc ≠ .crashed ∧ "Speechly unknown tag" ∉ s.log := by
  have hi := h.tagInv
  refine ⟨hi.oneAtATime, hi.tagged.posted_nodup, fun w hw => hi.tagged.words_nodup hw, fun hpc => ?_, hi.known⟩
  have hphase := hi.phase
  simp only [InPhase, hpc] at hphase

/-- A run that opens and configures the stream and enters the main loop. -/
def opening : List NetLabel :=
  [.thread, .complete 1 true default, .next 1, .thread, .complete 2 true default, .next 2]

/-- A write and a read in flight. -/
theorem tags_and_flags_loop :
    ∃ s, net.run (.init (.new [] 16000)) (opening ++ [.writeTest (.event .START), .writeEnqueue (.event .START),
        .thread, .thread, .thread]) = some s ∧
      s.pc = .loopNext ∧ s.inflight = [⟨3, .write, none⟩, ⟨4, .read, none⟩] ∧ OneAtATime s := by
  refine ⟨_, rfl, rfl, rfl, ?_⟩
  exact (tags_and_flags ⟨[], 16000, opening ++ [.writeTest (.event .START), .writeEnqueue (.event .START),
    .thread, .thread, .thread], rfl⟩).1 rfl

end SpeechlyPlugin.Client
