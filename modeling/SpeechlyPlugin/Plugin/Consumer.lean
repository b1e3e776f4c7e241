import SpeechlyPlugin.Client.Onward
import SpeechlyPlugin.Plugin.Ticks

/-!
# `Tick` and the network thread

The network thread, gRPC and the writers move on between two steps of `Tick`, which tests the connection, tests and
dequeues in every `Read`, and ends.  `Read` refuses as soon as the client has an error, so what is still in
`ResponseQueue` then is not read any more.
-/

namespace SpeechlyPlugin.Plugin

open Engine Lib Client USpeechly

/-- Where `Tick` is. -/
inductive TickPc where
  | idle
  /-- about to test `IsConnected()` -/
  | test
  /-- about to broadcast the disconnection -/
  | disconnected
  /-- about to call `Read`, with rounds left -/
  | readTest (maxReads : ℕ) (locals : TickLocals)
  /-- in `Read`, past its test -/
  | readDequeue (maxReads : ℕ) (locals : TickLocals)
  | tickEnd (locals : TickLocals)

/-- The client and its threads, and the object with its ticker. -/
structure ConsumerState where
  net : NetState
  /-- the object, apart from its client -/
  plugin : USpeechly
  pc : TickPc
  /-- the ticker calls `Tick` -/
  ticker : Bool
  broadcasts : List Broadcast
  /-- the responses `Tick` has read and handled -/
  handled : List SLUResponse

namespace ConsumerState

/-- `Connect` has made the client, and its thread is about to enter `Run`. -/
def init (u : USpeechly) (languageCode : StdString) : ConsumerState where
  net := .init (.new languageCode kSampleRate)
  plugin := u.connect languageCode
  pc := .idle
  ticker := true
  broadcasts := []
  handled := []

variable (s : ConsumerState)

/-- The object. -/
def object : USpeechly := { s.plugin with client := some s.net.client }

def goto (pc : TickPc) : ConsumerState := { s with pc := pc }

/-- `ResponseQueue.Dequeue`, and what `Tick` does with the response. -/
def dequeue (maxReads : ℕ) (locals : TickLocals) : ConsumerState :=
  match s.net.client.dequeueResponse with
  | some (r, c) =>
    let (u, locals) := s.object.handleResponse locals r
    { s with
      net := { s.net with reader := false, client := c, returned := s.net.returned ++ [r] }
      plugin := u
      pc := .readTest maxReads locals
      handled := s.handled ++ [r] }
  | none => { s with net := { s.net with reader := false }, pc := .tickEnd locals }

/-- The next step of `Tick`. -/
def tick : Option ConsumerState :=
  match s.pc with
  | .idle => none
  | .test => some (s.goto (if s.object.isConnected then .readTest 10 .new else .disconnected))
  | .disconnected =>
    match s.object.disconnected with
    | .ok b => some { s with pc := .idle, ticker := false, broadcasts := s.broadcasts ++ [b] }
    | .error _ => none
  | .readTest 0 locals => some (s.goto (.tickEnd locals))
  | .readTest (maxReads + 1) locals =>
    some (if s.net.client.refuses then s.goto (.tickEnd locals)
      else { s with net := { s.net with reader := true }, pc := .readDequeue maxReads locals })
  | .readDequeue maxReads locals => some (s.dequeue maxReads locals)
  | .tickEnd locals =>
    let (u, broadcasts) := s.plugin.endTick locals
    some { s with plugin := u, pc := .idle, broadcasts := s.broadcasts ++ broadcasts }

end ConsumerState

/-- Whose turn it is. -/
inductive ConsumerLabel where
  /-- the network thread, gRPC, and the callers of `Write`, `WLUSync` and `Stop` -/
  | net (a : NetLabel)
  /-- the ticker calls `Tick` -/
  | callTick
  | tick

def consumerStep (s : ConsumerState) : ConsumerLabel → Option ConsumerState
  | .net a => if a.isRead then none else (netStep s.net a).map fun net => { s with net := net }
  | .callTick =>
    match s.pc, s.ticker with
    | .idle, true => some (s.goto .test)
    | _, _ => none
  | .tick => s.tick

/-- The client's threads and `Tick`. -/
def consumer : Machine ConsumerState ConsumerLabel := ⟨consumerStep⟩

/-- The states one connection can get into. -/
def ConsumerReach (s : ConsumerState) : Prop := ∃ u languageCode, consumer.Reach (.init u languageCode) s

namespace ConsumerState

variable {s t u : ConsumerState} {a : ConsumerLabel}

/-- `Tick` is past the test of a `Read`. -/
def dequeues (s : ConsumerState) : Bool :=
  match s.pc with
  | .readDequeue _ _ => true
  | _ => false

/-! ## What one step does to the client -/

/-- What a step is for the client and for what has been handled. -/
inductive Moves (s t : ConsumerState) : Prop where
  | onward (hnet : Onward s.net t.net) (hstep : t.net = s.net ∨ ∃ b, netStep s.net b = some t.net)
      (hpc : t.dequeues = s.dequeues) (hhandled : t.handled = s.handled)
  /-- a `Read` passes its test -/
  | pass (hrefuses : s.net.client.refuses = false) (hpc : s.dequeues = false) (hpc' : t.dequeues = true)
      (hnet : t.net = { s.net with reader := true }) (hhandled : t.handled = s.handled)
  /-- it dequeues a response, and `Tick` handles it -/
  | take (r : SLUResponse) (rs : List SLUResponse) (hqueue : s.net.client.responseQueue = r :: rs)
      (hpc : s.dequeues = true) (hpc' : t.dequeues = false)
      (hnet : t.net = { s.net with
        reader := false, client := { s.net.client with responseQueue := rs }, returned := s.net.returned ++ [r] })
      (hhandled : t.handled = s.handled ++ [r])
  /-- it finds the queue empty -/
  | empty (hqueue : s.net.client.responseQueue = []) (hpc : s.dequeues = true) (hpc' : t.dequeues = false)
      (hnet : t.net = { s.net with reader := false }) (hhandled : t.handled = s.handled)

theorem moves_dequeue (hpc : s.dequeues = true) (maxReads : ℕ) (locals : TickLocals) :
    s.Moves (s.dequeue maxReads locals) := by
  unfold dequeue SpeechlyClient.dequeueResponse
  cases hq : s.net.client.responseQueue with
  | nil => exact .empty hq hpc rfl rfl rfl
  | cons r rs => exact .take r rs hq hpc rfl rfl rfl

theorem moves_step (ht : consumer.step s a = some t) : s.Moves t := by
  cases a with
  | net a =>
    simp only [consumer, consumerStep] at ht
    split at ht
    · cases ht
    · rename_i ha
      obtain ⟨net, hnet, rfl⟩ := Option.map_eq_some_iff.mp ht
      exact .onward (onward_step (by simpa using ha) hnet) (Or.inr ⟨a, hnet⟩) rfl rfl
  | callTick =>
    simp only [consumer, consumerStep] at ht
    split at ht
    · rename_i hpc _
      cases ht
      exact .onward (.refl _) (Or.inl rfl) (by simp only [dequeues, goto, hpc]) rfl
    · cases ht
  | tick =>
    simp only [consumer, consumerStep, tick] at ht
    cases hpc : s.pc <;> simp only [hpc, reduceCtorEq, Option.some.injEq] at ht
    case test =>
      subst ht
      refine .onward (.refl _) (Or.inl rfl) ?_ rfl
      simp only [dequeues, goto, hpc]
      cases s.object.isConnected <;> rfl
    case disconnected =>
      split at ht <;> cases ht
      exact .onward (.refl _) (Or.inl rfl) (by simp only [dequeues, hpc]) rfl
    case readTest maxReads locals =>
      cases maxReads with
      | zero =>
        cases ht
        exact .onward (.refl _) (Or.inl rfl) (by simp only [dequeues, goto, hpc]) rfl
      | succ maxReads =>
        cases ht
        cases hrefuses : s.net.client.refuses with
        | true => exact .onward (.refl _) (Or.inl rfl) (by simp only [dequeues, goto, hpc, if_true]) rfl
        | false => exact .pass hrefuses (by simp only [dequeues, hpc]) rfl rfl rfl
    case readDequeue maxReads locals =>
      subst ht
      exact moves_dequeue (by simp only [dequeues, hpc]) maxReads locals
    case tickEnd locals =>
      subst ht
      exact .onward (.refl _) (Or.inl rfl) (by simp only [dequeues, hpc]) rfl

/-! ## Invariants -/

/-- The reader of the network model is `Tick`, and what it has returned has been handled. -/
structure Consistent (s : ConsumerState) : Prop where
  reach : NetReach s.net
  reader : s.net.reader = s.dequeues
  returned : s.net.returned = s.handled
  resting : s.ticker = false → s.pc = .idle

theorem consistent_init (u : USpeechly) (languageCode : StdString) : (init u languageCode).Consistent :=
  ⟨⟨languageCode, kSampleRate, .refl _⟩, rfl, rfl, fun h => by cases h⟩

/-- Once the disconnection has been broadcast, `Tick` is not called any more. -/
theorem resting_step (h : s.ticker = false → s.pc = .idle) (ht : consumer.step s a = some t) :
    t.ticker = false → t.pc = .idle := by
  cases a with
  | net a =>
    simp only [consumer, consumerStep] at ht
    split at ht
    · cases ht
    · obtain ⟨net, -, rfl⟩ := Option.map_eq_some_iff.mp ht
      exact h
  | callTick =>
    simp only [consumer, consumerStep] at ht
    split at ht
    · rename_i hticker
      cases ht
      intro hgone
      rw [goto, hticker] at hgone
      cases hgone
    · cases ht
  | tick =>
    intro hgone
    simp only [consumer, consumerStep, tick] at ht
    cases hpc : s.pc <;> simp only [hpc, reduceCtorEq, imp_false, Bool.not_eq_false, Option.some.injEq] at ht h
    case disconnected =>
      split at ht <;> cases ht
      rfl
    case readTest maxReads locals =>
      cases maxReads with
      | zero =>
        cases ht
        rw [goto, h] at hgone
        cases hgone
      | succ maxReads =>
        cases ht
        split at hgone <;> simp [goto, h] at hgone
    case readDequeue maxReads locals =>
      subst ht
      unfold dequeue at hgone
      split at hgone <;> simp [h] at hgone
    case tickEnd locals =>
      subst ht
      rfl
    case test =>
      subst ht
      simp [goto, h] at hgone

theorem Consistent.step (h : s.Consistent) (ht : consumer.step s a = some t) : t.Consistent := by
  have hresting := resting_step h.resting ht
  rcases moves_step ht with ⟨hnet, hstep, hpc, hhandled⟩ | ⟨hrefuses, hpc, hpc', hnet, hhandled⟩ |
    ⟨r, rs, hqueue, hpc, hpc', hnet, hhandled⟩ | ⟨hqueue, hpc, hpc', hnet, hhandled⟩
  · refine ⟨?_, by rw [hnet.reader, h.reader, hpc], by rw [hnet.returned, h.returned, hhandled], hresting⟩
    rcases hstep with hsame | ⟨b, hb⟩
    · rw [hsame]
      exact h.reach
    · exact NetReach.step h.reach hb
  · refine ⟨NetReach.step (a := .readTest) h.reach ?_, by rw [hnet, hpc'], by rw [hnet, hhandled, ← h.returned], hresting⟩
    have hidle := h.reader.trans hpc
    simp only [netStep, hidle, hrefuses, hnet, Bool.false_eq_true, if_false]
  · refine ⟨NetReach.step (a := .readDequeue) h.reach ?_, by rw [hnet, hpc'], by rw [hnet, hhandled, h.returned], hresting⟩
    have hbusy := h.reader.trans hpc
    simp only [netStep, hbusy, if_true, SpeechlyClient.dequeueResponse, hqueue, hnet]
  · refine ⟨NetReach.step (a := .readDequeue) h.reach ?_, by rw [hnet, hpc'], by rw [hnet, hhandled, ← h.returned], hresting⟩
    have hbusy := h.reader.trans hpc
    simp only [netStep, hbusy, if_true, SpeechlyClient.dequeueResponse, hqueue, hnet]

theorem ConsumerReach.consistent (h : ConsumerReach s) : s.Consistent := by
  obtain ⟨u, languageCode, h⟩ := h
  exact h.inv (fun _ _ _ => Consistent.step) (consistent_init u languageCode)

/-- What has been put into the queue has been handled or is still there. -/
theorem Consistent.out (h : s.Consistent) : s.handled ++ s.net.client.responseQueue = s.net.enqueued.map Prod.snd := by
  rw [← h.returned]
  exact h.reach.fifoInv.out

/-! ## After the error -/

/-- The `Read` that may still take a response. -/
def pending (s : ConsumerState) : ℕ := if s.dequeues then 1 else 0

/-- What is known of `v` when the error came right after `s`. -/
structure AfterError (s v : ConsumerState) : Prop where
  consistent : v.Consistent
  hasError : v.net.client.bHasError = true
  enqueued : s.net.enqueued <+: v.net.enqueued
  atMost : v.handled.length + v.pending ≤ s.handled.length + s.pending
  atLeast : s.handled.length + min s.net.client.responseQueue.length s.pending ≤ v.handled.length + v.pending

theorem AfterError.step {v w : ConsumerState} (hs : s.Consistent) (h : AfterError s v) (hw : consumer.step v a = some w) :
    AfterError s w := by
  have hconsistent := h.consistent.step hw
  rcases moves_step hw with ⟨hnet, hstep, hpc, hhandled⟩ | ⟨hrefuses, hpc, hpc', hnet, hhandled⟩ |
    ⟨r, rs, hqueue, hpc, hpc', hnet, hhandled⟩ | ⟨hqueue, hpc, hpc', hnet, hhandled⟩
  · have hpending : w.pending = v.pending := by rw [pending, pending, hpc]
    exact ⟨hconsistent, hnet.hasError h.hasError, h.enqueued.trans hnet.enqueued, by rw [hhandled, hpending]; exact h.atMost,
      by rw [hhandled, hpending]; exact h.atLeast⟩
  · -- no `Read` passes its test any more
    rw [SpeechlyClient.refuses, h.hasError] at hrefuses
    cases hrefuses
  · have hv : v.pending = 1 := by rw [pending, hpc]; rfl
    have hw : w.pending = 0 := by rw [pending, hpc']; rfl
    have hmost := h.atMost
    have hleast := h.atLeast
    refine ⟨hconsistent, by rw [hnet]; exact h.hasError, by rw [hnet]; exact h.enqueued, ?_, ?_⟩ <;>
      rw [hhandled, List.length_append, List.length_singleton] <;> omega
  · have hv : v.pending = 1 := by rw [pending, hpc]; rfl
    have hw : w.pending = 0 := by rw [pending, hpc']; rfl
    have hmost := h.atMost
    -- everything there has ever been in the queue has been handled
    have hall := congrArg List.length h.consistent.out
    have hbefore := congrArg List.length hs.out
    have hlen := h.enqueued.length_le
    rw [hqueue, List.append_nil, List.length_map] at hall
    rw [List.length_append, List.length_map] at hbefore
    refine ⟨hconsistent, by rw [hnet]; exact h.hasError, by rw [hnet]; exact h.enqueued, ?_, ?_⟩ <;>
      rw [hhandled] <;> omega

/-- The step that sets the error. -/
theorem afterError_start (hs : s.Consistent) (ht : consumer.step s a = some t)
    (hbefore : s.net.client.bHasError = false) (herror : t.net.client.bHasError = true) : AfterError s t := by
  rcases moves_step ht with ⟨hnet, -, hpc, hhandled⟩ | ⟨-, -, -, hnet, -⟩ | ⟨_, _, -, -, -, hnet, -⟩ | ⟨-, -, -, hnet, -⟩
  · have hpending : t.pending = s.pending := by rw [pending, pending, hpc]
    exact ⟨hs.step ht, herror, hnet.enqueued, by rw [hhandled, hpending], by rw [hhandled, hpending]; omega⟩
  all_goals
    rw [hnet] at herror
    exact absurd (hbefore.symm.trans herror) Bool.false_ne_true

end ConsumerState

/-! ## The theorem -/

/-- **What is handled before the disconnection.**  Whenever the client gets an error, and however the run goes on until the
disconnection has been broadcast: everything that was in `ResponseQueue` before has been handled exactly when it was
empty, or held one response that a `Read` past its test was about to take. -/
theorem handled_iff {s t u : ConsumerState} (hs : ConsumerReach s) {a : ConsumerLabel} (ht : consumer.step s a = some t)
    (hbefore : s.net.client.bHasError = false) (herror : t.net.client.bHasError = true) (hu : consumer.Reach t u)
    (hgone : u.ticker = false) :
    s.net.enqueued.map Prod.snd <+: u.handled ↔
      s.net.client.responseQueue.length ≤ if s.dequeues then 1 else 0 := by
  have hconsistent := ConsumerState.ConsumerReach.consistent hs
  have hafter : ConsumerState.AfterError s u :=
    hu.inv (fun _ _ _ => ConsumerState.AfterError.step hconsistent)
      (ConsumerState.afterError_start hconsistent ht hbefore herror)
  have hpending : u.pending = 0 := by
    rw [ConsumerState.pending, ConsumerState.dequeues, hafter.consistent.resting hgone]
    rfl
  have hmost := hafter.atMost
  have hleast := hafter.atLeast
  have hlen := congrArg List.length hconsistent.out
  rw [List.length_append, List.length_map] at hlen
  -- both are prefixes of all that has been enqueued, so the lengths decide
  have hall : s.net.enqueued.map Prod.snd <+: u.net.enqueued.map Prod.snd := hafter.enqueued.map Prod.snd
  have hhandled : u.handled <+: u.net.enqueued.map Prod.snd := by
    rw [← hafter.consistent.out]
    exact List.prefix_append _ _
  have hiff : s.net.enqueued.map Prod.snd <+: u.handled ↔ s.net.enqueued.length ≤ u.handled.length := by
    constructor
    · intro h
      simpa using h.length_le
    · intro h
      exact List.prefix_of_prefix_length_le hall hhandled (by simpa using h)
  rw [hiff]
  show _ ↔ s.net.client.responseQueue.length ≤ s.pending
  omega

/-- The stream is open, and the server's `started` is put into `ResponseQueue`. -/
def startedArrives : List ConsumerLabel :=
  opening.map .net ++ [.net .thread, .net .thread, .net .thread, .net (.complete 3 true ⟨[97], 0, .started⟩), .net (.next 3),
    .net .thread, .net .thread, .net .thread]

/-- The next read fails. -/
def readFails : List ConsumerLabel := [.net (.complete 4 false default)]

/-- A `Tick` between the response and the failure. -/
theorem handled_iff_between :
    ∃ s t u, consumer.run (.init .new [])
        (startedArrives ++ .callTick :: List.replicate 6 .tick ++ readFails) = some s ∧
      consumer.step s (.net (.next 4)) = some t ∧ consumer.run t [.callTick, .tick, .tick] = some u ∧
      (s.net.enqueued.map Prod.snd <+: u.handled ↔
        s.net.client.responseQueue.length ≤ if s.dequeues then 1 else 0) := by
  have hrun : ((consumer.run (.init .new [])
      (startedArrives ++ .callTick :: List.replicate 6 .tick ++ readFails)).bind fun s =>
        (consumer.step s (.net (.next 4))).bind fun t => (consumer.run t [.callTick, .tick, .tick]).map fun u =>
          (s.net.client.bHasError, t.net.client.bHasError, u.ticker)) = some (false, true, false) := by
    decide +kernel
  obtain ⟨s, hs, hrun⟩ := Option.bind_eq_some_iff.mp hrun
  obtain ⟨t, ht, hrun⟩ := Option.bind_eq_some_iff.mp hrun
  obtain ⟨u, hu, hrun⟩ := Option.map_eq_some_iff.mp hrun
  simp only [Prod.mk.injEq] at hrun
  exact ⟨s, t, u, hs, ht, hu, handled_iff ⟨.new, [], _, hs⟩ ht hrun.1 hrun.2.1 ⟨_, hu⟩ hrun.2.2⟩

/-- A response is in the queue when the next read fails: `Tick` broadcasts the disconnection and is not called any more, and
the response is never handled. -/
theorem lost_at_error :
    (consumer.run (.init .new []) (startedArrives ++ readFails)).map
      (fun s => (s.net.enqueued.map Prod.snd, s.net.client.bHasError)) = some ([⟨[97], 0, .started⟩], false) ∧
    (consumer.run (.init .new []) (startedArrives ++ readFails ++ [.net (.next 4), .callTick, .tick, .tick])).map
      (fun s => (s.net.client.bHasError, s.ticker, s.broadcasts.length, s.handled)) = some (true, false, 1, []) := by
  decide +kernel

end SpeechlyPlugin.Plugin
