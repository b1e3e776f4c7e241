import SpeechlyPlugin.Client.Gapless
import SpeechlyPlugin.Plugin.Requests
import SpeechlyPlugin.Plugin.Shared
import SpeechlyPlugin.Proto.Views

/-!
# The plugin, the thread of its client and gRPC

The two machines together: a step of the plugin is a step of `sys` whose `Write` and `Read` are steps of `net` as well, and
a step of the network thread changes the client the plugin holds.  `Init` logs in before the first step of `Run`.  A message
of the stream comes as bytes, in slices, and a read is completed with what they are decoded to.

The thread takes no step after `Start` or `Stop` has destroyed its client.
-/

namespace SpeechlyPlugin.Client

open Engine Lib

namespace NetState

variable (s : NetState)

/-- `SpeechlyClient::Init` after a login that has failed, with the message of its status. -/
def loginFails (message : StdString) : NetState :=
  let message := (FString.lit "Could not login: ").append (FString.ofCStr message)
  { s with
    log := s.log ++ ["Could not call login", String.ofList message.chars]
    client := s.client.setError message }

variable {s} in
theorem known_loginFails (h : "Speechly unknown tag" ∉ s.log) (message : StdString) :
    "Speechly unknown tag" ∉ (s.loginFails message).log := by
  have hline (rest : List Char) : "Speechly unknown tag" ≠ String.ofList ("Could not login: ".toList ++ rest) := by
    intro heq
    have hchars : "Speechly unknown tag".toList = "Could not login: ".toList ++ rest := by rw [heq, String.toList_ofList]
    simp at hchars
  simp only [loginFails, List.mem_append, List.mem_cons, List.not_mem_nil, or_false, not_or]
  exact ⟨h, by decide, hline _⟩

/-- A read with this tag is in flight. -/
def readPending (tag : ℕ) : Bool := s.inflight.any fun p => p.tag = tag ∧ p.kind = .read ∧ p.done = none

end NetState

/-- The label is the call of `Stop`. -/
def NetLabel.isStop : NetLabel → Bool
  | .stop => true
  | _ => false

end SpeechlyPlugin.Client

namespace SpeechlyPlugin.Plugin

open Engine Lib Client Recorder

/-- The responses `Tick` has read. -/
def handledOf (l : List Obs) : List SLUResponse :=
  l.filterMap fun
    | .handled r _ => some r
    | _ => none

theorem handledOf_append (l l' : List Obs) : handledOf (l ++ l') = handledOf l ++ handledOf l' := List.filterMap_append

/-- The step is one of the game thread or of the audio thread. -/
def SysLabel.ofPlugin : SysLabel → Bool
  | .callStart | .callStop | .callTick | .game _ | .capture _ => true
  | _ => false

/-- How far `Init` has come. -/
inductive Login where
  | underway
  | succeeded
  | failed
  deriving DecidableEq

/-- What a read gets of a message: the `Ok` flag, and the `Response` it leaves. -/
def readMessage (slices : List (List UInt8)) (left : SLUResponse) : Bool × SLUResponse :=
  match Proto.SLUResponse.codec.deserialize slices with
  | some m => (true, Proto.SLUResponse.toEngine m)
  | none => (false, left)

structure WorldState where
  sys : SysState
  net : NetState
  login : Login
  /-- the messages of the stream that reads have been given, each in the slices it came in -/
  arrived : List (List (List UInt8))

namespace WorldState

/-- After `Connect`. -/
def init (u : USpeechly) (languageCode : StdString) : WorldState where
  sys := .init (u.connect languageCode)
  net := .init (.new languageCode kSampleRate)
  login := .underway
  arrived := []

variable (s : WorldState)

/-- The client is still there. -/
def threadRuns : Bool := s.sys.fault.isNone && s.sys.plugin.client.isSome

/-- After a step of the plugin. -/
def follow (t : SysState) : WorldState :=
  { s with
    sys := t
    net := { s.net with
      client := t.plugin.client.getD s.net.client, accepted := acceptedOf t.trace, returned := handledOf t.trace } }

/-- After a step of the network thread. -/
def bring (n : NetState) : WorldState := { s with sys := s.sys.onClient fun _ => n.client, net := n }

end WorldState

/-- Whose turn it is, and what the environment chooses. -/
inductive WorldLabel where
  | plugin (a : SysLabel)
  | loginSucceeds
  | loginFails (message : StdString)
  /-- the network thread, the responses of `WLUSync` and the call of `Stop` -/
  | network (a : NetLabel)
  /-- gRPC completes an operation, a read without a message -/
  | complete (tag : ℕ) (ok : Bool) (left : SLUResponse)
  /-- gRPC completes a read with a message of the stream; one that cannot be decoded leaves something in `Response` -/
  | arrive (tag : ℕ) (slices : List (List UInt8)) (left : SLUResponse)

def worldStep (s : WorldState) : WorldLabel → Option WorldState
  | .plugin a => if a.ofPlugin then (sys.step s.sys a).map s.follow else none
  | .loginSucceeds => if s.threadRuns ∧ s.login = .underway then some { s with login := .succeeded } else none
  | .loginFails message =>
    if s.threadRuns ∧ s.login = .underway then some ({ s with login := .failed }.bring (s.net.loginFails message)) else none
  | .network a =>
    if s.threadRuns ∧ (s.login = .succeeded ∨ a.isStop) ∧ a.ofNetwork then (net.step s.net a).map s.bring else none
  | .complete tag ok left =>
    if s.threadRuns ∧ s.login = .succeeded ∧ ¬(ok ∧ s.net.readPending tag) then
      (net.step s.net (.complete tag ok left)).map s.bring
    else none
  | .arrive tag slices left =>
    if s.threadRuns ∧ s.login = .succeeded ∧ s.net.readPending tag then
      let (ok, message) := readMessage slices left
      (net.step s.net (.complete tag ok message)).map fun n => { s.bring n with arrived := s.arrived ++ [slices] }
    else none

/-- The plugin, its client's thread and gRPC. -/
def world : Machine WorldState WorldLabel := ⟨worldStep⟩

/-- The states one connection can get into. -/
def WorldReach (languageCode : StdString) (s : WorldState) : Prop := ∃ u, world.Reach (.init u languageCode) s

/-- What a step does. -/
inductive WorldState.Step (s : WorldState) : WorldLabel → WorldState → Prop where
  | plugin {a : SysLabel} {t : SysState} (ha : a.ofPlugin = true) (ht : Plugin.sys.step s.sys a = some t) :
      Step s (.plugin a) (s.follow t)
  | loginSucceeds : Step s .loginSucceeds { s with login := .succeeded }
  | loginFails {message : StdString} (hruns : s.threadRuns = true) :
      Step s (.loginFails message) ({ s with login := .failed }.bring (s.net.loginFails message))
  | network {a : NetLabel} {n : NetState} (hruns : s.threadRuns = true) (ha : a.ofNetwork = true)
      (hn : Client.net.step s.net a = some n) : Step s (.network a) (s.bring n)
  | complete {tag : ℕ} {ok : Bool} {left : SLUResponse} {n : NetState} (hruns : s.threadRuns = true)
      (hother : ok = true → s.net.readPending tag = false) (hn : Client.net.step s.net (.complete tag ok left) = some n) :
      Step s (.complete tag ok left) (s.bring n)
  | arrive {tag : ℕ} {slices : List (List UInt8)} {left : SLUResponse} {n : NetState} (hruns : s.threadRuns = true)
      (hpending : s.net.readPending tag = true)
      (hn : Client.net.step s.net (.complete tag (readMessage slices left).1 (readMessage slices left).2) = some n) :
      Step s (.arrive tag slices left) { s.bring n with arrived := s.arrived ++ [slices] }

/-- **Inversion of a step.** -/
theorem WorldState.step_of_worldStep {s t : WorldState} {a : WorldLabel} (ht : world.step s a = some t) : s.Step a t := by
  cases a <;> simp only [world, worldStep] at ht <;> split at ht <;> try cases ht
  case plugin a ha =>
    obtain ⟨t, hsys, rfl⟩ := Option.map_eq_some_iff.mp ht
    exact .plugin ha hsys
  case loginSucceeds => exact .loginSucceeds
  case loginFails h => exact .loginFails h.1
  case network h =>
    obtain ⟨n, hn, rfl⟩ := Option.map_eq_some_iff.mp ht
    exact .network h.1 h.2.2 hn
  case complete h =>
    obtain ⟨n, hn, rfl⟩ := Option.map_eq_some_iff.mp ht
    exact .complete h.1 (by simpa using h.2.2) hn
  case arrive h =>
    obtain ⟨n, hn, rfl⟩ := Option.map_eq_some_iff.mp ht
    exact .arrive h.1 h.2.2 hn

/-! ## A step of the plugin is a run of the client -/

namespace SysState

variable {s t : SysState}

/-- What a step of the plugin does to its client, with the two histories. -/
inductive Touches (s t : SysState) : Prop where
  | keeps (hclient : t.plugin.client = s.plugin.client ∨ t.plugin.client = none)
      (haccepted : acceptedOf t.trace = acceptedOf s.trace) (hhandled : handledOf t.trace = handledOf s.trace)
  | writes {c : SpeechlyClient} {r : SLURequest} (hc : s.plugin.client = some c) (hrefuses : c.refuses = false)
      (hclient : t.plugin.client = some (c.enqueueRequest r)) (haccepted : acceptedOf t.trace = acceptedOf s.trace ++ [r])
      (hhandled : handledOf t.trace = handledOf s.trace)
  | reads {c : SpeechlyClient} {r : SLUResponse} {rs : List SLUResponse} (hc : s.plugin.client = some c)
      (hrefuses : c.refuses = false) (hq : c.responseQueue = r :: rs)
      (hclient : t.plugin.client = some { c with responseQueue := rs })
      (haccepted : acceptedOf t.trace = acceptedOf s.trace) (hhandled : handledOf t.trace = handledOf s.trace ++ [r])

/-- Nothing is written or read. -/
theorem Touches.quiet (new : List Obs) (hclient : t.plugin.client = s.plugin.client ∨ t.plugin.client = none)
    (htrace : t.trace = s.trace ++ new) (haccepted : acceptedOf new = []) (hhandled : handledOf new = []) : Touches s t := by
  refine .keeps hclient ?_ ?_
  · rw [htrace, acceptedOf, List.filterMap_append, ← acceptedOf, ← acceptedOf, haccepted, List.append_nil]
  · rw [htrace, handledOf_append, hhandled, List.append_nil]

theorem touches_speech (s : SysState) (call : SpeechAudio) : Touches s (s.speech call) := by
  unfold speech
  cases hspeech : s.plugin.onSpeechAudio call with
  | error fault => exact .quiet [.speechAudio call] (Or.inl rfl) rfl rfl rfl
  | ok x =>
    obtain ⟨u, accepted⟩ := x
    obtain ⟨rfl, rfl, -⟩ | ⟨_, _, -, ⟨-, rfl, rfl⟩ | ⟨-, c, hc, rfl, rfl⟩⟩ := USpeechly.onSpeechAudio_inv hspeech
    · exact .quiet [.speechAudio call] (Or.inl rfl) (by simp) rfl rfl
    · exact .quiet [.speechAudio call] (Or.inl rfl) (by simp) rfl rfl
    · cases hrefuses : c.refuses with
      | true =>
        refine .quiet [.speechAudio call] (Or.inl ?_) (by simp) rfl rfl
        simp only [SpeechlyClient.write, hrefuses, if_true, hc]
      | false =>
        refine .writes (r := .audio (s.plugin.audioBuffer ++ encode call.samples)) hc hrefuses ?_ ?_ ?_
        · simp only [SpeechlyClient.write, hrefuses, Bool.false_eq_true, if_false]
        · simp [acceptedOf]
        · simp [handledOf]

theorem touches_game {p : Platform} (ht : s.game p = some t) : Touches s t := by
  cases gameStep ht with
  | recorderStart => exact .quiet [.recorderStart] (Or.inl rfl) rfl rfl rfl
  | startStop | stopRecorder => exact .quiet [.recorderStop] (Or.inl rfl) rfl rfl rfl
  | accepted _ hc hrefuses =>
    exact .writes hc hrefuses rfl (by simp [finishCall, observe, acceptedOf]) (by simp [finishCall, observe, handledOf])
  | handled _ hc hrefuses hq hu =>
    subst hu
    refine .reads hc hrefuses hq USpeechly.handleResponse_client ?_ ?_
    · simp [observe, acceptedOf]
    · simp [observe, handledOf]
  | startReset | stopReset => exact .keeps (Or.inr rfl) rfl rfl
  | endTick =>
    refine .keeps (Or.inl ?_) rfl rfl
    simp only
    rw [endTick_frame]
  | _ => exact .keeps (Or.inl rfl) rfl rfl

theorem touches_step {a : SysLabel} (ha : a.ofPlugin = true) (ht : sys.step s a = some t) : Touches s t := by
  cases step_of_sysStep ht with
  | start => exact .quiet [.start] (Or.inl rfl) rfl rfl rfl
  | stop => exact .quiet [.stop] (Or.inl rfl) rfl rfl rfl
  | tick => exact .keeps (Or.inl rfl) rfl rfl
  | game hgame => exact touches_game hgame
  | capture c =>
    unfold capture
    split
    · exact .keeps (Or.inl rfl) rfl rfl
    · exact .keeps (Or.inl rfl) rfl rfl
    · rename_i recorder call _
      have hspeech := touches_speech { s with plugin := { s.plugin with recorder := recorder } } call
      cases hspeech with
      | keeps hclient haccepted hhandled => exact .keeps hclient haccepted hhandled
      | writes hc hrefuses hclient haccepted hhandled => exact .writes hc hrefuses hclient haccepted hhandled
      | reads hc hrefuses hq hclient haccepted hhandled => exact .reads hc hrefuses hq hclient haccepted hhandled
  | _ => cases ha

end SysState

namespace WorldState

variable {s t : WorldState}

/-- The two machines agree on what they share. -/
structure Linked (s : WorldState) : Prop where
  client : ∀ c, s.sys.plugin.client = some c → s.net.client = c
  accepted : s.net.accepted = acceptedOf s.sys.trace
  returned : s.net.returned = handledOf s.sys.trace
  writers : s.net.writers = []
  reader : s.net.reader = false

/-- **A step of the plugin is a run of the client**: nothing, a `Write` or a `Read`. -/
theorem Linked.reach_follow (h : s.Linked) {t : SysState} (htouches : SysState.Touches s.sys t) :
    Client.net.Reach s.net (s.follow t).net := by
  cases htouches with
  | keeps hclient haccepted hhandled =>
    have hsame : t.plugin.client.getD s.net.client = s.net.client := by
      rcases hclient with hclient | hclient <;> rw [hclient]
      · cases hc : s.sys.plugin.client with
        | none => rfl
        | some c => exact (h.client c hc).symm
      · rfl
    have hnet : (s.follow t).net = s.net := by
      simp only [follow, hsame, haccepted, hhandled, ← h.accepted, ← h.returned]
    rw [hnet]
    exact .refl _
  | @writes c r hc hrefuses hclient haccepted hhandled =>
    obtain rfl := h.client c hc
    refine ⟨[.writeTest r, .writeEnqueue r], ?_⟩
    simp [Machine.run, Client.net, netStep, hrefuses, follow, hclient, haccepted, hhandled, ← h.accepted, ← h.returned, h.writers]
  | @reads c r rs hc hrefuses hq hclient haccepted hhandled =>
    obtain rfl := h.client c hc
    refine ⟨[.readTest, .readDequeue], ?_⟩
    simp [Machine.run, Client.net, netStep, hrefuses, follow, hclient, haccepted, hhandled, ← h.accepted, ← h.returned, h.reader,
      SpeechlyClient.dequeueResponse, hq]

/-! ## The invariant -/

theorem changes_configRequest (acts : List NetworkAct) (c : SpeechlyClient) :
    (NetworkAct.changes acts c).configRequest = c.configRequest := by
  induction acts generalizing c with
  | nil => rfl
  | cons a acts ih =>
    refine (ih (a.change c)).trans ?_
    cases a <;> rfl

/-- The messages reads have been completed with. -/
def messages (arrived : List (List (List UInt8))) : List SLUResponse :=
  arrived.filterMap fun slices => (Proto.SLUResponse.codec.deserialize slices).map Proto.SLUResponse.toEngine

theorem messages_concat (arrived : List (List (List UInt8))) (slices : List (List UInt8)) (left : SLUResponse) :
    messages (arrived ++ [slices]) =
      if (readMessage slices left).1 then messages arrived ++ [(readMessage slices left).2] else messages arrived := by
  unfold messages readMessage
  rw [List.filterMap_append]
  cases hread : Proto.SLUResponse.codec.deserialize slices <;> simp [hread]

/-- The invariant of the two machines together. -/
structure Inv (languageCode : StdString) (s : WorldState) : Prop extends s.Linked where
  tags : s.net.TagInv
  fifo : FifoInv s.net
  gapless : GaplessInv s.net
  config : s.net.client.configRequest = .config ⟨1, kSampleRate, languageCode⟩
  arrived : s.net.received.map Prod.snd = messages s.arrived

variable {languageCode : StdString}

/-- What a run of `net` keeps, while the messages stay the same. -/
theorem net_run_inv {n n' : NetState} (h : n.TagInv ∧ FifoInv n ∧ GaplessInv n) (hrun : Client.net.Reach n n') :
    n'.TagInv ∧ FifoInv n' ∧ GaplessInv n' := by
  refine Machine.Reach.inv (I := fun n => n.TagInv ∧ FifoInv n ∧ GaplessInv n) (fun n a n' h ht => ?_) h hrun
  exact ⟨tagInv_step h.1 ht, fifoInv_step h.2.1 h.1 ht, gaplessInv_step h.2.2 h.1 h.2.1 ht⟩

/-- A step of the plugin. -/
theorem Inv.follow (h : s.Inv languageCode) {t : SysState} (htouches : SysState.Touches s.sys t) :
    (s.follow t).Inv languageCode := by
  obtain ⟨htags, hfifo, hgapless⟩ := net_run_inv ⟨h.tags, h.fifo, h.gapless⟩ (h.toLinked.reach_follow htouches)
  refine ⟨⟨fun c hc => ?_, rfl, rfl, h.writers, h.reader⟩, htags, hfifo, hgapless, ?_, h.arrived⟩
  · have hc : t.plugin.client = some c := hc
    show t.plugin.client.getD s.net.client = c
    rw [hc]
    rfl
  · show (t.plugin.client.getD s.net.client).configRequest = _
    rw [← h.config]
    cases htouches with
    | keeps hclient =>
      rcases hclient with hclient | hclient <;> rw [hclient]
      · cases hc : s.sys.plugin.client with
        | none => rfl
        | some c => rw [h.client c hc]; rfl
      · rfl
    | writes hc _ hclient => rw [hclient, h.client _ hc]; rfl
    | reads hc _ _ hclient => rw [hclient, h.client _ hc]; rfl

/-- A change of the client that the calls of `Write` and `Read` do not see. -/
theorem Linked.bring (h : s.Linked) {n : NetState} (hcalls : calls n = calls s.net) : (s.bring n).Linked where
  client c hc := by
    obtain ⟨_, -, hc⟩ := Option.map_eq_some_iff.mp hc
    exact hc
  accepted := (congrArg (fun x => x.1) hcalls).trans h.accepted
  returned := (congrArg (fun x => x.2.1) hcalls).trans h.returned
  writers := (congrArg (fun x => x.2.2.1) hcalls).trans h.writers
  reader := (congrArg (fun x => x.2.2.2) hcalls).trans h.reader

/-- A step of the network thread or of gRPC. -/
theorem Inv.bring (h : s.Inv languageCode) {n : NetState} {acts : List NetworkAct}
    (hacts : n.client.shared = NetworkAct.changes acts s.net.client.shared) (hcalls : calls n = calls s.net)
    {a : NetLabel} (hn : Client.net.step s.net a = some n) {arrived : List (List (List UInt8))}
    (harrived : n.received.map Prod.snd = messages arrived) :
    ({ s.bring n with arrived := arrived } : WorldState).Inv languageCode := by
  have hlinked := h.toLinked.bring hcalls
  refine ⟨⟨hlinked.client, hlinked.accepted, hlinked.returned, hlinked.writers, hlinked.reader⟩, tagInv_step h.tags hn,
    fifoInv_step h.fifo h.tags hn, gaplessInv_step h.gapless h.tags h.fifo hn, ?_, harrived⟩
  show n.client.shared.configRequest = _
  rw [hacts, changes_configRequest]
  exact h.config

/-- gRPC completes an operation: the client keeps what the plugin sees of it, and there is a new message only if the
operation is a read. -/
theorem complete_frame {n n' : NetState} {tag : ℕ} {ok : Bool} {message : SLUResponse}
    (hn : Client.net.step n (.complete tag ok message) = some n') :
    n'.client.shared = n.client.shared ∧ calls n' = calls n ∧
      ∃ p ∈ n.inflight, p.tag = tag ∧ p.done = none ∧
        n'.received = if p.kind = .read ∧ ok then n.received ++ [(tag, message)] else n.received := by
  obtain ⟨p, hp, rfl, hdone, rfl⟩ := NetState.complete_cases hn
  refine ⟨?_, rfl, p, hp, rfl, hdone, rfl⟩
  dsimp only
  split <;> rfl

theorem Inv.complete (h : s.Inv languageCode) {tag : ℕ} {ok : Bool} {left : SLUResponse} {n : NetState}
    (hother : ok = true → s.net.readPending tag = false) (hn : Client.net.step s.net (.complete tag ok left) = some n) :
    (s.bring n).Inv languageCode := by
  obtain ⟨hshared, hcalls, p, hp, rfl, hdone, hreceived⟩ := complete_frame hn
  have hno : ¬(p.kind = .read ∧ ok = true) := by
    rintro ⟨hk, hok⟩
    have hpending : s.net.readPending p.tag = true := List.any_eq_true.mpr ⟨p, hp, by simp [hk, hdone]⟩
    cases hpending.symm.trans (hother hok)
  have hacts : n.client.shared = NetworkAct.changes [] s.net.client.shared := hshared
  refine h.bring hacts hcalls hn ?_
  rw [hreceived, if_neg hno]
  exact h.arrived

theorem Inv.arrive (h : s.Inv languageCode) {tag : ℕ} {slices : List (List UInt8)} {left : SLUResponse} {n : NetState}
    (hpending : s.net.readPending tag = true)
    (hn : Client.net.step s.net (.complete tag (readMessage slices left).1 (readMessage slices left).2) = some n) :
    ({ s.bring n with arrived := s.arrived ++ [slices] } : WorldState).Inv languageCode := by
  obtain ⟨hshared, hcalls, p, hp, rfl, hdone, hreceived⟩ := complete_frame hn
  have hk : p.kind = .read := by
    obtain ⟨q, hq, hread⟩ := List.any_eq_true.mp hpending
    simp only [decide_eq_true_eq] at hread
    rw [← hread.2.1, List.inj_on_of_nodup_map h.tags.tagged.tags_nodup hq hp hread.1]
  have hacts : n.client.shared = NetworkAct.changes [] s.net.client.shared := hshared
  refine h.bring hacts hcalls hn ?_
  rw [hreceived, messages_concat s.arrived slices left, ← h.arrived]
  cases hok : (readMessage slices left).1 <;> simp [hk]

theorem Inv.loginFails (h : s.Inv languageCode) (message : StdString) :
    ({ s with login := .failed }.bring (s.net.loginFails message)).Inv languageCode := by
  have hlinked := h.toLinked.bring (n := s.net.loginFails message) rfl
  refine ⟨⟨hlinked.client, hlinked.accepted, hlinked.returned, hlinked.writers, hlinked.reader⟩,
    ⟨h.tags.tagged, ?_, h.tags.reads, h.tags.phase⟩, ⟨h.fifo.sent.move rfl rfl id id, h.fifo.delivery, h.fifo.out⟩,
    h.gapless.move rfl rfl rfl id, h.config, h.arrived⟩
  exact NetState.known_loginFails h.tags.known message

/-- **Every step keeps the invariant.** -/
theorem Inv.step {a : WorldLabel} (h : s.Inv languageCode) (ht : world.step s a = some t) : t.Inv languageCode := by
  cases step_of_worldStep ht with
  | plugin ha hsys => exact h.follow (SysState.touches_step ha hsys)
  | loginSucceeds => exact ⟨⟨h.client, h.accepted, h.returned, h.writers, h.reader⟩, h.tags, h.fifo, h.gapless, h.config, h.arrived⟩
  | loginFails => exact h.loginFails _
  | network _ ha hn =>
    obtain ⟨⟨acts, hacts⟩, hcalls, hreceived⟩ := acts_step ha hn
    refine h.bring hacts hcalls hn ?_
    rw [hreceived]
    exact h.arrived
  | complete _ hother hn => exact h.complete hother hn
  | arrive _ hpending hn => exact h.arrive hpending hn

theorem inv_init (u : USpeechly) (languageCode : StdString) : (init u languageCode).Inv languageCode where
  client c hc := by cases hc; rfl
  accepted := rfl
  returned := rfl
  writers := rfl
  reader := rfl
  tags := tagInv_init languageCode kSampleRate
  fifo := NetReach.fifoInv ⟨languageCode, kSampleRate, .refl _⟩
  gapless := gaplessInv_init _
  config := rfl
  arrived := rfl

/-! ## Seen from the plugin -/

theorem shared_bring (h : s.Linked) {n : NetState} {acts : List NetworkAct}
    (hacts : n.client.shared = NetworkAct.changes acts s.net.client.shared) :
    (s.bring n).sys.shared = s.sys.shared.onClient (NetworkAct.changes acts) := by
  have hclient : (s.sys.plugin.client.map fun _ => n.client).map (·.shared) =
      (s.sys.plugin.client.map (·.shared)).map (NetworkAct.changes acts) := by
    cases hc : s.sys.plugin.client with
    | none => rfl
    | some c =>
      rw [h.client c hc] at hacts
      exact congrArg some hacts
  simp only [bring, SysState.shared, SysState.onClient, USpeechly.shared, hclient]

theorem fault_of_threadRuns (h : s.threadRuns = true) : s.sys.shared.fault = none :=
  Option.isNone_iff_eq_none.mp ((Bool.and_eq_true _ _).mp h).1

theorem reach_bring (h : s.Linked) (hruns : s.threadRuns = true) {n : NetState} {acts : List NetworkAct}
    (hacts : n.client.shared = NetworkAct.changes acts s.net.client.shared) :
    Plugin.sys.Reach s.sys.shared (s.bring n).sys.shared := by
  rw [shared_bring h hacts]
  exact reach_changes (fault_of_threadRuns hruns) acts

/-- A step of the two machines is a run of the plugin and its environment. -/
theorem sim_step {a : WorldLabel} (h : s.Inv languageCode) (ht : world.step s a = some t) :
    Plugin.sys.Reach s.sys.shared t.sys.shared := by
  cases step_of_worldStep ht with
  | plugin _ hsys => exact (Machine.Reach.refl _).step (SysState.shared_step hsys)
  | loginSucceeds => exact .refl _
  | @loginFails message hruns =>
    have hacts : (s.net.loginFails message).client.shared = NetworkAct.changes [.hasError, .notRunning,
        .errorMessage ((FString.lit "Could not login: ").append (FString.ofCStr message))] s.net.client.shared := rfl
    exact reach_bring (s := { s with login := .failed }) ⟨h.client, h.accepted, h.returned, h.writers, h.reader⟩ hruns hacts
  | network hruns ha hn =>
    obtain ⟨⟨acts, hacts⟩, -, -⟩ := acts_step ha hn
    exact reach_bring h.toLinked hruns hacts
  | @complete _ _ _ n hruns _ hn =>
    have hacts : n.client.shared = NetworkAct.changes [] s.net.client.shared := (complete_frame hn).1
    exact reach_bring h.toLinked hruns hacts
  | @arrive _ _ _ n hruns _ hn =>
    have hacts : n.client.shared = NetworkAct.changes [] s.net.client.shared := (complete_frame hn).1
    exact reach_bring h.toLinked hruns hacts

end WorldState

theorem WorldReach.inv {languageCode : StdString} {s : WorldState} (h : WorldReach languageCode s) : s.Inv languageCode := by
  obtain ⟨u, h⟩ := h
  exact h.inv (I := fun s => s.Inv languageCode) (fun _ _ _ hs ht => hs.step ht) (WorldState.inv_init u languageCode)

/-- **The plugin with the thread of its client is the plugin in its environment.**  Every run of the two machines is, seen from
the plugin, a run of `sys`. -/
theorem sysReach_of_world {languageCode : StdString} {s : WorldState} (h : WorldReach languageCode s) :
    SysReach s.sys.shared := by
  obtain ⟨u, h⟩ := h
  refine ⟨u, languageCode, ?_⟩
  exact h.sim (I := fun s => s.Inv languageCode) (f := fun s => s.sys.shared) (fun _ _ _ hs ht => hs.step ht)
    (fun _ _ _ hs ht => WorldState.sim_step hs ht) (WorldState.inv_init u languageCode)

end SpeechlyPlugin.Plugin
