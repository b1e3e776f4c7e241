import SpeechlyPlugin.Client.Defs
import SpeechlyPlugin.Lib.Machine
import SpeechlyPlugin.Lib.Slots

/-!
# The network thread: `Run` and `Exit`

The thread of the client, one step between two calls it makes on the stream or the completion queue, together with gRPC
and with the threads that call `Write`, `Read`, `WLUSync` and `Stop`.

gRPC is a list of posted operations.  It completes each once, at any time and in any order, with an `Ok` flag of its
choice; a completed operation stays in the list until the thread takes its completion from the queue.  A read that is
completed fills the one `Response` all reads share.  The tags are the values of the counter `Seq`, a machine word that
fewer operations are posted than it has values.

The fields below `client` and `pc` are the history of the run.
-/

namespace SpeechlyPlugin.Client

open Engine Lib

/-- The operations the thread posts. -/
inductive OpKind where
  | openStream
  | write
  | read
  | finish
  deriving DecidableEq, Repr

/-- A posted operation whose completion has not been taken; `done` is its `Ok` flag once gRPC has completed it. -/
abbrev Posted := Op OpKind

/-- Where the thread is. -/
inductive Pc where
  /-- about to call `AsyncStream` -/
  | run
  | awaitOpen (streamSeq : ℕ)
  /-- about to write the `SLUConfig` -/
  | configure
  | awaitConfig
  /-- at the test of the main loop -/
  | loop
  | loopWrite
  | loopRead
  | loopNext
  /-- `Run` has returned, `Exit` is called -/
  | exit
  | drainRead
  | drainNext
  /-- about to call `Stream->Finish` -/
  | finish
  | awaitFinish (finishDoneSeq : ℕ)
  /-- about to call `CompletionQueue.Shutdown` -/
  | shutdown
  | awaitShutdown
  | done
  /-- a `check` failed -/
  | crashed
  deriving DecidableEq, Repr

/-- The place a completion was taken at. -/
inductive Phase where
  | opening
  | configuring
  | main
  | draining
  | finishing
  | shuttingDown
  deriving DecidableEq, Repr

/-- A completion the thread has taken. -/
structure Taken where
  phase : Phase
  tag : ℕ
  ok : Bool
  deriving DecidableEq, Repr

/-- Who put a response into the queue. -/
inductive Source where
  | stream
  | wlu
  deriving DecidableEq, Repr

/-- The client, its thread, and the history of the run. -/
structure NetState where
  client : SpeechlyClient
  pc : Pc
  /-- posted operations whose completion has not been taken -/
  inflight : List Posted
  cancelled : Bool
  queueShutdown : Bool
  /-- `Write` calls between their test and their `Enqueue` -/
  writers : List SLURequest
  /-- a `Read` call between its test and its `Dequeue` -/
  reader : Bool
  /-- the tags of all operations ever posted -/
  posted : List ℕ
  /-- what was passed to `Stream->Write` -/
  written : List SLURequest
  /-- the requests for which `Write` returned true, in the order of their `Enqueue` -/
  accepted : List SLURequest
  /-- the messages of the reads gRPC completed with `Ok`, in stream order, with their tags -/
  received : List (ℕ × SLUResponse)
  taken : List Taken
  /-- what was put into `ResponseQueue` -/
  enqueued : List (Source × SLUResponse)
  /-- what `Read` has returned -/
  returned : List SLUResponse
  /-- the operations in flight when `Exit` was called -/
  atExit : List Posted
  /-- the lines of `UE_LOG`, except for gRPC's exit status -/
  log : List String

namespace NetState

def init (client : SpeechlyClient) : NetState where
  client := client
  pc := .run
  inflight := []
  cancelled := false
  queueShutdown := false
  writers := []
  reader := false
  posted := []
  written := []
  accepted := []
  received := []
  taken := []
  enqueued := []
  returned := []
  atExit := []
  log := []

variable (s : NetState)

/-! ## Operations on the stream -/

/-- gRPC is given an operation. -/
def post (tag : ℕ) (kind : OpKind) : NetState :=
  { s with inflight := s.inflight ++ [⟨tag, kind, none⟩], posted := s.posted ++ [tag] }

/-- `SpeechlyClient::StreamWrite`. -/
def streamWrite (r : SLURequest) : Except Fault NetState := do
  check s.client.stream
  check s.client.canWrite
  let seq := s.client.seq + 1
  let s := s.post seq .write
  return { s with
    client := { s.client with seq := seq, lastWriteSeq := seq, bWriteAllowed := false }
    written := s.written ++ [r] }

/-- `SpeechlyClient::StreamRead(&Response)`. -/
def streamRead : Except Fault NetState := do
  check s.client.stream
  check s.client.canRead
  let seq := s.client.seq + 1
  let s := s.post seq .read
  return { s with client := { s.client with seq := seq, lastReadSeq := seq, bReadAllowed := false } }

/-- A failed `check` ends the thread. -/
def orCrash (x : Except Fault NetState) : NetState :=
  match x with
  | .ok t => t
  | .error _ => { s with pc := .crashed }

def goto (pc : Pc) : NetState := { s with pc := pc }

def logLine (line : String) : NetState := { s with log := s.log ++ [line] }

/-- `SetError(message)`, which logs the message. -/
def setError (message : String) : NetState :=
  { s.logLine message with client := s.client.setError (FString.lit message) }

/-! ## The thread between two waits -/

/-- The dequeue and `StreamWrite` of the main loop, under `CanWrite()`. -/
def pump : NetState :=
  if s.client.canWrite then
    match s.client.dequeueRequest with
    | some (r, c) => s.orCrash ({ s with client := c, pc := .loopRead }.streamWrite r)
    | none => s.goto .loopRead
  else s.goto .loopRead

/-- `if (CanRead()) StreamRead(&Response)`, then on to `pc`. -/
def postRead (pc : Pc) : NetState :=
  if s.client.canRead then s.orCrash ((s.goto pc).streamRead) else s.goto pc

/-- The next step of the thread when it does not wait for the completion queue. -/
def thread : Option NetState :=
  match s.pc with
  | .run =>
    let seq := s.client.seq + 1
    let s := s.post seq .openStream
    some { s with client := { s.client with seq := seq, stream := true }, pc := .awaitOpen seq }
  | .configure => some (s.orCrash ((s.goto .awaitConfig).streamWrite s.client.configRequest))
  | .loop => some (s.goto (if s.client.bIsRunning && !s.client.bHasError then .loopWrite else .exit))
  | .loopWrite => some s.pump
  | .loopRead => some (s.postRead .loopNext)
  | .exit =>
    let s := { s with atExit := s.inflight }
    if s.client.stream then
      let s := if s.client.bHasError then s else { s with cancelled := true }
      some (s.goto .drainRead)
    else some (s.goto .done)
  | .drainRead => some (s.postRead .drainNext)
  | .finish =>
    let seq := s.client.seq + 1
    let s := s.post seq .finish
    some { s with client := { s.client with seq := seq }, pc := .awaitFinish seq }
  | .shutdown => some { s with queueShutdown := true, pc := .awaitShutdown }
  | _ => none

/-! ## What the thread does with the answer of the completion queue -/

def take (phase : Phase) (tag : ℕ) (ok : Bool) : NetState :=
  { s with taken := s.taken ++ [⟨phase, tag, ok⟩] }

def handleTag (tag : ℕ) : NetState := { s with client := s.client.handleTag tag }

/-- `return 1` after an error. -/
def fail (message : String) : NetState := (s.setError message).goto .exit

/-- The body of `GOT_EVENT` in the main loop, after `HandleTag(Tag)`. -/
def mainEvent (tag : ℕ) (ok : Bool) : NetState :=
  if tag = s.client.lastWriteSeq then
    if ok then s.goto .loop else s.fail "Speechly Write failed"
  else if tag = s.client.lastReadSeq then
    if ok then
      { s with
        client := s.client.enqueueResponse s.client.response
        enqueued := s.enqueued ++ [(.stream, s.client.response)]
        pc := .loop }
    else s.fail "Speechly Read failed"
  else
    let s := s.logLine "Speechly unknown tag"
    if ok then s.goto .loop else s.fail "Unknown tag with an error"

/-- `Next` and `AsyncNext` answer with a completion. -/
def gotEvent (tag : ℕ) (ok : Bool) : Option NetState :=
  match s.pc with
  | .awaitOpen streamSeq =>
    let s := s.take .opening tag ok
    if !ok || tag ≠ streamSeq then
      let s := s.logLine "Unexpected Stream open"
      some { s with client := { s.client with bHasError := true }, pc := .exit }
    else some (s.goto .configure)
  | .awaitConfig =>
    let s := (s.take .configuring tag ok).handleTag tag
    if !ok || tag ≠ s.client.lastWriteSeq then some (s.fail "Could not configure stream")
    else some (s.goto .loop)
  | .loopNext => some (((s.take .main tag ok).handleTag tag).mainEvent tag ok)
  | .drainNext =>
    let s := (s.take .draining tag ok).handleTag tag
    some (s.goto (if ok then .drainRead else .finish))
  | .awaitFinish finishDoneSeq =>
    let s := s.take .finishing tag ok
    if tag = finishDoneSeq || !ok then some (s.goto .shutdown)
    else some (s.logLine "Received unknown tag when waiting for finish")
  | .awaitShutdown => some (s.take .shuttingDown tag ok)
  | _ => none

/-- `AsyncNext` answers that its deadline has passed. -/
def timeout : Option NetState :=
  match s.pc with
  | .loopNext => some (s.goto .loop)
  | .drainNext => some ((s.logLine "Timed out or shutdown while waiting for cancellation").goto .finish)
  | .awaitFinish _ =>
    some ((s.logLine "Speechly finish timed out, this can result in a memory leak").goto .shutdown)
  | .awaitShutdown => some ((s.logLine "Speechly shutdown timed out, this can result in a memory leak").goto .done)
  | _ => none

/-- `Next` and `AsyncNext` answer that the queue is shut down and drained. -/
def drained : Option NetState :=
  match s.pc with
  | .awaitOpen _ =>
    let s := s.logLine "Stream prematurely shut down"
    some { s with client := { s.client with bHasError := true }, pc := .exit }
  | .awaitConfig => some (s.fail "Stream error")
  | .loopNext => some { s with client := s.client.stop, pc := .exit }
  | .drainNext => some ((s.logLine "Timed out or shutdown while waiting for cancellation").goto .finish)
  | .awaitFinish _ => some (s.goto .shutdown)
  | .awaitShutdown => some (s.goto .done)
  | _ => none

/-! ## gRPC -/

/-- gRPC completes an operation.  A read fills `Response`, with the next message of the stream if it is `Ok`. -/
def complete (tag : ℕ) (ok : Bool) (message : SLUResponse) : Option NetState :=
  match s.inflight.find? fun p => p.tag = tag ∧ p.done = none with
  | none => none
  | some p =>
    let s := { s with inflight := s.inflight.map fun q => if q = p then { q with done := some ok } else q }
    if p.kind = .read then
      some { s with
        client := { s.client with response := message }
        received := if ok then s.received ++ [(tag, message)] else s.received }
    else some s

/-- The completion queue hands out the completion of the operation `tag`. -/
def next (tag : ℕ) : Option NetState :=
  match s.inflight.find? fun p => p.tag = tag ∧ p.done ≠ none with
  | some ⟨tag, kind, some ok⟩ =>
    { s with inflight := s.inflight.erase ⟨tag, kind, some ok⟩ }.gotEvent tag ok
  | _ => none

end NetState

/-! ## The machine -/

/-- Whose turn it is, and what the environment chooses. -/
inductive NetLabel where
  /-- the network thread -/
  | thread
  | next (tag : ℕ)
  | timeout
  | drained
  /-- gRPC -/
  | complete (tag : ℕ) (ok : Bool) (message : SLUResponse)
  /-- producers and the consumer -/
  | writeTest (r : SLURequest)
  | writeEnqueue (r : SLURequest)
  | readTest
  | readDequeue
  | wluEnqueue (r : SLUResponse)
  | stop

def netStep (s : NetState) : NetLabel → Option NetState
  | .thread => s.thread
  | .next tag => s.next tag
  | .timeout => s.timeout
  | .drained => if s.queueShutdown ∧ s.inflight = [] then s.drained else none
  | .complete tag ok message => s.complete tag ok message
  | .writeTest r => some (if s.client.refuses then s else { s with writers := s.writers ++ [r] })
  | .writeEnqueue r =>
    if r ∈ s.writers then
      some { s with writers := s.writers.erase r, client := s.client.enqueueRequest r, accepted := s.accepted ++ [r] }
    else none
  | .readTest => if s.reader then none else some (if s.client.refuses then s else { s with reader := true })
  | .readDequeue =>
    if s.reader then
      match s.client.dequeueResponse with
      | some (r, c) => some { s with reader := false, client := c, returned := s.returned ++ [r] }
      | none => some { s with reader := false }
    else none
  | .wluEnqueue r => some { s with client := s.client.enqueueResponse r, enqueued := s.enqueued ++ [(.wlu, r)] }
  | .stop => some { s with client := s.client.stop }

/-- The client's threads and gRPC. -/
def net : Machine NetState NetLabel := ⟨netStep⟩

/-- What a step does. -/
inductive NetStep (s : NetState) : NetLabel → NetState → Prop where
  | thread {t : NetState} (ht : s.thread = some t) : NetStep s .thread t
  | next {tag : ℕ} {t : NetState} (ht : s.next tag = some t) : NetStep s (.next tag) t
  | timeout {t : NetState} (ht : s.timeout = some t) : NetStep s .timeout t
  | drained {t : NetState} (hshut : s.queueShutdown = true) (hnil : s.inflight = []) (ht : s.drained = some t) :
      NetStep s .drained t
  | complete {tag : ℕ} {ok : Bool} {message : SLUResponse} {t : NetState} (ht : s.complete tag ok message = some t) :
      NetStep s (.complete tag ok message) t
  | writeRefused {r : SLURequest} (hrefuses : s.client.refuses = true) : NetStep s (.writeTest r) s
  | writeTest {r : SLURequest} (hrefuses : s.client.refuses = false) :
      NetStep s (.writeTest r) { s with writers := s.writers ++ [r] }
  | writeEnqueue {r : SLURequest} (hr : r ∈ s.writers) :
      NetStep s (.writeEnqueue r)
        { s with writers := s.writers.erase r, client := s.client.enqueueRequest r, accepted := s.accepted ++ [r] }
  | readRefused (hreader : s.reader = false) (hrefuses : s.client.refuses = true) : NetStep s .readTest s
  | readTest (hreader : s.reader = false) (hrefuses : s.client.refuses = false) :
      NetStep s .readTest { s with reader := true }
  | readDequeue {r : SLUResponse} {rs : List SLUResponse} (hreader : s.reader = true)
      (hq : s.client.responseQueue = r :: rs) :
      NetStep s .readDequeue
        { s with reader := false, client := { s.client with responseQueue := rs }, returned := s.returned ++ [r] }
  | readNothing (hreader : s.reader = true) (hq : s.client.responseQueue = []) :
      NetStep s .readDequeue { s with reader := false }
  | wluEnqueue {r : SLUResponse} :
      NetStep s (.wluEnqueue r) { s with client := s.client.enqueueResponse r, enqueued := s.enqueued ++ [(.wlu, r)] }
  | stop : NetStep s .stop { s with client := s.client.stop }

/-- **Inversion of a step.** -/
theorem netStep_cases {s t : NetState} {a : NetLabel} (ht : netStep s a = some t) : NetStep s a t := by
  cases a <;> simp only [netStep] at ht
  case thread => exact .thread ht
  case next tag => exact .next ht
  case timeout => exact .timeout ht
  case drained =>
    split at ht
    · rename_i hq
      exact .drained hq.1 hq.2 ht
    · cases ht
  case complete tag ok message => exact .complete ht
  case writeTest r =>
    cases hrefuses : s.client.refuses <;> simp only [hrefuses, Bool.false_eq_true, if_false, if_true] at ht <;> cases ht
    · exact .writeTest hrefuses
    · exact .writeRefused hrefuses
  case writeEnqueue r =>
    split at ht
    · cases ht
      exact .writeEnqueue ‹_›
    · cases ht
  case readTest =>
    split at ht
    · cases ht
    · rename_i hreader
      have hreader : s.reader = false := by simpa using hreader
      cases hrefuses : s.client.refuses <;> simp only [hrefuses, Bool.false_eq_true, if_false, if_true] at ht <;> cases ht
      · exact .readTest hreader hrefuses
      · exact .readRefused hreader hrefuses
  case readDequeue =>
    split at ht
    · rename_i hreader
      cases hq : s.client.responseQueue <;> simp only [SpeechlyClient.dequeueResponse, hq] at ht <;> cases ht
      · exact .readNothing hreader hq
      · exact .readDequeue hreader hq
    · cases ht
  case wluEnqueue r =>
    cases ht
    exact .wluEnqueue
  case stop =>
    cases ht
    exact .stop

/-- The states the client `new languageCode sampleRate` can get into once its thread is about to enter `Run`. -/
def NetReach (s : NetState) : Prop :=
  ∃ languageCode sampleRate, net.Reach (.init (.new languageCode sampleRate)) s

end SpeechlyPlugin.Client
