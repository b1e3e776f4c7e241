import SpeechlyPlugin.Engine.Array
import SpeechlyPlugin.Engine.Messages

/-!
# The client: `SpeechlyClient`

The fields shared by the threads and the methods that touch nothing else.  `RequestQueue` and `ResponseQueue` are
`TQueue`s: enqueued at the end of the list, dequeued at its front.
-/

namespace SpeechlyPlugin.Client

open Engine

/-- `SpeechlyClient`. -/
structure SpeechlyClient where
  languageCode : StdString
  sampleRate : ℤ
  /-- whether `Stream` is set -/
  stream : Bool
  seq : ℕ
  lastWriteSeq : ℕ
  lastReadSeq : ℕ
  bWriteAllowed : Bool
  bReadAllowed : Bool
  response : SLUResponse
  bIsRunning : Bool
  bHasError : Bool
  errorMessage : FString
  requestQueue : List SLURequest
  responseQueue : List SLUResponse

namespace SpeechlyClient

/-- The constructor. -/
def new (languageCode : StdString) (sampleRate : ℤ) : SpeechlyClient where
  languageCode := languageCode
  sampleRate := sampleRate
  stream := false
  seq := 0
  lastWriteSeq := 0
  lastReadSeq := 0
  bWriteAllowed := true
  bReadAllowed := true
  response := default
  bIsRunning := true
  bHasError := false
  errorMessage := default
  requestQueue := []
  responseQueue := []

variable (c : SpeechlyClient)

/-- The test `Write` and `Read` begin with. -/
def refuses : Bool := c.bHasError || !c.bIsRunning

/-- `RequestQueue.Enqueue`. -/
def enqueueRequest (r : SLURequest) : SpeechlyClient := { c with requestQueue := c.requestQueue ++ [r] }

/-- `ResponseQueue.Enqueue`. -/
def enqueueResponse (r : SLUResponse) : SpeechlyClient := { c with responseQueue := c.responseQueue ++ [r] }

/-- `RequestQueue.Dequeue`. -/
def dequeueRequest : Option (SLURequest × SpeechlyClient) :=
  match c.requestQueue with
  | [] => none
  | r :: rs => some (r, { c with requestQueue := rs })

/-- `ResponseQueue.Dequeue`. -/
def dequeueResponse : Option (SLUResponse × SpeechlyClient) :=
  match c.responseQueue with
  | [] => none
  | r :: rs => some (r, { c with responseQueue := rs })

/-- `SpeechlyClient::Write`. -/
def write (r : SLURequest) : SpeechlyClient × Bool :=
  if c.refuses then (c, false) else (c.enqueueRequest r, true)

/-- `SpeechlyClient::Read`. -/
def read : Option (SLUResponse × SpeechlyClient) :=
  if c.refuses then none else c.dequeueResponse

/-- The request of `WLUSync`. -/
def wluRequest (text : StdString) : WLURequest := ⟨c.languageCode, text⟩

/-- The messages of one segment, as `WLUSync` enqueues them. -/
def enqueueSegment (audioContext : StdString) (segment : WLUSegment) : SpeechlyClient :=
  let c := segment.tokens.foldl
    (fun c token => c.enqueueResponse ⟨audioContext, 1, .transcript ⟨token.word, token.index⟩⟩) c
  let c := segment.entities.foldl
    (fun c e => c.enqueueResponse ⟨audioContext, 1, .entity ⟨e.entity, e.value, e.startPosition, e.endPosition⟩⟩) c
  match segment.intent with
  | some i => c.enqueueResponse ⟨audioContext, 1, .intent ⟨i.intent⟩⟩
  | none => c

/-- `SpeechlyClient::WLUSync`, with the reply of the service, if there is one, and the new GUID. -/
def wluSync (reply : Option WLUResponse) (audioContext : StdString) : SpeechlyClient × Bool :=
  match reply with
  | some response =>
    let c := response.segments.foldl (fun c segment => c.enqueueSegment audioContext segment) c
    (c.enqueueResponse ⟨audioContext, 1, .finished ⟨none⟩⟩, true)
  | none => (c, false)

/-- `SpeechlyClient::Stop`. -/
def stop : SpeechlyClient := { c with bIsRunning := false }

def canWrite : Bool := c.bWriteAllowed

def canRead : Bool := c.bReadAllowed

/-- `SpeechlyClient::HandleTag`. -/
def handleTag (tag : ℕ) : SpeechlyClient :=
  if tag = c.lastWriteSeq then { c with bWriteAllowed := true }
  else if tag = c.lastReadSeq then { c with bReadAllowed := true }
  else c

/-- `HandleTag` touches nothing but the flags. -/
theorem handleTag_eq (tag : ℕ) :
    c.handleTag tag =
      { c with
        bWriteAllowed := (c.handleTag tag).bWriteAllowed
        bReadAllowed := (c.handleTag tag).bReadAllowed } := by
  unfold handleTag
  split <;> [rfl; split <;> rfl]

@[simp] theorem handleTag_stream (tag : ℕ) : (c.handleTag tag).stream = c.stream := by rw [handleTag_eq]

@[simp] theorem handleTag_lastWriteSeq (tag : ℕ) : (c.handleTag tag).lastWriteSeq = c.lastWriteSeq := by
  rw [handleTag_eq]

@[simp] theorem handleTag_lastReadSeq (tag : ℕ) : (c.handleTag tag).lastReadSeq = c.lastReadSeq := by
  rw [handleTag_eq]

@[simp] theorem handleTag_response (tag : ℕ) : (c.handleTag tag).response = c.response := by rw [handleTag_eq]

@[simp] theorem handleTag_requestQueue (tag : ℕ) : (c.handleTag tag).requestQueue = c.requestQueue := by
  rw [handleTag_eq]

@[simp] theorem handleTag_responseQueue (tag : ℕ) : (c.handleTag tag).responseQueue = c.responseQueue := by
  rw [handleTag_eq]

/-- `SpeechlyClient::SetError`. -/
def setError (message : FString) : SpeechlyClient :=
  { c with bHasError := true, bIsRunning := false, errorMessage := message }

/-- The first request of a stream. -/
def configRequest : SLURequest := .config ⟨1, c.sampleRate, c.languageCode⟩

@[simp] theorem handleTag_configRequest (tag : ℕ) : (c.handleTag tag).configRequest = c.configRequest := by
  rw [handleTag_eq]
  rfl

end SpeechlyClient

end SpeechlyPlugin.Client
