import SpeechlyPlugin.Plugin.Defs

/-!
# Ticks on a connected client

A `Tick` that finds the client running handles the responses that have arrived, up to ten, and ends.  `ticks` is a run
of ticks, each after some responses have arrived; while no more than ten arrive at a time, it is the plain fold
`batches`, one `batch` a tick.
-/

namespace SpeechlyPlugin.Plugin

open Engine Lib Client

namespace USpeechly

variable {u : USpeechly} {locals : TickLocals} {r : SLUResponse} {rs : List SLUResponse} {rss : List (List SLUResponse)}

/-- The network thread enqueues responses. -/
def deliver (u : USpeechly) (rs : List SLUResponse) : USpeechly :=
  { u with client := u.client.map fun c => { c with responseQueue := c.responseQueue ++ rs } }

/-- A run of ticks, each after the responses of one list have arrived: the object and all broadcasts. -/
def ticks (u : USpeechly) : List (List SLUResponse) → Except Fault (USpeechly × List Broadcast)
  | [] => .ok (u, [])
  | rs :: rss => do
    let (u, broadcasts, _) ← (u.deliver rs).tick
    let (u, more) ← ticks u rss
    return (u, broadcasts ++ more)

/-- The client is there and runs, and no response is waiting. -/
def Listening (u : USpeechly) : Prop := ∃ c, u.client = some c ∧ c.refuses = false ∧ c.responseQueue = []

theorem listening_connect (u : USpeechly) (languageCode : StdString) : (u.connect languageCode).Listening :=
  ⟨_, rfl, rfl, rfl⟩

theorem isConnected_of_client {c : SpeechlyClient} (hc : u.client = some c) (hrefuses : c.refuses = false) :
    u.isConnected = true := by
  rw [SpeechlyClient.refuses, Bool.or_eq_false_iff] at hrefuses
  simp only [isConnected, hc, hrefuses.1, Bool.not_false]

/-! ## One tick -/

/-- The responses of one tick, one after the other. -/
def handleAll (u : USpeechly) (locals : TickLocals) (rs : List SLUResponse) : USpeechly × TickLocals :=
  rs.foldl (fun x r => x.1.handleResponse x.2 r) (u, locals)

/-- One tick, as a fold over its responses. -/
def batch (u : USpeechly) (rs : List SLUResponse) : USpeechly × List Broadcast :=
  let (u, locals) := u.handleAll .new rs
  u.endTick locals

/-- Handling a response does not look at the client. -/
theorem handleResponse_withClient (locals : TickLocals) (r : SLUResponse) (u : USpeechly) (c : Option SpeechlyClient) :
    ({ u with client := c } : USpeechly).handleResponse locals r =
      ({ (u.handleResponse locals r).1 with client := c }, (u.handleResponse locals r).2) := by
  cases hr : r.payload with
  | finished f =>
    simp only [handleResponse, hr, finishContext]
    have hact : ({ u with client := c } : USpeechly).isActive (FString.ofCStr r.audioContext) =
      u.isActive (FString.ofCStr r.audioContext) := rfl
    rw [hact]
    cases u.isActive (FString.ofCStr r.audioContext) <;> rfl
  | _ => simp only [handleResponse, hr] <;> rfl

theorem handleResponse_client : (u.handleResponse locals r).1.client = u.client := by
  have h := handleResponse_withClient locals r u u.client
  exact congrArg (fun x : USpeechly × TickLocals => x.1.client) h

theorem handleAll_client : (u.handleAll locals rs).1.client = u.client := by
  unfold handleAll
  induction rs generalizing u locals with
  | nil => rfl
  | cons r rs ih =>
    rw [List.foldl_cons, ih]
    exact handleResponse_client

/-- The loop of `Tick` over a queue that it empties. -/
theorem readResponses_eq {c : SpeechlyClient} (hc : c.refuses = false) :
    ∀ (rs : List SLUResponse) (u : USpeechly) (locals : TickLocals) (n : ℕ), rs.length ≤ n →
      readResponses { u with client := some { c with responseQueue := rs } } locals n =
        .ok (handleAll { u with client := some { c with responseQueue := [] } } locals rs) := by
  have hrefuses (rs : List SLUResponse) : ({ c with responseQueue := rs } : SpeechlyClient).refuses = false := hc
  intro rs
  induction rs with
  | nil =>
    intro u locals n _
    cases n with
    | zero => rfl
    | succ n => simp [readResponses, clientRead, SpeechlyClient.read, hrefuses, SpeechlyClient.dequeueResponse, handleAll,
        pure, Except.pure]
  | cons r rs ih =>
    intro u locals n hn
    cases n with
    | zero => simp at hn
    | succ n =>
      have hrs : rs.length ≤ n := by simpa using hn
      simp only [readResponses, clientRead, SpeechlyClient.read, hrefuses, SpeechlyClient.dequeueResponse,
        Option.map_some, ok_bind, Bool.false_eq_true, if_false]
      have hstep (rs : List SLUResponse) := handleResponse_withClient locals r u
        (some { c with responseQueue := rs })
      rw [hstep, ih (u.handleResponse locals r).1 _ n hrs, handleAll, handleAll, List.foldl_cons, hstep]

theorem removeContext_client (u : USpeechly) (context : FString) : (u.removeContext context).client = u.client := rfl

theorem batch_client : (u.batch rs).1.client = u.client := by
  have hfold : ∀ (contexts : List FString) (u : USpeechly), (contexts.foldl removeContext u).client = u.client := by
    intro contexts
    induction contexts with
    | nil => intro u; rfl
    | cons context contexts ih => intro u; rw [List.foldl_cons, ih, removeContext_client]
  simp only [batch, endTick]
  rw [hfold, handleAll_client]

/-- **One tick.** -/
theorem tick_deliver (hu : u.Listening) (hrs : rs.length ≤ 10) :
    (u.deliver rs).tick = .ok ((u.batch rs).1, (u.batch rs).2, true) := by
  obtain ⟨c, hc, hrefuses, hq⟩ := hu
  have hu : u = { u with client := some { c with responseQueue := [] } } := by
    rw [← hq, ← hc]
  have hdel : u.deliver rs = { u with client := some { c with responseQueue := rs } } := by
    simp only [deliver, hc, Option.map_some, hq, List.nil_append]
  have hconn : (u.deliver rs).isConnected = true := isConnected_of_client (congrArg client hdel) hrefuses
  simp only [tick, hconn, Bool.not_true, Bool.false_eq_true, if_false]
  rw [hdel, readResponses_eq hrefuses rs u _ 10 hrs, ← hu]
  rfl

/-! ## A run of ticks -/

/-- A run of ticks, as a fold. -/
def batches (u : USpeechly) : List (List SLUResponse) → USpeechly × List Broadcast
  | [] => (u, [])
  | rs :: rss =>
    let (u, broadcasts) := u.batch rs
    ((batches u rss).1, broadcasts ++ (batches u rss).2)

theorem Listening.batch (hu : u.Listening) : (u.batch rs).1.Listening := by
  obtain ⟨c, hc, h⟩ := hu
  exact ⟨c, by rw [batch_client, hc], h⟩

theorem Listening.batches (hu : u.Listening) : (u.batches rss).1.Listening := by
  induction rss generalizing u with
  | nil => exact hu
  | cons rs rss ih => exact ih hu.batch

/-- The last tick of a run. -/
theorem batches_concat :
    u.batches (rss ++ [rs]) =
      (((u.batches rss).1.batch rs).1, (u.batches rss).2 ++ ((u.batches rss).1.batch rs).2) := by
  induction rss generalizing u with
  | nil => simp [batches]
  | cons rs' rss ih => simp only [List.cons_append, batches, ih, List.append_assoc]

theorem ticks_eq (hu : u.Listening) (hlen : ∀ rs ∈ rss, rs.length ≤ 10) : u.ticks rss = .ok (u.batches rss) := by
  induction rss generalizing u with
  | nil => rfl
  | cons rs rss ih =>
    rw [ticks, tick_deliver hu (hlen rs (by simp)), ok_bind]
    simp only [ih hu.batch fun rs hrs => hlen rs (by simp [hrs]), ok_bind]
    rfl

end USpeechly

end SpeechlyPlugin.Plugin
