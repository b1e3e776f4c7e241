import SpeechlyPlugin.Plugin.Speech
import SpeechlyPlugin.Plugin.System
import Mathlib.Data.List.DropRight
import Mathlib.Data.List.ModifyLast

/-!
# Sessions

What a history says about sessions, read off in two ways that know nothing of each other: the requests the client has
accepted, with the audio after each START, and the samples `OnSpeechAudio` was given after each `Recorder.Start`.
-/

namespace SpeechlyPlugin.Plugin

open Engine Lib Client Recorder

variable {l : List Obs} {o : Obs} {rs : List SLURequest} {r : SLURequest}

/-! ## The requests -/

/-- The requests the client has accepted. -/
def acceptedOf (l : List Obs) : List SLURequest :=
  l.filterMap fun
    | .accepted r => some r
    | _ => none

/-- The requests of one session. -/
def session (audio : List (List UInt8)) : List SLURequest :=
  .event .START :: audio.map .audio ++ [.event .STOP]

/-- Sessions one after the other; the last one is still open or not. -/
inductive Sessions : List SLURequest → Bool → Prop where
  | nil : Sessions [] false
  | start {rs : List SLURequest} : Sessions rs false → Sessions (rs ++ [.event .START]) true
  | audio {rs : List SLURequest} (bytes : List UInt8) : Sessions rs true → Sessions (rs ++ [.audio bytes]) true
  | stop {rs : List SLURequest} : Sessions rs true → Sessions (rs ++ [.event .STOP]) false

theorem Sessions.split {b : Bool} (h : Sessions rs b) :
    ∃ (closed : List (List (List UInt8))) (audio : List (List UInt8)),
      rs = closed.flatMap session ++ if b then .event .START :: audio.map .audio else [] := by
  induction h with
  | nil => exact ⟨[], [], rfl⟩
  | start _ ih =>
    obtain ⟨closed, audio, rfl⟩ := ih
    exact ⟨closed, [], by simp⟩
  | audio bytes _ ih =>
    obtain ⟨closed, audio, rfl⟩ := ih
    exact ⟨closed, audio ++ [bytes], by simp⟩
  | stop _ ih =>
    obtain ⟨closed, audio, rfl⟩ := ih
    exact ⟨closed ++ [audio], [], by simp [session]⟩

/-- Sessions are a prefix of closed sessions. -/
theorem Sessions.prefix {b : Bool} (h : Sessions rs b) : ∃ audio : List (List (List UInt8)), rs <+: audio.flatMap session := by
  obtain ⟨closed, audio, rfl⟩ := h.split
  cases b with
  | false => exact ⟨closed, by simp⟩
  | true => exact ⟨closed ++ [audio], by simp [session]⟩

/-- The audio payloads, one for each START. -/
def addPayload (ps : List (List UInt8)) : SLURequest → List (List UInt8)
  | .event .START => ps ++ [[]]
  | .audio bytes => ps.modifyLast (· ++ bytes)
  | _ => ps

def payloads (rs : List SLURequest) : List (List UInt8) := rs.foldl addPayload []

/-- The requests after one more event. -/
def addAccepted (rs : List SLURequest) : Obs → List SLURequest
  | .accepted r => rs ++ [r]
  | _ => rs

theorem acceptedOf_concat : acceptedOf (l ++ [o]) = addAccepted (acceptedOf l) o := by
  cases o <;> simp [acceptedOf, addAccepted]

@[simp] theorem acceptedOf_accepted (rs : List SLURequest) : acceptedOf (l ++ rs.map .accepted) = acceptedOf l ++ rs := by
  simp [acceptedOf, List.filterMap_map]

@[simp] theorem payloads_concat : payloads (rs ++ [r]) = addPayload (payloads rs) r := by simp [payloads]

theorem Sessions.audioRequests (h : Sessions rs true) (out : List ℚ) : Sessions (rs ++ audioRequests out) true := by
  unfold Plugin.audioRequests
  split
  · simpa using h
  · exact .audio _ h

theorem payloads_audioRequests {ps : List (List UInt8)} {before : List ℚ} (h : payloads rs = ps ++ [encode before])
    (out : List ℚ) : payloads (rs ++ audioRequests out) = ps ++ [encode (before ++ out)] := by
  unfold audioRequests
  split
  · rename_i hout
    rw [List.isEmpty_iff.mp hout, List.append_nil, List.append_nil, h]
  · rw [payloads_concat, addPayload, h, List.modifyLast_concat, encode_append]

/-! ## The samples -/

/-- The samples, one list for each `Recorder.Start`, and whether the recorder has not been stopped since. -/
def addSpoken (x : List (List ℚ) × Bool) : Obs → List (List ℚ) × Bool
  | .recorderStart => (x.1 ++ [[]], true)
  | .recorderStop => (x.1, false)
  | .handled _ true => (x.1, false)
  | .speechAudio call => if x.2 then (x.1.modifyLast (· ++ call.samples), true) else x
  | _ => x

def spokenState (l : List Obs) : List (List ℚ) × Bool := l.foldl addSpoken ([], false)

/-- The samples of the `OnSpeechAudio` calls between the `n`-th `Recorder.Start` and the `Recorder.Stop` that ends it. -/
def spoken (l : List Obs) : List (List ℚ) := (spokenState l).1

@[simp] theorem spokenState_concat : spokenState (l ++ [o]) = addSpoken (spokenState l) o := by simp [spokenState]

@[simp] theorem spokenState_accepted (rs : List SLURequest) :
    spokenState (l ++ rs.map .accepted) = spokenState l := by
  induction rs generalizing l with
  | nil => simp
  | cons r rs ih =>
    rw [List.map_cons, List.append_cons, ih, spokenState_concat]
    rfl

/-! ## Since the last `Start` -/

def Obs.isStart : Obs → Bool
  | .start => true
  | _ => false

/-- What has happened since the last call of `Start`. -/
def sinceStart (l : List Obs) : List Obs := l.rtakeWhile fun o => !o.isStart

theorem sinceStart_start : sinceStart (l ++ [.start]) = [] :=
  List.rtakeWhile_concat_neg _ _ _ (by simp [Obs.isStart])

theorem sinceStart_concat (h : o.isStart = false) : sinceStart (l ++ [o]) = sinceStart l ++ [o] :=
  List.rtakeWhile_concat_pos _ _ _ (by simp [h])

/-- The samples of the `OnSpeechAudio` calls of a history. -/
def samplesOf (l : List Obs) : List ℚ :=
  l.flatMap fun
    | .speechAudio call => call.samples
    | _ => []

/-- What comes to the gate: the samples, and the `started` that opens it. -/
def gateOps (l : List Obs) : List (GateOp ℚ) :=
  l.filterMap fun
    | .speechAudio call => some (.put call.samples)
    | .handled r _ => if isStarted r.payload then some .unlock else none
    | _ => none

theorem gateOps_append (l l' : List Obs) : gateOps (l ++ l') = gateOps l ++ gateOps l' :=
  List.filterMap_append

/-- What has come to the gate since the last `Start`, after one more event. -/
def addOp (ops : List (GateOp ℚ)) : Obs → List (GateOp ℚ)
  | .start => []
  | .speechAudio call => ops ++ [.put call.samples]
  | .handled r _ => if isStarted r.payload then ops ++ [.unlock] else ops
  | _ => ops

theorem ops_concat : gateOps (sinceStart (l ++ [o])) = addOp (gateOps (sinceStart l)) o := by
  cases o with
  | start =>
    rw [sinceStart_start]
    rfl
  | handled r b =>
    rw [sinceStart_concat rfl, gateOps_append]
    cases hr : isStarted r.payload <;> simp [gateOps, addOp, hr]
  | _ =>
    rw [sinceStart_concat rfl, gateOps_append]
    simp [gateOps, addOp]

@[simp] theorem ops_accepted (rs : List SLURequest) :
    gateOps (sinceStart (l ++ rs.map .accepted)) = gateOps (sinceStart l) := by
  induction rs generalizing l with
  | nil => simp
  | cons r rs ih =>
    rw [List.map_cons, List.append_cons, ih, ops_concat]
    rfl

theorem given_gateOps (l : List Obs) : Gate.given (gateOps l) = samplesOf l := by
  induction l with
  | nil => rfl
  | cons o l ih =>
    cases o with
    | speechAudio call => exact congrArg (call.samples ++ ·) ih
    | handled r b =>
      by_cases hr : isStarted r.payload = true
      · simpa [gateOps, samplesOf, hr, Gate.given] using ih
      · simpa [gateOps, samplesOf, hr, Gate.given] using ih
    | _ => exact ih

/-! ## Payloads that encode a prefix of what was spoken -/

/-- Every payload encodes the first samples of its `Recorder.Start`. -/
def Prefixes (ps : List (List UInt8)) (xs : List (List ℚ)) : Prop :=
  ∀ (n : ℕ) (p : List UInt8), ps[n]? = some p → ∃ x out, xs[n]? = some x ∧ p = encode out ∧ out <+: x

theorem getElem?_concat_eq_some {α : Type} {xs : List α} {x y : α} {n : ℕ} :
    (xs ++ [x])[n]? = some y ↔ xs[n]? = some y ∨ n = xs.length ∧ x = y := by
  rcases lt_trichotomy n xs.length with h | rfl | h
  · simp [List.getElem?_append_left h, h.ne]
  · simp
  · have hout : (xs ++ [x]).length ≤ n := by
      rw [List.length_append, List.length_singleton]
      omega
    rw [List.getElem?_eq_none hout, List.getElem?_eq_none h.le]
    simp [h.ne']

section

variable {ps : List (List UInt8)} {xs : List (List ℚ)} {p : List UInt8} {x out : List ℚ}

theorem Prefixes.append (h : Prefixes ps xs) (x : List ℚ) : Prefixes ps (xs ++ [x]) := by
  intro n p hp
  obtain ⟨x, out, hx, hout⟩ := h n p hp
  exact ⟨x, out, getElem?_concat_eq_some.mpr (Or.inl hx), hout⟩

theorem Prefixes.dropLast (h : Prefixes (ps ++ [p]) xs) : Prefixes ps xs :=
  fun n q hq => h n q (getElem?_concat_eq_some.mpr (Or.inl hq))

/-- More is spoken. -/
theorem Prefixes.grow (h : Prefixes ps xs) (more : List ℚ) : Prefixes ps (xs.modifyLast (· ++ more)) := by
  rcases xs.eq_nil_or_concat with rfl | ⟨ys, y, rfl⟩
  · exact h
  · rw [List.concat_eq_append] at h ⊢
    rw [List.modifyLast_concat]
    intro n p hp
    obtain ⟨x, out, hx, rfl, hout⟩ := h n p hp
    obtain hx | ⟨rfl, rfl⟩ := getElem?_concat_eq_some.mp hx
    · exact ⟨x, out, getElem?_concat_eq_some.mpr (Or.inl hx), rfl, hout⟩
    · exact ⟨y ++ more, out, getElem?_concat_eq_some.mpr (Or.inr ⟨rfl, rfl⟩), rfl, hout.trans (List.prefix_append _ _)⟩

/-- One more payload for one more `Recorder.Start`. -/
theorem Prefixes.concat (h : Prefixes ps xs) (hlen : ps.length = xs.length) (hout : out <+: x) :
    Prefixes (ps ++ [encode out]) (xs ++ [x]) := by
  intro n p hp
  obtain hp | ⟨rfl, rfl⟩ := getElem?_concat_eq_some.mp hp
  · exact h.append x n p hp
  · exact ⟨x, out, getElem?_concat_eq_some.mpr (Or.inr ⟨hlen, rfl⟩), rfl, hout⟩

theorem Prefixes.init (h : Prefixes ps (xs ++ [x])) (hlen : ps.length = xs.length) : Prefixes ps xs := by
  intro n q hq
  obtain ⟨y, out, hy, hout⟩ := h n q hq
  obtain hy | ⟨rfl, -⟩ := getElem?_concat_eq_some.mp hy
  · exact ⟨y, out, hy, hout⟩
  · have := (List.getElem?_eq_some_iff.mp hq).1
    omega

end

end SpeechlyPlugin.Plugin
