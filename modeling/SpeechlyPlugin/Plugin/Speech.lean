import SpeechlyPlugin.Lib.Gate
import SpeechlyPlugin.Plugin.Defs

/-!
# `OnSpeechAudio` is a gate

`bIsBuffering` and `AudioBuffer` are a gate of samples in front of the client.  `onSpeechAudio_inv` says what a call can
do; from it, a call puts its samples through the gate while the client takes requests, and nothing passes any more once
it does not.
-/

namespace SpeechlyPlugin.Plugin

open Engine Lib Client Recorder

/-- The two fields stand for a gate. -/
structure Holds (bIsBuffering : Bool) (audioBuffer : List UInt8) (g : Gate ℚ) : Prop where
  shut : bIsBuffering = g.shut
  held : audioBuffer = encode g.held

/-- What goes out goes out as one request. -/
def audioRequests (out : List ℚ) : List SLURequest := if out.isEmpty then [] else [.audio (encode out)]

namespace USpeechly

variable {u u' : USpeechly} {call : SpeechAudio} {accepted : List SLURequest} {g : Gate ℚ} {bytes : List UInt8}

/-- The client is there, and `Write` and `Read` do not refuse. -/
def alive (u : USpeechly) : Bool :=
  match u.client with
  | some c => !c.refuses
  | none => false

theorem isConnected_of_alive (h : u.alive = true) : u.isConnected = true := by
  unfold alive at h
  unfold isConnected
  cases hc : u.client with
  | none => simp [hc] at h
  | some c => simp_all [SpeechlyClient.refuses]

/-! ## The conversion -/

theorem firstBytes_eq_ok {n : ℤ} {front : List UInt8} (h : firstBytes bytes n = .ok front) :
    0 ≤ n ∧ front = bytes.take n.toNat := by
  unfold firstBytes at h
  split at h
  · exact ⟨by assumption, (Except.ok.inj h).symm⟩
  · cases h

/-- The bytes a call passes on are those of its samples, and there are some. -/
theorem convertAudio_bytes (h : u.convertAudio call = .ok u') (hlen : call.audioLength ≠ 0)
    (hbytes : firstBytes u'.charAudio (call.audioLength * 2) = .ok bytes) :
    bytes = encode call.samples ∧ call.samples ≠ [] := by
  obtain ⟨charAudio, -, h⟩ := bind_eq_ok h
  obtain ⟨acc, hacc, h⟩ := bind_eq_ok h
  cases h
  obtain ⟨hn, hfront⟩ := convert_rounds hacc
  obtain ⟨hpos, rfl⟩ := firstBytes_eq_ok hbytes
  have hsamples : call.samples.length = call.audioLength.toNat := by
    rw [SpeechAudio.samples, List.length_take, Nat.min_eq_left hn]
  refine ⟨?_, fun hnil => ?_⟩
  · have htake : (call.audioLength * 2).toNat = (encode call.samples).length := by
      rw [length_encode, hsamples]
      omega
    rw [hfront, htake]
    exact List.take_left
  · rw [hnil, List.length_nil] at hsamples
    omega

theorem convertAudio_frame (h : u.convertAudio call = .ok u') :
    u' = { u with charAudio := u'.charAudio, silenceCount := u'.silenceCount } := by
  obtain ⟨charAudio, -, h⟩ := bind_eq_ok h
  obtain ⟨acc, -, h⟩ := bind_eq_ok h
  cases h
  rfl

theorem writeAudio_eq_ok (h : u.writeAudio bytes = .ok (u', accepted)) :
    ∃ c, u.client = some c ∧ u' = { u with client := some (c.write (.audio bytes)).1 } ∧
      accepted = if c.refuses then [] else [.audio bytes] := by
  unfold writeAudio clientWrite at h
  cases hc : u.client with
  | none =>
    rw [hc] at h
    cases h
  | some c =>
    rw [hc] at h
    cases h
    refine ⟨c, rfl, rfl, ?_⟩
    unfold SpeechlyClient.write
    cases c.refuses <;> rfl

/-! ## One call -/

/-- What a call of `OnSpeechAudio` can do. -/
theorem onSpeechAudio_inv (h : u.onSpeechAudio call = .ok (u', accepted)) :
    (u' = u ∧ accepted = [] ∧ (u.isConnected = false ∨ call.samples = [])) ∨
    ∃ charAudio silenceCount, call.samples ≠ [] ∧
      (u.bIsBuffering = true ∧ accepted = [] ∧
          u' = { u with
            charAudio := charAudio, silenceCount := silenceCount, audioBuffer := u.audioBuffer ++ encode call.samples } ∨
        u.bIsBuffering = false ∧ ∃ c, u.client = some c ∧
          accepted = (if c.refuses then [] else [.audio (u.audioBuffer ++ encode call.samples)]) ∧
          u' = { u with
            charAudio := charAudio, silenceCount := silenceCount, audioBuffer := []
            client := some (c.write (.audio (u.audioBuffer ++ encode call.samples))).1 }) := by
  unfold onSpeechAudio at h
  split at h
  · rename_i hskip
    cases h
    refine Or.inl ⟨rfl, rfl, ?_⟩
    rcases (Bool.or_eq_true _ _).mp hskip with hconn | hlen
    · exact Or.inl (by simpa using hconn)
    · exact Or.inr (by simp [SpeechAudio.samples, beq_iff_eq.mp hlen])
  · rename_i hgo
    have hlen : call.audioLength ≠ 0 := by
      intro hlen
      simp [hlen] at hgo
    obtain ⟨v, hv, h⟩ := bind_eq_ok h
    obtain ⟨bytes, hbytes, h⟩ := bind_eq_ok h
    obtain ⟨rfl, hne⟩ := convertAudio_bytes hv hlen hbytes
    rw [convertAudio_frame hv] at h
    refine Or.inr ⟨v.charAudio, v.silenceCount, hne, ?_⟩
    split at h
    · rename_i hbuf
      cases h
      exact Or.inl ⟨hbuf, rfl, rfl⟩
    · rename_i hbuf
      refine Or.inr ⟨by simpa using hbuf, ?_⟩
      split at h
      · obtain ⟨⟨w, acc⟩, hw, h⟩ := bind_eq_ok h
        cases h
        obtain ⟨c, hc, rfl, rfl⟩ := writeAudio_eq_ok hw
        exact ⟨c, hc, rfl, rfl⟩
      · rename_i hempty
        have hempty : u.audioBuffer = [] := by simpa using hempty
        obtain ⟨c, hc, rfl, rfl⟩ := writeAudio_eq_ok h
        refine ⟨c, hc, by rw [hempty, List.nil_append], ?_⟩
        rw [hempty, List.nil_append, ← hempty]

theorem write_refuses (c : SpeechlyClient) (r : SLURequest) : (c.write r).1.refuses = c.refuses := by
  unfold SpeechlyClient.write
  split <;> rfl

/-- What a call leaves alone. -/
theorem onSpeechAudio_frame (h : u.onSpeechAudio call = .ok (u', accepted)) :
    u'.recorder = u.recorder ∧ u'.lastAudioContext = u.lastAudioContext ∧ u'.bIsBuffering = u.bIsBuffering ∧
      u'.alive = u.alive := by
  obtain ⟨rfl, -⟩ | ⟨_, _, -, ⟨-, -, rfl⟩ | ⟨-, c, hc, -, rfl⟩⟩ := onSpeechAudio_inv h
  · exact ⟨rfl, rfl, rfl, rfl⟩
  · exact ⟨rfl, rfl, rfl, rfl⟩
  · refine ⟨rfl, rfl, rfl, ?_⟩
    simp only [alive, hc, write_refuses]

/-- A client that refuses accepts nothing. -/
theorem onSpeechAudio_dead (hu : u.alive = false) (h : u.onSpeechAudio call = .ok (u', accepted)) : accepted = [] := by
  obtain ⟨-, rfl, -⟩ | ⟨_, _, -, ⟨-, rfl, -⟩ | ⟨-, c, hc, rfl, -⟩⟩ := onSpeechAudio_inv h
  · rfl
  · rfl
  · have hrefuses : c.refuses = true := by simpa [alive, hc] using hu
    rw [if_pos hrefuses]

/-- **A call is a chunk that comes to the gate.** -/
theorem onSpeechAudio_gate (hu : u.alive = true) (hg : Holds u.bIsBuffering u.audioBuffer g)
    (h : u.onSpeechAudio call = .ok (u', accepted)) :
    Holds u'.bIsBuffering u'.audioBuffer (g.put call.samples).1 ∧ accepted = audioRequests (g.put call.samples).2 := by
  unfold Gate.put
  obtain ⟨rfl, rfl, hskip⟩ | ⟨_, _, hne, hcall⟩ := onSpeechAudio_inv h
  · have hnil : call.samples = [] := hskip.resolve_left (by simp [isConnected_of_alive hu])
    rw [hnil]
    exact ⟨hg, rfl⟩
  · have hempty : call.samples.isEmpty = false := by simpa using hne
    rw [hempty, if_neg (by simp)]
    obtain ⟨hbuf, rfl, rfl⟩ | ⟨hbuf, c, hc, rfl, rfl⟩ := hcall
    · rw [if_pos (by rw [← hg.shut, hbuf])]
      exact ⟨⟨hbuf, by rw [hg.held, encode_append]⟩, rfl⟩
    · have hrefuses : c.refuses = false := by simpa [alive, hc] using hu
      have hout : (g.held ++ call.samples).isEmpty = false := by simp [hne]
      rw [if_neg (by rw [← hg.shut, hbuf]; simp), hrefuses, hg.held, ← encode_append, audioRequests, hout]
      exact ⟨⟨hbuf, rfl⟩, rfl⟩

end USpeechly

end SpeechlyPlugin.Plugin
