import SpeechlyPlugin.Proto.Varint

/-!
# The chunks of the input do not matter

A `CodedInputStream` over any chunks reads what `Bytes` reads: each of its reads gives the same value, or fails, and leaves
the bytes that follow.  `Shows w s b` says that the stream `s` is somewhere in the stream of bytes `w.stream`, under the
limit `w.limit`, and that the bytes of `b` are those from there to the limit.
-/

namespace SpeechlyPlugin.Proto

open Lib

/-- A stream of bytes, and the position up to which they are read. -/
structure Extent where
  stream : List UInt8
  limit : ℕ

/-- A read fails for both, or gives the same value, and what is left is related. -/
inductive Agree {α : Type} (R : CodedInputStream → Bytes → Prop) :
    Option (α × CodedInputStream) → Option (α × Bytes) → Prop where
  | none : Agree R none none
  | some {a : α} {s : CodedInputStream} {b : Bytes} (h : R s b) : Agree R (some (a, s)) (some (a, b))

section

variable {α β : Type} {R S : CodedInputStream → Bytes → Prop} {x : Option (α × CodedInputStream)} {y : Option (α × Bytes)}

theorem Agree.map (h : Agree R x y) (f : α → β) :
    Agree R (x.map fun p => (f p.1, p.2)) (y.map fun p => (f p.1, p.2)) := by
  cases h with
  | none => exact .none
  | some h => exact .some h

theorem Agree.bind {f : α × CodedInputStream → Option (β × CodedInputStream)} {g : α × Bytes → Option (β × Bytes)}
    (h : Agree R x y) (hfg : ∀ a s b, R s b → Agree S (f (a, s)) (g (a, b))) : Agree S (x >>= f) (y >>= g) := by
  cases h with
  | none => exact .none
  | some h => exact hfg _ _ _ h

end

namespace CodedInputStream

/-- The bytes from the current position on. -/
def reachable (s : CodedInputStream) : List UInt8 :=
  s.buffer ++ s.afterLimit ++ s.input.flatten.take (INT_MAX - s.totalBytesRead)

/-- Where a stream is, apart from where its buffer ends. -/
structure Within (w : Extent) (s : CodedInputStream) : Prop where
  bound : s.totalBytesRead ≤ INT_MAX
  overflow : 0 < s.overflowBytes → s.totalBytesRead = INT_MAX
  limit_le : w.limit ≤ INT_MAX
  limit : s.currentLimit = w.limit
  total : s.totalBytesLimit = INT_MAX
  buffered : s.buffer.length + s.afterLimit.length ≤ s.totalBytesRead
  position : s.currentPosition ≤ w.limit
  reachable : s.reachable = w.stream.drop s.currentPosition
  reading : s.legitimateMessageEnd = false

/-- What a stream is about to read. -/
structure Shows (w : Extent) (s : CodedInputStream) (b : Bytes) : Prop extends Within w s where
  after : s.afterLimit.length = s.totalBytesRead - s.currentLimit
  bytes : b.bytes = (w.stream.drop s.currentPosition).take (w.limit - s.currentPosition)
  ended : b.ended = false

variable {w : Extent} {s t : CodedInputStream} {b : Bytes}

/-! ## The buffer and the limits -/

/-- The buffer, and what can be fetched. -/
theorem Shows.bytes_eq (h : Shows w s b) : b.bytes = s.buffer ++ s.input.flatten.take (w.limit - s.totalBytesRead) := by
  have hbuffered := h.buffered
  have hafter := h.after
  have hle := h.limit_le
  rw [h.limit] at hafter
  rw [h.bytes, ← h.reachable, reachable]
  by_cases hlimit : s.totalBytesRead ≤ w.limit
  · have hnil : s.afterLimit = [] := List.length_eq_zero_iff.mp (by omega)
    have hlen : w.limit - s.currentPosition = s.buffer.length + (w.limit - s.totalBytesRead) := by
      simp only [currentPosition, hnil, List.length_nil] at hbuffered ⊢
      omega
    rw [hnil, List.append_nil, hlen, List.take_length_add_append, List.take_take, Nat.min_eq_left (by omega)]
  · have hlen : w.limit - s.currentPosition = s.buffer.length := by
      simp only [currentPosition]
      omega
    rw [hlen, List.append_assoc, List.take_left, Nat.sub_eq_zero_of_le (by omega), List.take_zero, List.append_nil]

/-- `Advance` within the buffer. -/
theorem Shows.advance (h : Shows w s b) {amount : ℕ} (hle : amount ≤ s.buffer.length) :
    Shows w (s.advance amount) { b with bytes := b.bytes.drop amount } := by
  have hbuffered := h.buffered
  have hposition := h.position
  have hafter := h.after
  have hcur : (s.advance amount).currentPosition = s.currentPosition + amount := by
    simp only [currentPosition, CodedInputStream.advance, List.length_drop]
    omega
  refine ⟨⟨h.bound, h.overflow, h.limit_le, h.limit, h.total, ?_, ?_, ?_, h.reading⟩, hafter, ?_, h.ended⟩
  · simp only [CodedInputStream.advance, List.length_drop]
    omega
  · have hlimit := h.limit
    rw [hcur]
    simp only [currentPosition] at hposition ⊢
    omega
  · rw [hcur, ← List.drop_drop, ← h.reachable]
    simp only [CodedInputStream.reachable, CodedInputStream.advance]
    rw [List.append_assoc, List.append_assoc, List.drop_append_of_le_length hle]
  · rw [hcur, h.bytes, List.drop_take, List.drop_drop, Nat.sub_add_eq]

/-- What is set apart by `RecomputeBufferLimits`. -/
theorem Within.recompute_eq (h : Within w s) :
    s.recomputeBufferLimits =
      { s with
        buffer := (s.buffer ++ s.afterLimit).take
          ((s.buffer ++ s.afterLimit).length - (s.totalBytesRead - w.limit))
        afterLimit := (s.buffer ++ s.afterLimit).drop
          ((s.buffer ++ s.afterLimit).length - (s.totalBytesRead - w.limit)) } := by
  have hlimit := h.limit
  have hafter : (if min s.currentLimit s.totalBytesLimit < s.totalBytesRead then
      s.totalBytesRead - min s.currentLimit s.totalBytesLimit else 0) = s.totalBytesRead - w.limit := by
    rw [h.total, hlimit, Nat.min_eq_left h.limit_le]
    split <;> omega
  simp only [recomputeBufferLimits, hafter]

theorem Within.recompute_position (h : Within w s) : s.recomputeBufferLimits.currentPosition = s.currentPosition := by
  simp only [h.recompute_eq, currentPosition]
  rw [← List.length_append, List.take_append_drop, List.length_append]

/-- `RecomputeBufferLimits`. -/
theorem Within.recompute (h : Within w s) :
    Shows w s.recomputeBufferLimits
      ⟨(w.stream.drop s.currentPosition).take (w.limit - s.currentPosition), false⟩ := by
  have hbuffered := h.buffered
  have hposition := h.position
  have hcur := h.recompute_position
  have heq := h.recompute_eq
  refine ⟨⟨?_, ?_, h.limit_le, ?_, ?_, ?_, ?_, ?_, ?_⟩, ?_, ?_, rfl⟩
  · rw [heq]
    exact h.bound
  · rw [heq]
    exact h.overflow
  · rw [heq]
    exact h.limit
  · rw [heq]
    exact h.total
  · rw [heq]
    simp only
    rw [← List.length_append, List.take_append_drop, List.length_append]
    exact hbuffered
  · rw [hcur]
    exact hposition
  · rw [hcur, ← h.reachable, heq]
    simp only [CodedInputStream.reachable, List.take_append_drop]
  · rw [heq]
    exact h.reading
  · rw [heq]
    simp only [currentPosition] at hposition
    simp only [List.length_drop, List.length_append, h.limit]
    omega
  · rw [hcur]

/-! ## `Refresh` -/

theorem nextNonEmpty_eq_none {input : List (List UInt8)} (h : nextNonEmpty input = none) : input.flatten = [] := by
  induction input with
  | nil => rfl
  | cons chunk input ih =>
    rw [nextNonEmpty] at h
    split at h
    · rename_i hnil
      rw [List.flatten_cons, hnil, ih h]
      rfl
    · cases h

theorem nextNonEmpty_eq_some {input rest : List (List UInt8)} {chunk : List UInt8}
    (h : nextNonEmpty input = some (chunk, rest)) :
    chunk ≠ [] ∧ input.flatten = chunk ++ rest.flatten ∧ rest.length < input.length := by
  induction input with
  | nil => cases h
  | cons first input ih =>
    rw [nextNonEmpty] at h
    split at h
    · rename_i hnil
      obtain ⟨hne, hflat, hlen⟩ := ih h
      refine ⟨hne, by rw [List.flatten_cons, hnil, hflat]; rfl, ?_⟩
      rw [List.length_cons]
      omega
    · rename_i hne
      simp only [Option.some.injEq, Prod.mk.injEq] at h
      obtain ⟨rfl, rfl⟩ := h
      exact ⟨hne, rfl, by simp⟩

/-- The chunk, cut at `INT_MAX`. -/
theorem fetch_eq (s : CodedInputStream) (chunk : List UInt8) (input : List (List UInt8)) :
    s.fetch chunk input =
      { s with
        buffer := chunk.take (INT_MAX - s.totalBytesRead), input := input
        totalBytesRead := min (s.totalBytesRead + chunk.length) INT_MAX
        overflowBytes :=
          if s.totalBytesRead + chunk.length ≤ INT_MAX then s.overflowBytes
          else s.totalBytesRead + chunk.length - INT_MAX } := by
  unfold fetch
  split
  · rename_i hle
    rw [List.take_of_length_le (by omega), Nat.min_eq_left hle]
  · rename_i hlt
    simp only [Nat.min_eq_right (show INT_MAX ≤ s.totalBytesRead + chunk.length by omega),
      show chunk.length - (s.totalBytesRead + chunk.length - INT_MAX) = INT_MAX - s.totalBytesRead by omega]

theorem Within.fetch (h : Within w s) (hbuffer : s.buffer = []) (hafter : s.afterLimit = []) {chunk : List UInt8}
    {input : List (List UInt8)} (hflat : s.input.flatten = chunk ++ input.flatten) :
    Within w (s.fetch chunk input) ∧ (s.fetch chunk input).currentPosition = s.totalBytesRead := by
  have hbound := h.bound
  have hcur : s.currentPosition = s.totalBytesRead := by simp [currentPosition, hbuffer, hafter]
  have hlen : (chunk.take (INT_MAX - s.totalBytesRead)).length = min (INT_MAX - s.totalBytesRead) chunk.length :=
    List.length_take
  have hcur' : min (s.totalBytesRead + chunk.length) INT_MAX -
      ((chunk.take (INT_MAX - s.totalBytesRead)).length + s.afterLimit.length) = s.totalBytesRead := by
    rw [hafter, hlen, List.length_nil]
    omega
  refine ⟨⟨?_, ?_, h.limit_le, ?_, ?_, ?_, ?_, ?_, ?_⟩, ?_⟩ <;> rw [fetch_eq] <;> simp only [currentPosition, hcur']
  · omega
  · have hover := h.overflow
    by_cases hlt : s.totalBytesRead + chunk.length ≤ INT_MAX
    · rw [if_pos hlt, Nat.min_eq_left hlt]
      intro hpos
      have := hover hpos
      omega
    · rw [Nat.min_eq_right (by omega)]
      exact fun _ => rfl
  · exact h.limit
  · exact h.total
  · rw [hafter, hlen, List.length_nil]
    omega
  · rw [← hcur]
    exact h.position
  · rw [← hcur, ← h.reachable, CodedInputStream.reachable, CodedInputStream.reachable, hcur, hbuffer, hafter, hflat]
    simp only [List.nil_append, List.append_nil, List.take_append]
    congr 2
    omega
  · exact h.reading

/-- **`Refresh`** of an empty buffer fetches bytes where there are some before the limit. -/
theorem Shows.refresh (h : Shows w s b) (hbuffer : s.buffer = []) :
    b.bytes = [] ∧ s.refresh = none ∨
      ∃ t, s.refresh = some t ∧ t.buffer ≠ [] ∧ t.input.length < s.input.length ∧ Shows w t b := by
  have hbytes := h.bytes_eq
  have hle := h.limit_le
  have hafter := h.after
  rw [hbuffer, List.nil_append] at hbytes
  rw [h.limit] at hafter
  unfold CodedInputStream.refresh
  split
  · rename_i hstop
    refine .inl ⟨?_, rfl⟩
    have hover := h.overflow
    rw [h.limit] at hstop
    have hzero : w.limit - s.totalBytesRead = 0 := by
      rcases hstop with hstop | hstop | hstop
      · have hpos := List.length_pos_iff.mpr hstop
        omega
      · have := hover hstop
        omega
      · omega
    rw [hbytes, hzero, List.take_zero]
  · rename_i hstop
    rw [not_or, not_or, not_not, h.limit] at hstop
    obtain ⟨hnil, -, hne⟩ := hstop
    cases hnext : nextNonEmpty s.input with
    | none => exact .inl ⟨by rw [hbytes, nextNonEmpty_eq_none hnext, List.take_nil], rfl⟩
    | some x =>
      obtain ⟨chunk, input⟩ := x
      obtain ⟨hchunk, hflat, hlen⟩ := nextNonEmpty_eq_some hnext
      obtain ⟨hwithin, hcur⟩ := h.toWithin.fetch hbuffer hnil hflat
      have hshows := hwithin.recompute
      have hcur' := hwithin.recompute_position
      have hold : s.currentPosition = s.totalBytesRead := by simp [currentPosition, hbuffer, hnil]
      have hsame : (⟨(w.stream.drop (s.fetch chunk input).currentPosition).take
          (w.limit - (s.fetch chunk input).currentPosition), false⟩ : Bytes) = b := by
        obtain ⟨bytes, ended⟩ := b
        have hb := h.bytes
        have hended := h.ended
        simp only at hb hended
        rw [hcur, hb, hold, hended]
      rw [hsame] at hshows
      refine .inr ⟨_, rfl, ?_, ?_, hshows⟩
      · intro hempty
        simp only at hempty
        have htotal : (s.fetch chunk input).recomputeBufferLimits.totalBytesRead =
            min (s.totalBytesRead + chunk.length) INT_MAX := by
          rw [hwithin.recompute_eq, fetch_eq]
        have hset := hshows.after
        have hpos := List.length_pos_iff.mpr hchunk
        rw [hcur, currentPosition, hempty, List.length_nil, hset, htotal, hshows.limit] at hcur'
        omega
      · simp only
        rw [hwithin.recompute_eq, fetch_eq]
        exact hlen

end CodedInputStream

end SpeechlyPlugin.Proto
