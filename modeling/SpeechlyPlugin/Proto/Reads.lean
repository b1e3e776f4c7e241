import SpeechlyPlugin.Proto.Slicing

/-!
# Every read of `CodedInputStream`

Each read agrees with the one of `Bytes`, wherever the chunks are cut.
-/

namespace SpeechlyPlugin.Proto

open Lib

namespace CodedInputStream

variable {w : Extent} {s t : CodedInputStream} {b : Bytes}

/-! ## Numbers, byte by byte -/

theorem or_shiftLeft (result : UInt64) (x : UInt8) {count : ℕ} (hcount : count < 10)
    (hresult : result.toNat < 128 ^ count) :
    result ||| (x.toUInt64 <<< UInt64.ofNat (7 * count)) = result + UInt64.ofNat (x.toNat * 128 ^ count) := by
  apply UInt64.toNat_inj.mp
  have hpow : (128 : ℕ) ^ count = 2 ^ (7 * count) := by rw [Nat.pow_mul]
  have hmod : 7 * count % 2 ^ 64 % 64 = 7 * count := by omega
  have hword : (2 : ℕ) ^ 64 = 2 ^ (64 - 7 * count) * 2 ^ (7 * count) := by
    rw [← Nat.pow_add]
    congr 1
    omega
  rw [hpow] at hresult ⊢
  rw [UInt64.toNat_or, UInt64.toNat_shiftLeft, UInt64.toNat_add, UInt64.toNat_ofNat', UInt64.toNat_ofNat', hmod,
    UInt8.toNat_toUInt64, Nat.shiftLeft_eq]
  have hhigh : x.toNat * 2 ^ (7 * count) % 2 ^ 64 = (x.toNat % 2 ^ (64 - 7 * count)) <<< (7 * count) := by
    rw [hword, Nat.mul_mod_mul_right, Nat.shiftLeft_eq]
  rw [Nat.add_mod_mod, ← Nat.add_mod_mod, hhigh, Nat.or_comm, ← Nat.shiftLeft_add_eq_or_of_lt hresult, Nat.add_comm]
  refine (Nat.mod_eq_of_lt ?_).symm
  rw [hword, Nat.shiftLeft_eq]
  have hlt : x.toNat % 2 ^ (64 - 7 * count) < 2 ^ (64 - 7 * count) := Nat.mod_lt _ (by positivity)
  calc result.toNat + x.toNat % 2 ^ (64 - 7 * count) * 2 ^ (7 * count)
      < 2 ^ (7 * count) + x.toNat % 2 ^ (64 - 7 * count) * 2 ^ (7 * count) := by omega
    _ = (x.toNat % 2 ^ (64 - 7 * count) + 1) * 2 ^ (7 * count) := by ring
    _ ≤ 2 ^ (64 - 7 * count) * 2 ^ (7 * count) := Nat.mul_le_mul_right _ hlt

/-- `fill` finds a byte where there is one before the limit. -/
theorem Shows.fill (h : Shows w s b) :
    b.bytes = [] ∧ s.fill = none ∨
      ∃ c buffer t, s.fill = some t ∧ t.buffer = c :: buffer ∧ Shows w t b := by
  unfold CodedInputStream.fill
  split
  · rename_i hnil
    obtain hnone | ⟨t, ht, hne, -, hshows⟩ := h.refresh hnil
    · exact .inl hnone
    · obtain ⟨c, buffer, hbuffer⟩ := List.exists_cons_of_ne_nil hne
      exact .inr ⟨c, buffer, t, ht, hbuffer, hshows⟩
  · rename_i hne
    obtain ⟨c, buffer, hbuffer⟩ := List.exists_cons_of_ne_nil hne
    exact .inr ⟨c, buffer, s, rfl, hbuffer, h⟩

/-- The first byte of the buffer is the first byte. -/
theorem Shows.cons (h : Shows w s b) {c : UInt8} {buffer : List UInt8} (hbuffer : s.buffer = c :: buffer) :
    ∃ rest, b.bytes = c :: rest ∧ Shows w { s with buffer := buffer } { b with bytes := rest } := by
  have hbytes := h.bytes_eq
  rw [hbuffer, List.cons_append] at hbytes
  refine ⟨_, hbytes, ?_⟩
  have hle : 1 ≤ s.buffer.length := by rw [hbuffer]; simp
  have hadvance := h.advance hle
  rw [CodedInputStream.advance, hbuffer, hbytes] at hadvance
  exact hadvance

/-- The loop of `ReadVarint64Slow`. -/
theorem Shows.varint64Slow (left count : ℕ) (hcount : left + count = 10) (result : UInt64)
    (hresult : result.toNat < 128 ^ count) (h : Shows w s b) :
    Agree (Shows w) (varint64Slow left count result s)
      ((Base128.decode left b.bytes).map fun x => (result + UInt64.ofNat (x.1 * 128 ^ count), { b with bytes := x.2 })) := by
  induction left generalizing count result s b with
  | zero => exact .none
  | succ left ih =>
    unfold CodedInputStream.varint64Slow
    obtain ⟨hnil, hfill⟩ | ⟨c, buffer, t, hfill, hbuffer, ht⟩ := h.fill
    · rw [hfill, hnil]
      exact .none
    · obtain ⟨rest, hrest, hshows⟩ := ht.cons hbuffer
      rw [hfill, hrest]
      simp only [Option.bind_eq_bind, Option.bind_some, hbuffer, Base128.decode]
      by_cases hc : c.toNat < 128
      · rw [if_neg (by simp [(and_128_eq_zero c).mpr hc]), if_pos hc, Option.map_some, and_127_of_lt c hc,
          or_shiftLeft _ _ (by omega) hresult]
        exact .some hshows
      · have hlow : (c &&& 0x7F).toNat = c.toNat - 128 := and_127 c (by omega)
        have hadd := or_shiftLeft result (c &&& 0x7F) (show count < 10 by omega) hresult
        rw [if_pos (fun h0 => hc ((and_128_eq_zero c).mp h0)), if_neg hc, Option.map_map]
        have hnext := ih (count + 1) (by omega) (result ||| ((c &&& 0x7F).toUInt64 <<< UInt64.ofNat (7 * count))) (by
          have hbyte := c.toNat_lt
          rw [hadd, UInt64.toNat_add, UInt64.toNat_ofNat', hlow]
          refine lt_of_le_of_lt (Nat.mod_le _ _) ?_
          refine lt_of_le_of_lt (Nat.add_le_add_left (Nat.mod_le _ _) _) ?_
          calc result.toNat + (c.toNat - 128) * 128 ^ count
              < 128 ^ count + (c.toNat - 128) * 128 ^ count := by omega
            _ = (c.toNat - 128 + 1) * 128 ^ count := by ring
            _ ≤ 128 * 128 ^ count := Nat.mul_le_mul_right _ (by omega)
            _ = 128 ^ (count + 1) := by ring) hshows
        refine Eq.subst (motive := fun y => Agree (Shows w) _ y) ?_ hnext
        refine congrArg (fun f => Option.map f _) (funext fun x => ?_)
        simp only [Function.comp, hadd, hlow, Prod.mk.injEq, and_true]
        rw [UInt64.add_assoc, ← UInt64.ofNat_add]
        congr 2
        ring

/-! ## Numbers -/

/-- The first byte goes on: what the fallbacks are called for. -/
def GoesOn (s : CodedInputStream) : Prop := ∀ c ptr, s.buffer = c :: ptr → 128 ≤ c.toNat

/-- A number that is known to end in the buffer is read from the buffer. -/
theorem Shows.decode (h : Shows w s b) (hends : s.endsInBuffer = true) :
    Agree (Shows w) ((Base128.decode 10 s.buffer).map fun x => (x.1, { s with buffer := x.2 })) b.readVarint := by
  have hbytes := h.bytes_eq
  unfold Bytes.readVarint
  cases hdecode : Base128.decode 10 s.buffer with
  | none =>
    have hlast : 10 ≤ s.buffer.length ∨ s.buffer.getLast?.any (·.toNat < 128) = true := by
      simpa only [endsInBuffer, lt_128, Bool.or_eq_true, decide_eq_true_eq] using hends
    rw [hbytes, Base128.decode_append_eq_none hdecode hlast]
    exact .none
  | some x =>
    obtain ⟨n, rest⟩ := x
    obtain ⟨c, pre, hpre, -⟩ := Base128.decode_eq_some hdecode
    rw [hbytes, Base128.decode_append hdecode]
    have hle : (c :: pre).length ≤ s.buffer.length := by rw [hpre]; simp
    have hadvance := h.advance hle
    rw [CodedInputStream.advance, hbytes, hpre, List.drop_left, List.append_assoc, List.drop_left] at hadvance
    exact .some hadvance

/-- **`ReadVarint64Fallback`.** -/
theorem Shows.readVarint64Fallback (h : Shows w s b) (hgoes : s.GoesOn) :
    Agree (Shows w) s.readVarint64Fallback (Input.readVarint64 b) := by
  unfold CodedInputStream.readVarint64Fallback
  split
  · rename_i hends
    rcases hbuffer : s.buffer with _ | ⟨c, ptr⟩
    · simp [endsInBuffer, hbuffer] at hends
    · have hdecode := (h.decode hends).map UInt64.ofNat
      rw [readVarint64FromArray_eq c ptr (hgoes c ptr hbuffer), Option.map_map]
      rw [hbuffer, Option.map_map] at hdecode
      exact hdecode
  · have hslow := h.varint64Slow 10 0 rfl 0 (by simp)
    simp only [pow_zero, mul_one, UInt64.zero_add] at hslow
    rw [readVarint64Slow]
    refine Eq.subst (motive := Agree (Shows w) _) ?_ hslow
    simp only [Input.readVarint64, Bytes.readVarint, Option.map_map]
    rfl

/-- A number of one byte. -/
theorem Shows.small (h : Shows w s b) {c : UInt8} {ptr : List UInt8} (hbuffer : s.buffer = c :: ptr) (hc : c < 0x80) :
    ∃ t, b.readVarint = some (c.toNat, t) ∧ Shows w (s.advance 1) t := by
  obtain ⟨rest, hrest, hshows⟩ := h.cons hbuffer
  rw [lt_128] at hc
  refine ⟨{ b with bytes := rest }, ?_, ?_⟩
  · rw [Bytes.readVarint, hrest, Base128.decode, if_pos hc, Option.map_some]
  · rw [CodedInputStream.advance, hbuffer]
    exact hshows

theorem goesOn_of_cons {c : UInt8} {ptr : List UInt8} (hbuffer : s.buffer = c :: ptr) (hc : ¬c < 0x80) : s.GoesOn := by
  intro c' ptr' hbuffer'
  rw [hbuffer, List.cons.injEq] at hbuffer'
  rw [lt_128] at hc
  rw [← hbuffer'.1]
  omega

theorem goesOn_of_nil (hbuffer : s.buffer = []) : s.GoesOn := by
  intro c ptr hcons
  rw [hbuffer] at hcons
  cases hcons

/-- **`ReadVarint64`.** -/
theorem Shows.readVarint64 (h : Shows w s b) : Agree (Shows w) s.readVarint64 (Input.readVarint64 b) := by
  unfold CodedInputStream.readVarint64
  split
  · rename_i c ptr hbuffer
    split
    · rename_i hc
      obtain ⟨t, ht, hshows⟩ := h.small hbuffer hc
      have hvalue : c.toUInt64 = UInt64.ofNat c.toNat := by simp
      rw [hvalue]
      simp only [Input.readVarint64, ht, Option.map_some]
      exact .some hshows
    · exact h.readVarint64Fallback (goesOn_of_cons hbuffer ‹_›)
  · exact h.readVarint64Fallback (goesOn_of_nil ‹_›)

/-- The low half of a number. -/
theorem readVarint64_toUInt32 (b : Bytes) :
    (Input.readVarint64 b).map (fun p => (p.1.toUInt32, p.2)) = Input.readVarint32 b := by
  simp only [Input.readVarint64, Input.readVarint32, Option.map_map]
  refine congrArg (fun f => Option.map f _) (funext fun x => ?_)
  simp only [Function.comp, Prod.mk.injEq, and_true]
  apply UInt32.toNat_inj.mp
  rw [UInt64.toNat_toUInt32, UInt64.toNat_ofNat', UInt32.toNat_ofNat']
  omega

/-- **`ReadVarint32Fallback`.** -/
theorem Shows.readVarint32Fallback (h : Shows w s b) (hgoes : s.GoesOn) :
    Agree (Shows w) s.readVarint32Fallback (Input.readVarint32 b) := by
  unfold CodedInputStream.readVarint32Fallback
  split
  · rename_i hends
    rcases hbuffer : s.buffer with _ | ⟨c, ptr⟩
    · simp [endsInBuffer, hbuffer] at hends
    · have hdecode := (h.decode hends).map UInt32.ofNat
      rw [readVarint32FromArray_eq c ptr (hgoes c ptr hbuffer), Option.map_map]
      rw [hbuffer, Option.map_map] at hdecode
      exact hdecode
  · have hslow := (h.readVarint64Fallback hgoes).map UInt64.toUInt32
    rw [readVarint64_toUInt32] at hslow
    exact hslow

/-- **`ReadVarint32`.** -/
theorem Shows.readVarint32 (h : Shows w s b) : Agree (Shows w) s.readVarint32 (Input.readVarint32 b) := by
  unfold CodedInputStream.readVarint32
  split
  · rename_i c ptr hbuffer
    split
    · rename_i hc
      obtain ⟨t, ht, hshows⟩ := h.small hbuffer hc
      have hvalue : c.toUInt32 = UInt32.ofNat c.toNat := by simp
      rw [hvalue]
      simp only [Input.readVarint32, ht, Option.map_some]
      exact .some hshows
    · exact h.readVarint32Fallback (goesOn_of_cons hbuffer ‹_›)
  · exact h.readVarint32Fallback (goesOn_of_nil ‹_›)

/-- **`ReadVarintSizeAsInt`.** -/
theorem Shows.readVarintSizeAsInt (h : Shows w s b) :
    Agree (Shows w) s.readVarintSizeAsInt b.readVarintSizeAsInt := by
  have hfallback (hgoes : s.GoesOn) : Agree (Shows w) s.readVarintSizeAsIntFallback b.readVarintSizeAsInt := by
    have hcode : s.readVarintSizeAsIntFallback =
        s.readVarint64Fallback >>= fun p => if INT_MAX < p.1.toNat then none else some (p.1.toNat, p.2) := by
      unfold readVarintSizeAsIntFallback CodedInputStream.readVarint64Fallback
      split
      · cases readVarint64FromArray s.buffer <;> rfl
      · cases s.readVarint64Slow <;> rfl
    have hbytes : b.readVarintSizeAsInt =
        Input.readVarint64 b >>= fun p => if INT_MAX < p.1.toNat then none else some (p.1.toNat, p.2) := by
      unfold Bytes.readVarintSizeAsInt
      simp only [Input.readVarint64]
      cases b.readVarint with
      | none => rfl
      | some x => simp only [Option.map_some, Option.bind_eq_bind, Option.bind_some, UInt64.toNat_ofNat']
    rw [hcode, hbytes]
    refine (h.readVarint64Fallback hgoes).bind fun value s b hshows => ?_
    simp only
    split
    · exact .none
    · exact .some hshows
  unfold CodedInputStream.readVarintSizeAsInt
  split
  · rename_i c ptr hbuffer
    split
    · rename_i hc
      obtain ⟨t, ht, hshows⟩ := h.small hbuffer hc
      have hbyte := c.toNat_lt
      rw [Bytes.readVarintSizeAsInt, ht]
      simp only [Nat.mod_eq_of_lt (show c.toNat < 2 ^ 64 by omega)]
      rw [if_neg (by unfold INT_MAX; omega)]
      exact .some hshows
    · exact hfallback (goesOn_of_cons hbuffer ‹_›)
  · exact hfallback (goesOn_of_nil ‹_›)

/-! ## Tags -/

/-- A parser has ended: at the end of the bytes, which both know, or in the middle. -/
structure Ends (w : Extent) (s : CodedInputStream) (b : Bytes) : Prop where
  ended : s.legitimateMessageEnd = b.ended
  shows : b.ended = true → Shows w { s with legitimateMessageEnd := false } { b with ended := false }

/-- What follows a tag, and what a tag 0 means. -/
structure TagRead (w : Extent) (p : UInt32 × CodedInputStream) (q : UInt32 × Bytes) : Prop where
  tag : p.1 = q.1
  shows : q.1 ≠ 0 → Shows w p.2 q.2
  ends : q.1 = 0 → Ends w p.2 q.2

/-- The bytes do not end in the middle. -/
theorem ends_of_reading (hs : s.legitimateMessageEnd = false) (hb : b.ended = false) : Ends w s b := by
  refine ⟨by rw [hs, hb], fun hended => ?_⟩
  rw [hb] at hended
  cases hended

theorem TagRead.of_agree {x : Option (UInt32 × CodedInputStream)} {y : Option (UInt32 × Bytes)} (h : Agree (Shows w) x y)
    (hs : s.legitimateMessageEnd = false) (hb : b.ended = false) :
    TagRead w (x.getD (0, s)) (y.getD (0, b)) := by
  cases h with
  | none => exact ⟨rfl, fun h0 => absurd rfl h0, fun _ => ends_of_reading hs hb⟩
  | some h => exact ⟨rfl, fun _ => h, fun _ => ends_of_reading h.reading h.ended⟩

/-- A tag that is there is a number. -/
theorem readTag_bytes {c : UInt8} {rest : List UInt8} (hbytes : b.bytes = c :: rest) :
    b.readTag = (Input.readVarint32 b).getD (0, b) := by
  unfold Bytes.readTag
  rw [hbytes]
  simp only [Input.readVarint32]
  cases b.readVarint <;> rfl

/-- The end of the bytes. -/
theorem Shows.ends (h : Shows w s b) : Ends w { s with legitimateMessageEnd := true } { b with ended := true } := by
  refine ⟨rfl, fun _ => ?_⟩
  have hs : { s with legitimateMessageEnd := false } = s := by rw [← h.reading]
  have hb : ({ b with ended := false } : Bytes) = b := by rw [← h.ended]
  simp only [hs, hb]
  exact h

/-- A tag of one byte. -/
theorem Shows.smallTag (h : Shows w s b) {c : UInt8} {ptr : List UInt8} (hbuffer : s.buffer = c :: ptr) (hc : c < 0x80) :
    TagRead w (c.toUInt32, s.advance 1) b.readTag := by
  obtain ⟨rest, hrest, -⟩ := h.cons hbuffer
  obtain ⟨t, ht, hshows⟩ := h.small hbuffer hc
  have hvalue : c.toUInt32 = UInt32.ofNat c.toNat := by simp
  rw [readTag_bytes hrest, hvalue]
  simp only [Input.readVarint32, ht, Option.map_some, Option.getD_some]
  exact ⟨rfl, fun _ => hshows, fun _ => ends_of_reading hshows.reading hshows.ended⟩

/-- **`ReadTagSlow`.** -/
theorem Shows.readTagSlow (h : Shows w s b) : TagRead w s.readTagSlow b.readTag := by
  unfold CodedInputStream.readTagSlow
  obtain ⟨hnil, hfill⟩ | ⟨c, buffer, t, hfill, hbuffer, ht⟩ := h.fill
  · have hlegit : (if s.totalBytesLimit ≤ s.totalBytesRead - s.afterLimit.length then
        s.currentLimit == s.totalBytesLimit else true) = true := by
      have hbound := h.bound
      have hafter := h.after
      have hle := h.limit_le
      split
      · rename_i hhit
        rw [h.total] at hhit ⊢
        rw [h.limit] at hafter ⊢
        rw [beq_iff_eq]
        omega
      · rfl
    have hread : b.readTag = (0, { b with ended := true }) := by rw [Bytes.readTag, hnil]
    rw [hfill, hread]
    simp only [hlegit]
    exact ⟨rfl, fun h0 => absurd rfl h0, fun _ => h.ends⟩
  · obtain ⟨rest, hrest, -⟩ := ht.cons hbuffer
    have hread := ht.readVarint64.map UInt64.toUInt32
    rw [readVarint64_toUInt32] at hread
    have htag := TagRead.of_agree hread ht.reading ht.ended
    rw [← readTag_bytes hrest] at htag
    rw [hfill]
    cases hvarint : t.readVarint64 <;> simpa only [hvarint, Option.map_none, Option.map_some, Option.getD_none,
      Option.getD_some] using htag

/-- **`ReadTagFallback`.** -/
theorem Shows.readTagFallback (h : Shows w s b) (hgoes : s.GoesOn ∨ s.buffer.head? = some 0) :
    TagRead w s.readTagFallback b.readTag := by
  unfold CodedInputStream.readTagFallback
  split
  · rename_i hends
    rcases hbuffer : s.buffer with _ | ⟨c, ptr⟩
    · simp [endsInBuffer, hbuffer] at hends
    · obtain ⟨rest, hrest, -⟩ := h.cons hbuffer
      rw [readTag_bytes hrest]
      by_cases hc : c = 0
      · subst hc
        obtain ⟨t, ht, hshows⟩ := h.small hbuffer (by decide)
        simp only [Input.readVarint32, ht, List.head?_cons, if_true, Option.map_some, Option.getD_some]
        exact ⟨rfl, fun h0 => absurd rfl h0, fun _ => ends_of_reading hshows.reading hshows.ended⟩
      · have hge : 128 ≤ c.toNat := by
          rcases hgoes with hgoes | hzero
          · exact hgoes c ptr hbuffer
          · rw [hbuffer, List.head?_cons, Option.some.injEq] at hzero
            exact absurd hzero hc
        have hread := (h.decode hends).map UInt32.ofNat
        rw [hbuffer, Option.map_map] at hread
        have htag := TagRead.of_agree hread h.reading h.ended
        rw [List.head?_cons, if_neg (by simpa using hc), readVarint32FromArray_eq c ptr hge]
        cases hdecode : Base128.decode 10 (c :: ptr) with
        | none =>
          rw [hdecode] at htag
          exact htag
        | some x =>
          rw [hdecode] at htag
          exact htag
  · split
    · rename_i hlimit
      obtain ⟨hnil, hhit, -⟩ := hlimit
      have hbytes := h.bytes_eq
      have hafter := h.after
      have hzero : w.limit - s.totalBytesRead = 0 := by
        rw [h.limit] at hafter hhit
        rcases hhit with hhit | hhit
        · have := List.length_pos_iff.mpr hhit
          omega
        · omega
      rw [hnil, hzero, List.take_zero, List.append_nil] at hbytes
      have hread : b.readTag = (0, { b with ended := true }) := by rw [Bytes.readTag, hbytes]
      rw [hread]
      exact ⟨rfl, fun h0 => absurd rfl h0, fun _ => h.ends⟩
    · exact h.readTagSlow

/-- **`ReadTag`.** -/
theorem Shows.readTag (h : Shows w s b) : TagRead w s.readTag b.readTag := by
  unfold CodedInputStream.readTag
  split
  · rename_i c ptr hbuffer
    split
    · rename_i hc
      exact h.smallTag hbuffer hc
    · exact h.readTagFallback (Or.inl (goesOn_of_cons hbuffer ‹_›))
  · exact h.readTagFallback (Or.inl (goesOn_of_nil ‹_›))

/-- A tag of one byte is below the cutoff. -/
theorem small_le (c : UInt8) (hpos : 0 < c) (hc : c < 0x80) : c.toUInt32 - 1 < 127 := by
  obtain ⟨c⟩ := c
  revert c
  decide +kernel

/-- **`ReadTagWithCutoffNoLastTag(127)`.** -/
theorem Shows.readTagWithCutoff (h : Shows w s b) :
    s.readTagWithCutoff.1 = (b.readTag.1, decide (b.readTag.1 - 1 < 127)) ∧
      TagRead w (s.readTagWithCutoff.1.1, s.readTagWithCutoff.2) b.readTag := by
  unfold CodedInputStream.readTagWithCutoff
  split
  · rename_i c ptr hbuffer
    split
    · rename_i hc
      have htag := h.smallTag hbuffer hc.2
      refine ⟨?_, htag⟩
      rw [← htag.tag, decide_eq_true (small_le c hc.1 hc.2)]
    · rename_i hc
      have hfallback : TagRead w s.readTagFallback b.readTag := by
        apply h.readTagFallback
        by_cases hsmall : c < 0x80
        · right
          have hzero : c = 0 := by
            by_contra hne
            exact hc ⟨UInt8.pos_iff_ne_zero.mpr hne, hsmall⟩
          rw [hbuffer, List.head?_cons, hzero]
        · exact Or.inl (goesOn_of_cons hbuffer hsmall)
      exact ⟨by simp only [hfallback.tag], hfallback⟩
  · have hfallback := h.readTagFallback (Or.inl (goesOn_of_nil ‹_›))
    exact ⟨by simp only [hfallback.tag], hfallback⟩

/-! ## Bytes -/

/-- Enough bytes in the buffer. -/
theorem Shows.readRawBuffer (h : Shows w s b) {size : ℕ} (hsize : size ≤ s.buffer.length) :
    Agree (Shows w) (some (s.buffer.take size, s.advance size)) (b.readRaw size) := by
  have hbytes := h.bytes_eq
  have htake : b.bytes.take size = s.buffer.take size := by rw [hbytes, List.take_append_of_le_length hsize]
  have hlen : size ≤ b.bytes.length := by
    rw [hbytes, List.length_append]
    omega
  rw [Bytes.readRaw, if_pos hlen, htake]
  exact .some (h.advance hsize)

/-- Too few bytes in the buffer. -/
theorem Shows.readRaw_eq (h : Shows w s b) {size : ℕ} (hsize : s.buffer.length < size) :
    b.readRaw size = (({ b with bytes := b.bytes.drop s.buffer.length } : Bytes).readRaw (size - s.buffer.length)).map
      fun p => (s.buffer ++ p.1, p.2) := by
  have hbytes := h.bytes_eq
  have hlen : s.buffer.length ≤ b.bytes.length := by
    rw [hbytes, List.length_append]
    omega
  have htake : s.buffer ++ (b.bytes.drop s.buffer.length).take (size - s.buffer.length) = b.bytes.take size := by
    rw [hbytes, List.drop_left, List.take_append, List.take_of_length_le (l := s.buffer) (by omega)]
  unfold Bytes.readRaw
  simp only [List.length_drop]
  by_cases hle : size ≤ b.bytes.length
  · rw [if_pos hle, if_pos (by omega), Option.map_some, htake, List.drop_drop]
    simp only [show s.buffer.length + (size - s.buffer.length) = size by omega]
  · rw [if_neg hle, if_neg (by omega), Option.map_none]

/-- The loop that fetches chunks until there are enough bytes. -/
theorem Shows.readRawLoop (h : Shows w s b) {chunks : ℕ} (hchunks : s.input.length ≤ chunks) (size : ℕ) :
    Agree (Shows w) (readRawLoop chunks size s) (b.readRaw size) := by
  induction chunks generalizing s b size with
  | zero =>
    unfold CodedInputStream.readRawLoop
    split
    · rename_i hlt
      obtain ⟨hnil, hrefresh⟩ | ⟨t, -, -, hfewer, -⟩ := (h.advance le_rfl).refresh (by simp [CodedInputStream.advance])
      · rw [h.readRaw_eq hlt, Bytes.readRaw, if_neg (by rw [hnil, List.length_nil]; omega)]
        exact .none
      · have hsame : (s.advance s.buffer.length).input.length = s.input.length := rfl
        omega
    · exact h.readRawBuffer (by omega)
  | succ chunks ih =>
    unfold CodedInputStream.readRawLoop
    split
    · rename_i hlt
      rw [h.readRaw_eq hlt]
      obtain ⟨hnil, hrefresh⟩ | ⟨t, hrefresh, -, hfewer, hshows⟩ :=
        (h.advance le_rfl).refresh (by simp [CodedInputStream.advance])
      · rw [Bytes.readRaw, if_neg (by rw [hnil, List.length_nil]; omega), hrefresh]
        exact .none
      · have hsame : (s.advance s.buffer.length).input.length = s.input.length := rfl
        rw [hrefresh]
        exact (ih hshows (by omega) (size - s.buffer.length)).map fun bytes => s.buffer ++ bytes
    · exact h.readRawBuffer (by omega)

/-- **`ReadRaw`.** -/
theorem Shows.readRaw (h : Shows w s b) (size : ℕ) : Agree (Shows w) (s.readRaw size) (b.readRaw size) :=
  h.readRawLoop le_rfl size

/-! ## Limits -/

/-- A limit that is moved to `limit`, between the position and `INT_MAX`. -/
theorem Within.setLimit (h : Within w s) {limit : ℕ} (hpos : s.currentPosition ≤ limit) (hle : limit ≤ INT_MAX) :
    Shows ⟨w.stream, limit⟩ { s with currentLimit := limit }.recomputeBufferLimits
      ⟨(w.stream.drop s.currentPosition).take (limit - s.currentPosition), false⟩ := by
  have hwithin : Within ⟨w.stream, limit⟩ { s with currentLimit := limit } :=
    ⟨h.bound, h.overflow, hle, rfl, h.total, h.buffered, hpos, h.reachable, h.reading⟩
  exact hwithin.recompute

/-- **`PushLimit`**: the limit is moved to the front, or it was there already. -/
theorem Shows.pushLimit (h : Shows w s b) (n : ℕ) :
    (s.pushLimit n).1 = w.limit ∧
      ∃ limit, Shows ⟨w.stream, limit⟩ (s.pushLimit n).2 { b with bytes := b.bytes.take n } ∧ limit ≤ w.limit ∧
        b.bytes.drop n = (w.stream.drop limit).take (w.limit - limit) := by
  have hposition := h.position
  have hle := h.limit_le
  have hbytes := h.bytes
  unfold CodedInputStream.pushLimit
  simp only [h.limit]
  split
  · rename_i hmoves
    refine ⟨rfl, s.currentPosition + n, ?_, by omega, ?_⟩
    · have hshows := h.toWithin.setLimit (show s.currentPosition ≤ s.currentPosition + n by omega) (by omega)
      have hb : ({ b with bytes := b.bytes.take n } : Bytes) =
          ⟨(w.stream.drop s.currentPosition).take (s.currentPosition + n - s.currentPosition), false⟩ := by
        rw [h.ended, hbytes, List.take_take, Nat.min_eq_left (by omega), Nat.add_sub_cancel_left]
      rw [hb]
      exact hshows
    · rw [hbytes, List.drop_take, List.drop_drop, Nat.sub_add_eq]
  · rename_i hstays
    have hlen : b.bytes.length ≤ n := by
      rw [hbytes, List.length_take]
      omega
    refine ⟨rfl, w.limit, ?_, le_rfl, ?_⟩
    · rw [List.take_of_length_le hlen]
      exact h
    · rw [List.drop_of_length_le hlen, Nat.sub_self, List.take_zero]

/-- **`PopLimit`** gives back what was set aside. -/
theorem Shows.popLimit {limit : ℕ} (h : Shows ⟨w.stream, limit⟩ { s with legitimateMessageEnd := false } b)
    (hlimit : limit ≤ w.limit) (hle : w.limit ≤ INT_MAX) :
    Shows w (s.popLimit w.limit) ⟨b.bytes ++ (w.stream.drop limit).take (w.limit - limit), false⟩ := by
  have hposition : s.currentPosition ≤ limit := h.position
  have hshows := h.toWithin.setLimit (hposition.trans hlimit) hle
  have hbytes : b.bytes = (w.stream.drop s.currentPosition).take (limit - s.currentPosition) := h.bytes
  have hjoin : b.bytes ++ (w.stream.drop limit).take (w.limit - limit) =
      (w.stream.drop s.currentPosition).take (w.limit - s.currentPosition) := by
    rw [hbytes, show w.limit - s.currentPosition = limit - s.currentPosition + (w.limit - limit) by omega, List.take_add,
      List.drop_drop, Nat.add_sub_cancel' hposition]
  rw [hjoin]
  exact hshows

/-- **A parser under a limit.** -/
theorem Shows.withLimit {α : Type} {parse : CodedInputStream → Option (α × CodedInputStream)}
    {parse' : Bytes → Option (α × Bytes)} (hparse : ∀ w s b, Shows w s b → Agree (Ends w) (parse s) (parse' b)) (n : ℕ)
    (h : Shows w s b) : Agree (Shows w) (CodedInputStream.withLimit n parse s) (b.withLimit n parse') := by
  obtain ⟨hold, limit, hpush, hlimit, hdrop⟩ := h.pushLimit n
  unfold CodedInputStream.withLimit Bytes.withLimit
  generalize s.pushLimit n = pushed at hold hpush
  obtain ⟨old, r⟩ := pushed
  simp only at hold hpush
  subst hold
  refine (hparse _ _ _ hpush).bind fun a t c hends => ?_
  simp only [consumedEntireMessage, hends.ended, hdrop]
  split
  · rename_i hended
    exact .some ((hends.shows hended).popLimit hlimit h.limit_le)
  · exact .none

/-! ## The constructor -/

/-- **A new stream** shows the bytes of its chunks. -/
theorem shows_new (input : List (List UInt8)) :
    Shows ⟨input.flatten.take INT_MAX, INT_MAX⟩ (.new input) ⟨input.flatten.take INT_MAX, false⟩ := by
  have hinit : Shows ⟨input.flatten.take INT_MAX, INT_MAX⟩ ⟨[], [], input, 0, 0, false, INT_MAX, INT_MAX⟩
      ⟨input.flatten.take INT_MAX, false⟩ := by
    refine ⟨⟨?_, ?_, le_rfl, rfl, rfl, ?_, ?_, ?_, rfl⟩, ?_, ?_, rfl⟩ <;>
      simp [currentPosition, reachable, INT_MAX, List.take_take]
  unfold CodedInputStream.new
  obtain ⟨-, hrefresh⟩ | ⟨t, hrefresh, -, -, hshows⟩ := hinit.refresh rfl <;> simp only [hrefresh]
  · exact hinit
  · exact hshows

/-- `SetTotalBytesLimit(INT_MAX)` changes nothing. -/
theorem Shows.setTotalBytesLimit (h : Shows w s b) : Shows w (s.setTotalBytesLimit INT_MAX) b := by
  have hbound := h.bound
  have hmax : max s.currentPosition INT_MAX = s.totalBytesLimit := by
    rw [h.total]
    simp only [currentPosition]
    omega
  have hshows := h.toWithin.recompute
  have hb : b = ⟨(w.stream.drop s.currentPosition).take (w.limit - s.currentPosition), false⟩ := by
    rw [← h.bytes, ← h.ended]
  rw [CodedInputStream.setTotalBytesLimit, hmax, hb]
  exact hshows

end CodedInputStream

end SpeechlyPlugin.Proto
