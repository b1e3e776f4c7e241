import Mathlib.Data.List.Basic
import Mathlib.Tactic.SplitIfs

/-!
# `IsStructurallyValidUTF8`

The state machine that checks the text of a message.  It accepts the encodings of characters in their shortest form, and no
surrogates.
-/

namespace SpeechlyPlugin.Proto

/-- The table `utf8acceptnonsurrogates`: from a state, by a byte; `none` is `kExitIllegalStructure` or `kExitReject`. -/
def utf8acceptnonsurrogates (state : ℕ) (c : UInt8) : Option ℕ :=
  match state with
  -- byte 1
  | 0 =>
    if c < 0x80 then some 0
    else if c < 0xC2 then none
    else if c < 0xE0 then some 1
    else if c = 0xE0 then some 2
    else if c = 0xED then some 7
    else if c < 0xF0 then some 3
    else if c = 0xF0 then some 4
    else if c < 0xF4 then some 5
    else if c = 0xF4 then some 6
    else none
  -- byte 2 of 2
  | 1 => if 0x80 ≤ c ∧ c < 0xC0 then some 0 else none
  -- byte 2 of 3
  | 2 => if 0xA0 ≤ c ∧ c < 0xC0 then some 1 else none
  | 3 => if 0x80 ≤ c ∧ c < 0xC0 then some 1 else none
  -- byte 2 of 4
  | 4 => if 0x90 ≤ c ∧ c < 0xC0 then some 3 else none
  | 5 => if 0x80 ≤ c ∧ c < 0xC0 then some 3 else none
  | 6 => if 0x80 ≤ c ∧ c < 0x90 then some 3 else none
  -- byte 2 of 3: from `0xA0` on the surrogates
  | 7 =>
    if 0x80 ≤ c ∧ c < 0xA0 then some 1
    else if 0xA0 ≤ c ∧ c < 0xC0 then some 8
    else none
  | _ => none

/-- `IsStructurallyValidUTF8`: the scan consumes everything and ends in state 0.  The scans over ASCII that come before it
skip bytes that stay in state 0. -/
def isStructurallyValidUTF8 (bytes : List UInt8) : Bool := bytes.foldlM utf8acceptnonsurrogates 0 == some 0

/-! ## The table -/

section

variable (c : UInt8) (s : ℕ)

theorem utf8_first :
    utf8acceptnonsurrogates 0 c = some s ↔
      c.toNat < 0x80 ∧ s = 0 ∨ (0xC2 ≤ c.toNat ∧ c.toNat < 0xE0) ∧ s = 1 ∨ c.toNat = 0xE0 ∧ s = 2 ∨ c.toNat = 0xED ∧ s = 7 ∨
      (0xE0 < c.toNat ∧ c.toNat < 0xF0 ∧ c.toNat ≠ 0xED) ∧ s = 3 ∨ c.toNat = 0xF0 ∧ s = 4 ∨
      (0xF0 < c.toNat ∧ c.toNat < 0xF4) ∧ s = 5 ∨ c.toNat = 0xF4 ∧ s = 6 := by
  simp only [utf8acceptnonsurrogates, UInt8.lt_iff_toNat_lt, ← UInt8.toNat_inj, UInt8.reduceToNat]
  split_ifs <;> simp <;> omega

/-- The states in which one range of bytes goes on. -/
theorem utf8_range {low high : UInt8} {next : ℕ} :
    (if low ≤ c ∧ c < high then some next else none) = some s ↔ (low.toNat ≤ c.toNat ∧ c.toNat < high.toNat) ∧ s = next := by
  rw [← UInt8.lt_iff_toNat_lt, ← UInt8.le_iff_toNat_le]
  split
  · rename_i hrange
    simp only [hrange, true_and, and_self, Option.some.injEq, eq_comm]
  · rename_i hrange
    simp only [hrange, false_and, reduceCtorEq]

theorem utf8_one : utf8acceptnonsurrogates 1 c = some s ↔ (0x80 ≤ c.toNat ∧ c.toNat < 0xC0) ∧ s = 0 := utf8_range c s

theorem utf8_two : utf8acceptnonsurrogates 2 c = some s ↔ (0xA0 ≤ c.toNat ∧ c.toNat < 0xC0) ∧ s = 1 := utf8_range c s

theorem utf8_three : utf8acceptnonsurrogates 3 c = some s ↔ (0x80 ≤ c.toNat ∧ c.toNat < 0xC0) ∧ s = 1 := utf8_range c s

theorem utf8_four : utf8acceptnonsurrogates 4 c = some s ↔ (0x90 ≤ c.toNat ∧ c.toNat < 0xC0) ∧ s = 3 := utf8_range c s

theorem utf8_five : utf8acceptnonsurrogates 5 c = some s ↔ (0x80 ≤ c.toNat ∧ c.toNat < 0xC0) ∧ s = 3 := utf8_range c s

theorem utf8_six : utf8acceptnonsurrogates 6 c = some s ↔ (0x80 ≤ c.toNat ∧ c.toNat < 0x90) ∧ s = 3 := utf8_range c s

theorem utf8_seven :
    utf8acceptnonsurrogates 7 c = some s ↔
      (0x80 ≤ c.toNat ∧ c.toNat < 0xA0) ∧ s = 1 ∨ (0xA0 ≤ c.toNat ∧ c.toNat < 0xC0) ∧ s = 8 := by
  simp only [utf8acceptnonsurrogates, UInt8.lt_iff_toNat_lt, UInt8.le_iff_toNat_le, UInt8.reduceToNat]
  split_ifs <;> simp <;> omega

end

/-! ## One character -/

/-- The scan of `bytes` from `state` ends in state 0. -/
def Scans (state : ℕ) (bytes : List UInt8) : Prop := bytes.foldlM utf8acceptnonsurrogates state = some 0

theorem scans_cons {state : ℕ} {c : UInt8} {bytes : List UInt8} :
    Scans state (c :: bytes) ↔ ∃ s, utf8acceptnonsurrogates state c = some s ∧ Scans s bytes := by
  simp only [Scans, List.foldlM_cons, Option.bind_eq_bind, Option.bind_eq_some_iff]

/-- Within a character there is a byte to come. -/
theorem Scans.next {state : ℕ} (hpos : 0 < state) {bytes : List UInt8} (h : Scans state bytes) :
    ∃ c rest s, bytes = c :: rest ∧ utf8acceptnonsurrogates state c = some s ∧ Scans s rest := by
  cases bytes with
  | nil =>
    simp only [Scans, List.foldlM_nil, Option.pure_def, Option.some.injEq] at h
    omega
  | cons c rest =>
    obtain ⟨s, hs, hrest⟩ := scans_cons.mp h
    exact ⟨c, rest, s, rfl, hs, hrest⟩

/-- The last byte of a character. -/
theorem Scans.last {bytes : List UInt8} (h : Scans 1 bytes) :
    ∃ c rest, bytes = c :: rest ∧ (0x80 ≤ c.toNat ∧ c.toNat < 0xC0) ∧ Scans 0 rest := by
  obtain ⟨c, rest, s, rfl, hc, hrest⟩ := h.next (by decide)
  obtain ⟨hrange, rfl⟩ := (utf8_one c s).mp hc
  exact ⟨c, rest, rfl, hrange, hrest⟩

/-- The last two bytes of a character. -/
theorem Scans.last_two {bytes : List UInt8} (h : Scans 3 bytes) :
    ∃ c d rest, bytes = c :: d :: rest ∧ (0x80 ≤ c.toNat ∧ c.toNat < 0xC0) ∧ (0x80 ≤ d.toNat ∧ d.toNat < 0xC0) ∧
      Scans 0 rest := by
  obtain ⟨c, rest, s, rfl, hc, hrest⟩ := h.next (by decide)
  obtain ⟨hrange, rfl⟩ := (utf8_three c s).mp hc
  obtain ⟨d, rest, rfl, hlast, hrest⟩ := hrest.last
  exact ⟨c, d, rest, rfl, hrange, hlast, hrest⟩

/-- After a surrogate there is nothing. -/
theorem not_scans_eight (bytes : List UInt8) : ¬Scans 8 bytes := by
  intro h
  obtain ⟨c, rest, s, -, hc, -⟩ := h.next (by decide)
  cases hc

theorem scans_step {state s : ℕ} {c : UInt8} (h : utf8acceptnonsurrogates state c = some s) (bytes : List UInt8) :
    Scans state (c :: bytes) ↔ Scans s bytes := by
  rw [scans_cons]
  constructor
  · rintro ⟨s', hs', hscans⟩
    rw [h, Option.some.injEq] at hs'
    rwa [hs']
  · exact fun hscans => ⟨s, h, hscans⟩

section

variable {b x y z : UInt8} (rest : List UInt8)

theorem scans_two (hb : 0xC2 ≤ b.toNat ∧ b.toNat < 0xE0) (hx : 0x80 ≤ x.toNat ∧ x.toNat < 0xC0) :
    Scans 0 (b :: x :: rest) ↔ Scans 0 rest := by
  rw [scans_step ((utf8_first b 1).mpr (Or.inr (Or.inl ⟨hb, rfl⟩))), scans_step ((utf8_one x 0).mpr ⟨hx, rfl⟩)]

/-- The state after the first byte rules out what is shorter, and the surrogates. -/
theorem scans_three (hb : 0xE0 ≤ b.toNat ∧ b.toNat < 0xF0) (hx : 0x80 ≤ x.toNat ∧ x.toNat < 0xC0)
    (hy : 0x80 ≤ y.toNat ∧ y.toNat < 0xC0) (hshort : b.toNat = 0xE0 → 0xA0 ≤ x.toNat)
    (hsurrogate : b.toNat = 0xED → x.toNat < 0xA0) : Scans 0 (b :: x :: y :: rest) ↔ Scans 0 rest := by
  obtain ⟨s, hfirst, hsecond⟩ : ∃ s, utf8acceptnonsurrogates 0 b = some s ∧ utf8acceptnonsurrogates s x = some 1 := by
    by_cases hlow : b.toNat = 0xE0
    · exact ⟨2, (utf8_first b 2).mpr (by simp [hlow]), (utf8_two x 1).mpr ⟨⟨hshort hlow, hx.2⟩, rfl⟩⟩
    by_cases hd : b.toNat = 0xED
    · exact ⟨7, (utf8_first b 7).mpr (by simp [hd]), (utf8_seven x 1).mpr (Or.inl ⟨⟨hx.1, hsurrogate hd⟩, rfl⟩)⟩
    · have hrange : 0xE0 < b.toNat ∧ b.toNat < 0xF0 ∧ b.toNat ≠ 0xED := ⟨by omega, hb.2, hd⟩
      exact ⟨3, (utf8_first b 3).mpr (by simp [hrange]), (utf8_three x 1).mpr ⟨hx, rfl⟩⟩
  rw [scans_step hfirst, scans_step hsecond, scans_step ((utf8_one y 0).mpr ⟨hy, rfl⟩)]

/-- The state after the first byte rules out what is shorter, and what is no character. -/
theorem scans_four (hb : 0xF0 ≤ b.toNat ∧ b.toNat ≤ 0xF4) (hx : 0x80 ≤ x.toNat ∧ x.toNat < 0xC0)
    (hy : 0x80 ≤ y.toNat ∧ y.toNat < 0xC0) (hz : 0x80 ≤ z.toNat ∧ z.toNat < 0xC0) (hshort : b.toNat = 0xF0 → 0x90 ≤ x.toNat)
    (hlong : b.toNat = 0xF4 → x.toNat < 0x90) : Scans 0 (b :: x :: y :: z :: rest) ↔ Scans 0 rest := by
  obtain ⟨s, hfirst, hsecond⟩ : ∃ s, utf8acceptnonsurrogates 0 b = some s ∧ utf8acceptnonsurrogates s x = some 3 := by
    by_cases hlow : b.toNat = 0xF0
    · exact ⟨4, (utf8_first b 4).mpr (by simp [hlow]), (utf8_four x 3).mpr ⟨⟨hshort hlow, hx.2⟩, rfl⟩⟩
    by_cases hhigh : b.toNat = 0xF4
    · exact ⟨6, (utf8_first b 6).mpr (by simp [hhigh]), (utf8_six x 3).mpr ⟨⟨hx.1, hlong hhigh⟩, rfl⟩⟩
    · have hrange : 0xF0 < b.toNat ∧ b.toNat < 0xF4 := ⟨by omega, by omega⟩
      exact ⟨5, (utf8_first b 5).mpr (by simp [hrange]), (utf8_five x 3).mpr ⟨hx, rfl⟩⟩
  rw [scans_step hfirst, scans_step hsecond, scans_step ((utf8_three y 1).mpr ⟨hy, rfl⟩),
    scans_step ((utf8_one z 0).mpr ⟨hz, rfl⟩)]

end

/-- A byte of an encoding. -/
theorem toNat_byte {n : ℕ} (h : n < 256) : (UInt8.ofNat n).toNat = n := by
  rw [UInt8.toNat_ofNat']
  omega

/-- **The machine accepts a character** and goes on with what follows it. -/
theorem scans_char (c : Char) (rest : List UInt8) : Scans 0 (String.utf8EncodeChar c ++ rest) ↔ Scans 0 rest := by
  have hvalid : c.val.toNat < 0xd800 ∨ 0xdfff < c.val.toNat ∧ c.val.toNat < 0x110000 := c.valid
  unfold String.utf8EncodeChar
  generalize c.val.toNat = v at hvalid
  simp only
  split
  · have hb := toNat_byte (n := v) (by omega)
    exact scans_step ((utf8_first _ 0).mpr (Or.inl ⟨by omega, rfl⟩)) _
  have hlast := toNat_byte (n := v % 64 + 128) (by omega)
  split
  · have hb := toNat_byte (n := v / 64 % 32 + 192) (by omega)
    exact scans_two rest (by omega) (by omega)
  have hbefore := toNat_byte (n := v / 64 % 64 + 128) (by omega)
  split
  · have hb := toNat_byte (n := v / 4096 % 16 + 224) (by omega)
    exact scans_three rest (by omega) (by omega) (by omega) (by omega) (by omega)
  · have hb := toNat_byte (n := v / 262144 % 8 + 240) (by omega)
    have hx := toNat_byte (n := v / 4096 % 64 + 128) (by omega)
    exact scans_four rest (by omega) (by omega) (by omega) (by omega) (by omega) (by omega)

/-! ## The characters of what is accepted -/

/-- The number of a character. -/
theorem exists_char {n : ℕ} (h : n.isValidChar) : ∃ c : Char, c.val.toNat = n := ⟨Char.ofNatAux n h, rfl⟩

theorem eq_ofNat {b : UInt8} {n : ℕ} (h : b.toNat = n) : b = UInt8.ofNat n := by
  rw [← h, UInt8.ofNat_toNat]

theorem exists_char_two {b x : UInt8} (hb : 0xC2 ≤ b.toNat ∧ b.toNat < 0xE0) (hx : 0x80 ≤ x.toNat ∧ x.toNat < 0xC0) :
    ∃ c, [b, x] = String.utf8EncodeChar c := by
  obtain ⟨c, hc⟩ := exists_char (n := (b.toNat - 192) * 64 + (x.toNat - 128)) (Or.inl (by omega))
  refine ⟨c, ?_⟩
  unfold String.utf8EncodeChar
  rw [hc]
  simp only
  rw [if_neg (by omega), if_pos (by omega)]
  refine congrArg₂ List.cons (eq_ofNat (by omega)) (congrArg₂ List.cons (eq_ofNat (by omega)) rfl)

theorem exists_char_three {b x y : UInt8} (hb : 0xE0 ≤ b.toNat ∧ b.toNat < 0xF0) (hx : 0x80 ≤ x.toNat ∧ x.toNat < 0xC0)
    (hy : 0x80 ≤ y.toNat ∧ y.toNat < 0xC0) (hshort : b.toNat = 0xE0 → 0xA0 ≤ x.toNat)
    (hsurrogate : b.toNat = 0xED → x.toNat < 0xA0) : ∃ c, [b, x, y] = String.utf8EncodeChar c := by
  obtain ⟨c, hc⟩ := exists_char (n := (b.toNat - 224) * 4096 + (x.toNat - 128) * 64 + (y.toNat - 128))
    (show _ < 0xd800 ∨ 0xdfff < _ ∧ _ < 0x110000 by omega)
  refine ⟨c, ?_⟩
  unfold String.utf8EncodeChar
  rw [hc]
  simp only
  rw [if_neg (by omega), if_neg (by omega), if_pos (by omega)]
  exact congrArg₂ List.cons (eq_ofNat (by omega)) (congrArg₂ List.cons (eq_ofNat (by omega))
    (congrArg₂ List.cons (eq_ofNat (by omega)) rfl))

theorem exists_char_four {b x y z : UInt8} (hb : 0xF0 ≤ b.toNat ∧ b.toNat ≤ 0xF4) (hx : 0x80 ≤ x.toNat ∧ x.toNat < 0xC0)
    (hy : 0x80 ≤ y.toNat ∧ y.toNat < 0xC0) (hz : 0x80 ≤ z.toNat ∧ z.toNat < 0xC0) (hshort : b.toNat = 0xF0 → 0x90 ≤ x.toNat)
    (hlong : b.toNat = 0xF4 → x.toNat < 0x90) : ∃ c, [b, x, y, z] = String.utf8EncodeChar c := by
  obtain ⟨c, hc⟩ := exists_char
    (n := (b.toNat - 240) * 262144 + (x.toNat - 128) * 4096 + (y.toNat - 128) * 64 + (z.toNat - 128))
    (show _ < 0xd800 ∨ 0xdfff < _ ∧ _ < 0x110000 by omega)
  refine ⟨c, ?_⟩
  unfold String.utf8EncodeChar
  rw [hc]
  simp only
  rw [if_neg (by omega), if_neg (by omega), if_neg (by omega)]
  exact congrArg₂ List.cons (eq_ofNat (by omega)) (congrArg₂ List.cons (eq_ofNat (by omega))
    (congrArg₂ List.cons (eq_ofNat (by omega)) (congrArg₂ List.cons (eq_ofNat (by omega)) rfl)))

theorem Scans.char_three {b : UInt8} {bytes : List UInt8} (hb : 0xE0 ≤ b.toNat ∧ b.toNat < 0xF0) {x : UInt8}
    (hx : 0x80 ≤ x.toNat ∧ x.toNat < 0xC0) (hshort : b.toNat = 0xE0 → 0xA0 ≤ x.toNat)
    (hsurrogate : b.toNat = 0xED → x.toNat < 0xA0) (h : Scans 1 bytes) :
    ∃ c rest, b :: x :: bytes = String.utf8EncodeChar c ++ rest ∧ Scans 0 rest := by
  obtain ⟨y, rest, rfl, hy, hrest⟩ := h.last
  obtain ⟨c, hc⟩ := exists_char_three hb hx hy hshort hsurrogate
  exact ⟨c, rest, by rw [← hc]; rfl, hrest⟩

theorem Scans.char_four {b : UInt8} {bytes : List UInt8} (hb : 0xF0 ≤ b.toNat ∧ b.toNat ≤ 0xF4) {x : UInt8}
    (hx : 0x80 ≤ x.toNat ∧ x.toNat < 0xC0) (hshort : b.toNat = 0xF0 → 0x90 ≤ x.toNat)
    (hlong : b.toNat = 0xF4 → x.toNat < 0x90) (h : Scans 3 bytes) :
    ∃ c rest, b :: x :: bytes = String.utf8EncodeChar c ++ rest ∧ Scans 0 rest := by
  obtain ⟨y, z, rest, rfl, hy, hz, hrest⟩ := h.last_two
  obtain ⟨c, hc⟩ := exists_char_four hb hx hy hz hshort hlong
  exact ⟨c, rest, by rw [← hc]; rfl, hrest⟩

/-- **What the machine accepts** begins with a character. -/
theorem Scans.char {b : UInt8} {bytes : List UInt8} (h : Scans 0 (b :: bytes)) :
    ∃ c rest, b :: bytes = String.utf8EncodeChar c ++ rest ∧ Scans 0 rest := by
  obtain ⟨s, hb, hscans⟩ := scans_cons.mp h
  have hnext : ∀ hpos : 0 < s, _ := fun hpos => hscans.next hpos
  replace hb := (utf8_first b s).mp hb
  rcases hb with ⟨hb, rfl⟩ | ⟨hb, rfl⟩ | ⟨hb, rfl⟩ | ⟨hb, rfl⟩ | ⟨hb, rfl⟩ | ⟨hb, rfl⟩ | ⟨hb, rfl⟩ | ⟨hb, rfl⟩
  · obtain ⟨c, hc⟩ := exists_char (n := b.toNat) (Or.inl (by omega))
    refine ⟨c, bytes, ?_, hscans⟩
    unfold String.utf8EncodeChar
    rw [hc]
    simp only
    rw [if_pos (by omega), UInt8.ofNat_toNat]
    rfl
  · obtain ⟨x, rest, rfl, hx, hrest⟩ := hscans.last
    obtain ⟨c, hc⟩ := exists_char_two hb hx
    exact ⟨c, rest, by rw [← hc]; rfl, hrest⟩
  · obtain ⟨x, rest, s, rfl, hx, hrest⟩ := hnext (by decide)
    obtain ⟨hrange, rfl⟩ := (utf8_two x s).mp hx
    exact hrest.char_three (by omega) (by omega) (by omega) (by omega)
  · obtain ⟨x, rest, s, rfl, hx, hrest⟩ := hnext (by decide)
    rcases (utf8_seven x s).mp hx with ⟨hrange, rfl⟩ | ⟨hrange, rfl⟩
    · exact hrest.char_three (by omega) (by omega) (by omega) (by omega)
    · exact absurd hrest (not_scans_eight rest)
  · obtain ⟨x, rest, s, rfl, hx, hrest⟩ := hnext (by decide)
    obtain ⟨hrange, rfl⟩ := (utf8_three x s).mp hx
    exact hrest.char_three (by omega) hrange (by omega) (by omega)
  · obtain ⟨x, rest, s, rfl, hx, hrest⟩ := hnext (by decide)
    obtain ⟨hrange, rfl⟩ := (utf8_four x s).mp hx
    exact hrest.char_four (by omega) (by omega) (by omega) (by omega)
  · obtain ⟨x, rest, s, rfl, hx, hrest⟩ := hnext (by decide)
    obtain ⟨hrange, rfl⟩ := (utf8_five x s).mp hx
    exact hrest.char_four (by omega) hrange (by omega) (by omega)
  · obtain ⟨x, rest, s, rfl, hx, hrest⟩ := hnext (by decide)
    obtain ⟨hrange, rfl⟩ := (utf8_six x s).mp hx
    exact hrest.char_four (by omega) (by omega) (by omega) (by omega)

/-! ## Text -/

/-- **`IsStructurallyValidUTF8`** accepts the encodings of characters. -/
theorem isStructurallyValidUTF8_iff (bytes : List UInt8) :
    isStructurallyValidUTF8 bytes = true ↔ ∃ text : List Char, bytes = text.flatMap String.utf8EncodeChar := by
  rw [isStructurallyValidUTF8, beq_iff_eq]
  show Scans 0 bytes ↔ _
  constructor
  · intro h
    induction hlen : bytes.length using Nat.strongRecOn generalizing bytes with
    | ind n ih =>
      cases bytes with
      | nil => exact ⟨[], rfl⟩
      | cons b bytes =>
        obtain ⟨c, rest, heq, hrest⟩ := h.char
        have hshort : rest.length < (b :: bytes).length := by
          rw [heq, List.length_append, String.length_utf8EncodeChar]
          exact Nat.lt_add_of_pos_left c.utf8Size_pos
        obtain ⟨text, rfl⟩ := ih rest.length (by omega) rest hrest rfl
        exact ⟨c :: text, by rw [heq, List.flatMap_cons]⟩
  · rintro ⟨text, rfl⟩
    induction text with
    | nil => rfl
    | cons c text ih =>
      rw [List.flatMap_cons, scans_char]
      exact ih

end SpeechlyPlugin.Proto
