import SpeechlyPlugin.Recorder.Defs

/-!
# 16-bit samples

The conversion loop of `OnSpeechAudio`: every sample is scaled, truncated, saturated and stored as two bytes, the low one
first, through a pointer into a byte array.
-/

namespace SpeechlyPlugin.Plugin

open Engine

/-! ## One sample -/

/-- Truncation toward zero. -/
def truncate (x : ℚ) : ℤ := if x < 0 then ⌈x⌉ else ⌊x⌋

/-- `static_cast<int32>(x)`, of a value that fits. -/
def castInt32 (x : ℚ) : Except Fault ℤ :=
  if -2 ^ 31 ≤ truncate x ∧ truncate x < 2 ^ 31 then .ok (truncate x) else .error .badCast

/-- The scaled sample before it is truncated.  The product is exact; that of the source is rounded to a `float`, which is 1 for
`x = 32769 / 2 ^ 30`, where this one is less. -/
def scale (x : ℚ) : ℚ := x * (if x < 0 then 32768 else 32767)

/-- The saturation, with `Max` and `Min`. -/
def saturate (n : ℤ) : ℤ := max (-32768) (min 32767 n)

/-- The 16-bit sample of `x`, of the exact product: 0 for `x = 32769 / 2 ^ 30`, and 1 in the source. -/
def toSample (x : ℚ) : ℤ := saturate (truncate (scale x))

/-- The two bytes of a `uint16` in memory, the low one first. -/
def shortBytes (n : ℤ) : List UInt8 :=
  let w := BitVec.ofInt 16 n
  [UInt8.ofNat (w.toNat % 256), UInt8.ofNat (w.toNat / 256)]

/-- A little-endian reader of signed 16-bit samples. -/
def readShorts : List UInt8 → List ℤ
  | low :: high :: bytes => (BitVec.ofNat 16 (low.toNat + 256 * high.toNat)).toInt :: readShorts bytes
  | _ => []

theorem castInt32_eq_ok {x : ℚ} {n : ℤ} (h : castInt32 x = .ok n) : n = truncate x := by
  simp only [castInt32] at h
  split at h
  · exact (Except.ok.inj h).symm
  · cases h

theorem saturate_bounds (n : ℤ) : -32768 ≤ saturate n ∧ saturate n ≤ 32767 := by
  unfold saturate
  omega

@[simp] theorem length_shortBytes (n : ℤ) : (shortBytes n).length = 2 := rfl

/-- The reader recovers what was stored. -/
theorem readShorts_shortBytes {n : ℤ} (h : -32768 ≤ n ∧ n ≤ 32767) (bytes : List UInt8) :
    readShorts (shortBytes n ++ bytes) = n :: readShorts bytes := by
  have hlt := (BitVec.ofInt 16 n).isLt
  have hsplit : (UInt8.ofNat ((BitVec.ofInt 16 n).toNat % 256)).toNat +
      256 * (UInt8.ofNat ((BitVec.ofInt 16 n).toNat / 256)).toNat = (BitVec.ofInt 16 n).toNat := by
    rw [UInt8.toNat_ofNat', UInt8.toNat_ofNat']
    omega
  simp only [shortBytes, List.cons_append, List.nil_append, readShorts, hsplit]
  rw [BitVec.ofNat_toNat, BitVec.setWidth_eq, BitVec.toInt_ofInt]
  have hmod : n.bmod (2 ^ 16) = n := by
    rw [Int.bmod_def]
    split <;> omega
  rw [hmod]

/-! ## The loop -/

/-- `ShortAudio[i] = Sample`, with `ShortAudio` a `uint16*` into the bytes. -/
def setShort (bytes : List UInt8) (i : ℕ) (sample : ℤ) : Except Fault (List UInt8) := do
  let w := BitVec.ofInt 16 sample
  let bytes ← store bytes (2 * i : ℕ) (UInt8.ofNat (w.toNat % 256))
  store bytes (2 * i + 1 : ℕ) (UInt8.ofNat (w.toNat / 256))

/-- One round of the loop, on the bytes of `CharAudio` and on `bHasAudio`. -/
def convertSample (audio : List ℚ) (acc : List UInt8 × Bool) (i : ℕ) : Except Fault (List UInt8 × Bool) := do
  let x ← load audio i
  let bHasAudio := acc.2 || x ≠ 0
  let scaledSample ← castInt32 (scale x)
  let charAudio ← setShort acc.1 i (saturate scaledSample)
  return (charAudio, bHasAudio)

/-- The bytes of a list of samples. -/
def encode (audio : List ℚ) : List UInt8 := audio.flatMap fun x => shortBytes (toSample x)

theorem encode_append (a b : List ℚ) : encode (a ++ b) = encode a ++ encode b := List.flatMap_append

@[simp] theorem length_encode (audio : List ℚ) : (encode audio).length = 2 * audio.length := by
  induction audio with
  | nil => rfl
  | cons x audio ih =>
    rw [encode, List.flatMap_cons, List.length_append, length_shortBytes, ← encode, ih, List.length_cons]
    omega

theorem readShorts_encode (audio : List ℚ) : readShorts (encode audio) = audio.map toSample := by
  induction audio with
  | nil => rfl
  | cons x audio ih =>
    have hx : readShorts (shortBytes (toSample x) ++ encode audio) = toSample x :: readShorts (encode audio) :=
      readShorts_shortBytes (saturate_bounds _) _
    rw [encode, List.flatMap_cons, ← encode, hx, ih, List.map_cons]

theorem setShort_eq_ok {front rest bytes : List UInt8} {i : ℕ} {sample : ℤ} (hi : front.length = 2 * i)
    (h : setShort (front ++ rest) i sample = .ok bytes) :
    2 ≤ rest.length ∧ bytes = front ++ shortBytes sample ++ rest.drop 2 := by
  obtain ⟨mid, hmid, h⟩ := bind_eq_ok h
  obtain ⟨-, rfl⟩ := store_eq_ok hmid
  obtain ⟨hlt, rfl⟩ := store_eq_ok h
  rw [List.length_set, List.length_append, hi] at hlt
  obtain ⟨a, b, rest, rfl⟩ : ∃ a b l, rest = a :: b :: l := by
    rcases rest with _ | ⟨a, _ | ⟨b, l⟩⟩
    · simp at hlt
    · simp at hlt
    · exact ⟨a, b, l, rfl⟩
  refine ⟨by simp, ?_⟩
  rw [List.set_append_right _ _ (by omega), hi, Nat.sub_self, List.set_cons_zero,
    List.set_append_right _ _ (by omega), hi, Nat.add_sub_cancel_left, List.set_cons_succ, List.set_cons_zero]
  simp [shortBytes]

/-- The loop invariant: after `n` rounds the first `n` samples stand at the front of `CharAudio`. -/
theorem convert_rounds {audio : List ℚ} {bytes : List UInt8} :
    ∀ {n : ℕ} {acc : List UInt8 × Bool}, (List.range n).foldlM (convertSample audio) (bytes, false) = .ok acc →
      n ≤ audio.length ∧ acc.1 = encode (audio.take n) ++ bytes.drop (2 * n) := by
  intro n
  induction n with
  | zero =>
    intro acc h
    cases h
    simp [encode]
  | succ n ih =>
    intro acc h
    rw [foldlM_range_succ] at h
    obtain ⟨mid, hmid, h⟩ := bind_eq_ok h
    obtain ⟨hn, hacc⟩ := ih hmid
    obtain ⟨x, hx, h⟩ := bind_eq_ok h
    obtain ⟨scaled, hs, h⟩ := bind_eq_ok h
    obtain ⟨bytes', hset, h⟩ := bind_eq_ok h
    cases h
    obtain ⟨hlt, hget⟩ := List.getElem?_eq_some_iff.mp (load_eq_ok hx)
    rw [hacc] at hset
    obtain ⟨-, hbytes⟩ := setShort_eq_ok (by rw [length_encode, List.length_take, Nat.min_eq_left hn]) hset
    refine ⟨hlt, ?_⟩
    have htake : audio.take (n + 1) = audio.take n ++ [x] := by
      rw [List.take_succ_eq_append_getElem hlt, hget]
    rw [hbytes, htake, encode_append, castInt32_eq_ok hs, List.drop_drop]
    congr 1

end SpeechlyPlugin.Plugin
