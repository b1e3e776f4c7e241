import Mathlib.Data.List.GetD
import SpeechlyPlugin.Proto.Input

/-!
# Numbers read at once

`ReadVarint32FromArray` and `ReadVarint64FromArray` read a number from the buffer without looking for its end at each byte,
and `ReadVarint64Slow` reads it byte by byte.  All three read what `Base128.decode` reads of at most ten bytes.
-/

namespace SpeechlyPlugin.Proto

open Lib

/-! ## Bytes in machine words -/

theorem toUInt32_shiftLeft (b : UInt8) {i : ℕ} (h : i < 5) :
    b.toUInt32 <<< UInt32.ofNat (7 * i) = UInt32.ofNat (b.toNat * 128 ^ i) := by
  apply UInt32.toNat_inj.mp
  have hpow : (128 : ℕ) ^ i = 2 ^ (7 * i) := by rw [Nat.pow_mul]
  have hmod : 7 * i % 2 ^ 32 % 32 = 7 * i := by omega
  rw [UInt32.toNat_shiftLeft, UInt8.toNat_toUInt32, UInt32.toNat_ofNat', UInt32.toNat_ofNat', hmod, Nat.shiftLeft_eq, hpow]

theorem ofNat_shiftLeft (n : ℕ) {i : ℕ} (h : i < 10) :
    UInt64.ofNat n <<< UInt64.ofNat (7 * i) = UInt64.ofNat (n * 128 ^ i) := by
  apply UInt64.toNat_inj.mp
  have hpow : (128 : ℕ) ^ i = 2 ^ (7 * i) := by rw [Nat.pow_mul]
  have hmod : 7 * i % 2 ^ 64 % 64 = 7 * i := by omega
  rw [UInt64.toNat_shiftLeft, UInt64.toNat_ofNat', UInt64.toNat_ofNat', UInt64.toNat_ofNat', hmod, Nat.shiftLeft_eq, hpow,
    Nat.mod_mul_mod]

theorem and_128_eq_zero (b : UInt8) : b &&& 0x80 = 0 ↔ b.toNat < 128 := by
  obtain ⟨b⟩ := b
  revert b
  decide +kernel

theorem and_127 (b : UInt8) (h : 128 ≤ b.toNat) : (b &&& 0x7F).toNat = b.toNat - 128 := by
  obtain ⟨b⟩ := b
  revert b
  decide +kernel

theorem and_127_of_lt (b : UInt8) (h : b.toNat < 128) : b &&& 0x7F = b := by
  obtain ⟨b⟩ := b
  revert b
  decide +kernel

theorem lt_128 (b : UInt8) : b < 0x80 ↔ b.toNat < 128 := by
  rw [UInt8.lt_iff_toNat_lt]
  rfl

/-! ## The two readers -/

namespace CodedInputStream

/-- The unrolled loop. -/
theorem varint32Rest_eq (left i : ℕ) (result : UInt32) (ptr : List UInt8) :
    varint32Rest left i result ptr =
      (Base128.decode left ptr).map fun x => (result + UInt32.ofNat (x.1 * 128 ^ i), x.2) := by
  induction left generalizing i result ptr with
  | zero => rfl
  | succ left ih =>
    rcases ptr with _ | ⟨b, ptr⟩
    · rfl
    · have hhigh : 5 ≤ i → ∀ n, UInt32.ofNat (n * 128 ^ i) = 0 := by
        intro hi n
        obtain ⟨j, rfl⟩ := Nat.exists_eq_add_of_le hi
        apply UInt32.toNat_inj.mp
        rw [UInt32.toNat_ofNat', show n * 128 ^ (5 + j) = 2 ^ 32 * (8 * n * 128 ^ j) by rw [pow_add]; ring]
        simp
      have hnext (n : ℕ) : n * 128 ^ (i + 1) = 128 * n * 128 ^ i := by ring
      by_cases hb : b.toNat < 128
      · simp only [varint32Rest, Base128.decode, (and_128_eq_zero b).mpr hb, hb, if_true, Option.map_some]
        split
        · rw [toUInt32_shiftLeft b ‹_›]
        · rw [hhigh (by omega), UInt32.add_zero]
      · have hb0 : ¬b &&& 0x80 = 0 := fun h => hb ((and_128_eq_zero b).mp h)
        simp only [varint32Rest, Base128.decode, hb0, hb, if_false, ih, Option.map_map]
        refine congrArg (fun f => Option.map f _) (funext fun x => ?_)
        simp only [Function.comp, Prod.mk.injEq, and_true]
        rw [hnext, Nat.add_mul, UInt32.ofNat_add, ← UInt32.add_assoc]
        congr 1
        have hsplit : b.toNat * 128 ^ i = (b.toNat - 128) * 128 ^ i + 128 * 128 ^ i := by
          rw [← Nat.add_mul]
          congr 1
          omega
        split
        · have h128 : (0x80 : UInt32) <<< UInt32.ofNat (7 * i) = UInt32.ofNat (128 * 128 ^ i) := by
            have := toUInt32_shiftLeft 0x80 (i := i) (by omega)
            simpa using this
          rw [if_pos (by omega), toUInt32_shiftLeft b (by omega), h128, hsplit, UInt32.ofNat_add, ← UInt32.add_assoc,
            UInt32.add_sub_cancel]
        · by_cases hi : i < 5
          · obtain rfl : i = 4 := by omega
            rw [if_pos hi, toUInt32_shiftLeft b hi, hsplit, UInt32.ofNat_add]
            simp
          · rw [if_neg hi, hhigh (by omega), UInt32.add_zero]

/-- **`ReadVarint32FromArray`.** -/
theorem readVarint32FromArray_eq (b : UInt8) (ptr : List UInt8) (hb : 128 ≤ b.toNat) :
    readVarint32FromArray (b :: ptr) =
      (Base128.decode 10 (b :: ptr)).map fun x => (UInt32.ofNat x.1, x.2) := by
  have hlow : b.toUInt32 - 0x80 = UInt32.ofNat (b.toNat - 128) := by
    rw [UInt32.ofNat_sub hb]
    simp
  simp only [readVarint32FromArray, varint32Rest_eq, Base128.decode, if_neg (Nat.not_lt.mpr hb), Option.map_map, hlow]
  refine congrArg (fun f => Option.map f _) (funext fun x => ?_)
  simp only [Function.comp, pow_one, Nat.mul_comm x.1, UInt32.ofNat_add]

/-- The sum of `DecodeVarint64KnownSize`. -/
theorem foldl_shift (buffer : List UInt8) (result : ℕ) {m : ℕ} (hm : m < 10)
    (hbuf : ∀ i < m, 128 ≤ (buffer.getD i 0).toNat) :
    (List.range m).foldl (fun (result : UInt64) i =>
        result + ((buffer.getD i 0).toUInt64 - 0x80) <<< UInt64.ofNat (7 * i)) (UInt64.ofNat result) =
      UInt64.ofNat (result + ∑ i ∈ Finset.range m, ((buffer.getD i 0).toNat - 128) * 128 ^ i) := by
  induction m with
  | zero => simp
  | succ m ih =>
    have hlow : (buffer.getD m 0).toUInt64 - 0x80 = UInt64.ofNat ((buffer.getD m 0).toNat - 128) := by
      rw [UInt64.ofNat_sub (hbuf m (by omega))]
      simp
    rw [List.range_succ, List.foldl_append, ih (by omega) fun i hi => hbuf i (by omega), List.foldl_cons, List.foldl_nil,
      hlow, ofNat_shiftLeft _ (by omega), ← UInt64.ofNat_add, Finset.sum_range_succ, Nat.add_assoc]

/-- **`ReadVarint64FromArray`.** -/
theorem readVarint64FromArray_eq (b : UInt8) (ptr : List UInt8) (hb : 128 ≤ b.toNat) :
    readVarint64FromArray (b :: ptr) =
      (Base128.decode 10 (b :: ptr)).map fun x => (UInt64.ofNat x.1, x.2) := by
  have hrange : List.range 10 = 0 :: (List.range' 2 9).map (· - 1) := by decide
  have hb0 : decide ((b :: ptr).getD 0 0x80 < 0x80) = false := by
    rw [decide_eq_false_iff_not, lt_128]
    simpa using hb
  rw [Base128.decode_eq_find, hrange, List.find?_cons]
  simp only [hb0, List.find?_map, Option.map_map, readVarint64FromArray]
  show _ = Option.map _ (List.find? (fun n => decide ((b :: ptr).getD (n - 1) 0x80 < 0x80)) (List.range' 2 9))
  cases hfind : (List.range' 2 9).find? fun n => decide ((b :: ptr).getD (n - 1) 0x80 < 0x80) with
  | none => rfl
  | some n =>
    obtain ⟨hends, hmem, hmin⟩ := List.find?_range'_eq_some.mp hfind
    rw [List.mem_range'_1] at hmem
    have hlen : n - 1 < (b :: ptr).length := by
      by_contra hlen
      rw [List.getD_eq_default _ _ (by omega)] at hends
      simp at hends
    have hbefore : ∀ i < n - 1, 128 ≤ ((b :: ptr).getD i 0).toNat := by
      intro i hi
      have hdefault (d : UInt8) : (b :: ptr).getD i d = (b :: ptr)[i] := List.getD_eq_getElem _ _ (by omega)
      by_cases h0 : i = 0
      · subst h0
        exact hb
      · have hge := hmin (i + 1) (by omega) (by omega)
        rw [Nat.add_sub_cancel, hdefault] at hge
        rw [hdefault]
        simpa [lt_128] using hge
    simp only [Option.map_some, Function.comp, Option.some.injEq, Prod.mk.injEq]
    refine ⟨?_, by rw [Nat.sub_add_cancel (by omega)]⟩
    have hlast : ((b :: ptr).getD (n - 1) 0).toUInt64 <<< UInt64.ofNat (7 * (n - 1)) =
        UInt64.ofNat (((b :: ptr).getD (n - 1) 0).toNat * 128 ^ (n - 1)) := by
      rw [← ofNat_shiftLeft _ (by omega)]
      simp
    rw [decodeVarint64KnownSize, hlast, foldl_shift _ _ (by omega) hbefore, Nat.add_comm]

end CodedInputStream

end SpeechlyPlugin.Proto
