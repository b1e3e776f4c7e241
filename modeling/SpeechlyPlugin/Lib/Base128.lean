import Mathlib.Algebra.BigOperators.Ring.Finset
import Mathlib.Data.Nat.Log
import Mathlib.Tactic.Ring
import Mathlib.Tactic.NormNum

/-!
# Numbers in base 128

A number is written as bytes of seven bits each, the lowest first; all bytes but the last have their high bit set.  A reader
accepts a bounded number of bytes, and gives back the number and what follows it.
-/

namespace SpeechlyPlugin.Lib.Base128

/-- The bytes of a number. -/
def encode (n : ℕ) : List UInt8 :=
  if 128 ≤ n then UInt8.ofNat (128 + n % 128) :: encode (n / 128) else [UInt8.ofNat n]

/-- The number in front of `bs`, if it ends within `k` bytes, and what follows it. -/
def decode : ℕ → List UInt8 → Option (ℕ × List UInt8)
  | 0, _ => none
  | _ + 1, [] => none
  | k + 1, b :: bs =>
    if b.toNat < 128 then some (b.toNat, bs)
    else (decode k bs).map fun x => (b.toNat - 128 + 128 * x.1, x.2)

variable {k n m : ℕ} {bs rest : List UInt8}

/-! ## What was written is read -/

theorem encode_small (h : n < 128) : encode n = [UInt8.ofNat n] := by
  rw [encode, if_neg (by omega)]

theorem encode_large (h : 128 ≤ n) : encode n = UInt8.ofNat (128 + n % 128) :: encode (n / 128) := by
  rw [encode, if_pos h]

theorem encode_ne_nil (n : ℕ) : encode n ≠ [] := by
  rw [encode]
  split <;> simp

theorem encode_length_pos (n : ℕ) : 0 < (encode n).length := List.length_pos_iff.mpr (encode_ne_nil n)

/-- **Round trip**, for a reader of enough bytes. -/
theorem decode_encode (h : n < 128 ^ (k + 1)) (rest : List UInt8) : decode (k + 1) (encode n ++ rest) = some (n, rest) := by
  induction k generalizing n with
  | zero =>
    have hn : n < 128 := by simpa using h
    rw [encode_small hn]
    have hbyte : (UInt8.ofNat n).toNat = n := Nat.mod_eq_of_lt (by omega)
    simp only [List.cons_append, List.nil_append, decode, hbyte, if_pos hn]
  | succ k ih =>
    by_cases hn : n < 128
    · have hbyte : (UInt8.ofNat n).toNat = n := Nat.mod_eq_of_lt (by omega)
      rw [encode_small hn]
      simp only [List.cons_append, List.nil_append, decode, hbyte, if_pos hn]
    · have hbyte : (UInt8.ofNat (128 + n % 128)).toNat = 128 + n % 128 := Nat.mod_eq_of_lt (by omega)
      have hdiv : n / 128 < 128 ^ (k + 1) := by
        apply Nat.div_lt_of_lt_mul
        rw [← Nat.pow_succ']
        exact h
      rw [encode_large (by omega), List.cons_append, decode, hbyte, if_neg (by omega), ih hdiv]
      simp only [Option.map_some, Option.some.injEq, Prod.mk.injEq, and_true]
      omega

/-- Seven bits a byte. -/
theorem length_encode (n : ℕ) : (encode n).length = Nat.log2 n / 7 + 1 := by
  induction n using Nat.strong_induction_on with
  | _ n ih =>
    by_cases hn : n < 128
    · rw [encode_small hn]
      have hlog : Nat.log2 n < 7 := by
        by_cases h0 : n = 0
        · subst h0
          decide
        · exact (Nat.log2_lt h0).mpr (by omega)
      simp only [List.length_singleton]
      omega
    · have hlog : Nat.log2 (n / 128) + 7 = Nat.log2 n := by
        rw [Nat.log2_eq_log_two, Nat.log2_eq_log_two, show (128 : ℕ) = 2 ^ 7 by norm_num, Nat.log_div_base_pow]
        have hle : 7 ≤ Nat.log 2 n := Nat.le_log_of_pow_le (by norm_num) (by omega)
        omega
      rw [encode_large (by omega), List.length_cons, ih (n / 128) (by omega)]
      omega

theorem length_encode_le (h : n < 128 ^ (k + 1)) : (encode n).length ≤ k + 1 := by
  by_cases h0 : n = 0
  · subst h0
    simp [encode_small]
  · rw [length_encode]
    have hlog : Nat.log2 n < 7 * (k + 1) := by
      apply (Nat.log2_lt h0).mpr
      rw [Nat.pow_mul]
      exact h
    omega

/-! ## What a reader takes -/

/-- A reader takes at least one byte, and leaves what follows. -/
theorem decode_eq_some (h : decode k bs = some (n, rest)) : ∃ b pre, bs = b :: pre ++ rest ∧ pre.length < k := by
  induction k generalizing bs n with
  | zero => simp [decode] at h
  | succ k ih =>
    rcases bs with _ | ⟨b, bs⟩
    · simp [decode] at h
    · by_cases hb : b.toNat < 128
      · simp only [decode, hb, if_true, Option.some.injEq, Prod.mk.injEq] at h
        exact ⟨b, [], by simp [h.2], by simp⟩
      · simp only [decode, hb, if_false, Option.map_eq_some_iff, Prod.mk.injEq] at h
        obtain ⟨⟨m, rest'⟩, hm, -, rfl⟩ := h
        obtain ⟨c, pre, rfl, hpre⟩ := ih hm
        exact ⟨b, c :: pre, by simp, by simpa using hpre⟩

theorem decode_length (h : decode k bs = some (n, rest)) : rest.length < bs.length := by
  obtain ⟨b, pre, rfl, -⟩ := decode_eq_some h
  simp only [List.cons_append, List.length_cons, List.length_append]
  omega

/-- What follows does not change the number. -/
theorem decode_append (h : decode k bs = some (n, rest)) (more : List UInt8) :
    decode k (bs ++ more) = some (n, rest ++ more) := by
  induction k generalizing bs n with
  | zero => simp [decode] at h
  | succ k ih =>
    rcases bs with _ | ⟨b, bs⟩
    · simp [decode] at h
    · by_cases hb : b.toNat < 128
      · simp only [decode, hb, if_true, Option.some.injEq, Prod.mk.injEq] at h
        obtain ⟨rfl, rfl⟩ := h
        simp [decode, hb]
      · simp only [decode, hb, if_false, Option.map_eq_some_iff, Prod.mk.injEq] at h
        obtain ⟨⟨m, rest'⟩, hm, rfl, rfl⟩ := h
        simp [decode, hb, ih hm]

/-- A number that does not end within the bytes at hand does not end later, if these are enough or end with a byte that ends
a number. -/
theorem decode_append_eq_none (h : decode k bs = none) (hends : k ≤ bs.length ∨ bs.getLast?.any (·.toNat < 128) = true)
    (more : List UInt8) : decode k (bs ++ more) = none := by
  induction k generalizing bs with
  | zero => rfl
  | succ k ih =>
    rcases bs with _ | ⟨b, bs⟩
    · simp at hends
    · by_cases hb : b.toNat < 128
      · simp [decode, hb] at h
      · simp only [decode, hb, if_false, Option.map_eq_none_iff, List.cons_append] at h ⊢
        apply ih h
        rcases hends with hends | hends
        · exact Or.inl (by simpa using hends)
        · rcases bs with _ | ⟨c, bs⟩
          · simp [hb] at hends
          · exact Or.inr (by simpa [List.getLast?_cons_cons] using hends)

/-- **The value in closed form**: the first byte without its high bit ends the number. -/
theorem decode_eq_find (k : ℕ) (bs : List UInt8) :
    decode k bs = ((List.range k).find? fun i => (bs.getD i 0x80) < 0x80).map fun m =>
      (∑ i ∈ Finset.range m, ((bs.getD i 0).toNat - 128) * 128 ^ i + (bs.getD m 0).toNat * 128 ^ m, bs.drop (m + 1)) := by
  induction k generalizing bs with
  | zero => rfl
  | succ k ih =>
    rw [List.range_succ_eq_map, List.find?_cons]
    rcases bs with _ | ⟨b, bs⟩
    · have hnone : ((List.range k).map Nat.succ).find? (fun i => decide (([] : List UInt8).getD i 0x80 < 0x80)) = none := by
        rw [List.find?_eq_none]
        intro i _
        simp
      rw [hnone]
      simp [decode]
    · have hlt : (decide ((b :: bs).getD 0 0x80 < 0x80)) = decide (b.toNat < 128) := by
        simp [UInt8.lt_iff_toNat_lt]
      rw [hlt, decode]
      by_cases hb : b.toNat < 128
      · simp [hb]
      · simp only [hb, if_false, decide_false, List.find?_map, ih bs, Option.map_map]
        have hfun : ((fun i => decide ((b :: bs).getD i 0x80 < 0x80)) ∘ Nat.succ) =
            fun i => decide (bs.getD i 0x80 < 0x80) := by
          funext i
          simp
        rw [hfun]
        refine congrArg (fun f => Option.map f _) (funext fun m => ?_)
        have hsum : ∑ i ∈ Finset.range (m + 1), (((b :: bs).getD i 0).toNat - 128) * 128 ^ i =
            b.toNat - 128 + 128 * ∑ i ∈ Finset.range m, ((bs.getD i 0).toNat - 128) * 128 ^ i := by
          rw [Finset.sum_range_succ', Finset.mul_sum, add_comm]
          refine congrArg₂ (· + ·) ?_ ?_
          · simp
          · apply Finset.sum_congr rfl
            intro i _
            rw [List.getD_cons_succ]
            ring
        simp only [Function.comp, Prod.mk.injEq, Nat.succ_eq_add_one, List.drop_succ_cons, hsum, List.getD_cons_succ,
          and_true]
        ring

end SpeechlyPlugin.Lib.Base128
