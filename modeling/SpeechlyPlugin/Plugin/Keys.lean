import SpeechlyPlugin.Plugin.Defs

/-!
# Response keys

A key is a context, a dash and a decimal number.  The number is what follows the last dash, so two keys of non-negative
segments agree, for the engine, exactly when their contexts and their segments do.  A negative number brings a dash of its
own, and the key of a segment `-n` of one context can be the key of the segment `n` of another.
-/

namespace SpeechlyPlugin.Plugin

open Engine

/-! ## Printed numbers -/

theorem dash_notMem_toDigits (n : ℕ) : '-' ∉ Nat.toDigits 10 n := fun h =>
  absurd (Nat.isDigit_of_mem_toDigits (by omega) (by omega) h) (by decide)

theorem toLower_of_isDigit {c : Char} (h : c.isDigit = true) : c.toLower = c := by
  simp only [Char.isDigit, Bool.and_eq_true, decide_eq_true_eq, UInt32.le_iff_toNat_le] at h
  have hn : ¬(c.val ≥ 'A'.val ∧ c.val ≤ 'Z'.val) := by
    simp only [ge_iff_le, UInt32.le_iff_toNat_le, not_and]
    intro h1
    have : ('A'.val).toNat = 65 := rfl
    have : ('9'.val).toNat = 57 := rfl
    omega
  exact dif_neg hn

theorem fold_printKey (c : FString) (i : ℤ) : (c.printKey i).fold = c.fold ++ '-' :: FString.printInt i := by
  have hdigits : (Nat.toDigits 10 i.natAbs).map Char.toLower = Nat.toDigits 10 i.natAbs := by
    refine (List.map_congr_left fun c hc => ?_).trans (List.map_id _)
    exact toLower_of_isDigit (Nat.isDigit_of_mem_toDigits (by omega) (by omega) hc)
  have hprint : (FString.printInt i).map Char.toLower = FString.printInt i := by
    unfold FString.printInt
    split
    · rw [List.map_cons, hdigits]
      rfl
    · exact hdigits
  simp only [FString.fold, FString.printKey, List.map_append, List.map_cons, hprint]
  rfl

theorem toDigits_inj {m n : ℕ} (h : Nat.toDigits 10 m = Nat.toDigits 10 n) : m = n := by
  have := congrArg (Nat.ofDigitChars 10 · 0) h
  simpa only [Nat.ofDigitChars_ten_toDigits] using this

/-! ## The last dash -/

theorem split_last {α : Type} {x : α} {a b d e : List α} (hd : x ∉ d) (he : x ∉ e) (h : a ++ x :: d = b ++ x :: e) :
    a = b ∧ d = e := by
  rcases List.append_eq_append_iff.mp h with ⟨l, hb, hl⟩ | ⟨l, ha, hl⟩
  · cases l with
    | nil => exact ⟨by rw [hb, List.append_nil], by simpa using hl⟩
    | cons y l =>
      obtain ⟨-, hl⟩ := List.cons.inj hl
      exact absurd (by rw [hl]; simp) hd
  · cases l with
    | nil => exact ⟨by rw [ha, List.append_nil], by simpa using hl.symm⟩
    | cons y l =>
      obtain ⟨-, hl⟩ := List.cons.inj hl
      exact absurd (by rw [hl]; simp) he

/-- **Keys identify segments**, as long as these are not negative. -/
theorem printKey_equiv_iff {c d : FString} {i j : ℤ} (hi : 0 ≤ i) (hj : 0 ≤ j) :
    c.printKey i ≈ d.printKey j ↔ c ≈ d ∧ i = j := by
  rw [FString.equiv_iff, FString.equiv_iff, fold_printKey, fold_printKey, FString.printInt, FString.printInt,
    if_neg (by omega), if_neg (by omega)]
  constructor
  · intro h
    obtain ⟨hc, hd⟩ := split_last (dash_notMem_toDigits _) (dash_notMem_toDigits _) h
    have := toDigits_inj hd
    exact ⟨hc, by omega⟩
  · rintro ⟨hc, rfl⟩
    rw [hc]

/-- The keys of one context identify its segments, negative ones too. -/
theorem eq_of_printKey_equiv {c d : FString} {i j : ℤ} (hc : c ≈ d) (hj : 0 ≤ j) (h : c.printKey i ≈ d.printKey j) :
    i = j := by
  by_cases hi : 0 ≤ i
  · exact ((printKey_equiv_iff hi hj).mp h).2
  · -- the key of `i` has a dash more than the key of `j`
    rw [FString.equiv_iff, fold_printKey, fold_printKey, FString.printInt, FString.printInt, if_pos (by omega),
      if_neg (by omega)] at h
    rw [FString.equiv_iff] at hc
    have h : (c.fold ++ ['-']) ++ '-' :: Nat.toDigits 10 i.natAbs = d.fold ++ '-' :: Nat.toDigits 10 j.natAbs := by
      simpa using h
    obtain ⟨hcd, -⟩ := split_last (dash_notMem_toDigits _) (dash_notMem_toDigits _) h
    have := congrArg List.length hcd
    rw [hc] at this
    simp at this

/-- The keys of a context without a dash are those of no other context, not even of its negative segments. -/
theorem context_of_printKey {c d : FString} {i j : ℤ} (hd : '-' ∉ d.fold) (hj : 0 ≤ j)
    (h : c.printKey i ≈ d.printKey j) : c ≈ d := by
  by_cases hi : 0 ≤ i
  · exact ((printKey_equiv_iff hi hj).mp h).1
  · rw [FString.equiv_iff, fold_printKey, fold_printKey, FString.printInt, FString.printInt, if_pos (by omega),
      if_neg (by omega)] at h
    have h : (c.fold ++ ['-']) ++ '-' :: Nat.toDigits 10 i.natAbs = d.fold ++ '-' :: Nat.toDigits 10 j.natAbs := by
      simpa using h
    obtain ⟨hcd, -⟩ := split_last (dash_notMem_toDigits _) (dash_notMem_toDigits _) h
    exact absurd (by simp [← hcd]) hd

end SpeechlyPlugin.Plugin
