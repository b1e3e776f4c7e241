import Mathlib.Algebra.BigOperators.Fin
import Mathlib.Algebra.BigOperators.Group.Finset.Basic
import Mathlib.Algebra.Order.BigOperators.Ring.Finset
import Mathlib.Algebra.Ring.Basic
import Mathlib.Data.List.GetD

/-!
# Windows of a signal

`windowSum taps s p` weighs the stretch of the list `s` that begins at index `p` with `taps`, the inner product a finite
impulse response filter computes.  The lemmas say when a window survives cutting the front off a signal or adding to
its end, which is all that filtering a signal piece by piece needs.
-/

namespace SpeechlyPlugin.Lib

variable {α : Type*} [NonUnitalNonAssocSemiring α]

/-- The window of `s` that begins at `p`, weighed with `taps`. -/
def windowSum (taps s : List α) (p : ℕ) : α :=
  ∑ j ∈ Finset.range taps.length, s.getD (p + j) 0 * taps.getD j 0

theorem windowSum_drop (taps s : List α) (b p : ℕ) :
    windowSum taps (s.drop b) p = windowSum taps s (b + p) := by
  unfold windowSum
  refine Finset.sum_congr rfl fun j _ => ?_
  rw [List.getD_eq_getElem?_getD, List.getElem?_drop, ← List.getD_eq_getElem?_getD, Nat.add_assoc]

theorem windowSum_append {taps s : List α} {p : ℕ} (h : p + taps.length ≤ s.length) (t : List α) :
    windowSum taps (s ++ t) p = windowSum taps s p := by
  unfold windowSum
  refine Finset.sum_congr rfl fun j hj => ?_
  have hj' := Finset.mem_range.mp hj
  rw [List.getD_append _ _ _ _ (by omega)]

/-- A window inside a constant signal is the constant times the sum of the taps. -/
theorem windowSum_const {taps s : List α} {x : α} {p : ℕ} (hs : ∀ y ∈ s, y = x) (h : p + taps.length ≤ s.length) :
    windowSum taps s p = x * taps.sum := by
  have hsum : ∑ j ∈ Finset.range taps.length, taps.getD j 0 = taps.sum := by
    rw [Finset.sum_range, ← Fin.sum_univ_getElem taps]
    exact Finset.sum_congr rfl fun j _ => List.getD_eq_getElem _ _ j.isLt
  unfold windowSum
  rw [← hsum, Finset.mul_sum]
  refine Finset.sum_congr rfl fun j hj => ?_
  have hj' := Finset.mem_range.mp hj
  rw [List.getD_eq_getElem s 0 (by omega), hs _ (List.getElem_mem _)]

/-- The windows of `s` that begin at the indices `ps`. -/
def windows (taps s : List α) (ps : List ℕ) : List α := ps.map (windowSum taps s)

theorem windows_append_signal {taps s : List α} {ps : List ℕ} (h : ∀ p ∈ ps, p + taps.length ≤ s.length) (t : List α) :
    windows taps (s ++ t) ps = windows taps s ps :=
  List.map_congr_left fun p hp => windowSum_append (h p hp) t

theorem windows_drop (taps s : List α) (b : ℕ) (ps : List ℕ) :
    windows taps (s.drop b) ps = windows taps s (ps.map (b + ·)) := by
  unfold windows
  rw [List.map_map]
  exact List.map_congr_left fun p _ => windowSum_drop taps s b p

theorem windows_append (taps s : List α) (ps qs : List ℕ) :
    windows taps s (ps ++ qs) = windows taps s ps ++ windows taps s qs := List.map_append

/-- A window of a signal between `-1` and `1` is bounded by the sum of the taps' absolute values. -/
theorem abs_windowSum_le {β : Type*} [CommRing β] [LinearOrder β] [IsStrictOrderedRing β] (taps : List β) {s : List β}
    (h : ∀ x ∈ s, |x| ≤ 1) (p : ℕ) : |windowSum taps s p| ≤ ∑ j ∈ Finset.range taps.length, |taps.getD j 0| := by
  unfold windowSum
  refine (Finset.abs_sum_le_sum_abs _ _).trans (Finset.sum_le_sum fun j _ => ?_)
  have hx : |s.getD (p + j) 0| ≤ 1 := by
    rcases lt_or_ge (p + j) s.length with hj | hj
    · rw [List.getD_eq_getElem _ _ hj]
      exact h _ (List.getElem_mem hj)
    · rw [List.getD_eq_default _ _ hj, abs_zero]
      exact zero_le_one
  rw [abs_mul]
  exact mul_le_of_le_one_left (abs_nonneg _) hx

end SpeechlyPlugin.Lib
