import Mathlib.Algebra.Order.Round
import Mathlib.Algebra.Order.Floor.Ring
import Mathlib.Data.Set.Card
import Mathlib.Tactic.Linarith
import Mathlib.Tactic.FieldSimp
import Mathlib.Tactic.Ring

/-!
# Hops of a sampled grid

A grid of step `r` is laid over the integers from `0`.  The grid points below the integer `d` are the multiples
`r * i` with `i < ⌈d / r⌉`; the first point at or past `d` is the *hop* `r * ⌈d / r⌉`, and its rounding (half up, as
`round` does) is where the next piece of an integer-indexed signal begins.
-/

namespace SpeechlyPlugin.Lib

variable {α : Type*} [Field α] [LinearOrder α] [IsStrictOrderedRing α] [FloorRing α]

/-! ## The grid points below `d` -/

theorem lt_ceil_div {r : α} (hr : 0 < r) (d : α) (i : ℤ) : i < ⌈d / r⌉ ↔ r * i < d := by
  rw [Int.lt_ceil, lt_div_iff₀ hr, mul_comm]

/-- There are `⌈d / r⌉` of them. -/
theorem encard_grid {r : α} (hr : 0 < r) (d : α) : {i : ℕ | r * i < d}.encard = ⌈d / r⌉.toNat := by
  have heq : {i : ℕ | r * i < d} = Finset.range ⌈d / r⌉.toNat := by
    ext i
    have h := lt_ceil_div hr d i
    rw [Int.cast_natCast] at h
    rw [Set.mem_ofPred_eq, Finset.mem_coe, Finset.mem_range, ← h]
    omega
  rw [heq, Set.encard_coe_eq_coe_finsetCard, Finset.card_range]

theorem ceil_div_nonneg {r : α} (hr : 0 < r) (d : α) : 0 ≤ ⌈d / r⌉ ↔ -r < d := by
  have h := lt_ceil_div hr d (-1)
  rw [Int.cast_neg, Int.cast_one, mul_neg, mul_one] at h
  rw [← h]
  omega

theorem le_hop {r : α} (hr : 0 < r) (d : α) : d ≤ r * ⌈d / r⌉ := by
  have h : d / r ≤ ⌈d / r⌉ := Int.le_ceil _
  rwa [div_le_iff₀ hr, mul_comm] at h

theorem hop_lt {r : α} (hr : 0 < r) (d : α) : r * ⌈d / r⌉ < d + r := by
  have h : (⌈d / r⌉ : α) < d / r + 1 := Int.ceil_lt_add_one _
  have h' := mul_lt_mul_of_pos_left h hr
  have e : r * (d / r + 1) = d + r := by field_simp
  rwa [e] at h'

/-! ## Rounded grid points -/

theorem intCast_le_round {x : α} {m : ℤ} (h : (m : α) ≤ x) : m ≤ round x := by
  rw [round_eq, Int.le_floor]
  linarith

theorem round_le_intCast {x : α} {m : ℤ} (h : x ≤ m) : round x ≤ m := by
  rw [round_eq, ← Int.lt_add_one_iff, Int.floor_lt, Int.cast_add, Int.cast_one]
  linarith

theorem round_hop_ge {r : α} (hr : 0 < r) (d : ℤ) : d ≤ round (r * ⌈(d : α) / r⌉) :=
  intCast_le_round (le_hop hr d)

theorem round_hop_lt {r : α} (hr : 0 < r) (d : ℤ) : (round (r * ⌈(d : α) / r⌉) : α) < d + r + 1 / 2 := by
  have h1 := round_le_add_half (r * ⌈(d : α) / r⌉)
  have h2 := hop_lt hr (d : α)
  linarith

/-! ## Grids that never need rounding -/

/-- **The hops that land on integers.**  All of them do as soon as the step is a whole number or the reciprocal of one. -/
theorem hop_int {r : α} (h : ∃ n : ℕ, 0 < n ∧ (r = n ∨ r * n = 1)) (d : ℤ) :
    ∃ m : ℤ, r * ⌈(d : α) / r⌉ = m := by
  obtain ⟨n, hn, rfl | h⟩ := h
  · exact ⟨n * ⌈(d : α) / n⌉, by push_cast; rfl⟩
  · have hn' : (n : α) ≠ 0 := Nat.cast_ne_zero.mpr hn.ne'
    have hr : r = 1 / n := by field_simp; exact h
    refine ⟨d, ?_⟩
    have e : (d : α) / r = ((d * n : ℤ) : α) := by rw [hr]; push_cast; field_simp
    rw [e, Int.ceil_intCast, hr]
    push_cast
    field_simp

/-- The first hop from one past the origin misses the integers whenever the step is neither a whole number nor the
reciprocal of one. -/
theorem hop_one_not_int {r : α} (hr : 0 < r) (h : ¬ ∃ n : ℕ, 0 < n ∧ (r = n ∨ r * n = 1)) (m : ℤ) :
    r * ⌈(1 : α) / r⌉ ≠ m := by
  intro hm
  have hk : 0 < ⌈(1 : α) / r⌉ := Int.ceil_pos.mpr (by positivity)
  obtain ⟨k, hk'⟩ := Int.eq_ofNat_of_zero_le hk.le
  have h1 := le_hop hr (1 : α)
  have h2 := hop_lt hr (1 : α)
  rw [hk'] at hm h1 h2 hk
  simp only [Int.cast_natCast, Nat.cast_pos] at hm h1 h2 hk
  rcases lt_or_ge r 1 with hlt | hge
  · -- the hop lies in `[1, 2)`, so it can only be `1`
    rw [hm] at h1 h2
    have hm1 : 1 ≤ m := by exact_mod_cast h1
    have hm2 : m < 2 := by
      have : (m : α) < 2 := by linarith
      exact_mod_cast this
    have hm3 : m = 1 := by omega
    rw [hm3, Int.cast_one] at hm
    exact h ⟨k, hk, Or.inr hm⟩
  · -- one grid step is already past `1`, so the hop is the step itself
    have hk1 : k = 1 := by
      have : ⌈(1 : α) / r⌉ ≤ 1 := by
        rw [Int.ceil_le, Int.cast_one, div_le_one hr]
        exact hge
      omega
    subst hk1
    rw [Nat.cast_one, mul_one] at hm
    have hm0 : 0 < m := by
      have : (0 : α) < m := by rw [← hm]; exact hr
      exact_mod_cast this
    obtain ⟨n, rfl⟩ := Int.eq_ofNat_of_zero_le hm0.le
    exact h ⟨n, by omega, Or.inl (by rw [hm]; simp)⟩

end SpeechlyPlugin.Lib
