import Mathlib.Algebra.Order.Floor.Ring
import Mathlib.Data.Rat.Floor

/-!
# Truncation toward zero

The integer part that a cast from floating point to an integer type keeps, over any ring with a
floor: when it lies between two bounds of opposite signs, and how it lies to the number itself.
-/

namespace Truncate

variable {K : Type*} [Ring K] [LinearOrder K] [FloorRing K] {x : K}

/-- Down for a non-negative number, up for a negative one. -/
def trunc (x : K) : ℤ := if 0 ≤ x then ⌊x⌋ else ⌈x⌉

theorem trunc_of_nonneg (h : 0 ≤ x) : trunc x = ⌊x⌋ := if_pos h

theorem trunc_of_neg (h : x < 0) : trunc x = ⌈x⌉ := if_neg (not_le.mpr h)

theorem trunc_nonneg (h : 0 ≤ x) : 0 ≤ trunc x := by
  rw [trunc_of_nonneg h]
  exact Int.floor_nonneg.mpr h

variable [IsStrictOrderedRing K]

/-- Truncation stays below a positive bound exactly if the number does. -/
theorem trunc_lt_iff {n : ℤ} (hn : 0 < n) : trunc x < n ↔ x < n := by
  by_cases h : 0 ≤ x
  · rw [trunc_of_nonneg h, Int.floor_lt]
  · have hneg : x < 0 := not_le.mp h
    have hceil : ⌈x⌉ ≤ 0 := Int.ceil_le.mpr (by simpa using hneg.le)
    have hpos : (0 : K) < n := Int.cast_pos.mpr hn
    rw [trunc_of_neg hneg]
    exact ⟨fun _ => hneg.trans hpos, fun _ => hceil.trans_lt hn⟩

/-- It stays above a negative bound exactly if the number does. -/
theorem lt_trunc_iff {n : ℤ} (hn : n < 0) : n < trunc x ↔ n < x := by
  by_cases h : 0 ≤ x
  · have hfloor : 0 ≤ ⌊x⌋ := Int.floor_nonneg.mpr h
    have hneg : (n : K) < 0 := Int.cast_lt_zero.mpr hn
    rw [trunc_of_nonneg h]
    exact ⟨fun _ => hneg.trans_le h, fun _ => hn.trans_le hfloor⟩
  · rw [trunc_of_neg (not_le.mp h), Int.lt_ceil]

theorem trunc_nonpos (h : x ≤ 0) : trunc x ≤ 0 := by
  rcases h.lt_or_eq with hneg | rfl
  · rw [trunc_of_neg hneg]
    exact Int.ceil_le.mpr (by simpa using h)
  · simp [trunc]

/-- Truncation drops less than one. -/
theorem abs_trunc_sub_lt (x : K) : |(trunc x : K) - x| < 1 := by
  by_cases h : 0 ≤ x
  · rw [trunc_of_nonneg h, abs_sub_comm, abs_of_nonneg (sub_nonneg.mpr (Int.floor_le x))]
    exact sub_lt_iff_lt_add'.mpr (Int.lt_floor_add_one x)
  · rw [trunc_of_neg (not_le.mp h), abs_of_nonneg (sub_nonneg.mpr (Int.le_ceil x))]
    exact sub_lt_iff_lt_add'.mpr (Int.ceil_lt_add_one x)

/-- On rationals it is the truncating division of the numerator by the denominator. -/
theorem trunc_rat (x : ℚ) : trunc x = x.num.tdiv x.den := by
  have hfloor : ∀ y : ℚ, 0 ≤ y → ⌊y⌋ = y.num.tdiv y.den := by
    intro y hy
    rw [Rat.floor_def', Int.tdiv_eq_ediv_of_nonneg (Rat.num_nonneg.mpr hy)]
  by_cases h : 0 ≤ x
  · rw [trunc_of_nonneg h, hfloor x h]
  · have hneg : x < 0 := not_le.mp h
    have hceil : ⌈x⌉ = -⌊-x⌋ := by rw [Int.floor_neg, neg_neg]
    rw [trunc_of_neg hneg, hceil, hfloor (-x) (neg_nonneg.mpr hneg.le), Rat.num_neg_eq_neg_num,
      Rat.den_neg_eq_den, Int.neg_tdiv, neg_neg]

end Truncate
