import Mathlib.Algebra.Order.Floor.Semiring
import Mathlib.Algebra.Order.Field.Basic
import Mathlib.Order.Interval.Set.UnorderedInterval
import Mathlib.Tactic.Linarith
import Mathlib.Tactic.Ring

/-!
# Stepwise approach to a target

One call of `approach` moves a position towards a target by at most `step`, never past it; once the
distance is within `tol` it snaps onto the target and reports arrival. `calls` is the number of
calls that move without reporting, as a function of the distance: each of them lowers it by one.
-/

namespace Approach

section Call

variable {K : Type*} [AddCommGroup K] [LinearOrder K]

/-- One call: the new position, and whether it reports arrival. -/
def approach (step tol x t : K) : K × Bool :=
  if |x - t| ≤ tol then (t, true)
  else if x < t then (min (x + step) t, false)
  else (max (x - step) t, false)

variable {step tol x t : K}

theorem approach_of_le (h : |x - t| ≤ tol) : approach step tol x t = (t, true) := if_pos h

theorem approach_done_iff : (approach step tol x t).2 = true ↔ |x - t| ≤ tol := by
  unfold approach
  split_ifs with h <;> simp [h]

/-- A call that reports arrival is at the target. -/
theorem approach_eq_of_done (h : (approach step tol x t).2 = true) :
    (approach step tol x t).1 = t := by
  rw [approach_of_le (approach_done_iff.mp h)]

/-- A call ends between the position and the target: it never turns away and never overshoots. -/
theorem approach_mem_uIcc [IsOrderedAddMonoid K] (hstep : 0 ≤ step) :
    (approach step tol x t).1 ∈ Set.uIcc x t := by
  unfold approach
  split_ifs with htol hlt
  · exact Set.right_mem_uIcc
  · apply Set.mem_uIcc_of_le
    · exact le_min (le_add_of_nonneg_right hstep) hlt.le
    · exact min_le_right _ _
  · apply Set.mem_uIcc_of_ge
    · exact le_max_right _ _
    · exact max_le (sub_le_self x hstep) (not_lt.mp hlt)

/-- The position after `n` calls with the same target. -/
def position (step tol x t : K) (n : ℕ) : K := (fun y => (approach step tol y t).1)^[n] x

@[simp] theorem position_zero : position step tol x t 0 = x := rfl

theorem position_succ (n : ℕ) : position step tol x t (n + 1) =
    (approach step tol (position step tol x t n) t).1 := Function.iterate_succ_apply' _ n x

/-- The calls never leave the way from the start to the target. -/
theorem position_mem_uIcc [IsOrderedAddMonoid K] (hstep : 0 ≤ step) (n : ℕ) :
    position step tol x t n ∈ Set.uIcc x t := by
  induction n with
  | zero => exact Set.left_mem_uIcc
  | succ n ih =>
    rw [position_succ]
    exact Set.uIcc_subset_uIcc_right ih (approach_mem_uIcc hstep)

/-- The positions a call leaves where they are. -/
def AtRest (step tol x t : K) : Prop :=
  (x = t ∧ (0 ≤ tol ∨ 0 ≤ step)) ∨ (step = 0 ∧ tol < |x - t|)

theorem approach_eq_self_iff [IsOrderedAddMonoid K] :
    (approach step tol x t).1 = x ↔ AtRest step tol x t := by
  unfold approach AtRest
  split_ifs with htol hlt
  · constructor
    · rintro rfl
      exact .inl ⟨rfl, .inl (by simpa using htol)⟩
    · rintro (⟨rfl, -⟩ | ⟨-, h⟩)
      · rfl
      · exact absurd htol (not_le.mpr h)
  · have hfar : tol < |x - t| := not_le.mp htol
    have hne : x ≠ t := hlt.ne
    constructor
    · intro h
      rcases min_choice (x + step) t with hmin | hmin
      · rw [hmin] at h
        exact .inr ⟨by simpa using h, hfar⟩
      · rw [hmin] at h
        exact absurd h.symm hne
    · rintro (⟨h, -⟩ | ⟨rfl, -⟩)
      · exact absurd h hne
      · simpa using hlt.le
  · have hfar : tol < |x - t| := not_le.mp htol
    have hge : t ≤ x := not_lt.mp hlt
    constructor
    · intro h
      by_cases hxt : x = t
      · subst hxt
        refine .inl ⟨rfl, .inr ?_⟩
        simpa using h
      · rcases max_choice (x - step) t with hmax | hmax
        · rw [hmax] at h
          exact .inr ⟨by simpa using h, hfar⟩
        · rw [hmax] at h
          exact absurd h.symm hxt
    · rintro (⟨rfl, htol0 | hstep⟩ | ⟨rfl, -⟩)
      · exact absurd (by simpa using htol0) htol
      · simpa using hstep
      · simpa using hge

end Call

section Calls

variable {K : Type*} [Field K] [LinearOrder K] [IsStrictOrderedRing K] {step tol : K}

/-- A call that moves lowers the distance by `step`, down to zero. -/
theorem abs_approach_sub {x t : K} (h : tol < |x - t|) :
    |(approach step tol x t).1 - t| = max (|x - t| - step) 0 := by
  unfold approach
  rw [if_neg (not_le.mpr h)]
  split_ifs with hlt
  · have hx : |x - t| = t - x := by rw [abs_sub_comm, abs_of_pos (sub_pos.mpr hlt)]
    rw [hx]
    rcases le_total (x + step) t with hle | hle
    · rw [min_eq_left hle, max_eq_left (by linarith), abs_of_nonpos (by linarith)]
      ring
    · rw [min_eq_right hle, max_eq_right (by linarith), sub_self, abs_zero]
  · have hge : t ≤ x := not_lt.mp hlt
    rw [abs_of_nonneg (sub_nonneg.mpr hge)]
    rcases le_total (x - step) t with hle | hle
    · rw [max_eq_right hle, max_eq_right (by linarith), sub_self, abs_zero]
    · rw [max_eq_left hle, max_eq_left (by linarith), abs_of_nonneg (by linarith)]
      ring

/-- A call brings every position but the target closer to the target. -/
theorem abs_approach_sub_lt {x t : K} (hstep : 0 < step) (h : x ≠ t) :
    |(approach step tol x t).1 - t| < |x - t| := by
  have hpos : 0 < |x - t| := abs_pos.mpr (sub_ne_zero.mpr h)
  by_cases hle : |x - t| ≤ tol
  · rw [approach_of_le hle, sub_self, abs_zero]
    exact hpos
  · rw [abs_approach_sub (not_le.mp hle)]
    exact max_lt (sub_lt_self _ hstep) hpos

theorem abs_approach_sub_le {x t : K} (hstep : 0 ≤ step) :
    |(approach step tol x t).1 - t| ≤ |x - t| := by
  by_cases hle : |x - t| ≤ tol
  · rw [approach_of_le hle, sub_self, abs_zero]
    exact abs_nonneg _
  · rw [abs_approach_sub (not_le.mp hle)]
    exact max_le (sub_le_self _ hstep) (abs_nonneg _)

/-- A call moves by at most a step, or by what lies inside the tolerance. -/
theorem abs_approach_sub_self_le {x t : K} (hstep : 0 ≤ step) :
    |(approach step tol x t).1 - x| ≤ max step tol := by
  unfold approach
  split_ifs with hle hlt
  · rw [abs_sub_comm]
    exact hle.trans (le_max_right _ _)
  · apply le_max_of_le_left
    rw [abs_of_nonneg (sub_nonneg.mpr (le_min (le_add_of_nonneg_right hstep) hlt.le))]
    linarith [min_le_left (x + step) t]
  · apply le_max_of_le_left
    rw [abs_of_nonpos (sub_nonpos.mpr (max_le (sub_le_self x hstep) (not_lt.mp hlt)))]
    linarith [le_max_left (x - step) t]

variable [FloorSemiring K]

/-- The number of calls that move without reporting, from distance `|d|`. -/
def calls (step tol d : K) : ℕ := ⌈max 0 (|d| - tol) / step⌉₊

theorem calls_of_le {d : K} (h : |d| ≤ tol) : calls step tol d = 0 := by
  rw [calls, max_eq_left (sub_nonpos.mpr h), zero_div, Nat.ceil_zero]

/-- A call that moves uses up one of the calls. -/
theorem calls_approach {x t : K} (hstep : 0 < step) (htol : 0 ≤ tol) (h : tol < |x - t|) :
    calls step tol ((approach step tol x t).1 - t) + 1 = calls step tol (x - t) := by
  have hpos : 0 < (|x - t| - tol) / step := div_pos (sub_pos.mpr h) hstep
  have hnow : max 0 (|x - t| - tol) / step = (|x - t| - tol) / step := by
    rw [max_eq_right (sub_nonneg.mpr h.le)]
  have hnext : max 0 (|(approach step tol x t).1 - t| - tol) / step =
      max 0 ((|x - t| - tol) / step - 1) := by
    rw [abs_approach_sub h, ← max_div_div_right hstep.le, zero_div]
    rcases le_total (|x - t| - step) 0 with hle | hle
    · -- the clamp: the target is reached and the rest of the step is lost
      rw [max_eq_right hle, max_eq_left, max_eq_left]
      · rw [sub_nonpos, div_le_one hstep]
        linarith
      · rw [zero_sub, div_le_iff₀ hstep]
        linarith
    · rw [max_eq_left hle, sub_right_comm, sub_div, div_self hstep.ne']
  unfold calls
  rw [hnow, hnext]
  rcases le_total ((|x - t| - tol) / step) 1 with hle | hle
  · rw [max_eq_left (sub_nonpos.mpr hle), Nat.ceil_zero, zero_add, eq_comm,
      Nat.ceil_eq_iff one_ne_zero]
    simpa using ⟨hpos, hle⟩
  · rw [max_eq_right (sub_nonneg.mpr hle), ← Nat.ceil_add_one (sub_nonneg.mpr hle), sub_add_cancel]

theorem calls_eq_zero_iff {d : K} (hstep : 0 < step) : calls step tol d = 0 ↔ |d| ≤ tol := by
  constructor
  · intro h
    have hdiv : max 0 (|d| - tol) / step ≤ 0 := Nat.ceil_eq_zero.mp h
    rw [div_le_iff₀ hstep, zero_mul] at hdiv
    exact sub_nonpos.mp ((le_max_right _ _).trans hdiv)
  · exact calls_of_le

section Iterate

variable {x t : K} (hstep : 0 < step) (htol : 0 ≤ tol)

include hstep htol

/-- Each call uses up one of the calls that remain. -/
theorem calls_position (n : ℕ) :
    calls step tol (position step tol x t n - t) = calls step tol (x - t) - n := by
  induction n with
  | zero => rfl
  | succ n ih =>
    rw [position_succ]
    by_cases h : |position step tol x t n - t| ≤ tol
    · have hzero : calls step tol (position step tol x t n - t) = 0 := calls_of_le h
      rw [approach_of_le h, sub_self, calls_of_le (by rwa [abs_zero])]
      omega
    · have hcall := calls_approach hstep htol (not_le.mp h)
      omega

/-- A call reports arrival exactly if all calls that only move are over. -/
theorem position_done_iff (n : ℕ) :
    (approach step tol (position step tol x t n) t).2 = true ↔ calls step tol (x - t) ≤ n := by
  rw [approach_done_iff, ← calls_eq_zero_iff hstep, calls_position hstep htol]
  omega

theorem position_eq_target {n : ℕ} (h : calls step tol (x - t) < n) :
    position step tol x t n = t := by
  obtain ⟨m, rfl⟩ : ∃ m, n = m + 1 := ⟨n - 1, by omega⟩
  rw [position_succ]
  exact approach_eq_of_done ((position_done_iff hstep htol m).mpr (by omega))

end Iterate

end Calls

end Approach
