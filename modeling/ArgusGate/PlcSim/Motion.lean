import ArgusGate.PlcSim.Rest
import Mathlib.Data.Rat.Floor

/-!
# Convergence of the motion step

`tick_sync` and `tick_follow` call `move_towards` once a tick with a target that stays the same. Here
is where such calls lead, and after how many of them the target is reported.
-/

namespace ArgusGate.PlcSimNode

open Approach

/-- The position of an axis after `n` calls of `move_towards` with the same target. -/
def moved (q : PlcSimParams) (current target : ℚ) (n : ℕ) : ℚ :=
  (fun x => (moveTowards q x target).1)^[n] current

variable {q : PlcSimParams} {current target : ℚ}

theorem moved_eq (n : ℕ) : moved q current target n =
    position q.stepPerCycle q.targetTolerance current target n := rfl

@[simp] theorem moved_zero : moved q current target 0 = current := rfl

theorem moved_succ (n : ℕ) :
    moved q current target (n + 1) = (moveTowards q (moved q current target n) target).1 :=
  position_succ n

/-- The number of the first call that reports arrival. -/
def arrivalCall (q : PlcSimParams) (current target : ℚ) : ℕ :=
  ⌈max 0 (|current - target| - q.targetTolerance) / q.stepPerCycle⌉₊ + 1

theorem arrivalCall_eq :
    arrivalCall q current target = calls q.stepPerCycle q.targetTolerance (current - target) + 1 :=
  rfl

section Convergence

variable (hstep : 0 < q.stepPerCycle) (htol : 0 ≤ q.targetTolerance)

include hstep htol

/-- Call number `n + 1` reports arrival exactly from the arrival call on. -/
theorem moveTowards_done_iff (n : ℕ) : (moveTowards q (moved q current target n) target).2 = true ↔
    arrivalCall q current target ≤ n + 1 := by
  rw [moveTowards_eq, moved_eq, position_done_iff hstep htol, arrivalCall_eq, Nat.succ_le_succ_iff]

/-- After the arrival call the axis stands at its target. -/
theorem moved_eq_target {n : ℕ} (h : arrivalCall q current target ≤ n) :
    moved q current target n = target := by
  rw [moved_eq]
  exact position_eq_target hstep htol (Nat.lt_of_succ_le h)

end Convergence

/-- Convergence of `move_towards` with a fixed target. Every call brings the axis closer until it is
there, none takes it past the target or moves it by more than the larger of step and tolerance, and
the calls that report arrival, which leave it exactly at the target, are the arrival call and all
later ones. -/
theorem moveTowards_converges (q : PlcSimParams) (hstep : 0 < q.stepPerCycle)
    (htol : 0 ≤ q.targetTolerance) (current target : ℚ) (n : ℕ) :
    let x := moved q current target
    |x (n + 1) - target| ≤ |x n - target| ∧
    (x n ≠ target → |x (n + 1) - target| < |x n - target|) ∧
    (current ≤ target → x n ≤ target) ∧ (target ≤ current → target ≤ x n) ∧
    |x (n + 1) - x n| ≤ max q.stepPerCycle q.targetTolerance ∧
    ((moveTowards q (x n) target).2 = true ↔
      ⌈max 0 (|current - target| - q.targetTolerance) / q.stepPerCycle⌉₊ + 1 ≤ n + 1) ∧
    ((moveTowards q (x n) target).2 = true → x (n + 1) = target) := by
  intro x
  have hnext : x (n + 1) = (moveTowards q (x n) target).1 := moved_succ n
  have hbetween : x n ∈ Set.uIcc current target := position_mem_uIcc hstep.le n
  refine ⟨?_, ?_, ?_, ?_, ?_, moveTowards_done_iff hstep htol n, ?_⟩
  · rw [hnext]
    exact abs_approach_sub_le hstep.le
  · intro hne
    rw [hnext]
    exact abs_approach_sub_lt hstep hne
  · intro hle
    rw [Set.uIcc_of_le hle] at hbetween
    exact hbetween.2
  · intro hle
    rw [Set.uIcc_of_ge hle] at hbetween
    exact hbetween.1
  · rw [hnext]
    exact abs_approach_sub_self_le hstep.le
  · intro hdone
    rw [hnext]
    exact approach_eq_of_done hdone

/-- From 0 to 1/20 with the default step 1/50 and tolerance 1/100: the third call is the first one
that reports. -/
theorem moveTowards_converges_default :
    (moveTowards {} (moved {} 0 (1 / 20) 1) (1 / 20)).2 = false ∧
    (moveTowards {} (moved {} 0 (1 / 20) 2) (1 / 20)).2 = true ∧
    moved {} 0 (1 / 20) 3 = 1 / 20 := by
  have hdone : (moveTowards {} (moved {} 0 (1 / 20) 2) (1 / 20)).2 = true := by decide +kernel
  obtain ⟨-, -, -, -, -, -, harrived⟩ :=
    moveTowards_converges {} (by decide +kernel) (by decide +kernel) 0 (1 / 20) 2
  exact ⟨by decide +kernel, hdone, harrived hdone⟩

end ArgusGate.PlcSimNode
