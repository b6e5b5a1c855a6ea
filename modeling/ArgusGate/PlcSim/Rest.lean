import ArgusGate.Foundation.Approach
import ArgusGate.PlcSim.Step

/-!
# States without pending motion

A simulator state has no pending motion if no number of ticks moves an axis. Ticks move the axes
only in SYNCH, JOG and FOLLOW, and there by `moveTowards` or by the jog directions.
-/

namespace ArgusGate.PlcSimNode

open Approach

variable {q : PlcSimParams} {s : PlcSimNode}

theorem moveTowards_eq (q : PlcSimParams) (current target : ℚ) :
    moveTowards q current target = approach q.stepPerCycle q.targetTolerance current target := rfl

/-- No number of ticks before the next command moves an axis. -/
def NoPendingMotion (q : PlcSimParams) (s : PlcSimNode) : Prop :=
  ∀ n, ((tick q)^[n] s).currentPitch = s.currentPitch ∧
    ((tick q)^[n] s).currentYaw = s.currentYaw

/-- A tick that keeps `I` and the position, from every state in `I`, leaves no motion pending. -/
theorem noPendingMotion_rule {I : PlcSimNode → Prop}
    (step : ∀ s, I s → I (s.tick q) ∧ (s.tick q).currentPitch = s.currentPitch ∧
      (s.tick q).currentYaw = s.currentYaw)
    (h : I s) : NoPendingMotion q s := by
  have main : ∀ n, I ((tick q)^[n] s) ∧ ((tick q)^[n] s).currentPitch = s.currentPitch ∧
      ((tick q)^[n] s).currentYaw = s.currentYaw := by
    intro n
    induction n with
    | zero => exact ⟨h, rfl, rfl⟩
    | succ n ih =>
      obtain ⟨hinv, hpitch, hyaw⟩ := ih
      obtain ⟨hinv', hpitch', hyaw'⟩ := step _ hinv
      rw [Function.iterate_succ_apply']
      exact ⟨hinv', hpitch'.trans hpitch, hyaw'.trans hyaw⟩
  exact fun n => (main n).2

theorem noPendingMotion_of_ready (h : s.state = .ready) : NoPendingMotion q s := by
  apply noPendingMotion_rule (I := fun s => s.state = .ready) _ h
  intro s hs
  rw [tick_of_ready q s hs]
  exact ⟨hs, rfl, rfl⟩

theorem noPendingMotion_of_jog (h : s.state = .jog) (hpitch : s.pitchDirection = 0)
    (hyaw : s.yawDirection = 0) : NoPendingMotion q s := by
  apply noPendingMotion_rule
    (I := fun s => s.state = .jog ∧ s.pitchDirection = 0 ∧ s.yawDirection = 0) _ ⟨h, hpitch, hyaw⟩
  intro s h
  obtain ⟨hs, hp, hy⟩ := h
  rw [tick_of_jog q s hs]
  simp [hs, tickJog, hp, hy]

theorem tick_of_follow (h : s.state = .follow) :
    (s.tick q).currentPitch = (moveTowards q s.currentPitch s.targetPitch).1 ∧
    (s.tick q).currentYaw = (moveTowards q s.currentYaw s.targetYaw).1 ∧
    (s.tick q).targetPitch = s.targetPitch ∧ (s.tick q).targetYaw = s.targetYaw ∧
    ((s.tick q).state = .follow ∨ (s.tick q).state = .ready) := by
  rw [tick_eq_tickFollow q s h]
  simp only [h, tickFollow, true_and]
  split_ifs <;> simp

/-- In FOLLOW nothing is pending exactly if both axes are at rest with respect to their targets. -/
theorem noPendingMotion_follow_iff (h : s.state = .follow) : NoPendingMotion q s ↔
    AtRest q.stepPerCycle q.targetTolerance s.currentPitch s.targetPitch ∧
    AtRest q.stepPerCycle q.targetTolerance s.currentYaw s.targetYaw := by
  rw [← approach_eq_self_iff, ← approach_eq_self_iff, ← moveTowards_eq, ← moveTowards_eq]
  constructor
  · intro hquiet
    obtain ⟨hpitch, hyaw⟩ := hquiet 1
    obtain ⟨hp, hy, -⟩ := tick_of_follow (q := q) h
    exact ⟨hp.symm.trans hpitch, hy.symm.trans hyaw⟩
  · intro hrest
    -- once both axes stand, a tick either stays in FOLLOW or has arrived
    apply noPendingMotion_rule (I := fun s => s.state = .ready ∨ (s.state = .follow ∧
      (moveTowards q s.currentPitch s.targetPitch).1 = s.currentPitch ∧
      (moveTowards q s.currentYaw s.targetYaw).1 = s.currentYaw)) _ (.inr ⟨h, hrest⟩)
    intro s hs
    rcases hs with hs | ⟨hs, hpitch, hyaw⟩
    · rw [tick_of_ready q s hs]
      exact ⟨.inl hs, rfl, rfl⟩
    · obtain ⟨hp, hy, htp, hty, hstate⟩ := tick_of_follow (q := q) hs
      refine ⟨?_, hp.trans hpitch, hy.trans hyaw⟩
      rcases hstate with hstate | hstate
      · refine .inr ⟨hstate, ?_, ?_⟩
        · rw [htp, hp, hpitch, hpitch]
        · rw [hty, hy, hyaw, hyaw]
      · exact .inl hstate

end ArgusGate.PlcSimNode
