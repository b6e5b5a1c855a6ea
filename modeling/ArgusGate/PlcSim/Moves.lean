import ArgusGate.PlcSim.Range
import Mathlib.Tactic.Linarith

/-!
# What moves an axis, and how fast

The simulator's states of motion are those of the last command: it is in SYNCH, JOG or FOLLOW only if
that command had the mode of the state, and it jogs where that command said. A tick moves an axis by the
jog step or by one step towards its target.
-/

namespace ArgusGate

open Reactive Approach

namespace Axis

def direction : Axis → PlcSimNode → Int
  | .pitch, s => s.pitchDirection
  | .yaw, s => s.yawDirection

/-- The override of a command for the axis. -/
def override : Axis → PlcCommand → ℚ
  | .pitch, msg => msg.pitchOverride
  | .yaw, msg => msg.yawOverride

/-- The direction in which a command jogs the axis. -/
def jogged : Axis → PlcCommand → Int
  | .pitch, msg => if msg.pitchJogP then 1 else if msg.pitchJogN then -1 else 0
  | .yaw, msg => if msg.yawJogP then 1 else if msg.yawJogN then -1 else 0

/-- The command asks for motion of the axis, by its mode SYNCH or FOLLOW or by its jog bits. -/
def DrivenBy (a : Axis) (msg : PlcCommand) : Prop :=
  msg.mode = 1 ∨ msg.mode = 3 ∨ (msg.mode = 2 ∧ a.jogged msg ≠ 0)

theorem not_drivenBy_default (a : Axis) : ¬ a.DrivenBy {} := by
  rintro (h | h | ⟨h, -⟩) <;> cases h

theorem jogs_of_jogged {a : Axis} {msg : PlcCommand} (h : a.jogged msg ≠ 0) : msg.jogs = true := by
  cases a <;> simp only [jogged] at h <;> split_ifs at h <;> simp_all [PlcCommand.jogs]

theorem abs_jogged_le (a : Axis) (msg : PlcCommand) : |a.jogged msg| ≤ 1 := by
  cases a <;> simp only [jogged] <;> split_ifs <;> decide

end Axis

namespace PlcSimNode

/-- The state of motion is that of the last command. -/
structure Obeys (s : PlcSimNode) : Prop where
  synch : s.state = .synch → s.lastCommand.mode = 1
  follow : s.state = .follow → s.lastCommand.mode = 3
  jog : s.state = .jog → s.lastCommand.mode = 2 ∧ ∀ a : Axis, a.direction s = a.jogged s.lastCommand

theorem obeys_command (s : PlcSimNode) (msg : PlcCommand) : Obeys (s.commandCallback msg) := by
  have hcases := handles s msg
  generalize s.commandCallback msg = s' at hcases ⊢
  cases hcases with
  | synch _ _ hmode => exact ⟨fun _ => hmode, fun h => (by cases h), fun h => (by cases h)⟩
  | jog _ _ hmode =>
    exact ⟨fun h => (by cases h), fun h => (by cases h), fun _ => ⟨hmode, fun a => by cases a <;> rfl⟩⟩
  | follow _ _ hmode => exact ⟨fun h => (by cases h), fun _ => hmode, fun h => (by cases h)⟩
  | _ => exact ⟨fun h => (by cases h), fun h => (by cases h), fun h => (by cases h)⟩

theorem direction_tick (q : PlcSimParams) (s : PlcSimNode) (a : Axis) :
    a.direction (s.tick q) = a.direction s := by
  by_cases hstart : s.state = .startup
  · rw [tick_of_startup q s hstart]
    cases a <;> rfl
  · rw [tick_of_ne_startup q s hstart]
    unfold advance tickSync
    cases a <;> split_ifs <;> split <;> rfl

/-- A tick ends in a state of motion only if it started there. -/
theorem tick_moving {q : PlcSimParams} {s : PlcSimNode} {st : PlcState} (h : (s.tick q).state = st)
    (hst : st ≠ .ready) : s.state = st := by
  by_cases hstart : s.state = .startup
  · rw [tick_of_startup q s hstart] at h
    exact absurd h.symm hst
  · rw [tick_of_ne_startup q s hstart] at h
    rcases advance_state q s with hkeep | ⟨-, hready⟩
    · rw [← hkeep, h]
    · exact absurd (h.symm.trans hready) hst

theorem obeys_tick {s : PlcSimNode} (h : Obeys s) (q : PlcSimParams) : Obeys (s.tick q) := by
  refine ⟨fun hs => ?_, fun hs => ?_, fun hs => ?_⟩
  · rw [tick_lastCommand]
    exact h.synch (tick_moving hs (by simp))
  · rw [tick_lastCommand]
    exact h.follow (tick_moving hs (by simp))
  · rw [tick_lastCommand]
    simp only [direction_tick]
    exact h.jog (tick_moving hs (by simp))

theorem obeys (q : PlcSimParams) (es : List SimEvent) : Obeys ((machine q).state es) := by
  apply (machine q).history_rule (P := fun _ s => Obeys s)
  · exact ⟨fun h => (by cases h), fun h => (by cases h), fun h => (by cases h)⟩
  · intro es e ih
    cases e with
    | command msg => exact obeys_command _ msg
    | tick => exact obeys_tick ih q

/-- What a command brings about and ticks keep holds in every run in which that command is the last one
received. -/
theorem lastCommand_rule {q : PlcSimParams} {cmd : PlcCommand} {Q : PlcSimNode → Prop}
    (start : cmd = {} → Q (construct q)) (command : ∀ s : PlcSimNode, Q (s.commandCallback cmd))
    (tick : ∀ s : PlcSimNode, Q s → Q (s.tick q)) (es : List SimEvent)
    (h : ((machine q).state es).lastCommand = cmd) : Q ((machine q).state es) := by
  revert h
  apply (machine q).history_rule (P := fun _ s => s.lastCommand = cmd → Q s)
  · exact fun h => start h.symm
  · intro es e ih h
    cases e with
    | command msg =>
      obtain rfl : msg = cmd := by simpa using h
      exact command _
    | tick =>
      rw [machine_step_tick, tick_lastCommand] at h
      exact tick _ (ih h)

variable {q : PlcSimParams} {s : PlcSimNode} {a : Axis}

/-- A tick in JOG, for one axis. -/
theorem tick_jog_current (h : s.state = .jog) : a.current (s.tick q) =
    a.current s + a.direction s * q.stepPerCycle * jogScale (a.override s.lastCommand) := by
  rw [tick_of_jog q s h]
  cases a <;> rfl

theorem tick_current_of_rest (hsynch : s.state ≠ .synch) (hjog : s.state ≠ .jog)
    (hfollow : s.state ≠ .follow) : a.current (s.tick q) = a.current s := by
  cases hs : s.state with
  | startup =>
    rw [tick_of_startup q s hs]
    cases a <;> rfl
  | stop =>
    rw [tick_of_ne_startup q s (by simp [hs])]
    cases a <;> simp [advance, hs, Axis.current]
  | ready =>
    rw [tick_of_ready q s hs]
    cases a <;> rfl
  | error =>
    rw [tick_of_error q s hs]
    cases a <;> rfl
  | synch => exact absurd hs hsynch
  | jog => exact absurd hs hjog
  | follow => exact absurd hs hfollow

/-- An axis that a tick moves is driven by the last command. -/
theorem drivenBy_of_moves (h : Obeys s) (hmoves : a.current (s.tick q) ≠ a.current s) :
    a.DrivenBy s.lastCommand := by
  by_cases hsynch : s.state = .synch
  · exact .inl (h.synch hsynch)
  · by_cases hfollow : s.state = .follow
    · exact .inr (.inl (h.follow hfollow))
    · by_cases hjog : s.state = .jog
      · obtain ⟨hmode, hdirection⟩ := h.jog hjog
        refine .inr (.inr ⟨hmode, fun hzero => hmoves ?_⟩)
        rw [tick_jog_current hjog, hdirection, hzero]
        simp
      · exact absurd (tick_current_of_rest hsynch hjog hfollow) hmoves

/-! ## The rate of motion -/

/-- The factors of the jog step are bounded. -/
structure Limited (B : ℚ) (s : PlcSimNode) : Prop where
  direction : ∀ a : Axis, |a.direction s| ≤ 1
  scale : ∀ a : Axis, |jogScale (a.override s.lastCommand)| ≤ B

variable {B : ℚ}

theorem direction_command (s : PlcSimNode) (msg : PlcCommand) (a : Axis) :
    a.direction (s.commandCallback msg) = a.direction s ∨
    a.direction (s.commandCallback msg) = a.jogged msg ∨
    a.direction (s.commandCallback msg) = 0 := by
  have hcases := handles s msg
  generalize s.commandCallback msg = s' at hcases ⊢
  cases hcases with
  | jog => exact .inr (.inl (by cases a <;> rfl))
  | idle => exact .inr (.inr (by cases a <;> rfl))
  | _ => exact .inl (by cases a <;> rfl)

theorem limited_command (h : Limited B s) {msg : PlcCommand}
    (hscale : ∀ a : Axis, |jogScale (a.override msg)| ≤ B) : Limited B (s.commandCallback msg) := by
  constructor
  · intro a
    rcases direction_command s msg a with hd | hd | hd <;> rw [hd]
    · exact h.direction a
    · exact a.abs_jogged_le msg
    · decide
  · simpa using hscale

theorem limited_tick (h : Limited B s) (q : PlcSimParams) : Limited B (s.tick q) :=
  ⟨fun a => (direction_tick q s a).symm ▸ h.direction a, by simpa using h.scale⟩

/-- No tick moves an axis by more than a scaled jog step or a step of `move_towards`. -/
theorem abs_tick_sub_le (hstep : 0 ≤ q.stepPerCycle) (hB : 1 ≤ B) (h : Limited B s) :
    |a.current (s.tick q) - a.current s| ≤ max (q.stepPerCycle * B) q.targetTolerance := by
  by_cases hjog : s.state = .jog
  · have hdirection : |(a.direction s : ℚ)| ≤ 1 := by exact_mod_cast h.direction a
    rw [tick_jog_current hjog, add_sub_cancel_left, abs_mul, abs_mul, abs_of_nonneg hstep]
    apply le_max_of_le_left
    calc |(a.direction s : ℚ)| * q.stepPerCycle * |jogScale (a.override s.lastCommand)|
        ≤ 1 * q.stepPerCycle * B := by
          gcongr
          exact h.scale a
      _ = q.stepPerCycle * B := by rw [one_mul]
  · have hle : max q.stepPerCycle q.targetTolerance ≤ max (q.stepPerCycle * B) q.targetTolerance :=
      max_le_max_right _ (le_mul_of_one_le_right hstep hB)
    obtain ⟨-, hstay | hmove⟩ := tick_axis a (q := q) hjog
    · rw [hstay, sub_self, abs_zero]
      exact (le_max_of_le_left hstep).trans hle
    · rw [hmove, moveTowards_eq]
      exact (abs_approach_sub_self_le hstep).trans hle

end PlcSimNode

end ArgusGate
