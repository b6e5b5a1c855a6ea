import ArgusGate.System.Following
import ArgusGate.System.LeftAlone
import Mathlib.Data.Sign.Basic

/-!
# The gate does what it is asked for

What the standing request of the GUI comes to at the gate: with FOLLOW each tick takes the axes one call of
`move_towards` closer to the target, with JOG one step in the direction that is held, and with IDLE they
stand still.
-/

namespace ArgusGate

open Reactive ArgusManagerNode PlcSimNode

namespace PlcSimNode

variable {q : PlcSimParams} {s : PlcSimNode} {cmd : PlcCommand} {pitch yaw : ℚ}

/-! ## FOLLOW -/

/-- On the way to the target, or in READY at the target. -/
def HeadsFor (pitch yaw : ℚ) (s : PlcSimNode) : Prop :=
  (s.state = .follow ∧ s.targetPitch = pitch ∧ s.targetYaw = yaw) ∨
  (s.state = .ready ∧ s.currentPitch = pitch ∧ s.currentYaw = yaw)

theorem headsFor_tick (h : HeadsFor pitch yaw s) : HeadsFor pitch yaw (s.tick q) := by
  rcases h with ⟨hs, hpitch, hyaw⟩ | ⟨hs, hpitch, hyaw⟩
  · obtain ⟨-, -, htp, hty, hfollow | hready⟩ := tick_of_follow (q := q) hs
    · exact .inl ⟨hfollow, htp.trans hpitch, hty.trans hyaw⟩
    · obtain ⟨hp, hy⟩ := arrived_of_ready hs hready
      exact .inr ⟨hready, hp.trans hpitch, hy.trans hyaw⟩
  · rw [tick_of_ready q s hs]
    exact .inr ⟨hs, hpitch, hyaw⟩

/-- While a FOLLOW command is the last one, the simulator heads for its target. -/
theorem headsFor_of_lastCommand (q : PlcSimParams) (es : List SimEvent)
    (h : ((machine q).state es).lastCommand = followCommand pitch yaw) :
    HeadsFor pitch yaw ((machine q).state es) := by
  refine lastCommand_rule (Q := HeadsFor pitch yaw) (fun hcmd => ?_) (fun s => ?_)
    (fun s => headsFor_tick) es h
  · cases congrArg PlcCommand.mode hcmd
  · exact .inl (commandCallback_follow s pitch yaw)

/-- A tick is one call of `move_towards` for each axis. -/
theorem tick_of_headsFor (htol : 0 ≤ q.targetTolerance) (h : HeadsFor pitch yaw s) (a : Axis) :
    a.current (s.tick q) = (moveTowards q (a.current s) (a.commanded (followCommand pitch yaw))).1 := by
  rcases h with ⟨hs, hpitch, hyaw⟩ | ⟨hs, hpitch, hyaw⟩
  · obtain ⟨hp, hy, -⟩ := tick_of_follow (q := q) hs
    cases a with
    | pitch => exact hpitch ▸ hp
    | yaw => exact hyaw ▸ hy
  · rw [tick_of_ready q s hs]
    cases a with
    | pitch => simp [Axis.current, Axis.commanded, followCommand, hpitch, moveTowards_self htol]
    | yaw => simp [Axis.current, Axis.commanded, followCommand, hyaw, moveTowards_self htol]

/-! ## JOG -/

/-- Jogging as the command says. -/
def JogsAs (cmd : PlcCommand) (s : PlcSimNode) : Prop :=
  s.lastCommand = cmd ∧ s.state = .jog ∧ ∀ a : Axis, a.direction s = a.jogged cmd

theorem jogsAs_command (hmode : cmd.mode = 2) (hfire : cmd.fire = false) (hack : cmd.ack = false)
    (s : PlcSimNode) : JogsAs cmd (s.commandCallback cmd) := by
  have hstate : (s.commandCallback cmd).state = .jog := by
    simp [commandCallback, hmode, hfire, hack]
  have hobeys := ((obeys_command s cmd).jog hstate).2
  rw [commandCallback_lastCommand] at hobeys
  exact ⟨commandCallback_lastCommand s cmd, hstate, hobeys⟩

theorem jogsAs_tick (h : JogsAs cmd s) : JogsAs cmd (s.tick q) := by
  obtain ⟨hlast, hs, hdirection⟩ := h
  refine ⟨(tick_lastCommand q s).trans hlast, ?_, fun a => (direction_tick q s a).trans (hdirection a)⟩
  rw [tick_of_jog q s hs]
  exact hs

/-- While a JOG command is the last one, the simulator jogs as it says. -/
theorem jogsAs_of_lastCommand (hmode : cmd.mode = 2) (hfire : cmd.fire = false)
    (hack : cmd.ack = false) (q : PlcSimParams) (es : List SimEvent)
    (h : ((machine q).state es).lastCommand = cmd) : JogsAs cmd ((machine q).state es) := by
  refine lastCommand_rule (fun hcmd => ?_) (jogsAs_command hmode hfire hack)
    (fun s => jogsAs_tick) es h
  rw [hcmd] at hmode
  cases hmode

/-! ## IDLE -/

/-- While the idle command is the last one, the simulator is at rest. -/
theorem rest_of_lastCommand (q : PlcSimParams) (es : List SimEvent)
    (h : ((machine q).state es).lastCommand = {}) :
    ((machine q).state es).state = .startup ∨ ((machine q).state es).state = .ready := by
  refine lastCommand_rule (Q := fun s => s.state = .startup ∨ s.state = .ready)
    (fun _ => .inl rfl) (fun s => ?_) (fun s hs => .inr ?_) es h
  · rw [commandCallback_idle]
    exact .inr rfl
  · rcases hs with hs | hs
    · rw [tick_of_startup q s hs]
    · rw [tick_of_ready q s hs]
      exact hs

end PlcSimNode

namespace Axis

/-- The speed that a message asks for. -/
def speed : Axis → TeleopCommand → ℚ
  | .pitch, msg => msg.pitchSpeed
  | .yaw, msg => msg.yawSpeed

/-- The direction in which a message asks for the axis to be jogged. -/
def jogSign (a : Axis) (msg : TeleopCommand) : ℚ :=
  if msg.requestedMode = 2 then (SignType.sign (a.speed msg) : ℚ) else 0

end Axis

namespace Graph

variable {c : Setup} {gap delay last : Time} {g : GuiEvent}
variable {es fs gs : List (Time × GraphEvent Unit)} {msg : TeleopCommand}

theorem commandFor_of_follow (h : msg.requestedMode = 3) :
    commandFor msg = followCommand msg.targetPitch msg.targetYaw :=
  modeCommand_of_follow h

theorem commandFor_of_idle (h : msg.requestedMode = 0) : commandFor msg = {} :=
  modeCommand_of_idle h

theorem commandFor_of_jog (h : msg.requestedMode = 2) :
    commandFor msg =
      { mode := 2
        pitchJogP := decide (0 < msg.pitchSpeed)
        pitchJogN := decide (msg.pitchSpeed < 0)
        yawJogP := decide (0 < msg.yawSpeed)
        yawJogN := decide (msg.yawSpeed < 0)
        pitchOverride := 1
        yawOverride := 1 } :=
  modeCommand_of_jog h

theorem jogged_commandFor (h : msg.requestedMode = 2) (a : Axis) :
    (a.jogged (commandFor msg) : ℚ) = a.jogSign msg := by
  rw [commandFor_of_jog h, Axis.jogSign, if_pos h]
  cases a with
  | pitch =>
    rcases lt_trichotomy msg.pitchSpeed 0 with hs | hs | hs
    · simp [Axis.jogged, Axis.speed, hs, not_lt.mpr hs.le]
    · simp [Axis.jogged, Axis.speed, hs]
    · simp [Axis.jogged, Axis.speed, hs]
  | yaw =>
    rcases lt_trichotomy msg.yawSpeed 0 with hs | hs | hs
    · simp [Axis.jogged, Axis.speed, hs, not_lt.mpr hs.le]
    · simp [Axis.jogged, Axis.speed, hs]
    · simp [Axis.jogged, Axis.speed, hs]

/-- The gate goes where it is sent. The operator's last action leaves the GUI asking for FOLLOW, in
whatever state the other nodes and the topics are, and after it nobody but the GUI publishes on `teleop_cmd`;
the run is timely and the links stay alive. Then, once the simulator has been fed at all and the deadlines of
all the hops are over, an axis is where as many calls of `move_towards` take it as there have been ticks; so
it arrives at the target after its arrival call, and stays. -/
theorem target_reached (c : Setup) (hstep : 0 < c.sim.stepPerCycle)
    (htol : 0 ≤ c.sim.targetTolerance) (gap delay last : Time) (g : GuiEvent)
    (es fs gs : List (Time × GraphEvent Unit)) (h : LeftAlone c gap delay last g es (fs ++ gs))
    (hmode : (standing c last g es).requestedMode = 3)
    (hfed : (simMachine c).trace receptions (lastRun last g es fs) ≠ [])
    (hlate : ∀ e ∈ gs, last + (gap + delay) + (c.manager.timeoutThreshold + delay) < e.1)
    (a : Axis) :
    let target := a.commanded (commandFor (standing c last g es))
    let x := a.current ((simMachine c).state (lastRun last g es fs)).plant
    let x' := a.current ((simMachine c).state (lastRun last g es (fs ++ gs))).plant
    x' = moved c.sim x target (ticks gs) ∧ (arrivalCall c.sim x target ≤ ticks gs → x' = target) := by
  intro target x x'
  have hcommand := commandFor_of_follow hmode
  have hmoved : x' = moved c.sim x target (ticks gs) := by
    refine late_motion (Q := HeadsFor (standing c last g es).targetPitch
      (standing c last g es).targetYaw) (f := fun x => (moveTowards c.sim x target).1) gs h hfed
      hlate ?_ ?_
    · intro ts hlast
      exact headsFor_of_lastCommand c.sim ts (hlast.trans hcommand)
    · intro s hs
      have htarget : target = a.commanded (followCommand _ _) := congrArg a.commanded hcommand
      rw [htarget]
      exact tick_of_headsFor htol hs a
  refine ⟨hmoved, fun hcall => ?_⟩
  rw [hmoved]
  exact moved_eq_target hstep htol hcall

/-- The gate jogs as it is asked to, and stands still when it is not. The operator's last action leaves the
GUI asking for JOG or IDLE; in a run as in `target_reached`, with the keyboard and joystick teleop silent,
every tick after the deadlines takes an axis one `step_per_cycle` in the direction that is held, if there is
one. -/
theorem jog_runs (c : Setup) (gap delay last : Time) (g : GuiEvent)
    (es fs gs : List (Time × GraphEvent Unit)) (h : LeftAlone c gap delay last g es (fs ++ gs))
    (hmode : (standing c last g es).requestedMode = 2 ∨ (standing c last g es).requestedMode = 0)
    (hfed : (simMachine c).trace receptions (lastRun last g es fs) ≠ [])
    (hlate : ∀ e ∈ gs, last + (gap + delay) + (c.manager.timeoutThreshold + delay) < e.1)
    (a : Axis) :
    a.current ((simMachine c).state (lastRun last g es (fs ++ gs))).plant =
      a.current ((simMachine c).state (lastRun last g es fs)).plant +
        ticks gs * (a.jogSign (standing c last g es) * c.sim.stepPerCycle) := by
  have hsteps : ∀ x v : ℚ, x + ticks gs * v = (fun x => x + v)^[ticks gs] x := by
    intro x v
    rw [add_right_iterate, nsmul_eq_mul]
  rw [hsteps]
  rcases hmode with hjog | hidle
  · have hcommand := commandFor_of_jog hjog
    refine late_motion (Q := JogsAs (commandFor (standing c last g es)))
      (f := fun x => x + a.jogSign (standing c last g es) * c.sim.stepPerCycle) gs h hfed hlate ?_ ?_
    · exact jogsAs_of_lastCommand (by rw [hcommand]) (by rw [hcommand]) (by rw [hcommand]) c.sim
    · rintro s ⟨hlast, hs, hdirection⟩
      have hscale : jogScale (a.override s.lastCommand) = 1 := by
        rw [hlast, hcommand]
        exact jogScale_eq_one (.inr (by cases a <;> rfl))
      rw [tick_jog_current hs, hdirection, jogged_commandFor hjog, hscale, mul_one]
  · refine late_motion (Q := fun s => s.state = .startup ∨ s.state = .ready)
      (f := fun x => x + a.jogSign (standing c last g es) * c.sim.stepPerCycle) gs h hfed hlate ?_ ?_
    · intro ts hlast
      exact rest_of_lastCommand c.sim ts (hlast.trans (commandFor_of_idle hidle))
    · intro s hs
      have hsign : a.jogSign (standing c last g es) = 0 := by simp [Axis.jogSign, hidle]
      rw [hsign, zero_mul, add_zero]
      apply tick_current_of_rest
      all_goals rcases hs with hs | hs <;> rw [hs] <;> simp

/-- The pitch axis is sent to 1/50, which takes two ticks; the manager's watchdog is one millisecond. -/
theorem target_reached_pitch :
    let c : Setup :=
      { reading := ⟨fun _ => false, fun _ _ => 0, fun _ _ => false⟩
        manager := { watchdogTimeoutMs := 1 } }
    let es : List (Time × GraphEvent Unit) := [(0, .tick), (1, .tick)]
    let fs : List (Time × GraphEvent Unit) :=
      [(1000000, .station (.gui .publishLoop)), (1000001, .station .deliverTeleop),
        (1000002, .deliverStatus), (1000030, .station .cycle), (1000032, .deliverCommand)]
    let gs : List (Time × GraphEvent Unit) := [(1000033, .tick), (1000034, .tick)]
    Axis.current .pitch
      ((simMachine c).state (lastRun 1 (.sendTarget (some (1 / 50, 0))) es (fs ++ gs))).plant = 1 / 50 := by
  intro c es fs gs
  have h : LeftAlone c 10 10 1 (.sendTarget (some (1 / 50, 0))) es (fs ++ gs) := by
    refine ⟨by decide, by decide, by decide, by decide, by simp [fs, gs, GuiOnly], ?_, ?_⟩
    · unfold Timely
      decide +kernel
    · decide +kernel
  have htarget : Axis.commanded .pitch
      (commandFor (standing c 1 (.sendTarget (some (1 / 50, 0))) es)) = 1 / 50 := by decide +kernel
  have hreached := target_reached c (by decide +kernel) (by decide +kernel) 10 10 1 _ es fs gs h
    (by decide +kernel) (by decide +kernel) (by decide +kernel) .pitch
  rw [← htarget]
  exact hreached.2 (by decide +kernel)

/-- The button for the yaw axis is held in the other direction for the same two ticks. -/
theorem jog_runs_yaw :
    let c : Setup :=
      { reading := ⟨fun _ => false, fun _ _ => 0, fun _ _ => false⟩
        manager := { watchdogTimeoutMs := 1 } }
    let es : List (Time × GraphEvent Unit) := [(0, .tick), (1, .tick)]
    let fs : List (Time × GraphEvent Unit) :=
      [(1000000, .station (.gui .publishLoop)), (1000001, .station .deliverTeleop),
        (1000002, .deliverStatus), (1000030, .station .cycle), (1000032, .deliverCommand)]
    let gs : List (Time × GraphEvent Unit) := [(1000033, .tick), (1000034, .tick)]
    Axis.current .yaw ((simMachine c).state (lastRun 1 (.startJog 0 (-1)) es (fs ++ gs))).plant =
      -1 / 25 := by
  intro c es fs gs
  have h : LeftAlone c 10 10 1 (.startJog 0 (-1)) es (fs ++ gs) := by
    refine ⟨by decide, by decide, by decide, by decide, by simp [fs, gs, GuiOnly], ?_, ?_⟩
    · unfold Timely
      decide +kernel
    · decide +kernel
  have hruns := jog_runs c 10 10 1 _ es fs gs h (by decide +kernel) (by decide +kernel)
    (by decide +kernel) .yaw
  rw [hruns]
  decide +kernel

end Graph

end ArgusGate
