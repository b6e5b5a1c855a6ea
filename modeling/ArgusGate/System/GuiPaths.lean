import ArgusGate.Gui.Node
import ArgusGate.Manager.Cycle
import ArgusGate.PlcSim.Step

/-!
# The two command paths of the GUI

A mode button publishes a fresh `PlcCommand` and leaves the mode for the next teleop message, from
which the manager builds a command of its own. The fresh command has no jog bits and the targets
(0, 0); the teleop message carries what the GUI remembers.
-/

namespace ArgusGate

open ArgusManagerNode PlcSimNode

/-- The simulator does the same in both states: the same control state, the same targets in FOLLOW
and the same jog directions in JOG. -/
structure SameMotion (s s' : PlcSimNode) : Prop where
  state : s.state = s'.state
  targets : s.state = .follow → s.targetPitch = s'.targetPitch ∧ s.targetYaw = s'.targetYaw
  directions : s.state = .jog →
    s.pitchDirection = s'.pitchDirection ∧ s.yawDirection = s'.yawDirection

theorem SameMotion.refl (s : PlcSimNode) : SameMotion s s :=
  ⟨rfl, fun _ => ⟨rfl, rfl⟩, fun _ => ⟨rfl, rfl⟩⟩

/-- The direction that the jog bits of a speed stand for. -/
theorem jogDirection_eq_zero_iff (speed : ℚ) :
    (if decide (speed > 0) then (1 : Int) else if decide (speed < 0) then -1 else 0) = 0 ↔
      speed = 0 := by
  rcases lt_trichotomy speed 0 with hneg | hzero | hpos
  · simp [hneg, hneg.ne, not_lt.mpr hneg.le]
  · simp [hzero]
  · simp [hpos, hpos.ne']

/-- JOG without jog bits, and JOG as the manager commands it. -/
theorem sameMotion_jog (s : PlcSimNode) (m : ArgusManagerNode) :
    SameMotion (s.commandCallback { mode := 2 })
      (s.commandCallback { m.mapTeleopToJog {} with mode := 2 }) ↔
    m.lastTeleopCmd.pitchSpeed = 0 ∧ m.lastTeleopCmd.yawSpeed = 0 := by
  have hpitch := jogDirection_eq_zero_iff m.lastTeleopCmd.pitchSpeed
  have hyaw := jogDirection_eq_zero_iff m.lastTeleopCmd.yawSpeed
  rw [← hpitch, ← hyaw]
  constructor
  · intro h
    have hdirections := h.directions (by simp [commandCallback])
    simp only [commandCallback, mapTeleopToJog] at hdirections
    exact ⟨by simpa using hdirections.1.symm, by simpa using hdirections.2.symm⟩
  · intro h
    refine ⟨by simp [commandCallback, mapTeleopToJog], ?_, fun _ => ?_⟩
    · simp [commandCallback]
    · simp only [commandCallback, mapTeleopToJog]
      exact ⟨by simpa using h.1.symm, by simpa using h.2.symm⟩

/-- FOLLOW to (0, 0), and FOLLOW to the targets (`pitch`, `yaw`). -/
theorem sameMotion_follow (s : PlcSimNode) (pitch yaw : ℚ) :
    SameMotion (s.commandCallback { mode := 3, exec := true })
      (s.commandCallback { mode := 3, exec := true, targetPitch := pitch, targetYaw := yaw }) ↔
    pitch = 0 ∧ yaw = 0 := by
  constructor
  · intro h
    have htargets := h.targets (by simp [commandCallback])
    simp only [commandCallback] at htargets
    exact ⟨by simpa using htargets.1.symm, by simpa using htargets.2.symm⟩
  · intro h
    rw [h.1, h.2]
    exact SameMotion.refl _

/-- The next teleop message after a mode button carries the mode and all that the GUI remembers. -/
theorem FletGui.teleop_modeButton (g : FletGui) (mode : Int16) (execute : Bool) :
    ((g.modeButton mode execute).gui.handle .publishLoop).teleop = some
      { pitchSpeed := g.node.pitchSpeed
        yawSpeed := g.node.yawSpeed
        targetPitch := g.node.targetPitch
        targetYaw := g.node.targetYaw
        requestedMode := mode
        sendTarget := g.node.sendTarget
        executeAction := execute
        resetError := g.node.resetError } := rfl

/-- The two paths of a mode button, from any GUI and for any simulator: they agree unless JOG is
pressed with a jog speed remembered, or FOLLOW with a target other than (0, 0). -/
theorem guiPaths_iff (es : List GuiEvent) (e : GuiEvent) (cmd : PlcCommand) (p : ManagerParams)
    (m : ArgusManagerNode) (now : Time) (s : PlcSimNode)
    (hcmd : ((FletGui.machine.state es).handle e).command = some cmd)
    (hmsg : (((FletGui.machine.state es).handle e).gui.handle .publishLoop).teleop =
      some m.lastTeleopCmd)
    (hplc : plcAlive p m now = true) (hteleop : teleopAlive p m now = true)
    (herr : m.lastStatus.error = 0) :
    let g := (FletGui.machine.state es).node
    SameMotion (s.commandCallback cmd) (s.commandCallback (supervisorCycle p m now).command) ↔
      (e = .jog → g.pitchSpeed = 0 ∧ g.yawSpeed = 0) ∧
      (e = .follow → g.targetPitch = 0 ∧ g.targetYaw = 0) := by
  intro g
  rw [command_of_healthy p m now hplc hteleop herr]
  cases e with
  | idle =>
    obtain rfl := Option.some.inj hcmd
    have hlast := Option.some.inj (hmsg.symm.trans (FletGui.teleop_modeButton _ 0 false))
    rw [modeCommand_of_idle (by rw [hlast])]
    simp [SameMotion.refl, ManagerGuiNode.publishMode]
  | synch =>
    obtain rfl := Option.some.inj hcmd
    have hlast := Option.some.inj (hmsg.symm.trans (FletGui.teleop_modeButton _ 1 true))
    rw [modeCommand_of_synch (by rw [hlast])]
    simp [SameMotion.refl, ManagerGuiNode.publishMode]
  | jog =>
    obtain rfl := Option.some.inj hcmd
    have hlast := Option.some.inj (hmsg.symm.trans (FletGui.teleop_modeButton _ 2 false))
    rw [modeCommand_of_jog (by rw [hlast])]
    simp only [ManagerGuiNode.publishMode, sameMotion_jog]
    simp [hlast, g]
  | follow =>
    obtain rfl := Option.some.inj hcmd
    have hlast := Option.some.inj (hmsg.symm.trans (FletGui.teleop_modeButton _ 3 true))
    rw [modeCommand_of_follow (by rw [hlast])]
    simp only [ManagerGuiNode.publishMode, sameMotion_follow]
    simp [hlast, g]
  | startJog | stopJog | jogSpeedChange | sendTarget | resetError | publishLoop => cases hcmd

/-- The user sends the target (1, 2), jogs the pitch axis for a while, and presses Follow: with the release of
the jog button the GUI has forgotten the target, and both paths lead to (0, 0). -/
theorem guiPaths_released :
    let es : List GuiEvent :=
      [.sendTarget (some (1, 2)), .publishLoop, .startJog 1 0, .publishLoop, .stopJog, .publishLoop]
    let m : ArgusManagerNode :=
      { lastTeleopTime := 0
        lastStatusTime := 0
        lastTeleopCmd := { requestedMode := 3, executeAction := true } }
    let s := (PlcSimNode.machine {}).state
      [.tick, .command { mode := 2, pitchJogP := true }, .tick, .command { mode := 2 }]
    ((FletGui.machine.state es).handle .follow).command = some { mode := 3, exec := true } ∧
    SameMotion (s.commandCallback { mode := 3, exec := true })
      (s.commandCallback (supervisorCycle {} m 1000000).command) := by
  intro es m s
  refine ⟨rfl, ?_⟩
  apply (guiPaths_iff es .follow { mode := 3, exec := true } {} m 1000000 s rfl ?_ (by decide)
    (by decide) rfl).mpr
  · exact ⟨fun h => (by cases h), fun _ => by decide +kernel⟩
  · decide +kernel

/-- The user sends the target (1, 2) and presses Follow: the GUI's own command sends the simulator
to (0, 0), the manager's command to (1, 2). -/
theorem follow_button_target :
    let g := FletGui.machine.state [.sendTarget (some (1, 2)), .publishLoop]
    let m : ArgusManagerNode :=
      { lastTeleopTime := 0
        lastStatusTime := 0
        lastTeleopCmd :=
          { requestedMode := 3, targetPitch := 1, targetYaw := 2, executeAction := true } }
    let s := (PlcSimNode.machine {}).state [.tick]
    (g.handle .follow).command = some { mode := 3, exec := true } ∧
    ((g.handle .follow).gui.handle .publishLoop).teleop = some m.lastTeleopCmd ∧
    plcAlive {} m 1000000 = true ∧ teleopAlive {} m 1000000 = true ∧ m.lastStatus.error = 0 ∧
    s.state = .ready ∧
    ¬ SameMotion (s.commandCallback { mode := 3, exec := true })
      (s.commandCallback (supervisorCycle {} m 1000000).command) := by
  intro g m s
  refine ⟨rfl, rfl, by decide, by decide, rfl, by decide +kernel, fun h => ?_⟩
  have htargets := h.targets (by decide +kernel)
  revert htargets
  decide +kernel

end ArgusGate
