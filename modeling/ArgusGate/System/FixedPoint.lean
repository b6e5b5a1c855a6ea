import ArgusGate.Gui.Node
import ArgusGate.Manager.Cycle
import ArgusGate.PlcBridge.Node

/-!
# An operator's target on its way to the wire

A target goes from the GUI's two fields through a teleop message and a supervisor cycle into the
fixed-point fields of a packet. No stage on the way bounds it, so that the cast in `encode_packet`
gets whatever the operator has typed.
-/

namespace ArgusGate

open ArgusManagerNode Truncate

/-- The message of the next `publish_loop` after "Send target". -/
theorem FletGui.teleop_sendTarget (g : FletGui) (pitch yaw : ℚ) :
    ((g.handle (.sendTarget (some (pitch, yaw)))).gui.handle .publishLoop).teleop = some
      { requestedMode := 3, targetPitch := pitch, targetYaw := yaw, sendTarget := true } := rfl

/-- The packet that carries the command of a healthy cycle with a FOLLOW request. -/
theorem packetTargets_of_follow {p : ManagerParams} {m : ArgusManagerNode} {now : Time}
    (hplc : plcAlive p m now = true) (hteleop : teleopAlive p m now = true)
    (herr : m.lastStatus.error = 0) (hreq : m.lastTeleopCmd.requestedMode = 3)
    (b : PlcBridgeNode) :
    let packet := (b.commandCallback (supervisorCycle p m now).command).transmit.2.bytes
    packetDint packet 16 = toInt32 (m.lastTeleopCmd.targetPitch * 100) ∧
    packetDint packet 20 = toInt32 (m.lastTeleopCmd.targetYaw * 100) := by
  intro packet
  have hcmd : (supervisorCycle p m now).command =
      { exec := true
        mode := 3
        targetPitch := m.lastTeleopCmd.targetPitch
        targetYaw := m.lastTeleopCmd.targetYaw } := by
    rw [command_of_healthy p m now hplc hteleop herr, modeCommand_of_follow hreq]
  simp only [packet, PlcBridgeNode.transmit, PlcBridgeNode.commandCallback, hcmd]
  exact packetTargets_encode _

/-- A target that fits: 100 times it, truncated, is a value of `int32_t`. -/
def FitsDint (x : ℚ) : Prop := (-2147483649 : ℚ) < 100 * x ∧ 100 * x < (2147483648 : ℚ)

/-- The DINTs on the wire are the truncated hundredths of an operator's targets exactly where these
fit, for any GUI, manager and bridge on the way. -/
theorem operatorTarget_dint_iff (p : ManagerParams) (g : FletGui) (pitch yaw : ℚ)
    (m : ArgusManagerNode) (now : Time) (b : PlcBridgeNode)
    (hmsg : ((g.handle (.sendTarget (some (pitch, yaw)))).gui.handle .publishLoop).teleop =
      some m.lastTeleopCmd)
    (hplc : plcAlive p m now = true) (hteleop : teleopAlive p m now = true)
    (herr : m.lastStatus.error = 0) :
    let packet := (b.commandCallback (supervisorCycle p m now).command).transmit.2.bytes
    ((packetDint packet 16).toInt = trunc (100 * pitch) ↔ FitsDint pitch) ∧
    ((packetDint packet 20).toInt = trunc (100 * yaw) ↔ FitsDint yaw) := by
  rw [FletGui.teleop_sendTarget] at hmsg
  have hcmd := (Option.some.inj hmsg).symm
  obtain ⟨hpitch, hyaw⟩ := packetTargets_of_follow hplc hteleop herr (by rw [hcmd]) b
  simp only [hcmd] at hpitch hyaw
  intro packet
  rw [hpitch, hyaw, mul_comm pitch, mul_comm yaw]
  exact ⟨toInt32_toInt_iff (100 * pitch), toInt32_toInt_iff (100 * yaw)⟩

/-- The targets 1.5 and -0.25 arrive as 150 and -25 hundredths. -/
theorem operatorTarget_dint_small :
    let m : ArgusManagerNode :=
      { lastTeleopTime := 0
        lastStatusTime := 0
        lastTeleopCmd :=
          { requestedMode := 3, targetPitch := 3 / 2, targetYaw := -1 / 4, sendTarget := true } }
    let packet := (({} : PlcBridgeNode).commandCallback
      (supervisorCycle {} m 1000000).command).transmit.2.bytes
    (packetDint packet 16).toInt = trunc (100 * (3 / 2) : ℚ) ∧
    (packetDint packet 20).toInt = trunc (100 * (-1 / 4) : ℚ) := by
  intro m packet
  obtain ⟨hpitch, hyaw⟩ := operatorTarget_dint_iff {} {} (3 / 2) (-1 / 4) m 1000000 {} rfl
    (by decide) (by decide) rfl
  exact ⟨hpitch.mpr (by norm_num [FitsDint]), hyaw.mpr (by norm_num [FitsDint])⟩

/-- The operator types 30000000: 3000000000 hundredths are no value of `int32_t`, and no DINT is
equal to them. -/
theorem operatorTarget_out_of_range :
    let m : ArgusManagerNode :=
      { lastTeleopTime := 0
        lastStatusTime := 0
        lastTeleopCmd := { requestedMode := 3, targetPitch := 30000000, sendTarget := true } }
    let packet := (({} : PlcBridgeNode).commandCallback
      (supervisorCycle {} m 1000000).command).transmit.2.bytes
    ((({} : FletGui).handle (.sendTarget (some (30000000, 0)))).gui.handle .publishLoop).teleop =
      some m.lastTeleopCmd ∧
    ¬ (100 * 30000000 : ℚ) < 2147483648 ∧
    (packetDint packet 16).toInt ≠ trunc (100 * 30000000 : ℚ) := by
  intro m packet
  refine ⟨rfl, by norm_num, ?_⟩
  have htrunc : trunc (100 * 30000000 : ℚ) = 3000000000 := by
    rw [trunc_rat]
    norm_num
  have hmax := Int32.toInt_lt (packetDint packet 16)
  rw [htrunc]
  omega

end ArgusGate
