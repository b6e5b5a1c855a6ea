import ArgusGate.Manager.Node

/-!
# What one supervisor cycle publishes

`command_eq` writes the published `PlcCommand` as a function of the two watchdogs, the PLC error,
the acknowledge edge and the requested mode; the results about whole runs and about the other
nodes use it and its special cases instead of unfolding `supervisorCycle`.
-/

namespace ArgusGate.ArgusManagerNode

section Cycle

variable (p : ManagerParams) (m : ArgusManagerNode) (now : Time)

/-- `teleop_alive` of the cycle at `now`. -/
def teleopAlive : Bool := checkWatchdog p m.lastTeleopTime now

/-- `plc_alive` of the cycle at `now`. -/
def plcAlive : Bool := checkWatchdog p m.lastStatusTime now

/-- The command for the requested mode, as a healthy cycle publishes it. -/
def modeCommand : PlcCommand :=
  match m.resolveDesiredMode true with
  | .synch => { exec := true, mode := 1 }
  | .jog => { m.mapTeleopToJog {} with mode := 2 }
  | .follow =>
    { exec := true
      mode := 3
      targetPitch := m.lastTeleopCmd.targetPitch
      targetYaw := m.lastTeleopCmd.targetYaw }
  | .idle => {}

@[simp] theorem resolveDesiredMode_false : m.resolveDesiredMode false = .idle := rfl

theorem command_eq : (supervisorCycle p m now).command =
    if plcAlive p m now = false then
      { mode := (m.resolveDesiredMode (teleopAlive p m now)).toInt16 }
    else if m.lastStatus.error ≠ 0 then
      if teleopAlive p m now && m.detectAckEdge then
        { ack := true, mode := (m.resolveDesiredMode true).toInt16 }
      else {}
    else if teleopAlive p m now = false then {}
    else m.modeCommand := by
  have ht : checkWatchdog p m.lastTeleopTime now = teleopAlive p m now := rfl
  have hp : checkWatchdog p m.lastStatusTime now = plcAlive p m now := rfl
  simp only [supervisorCycle, stateMachine, modeCommand, resetCommand, ht, hp]
  cases plcAlive p m now with
  | false => simp
  | true =>
    by_cases herr : m.lastStatus.error = 0
    · cases teleopAlive p m now with
      | false => simp [herr, ControlMode.toInt16]
      | true =>
        cases m.resolveDesiredMode true <;>
          simp [herr, executeModeLogic, mapTeleopToJog, ControlMode.toInt16]
    · cases teleopAlive p m now with
      | false => simp [herr, ControlMode.toInt16]
      | true => cases m.detectAckEdge <;> simp [herr, processErrorRecovery, ControlMode.toInt16]

/-- A cycle that finds teleop expired publishes the idle command, whatever else it sees. -/
theorem command_of_teleop_lost (h : teleopAlive p m now = false) :
    (supervisorCycle p m now).command = {} := by
  rw [command_eq, h]
  simp [ControlMode.toInt16]

/-- A cycle that finds the PLC link lost publishes a reset command with the desired mode. -/
theorem command_of_plc_lost (h : plcAlive p m now = false) :
    (supervisorCycle p m now).command =
      { mode := (m.resolveDesiredMode (teleopAlive p m now)).toInt16 } := by
  rw [command_eq, if_pos h]

/-- The acknowledging cycle: both links alive, an error reported and a fresh reset request. -/
theorem command_of_ack (hplc : plcAlive p m now = true) (hteleop : teleopAlive p m now = true)
    (herr : m.lastStatus.error ≠ 0) (hedge : m.detectAckEdge = true) :
    (supervisorCycle p m now).command =
      { ack := true, mode := (m.resolveDesiredMode true).toInt16 } := by
  rw [command_eq]
  simp [hplc, hteleop, herr, hedge]

theorem command_of_healthy (hplc : plcAlive p m now = true) (hteleop : teleopAlive p m now = true)
    (herr : m.lastStatus.error = 0) : (supervisorCycle p m now).command = m.modeCommand := by
  rw [command_eq]
  simp [hplc, hteleop, herr]

/-- Only a healthy cycle drives: links alive and no error reported. -/
theorem healthy_of_drives (h : (supervisorCycle p m now).command.drives = true) :
    plcAlive p m now = true ∧ teleopAlive p m now = true ∧ m.lastStatus.error = 0 ∧
      (supervisorCycle p m now).command = m.modeCommand := by
  rw [command_eq] at h ⊢
  split at h
  · simp at h
  · rename_i hplc
    split at h
    · split at h <;> simp [PlcCommand.drives, PlcCommand.jogs] at h
    · rename_i herr
      split at h
      · simp at h
      · rename_i hteleop
        have herr' : m.lastStatus.error = 0 := not_not.mp herr
        exact ⟨by simpa using hplc, by simpa using hteleop, herr', by simp [hplc, hteleop, herr']⟩

theorem command_fire : (supervisorCycle p m now).command.fire = false := by
  rw [command_eq]
  unfold modeCommand
  split_ifs <;> first | rfl | (split <;> rfl)

/-- A cycle acknowledges exactly if both links are alive, an error is reported and a fresh reset
request is in. -/
theorem command_ack_iff : (supervisorCycle p m now).command.ack = true ↔
    plcAlive p m now = true ∧ teleopAlive p m now = true ∧ m.lastStatus.error ≠ 0 ∧
      m.detectAckEdge = true := by
  have hmode : m.modeCommand.ack = false := by
    unfold modeCommand
    split <;> rfl
  rw [command_eq]
  cases plcAlive p m now with
  | false => simp
  | true =>
    by_cases herr : m.lastStatus.error = 0
    · cases teleopAlive p m now <;> simp [herr, hmode]
    · cases teleopAlive p m now <;> cases m.detectAckEdge <;> simp [herr]

/-- An acknowledgement never comes with `exec` or a jog bit. -/
theorem drives_of_ack (h : (supervisorCycle p m now).command.ack = true) :
    (supervisorCycle p m now).command.drives = false := by
  rw [command_eq] at h ⊢
  unfold modeCommand at h ⊢
  split_ifs at h ⊢ <;> first | rfl | (split at h <;> simp [mapTeleopToJog] at h)

/-- A supervisor cycle leaves the stored messages and receive times alone. -/
@[simp] theorem supervisorCycle_lastTeleopCmd :
    (supervisorCycle p m now).node.lastTeleopCmd = m.lastTeleopCmd := rfl
@[simp] theorem supervisorCycle_lastTeleopTime :
    (supervisorCycle p m now).node.lastTeleopTime = m.lastTeleopTime := rfl
@[simp] theorem supervisorCycle_lastStatus :
    (supervisorCycle p m now).node.lastStatus = m.lastStatus := rfl
@[simp] theorem supervisorCycle_lastStatusTime :
    (supervisorCycle p m now).node.lastStatusTime = m.lastStatusTime := rfl

end Cycle

section Mode

variable {m : ArgusManagerNode}

theorem modeCommand_of_idle (h : m.lastTeleopCmd.requestedMode = 0) : m.modeCommand = {} := by
  simp [modeCommand, resolveDesiredMode, h]

theorem modeCommand_of_synch (h : m.lastTeleopCmd.requestedMode = 1) :
    m.modeCommand = { exec := true, mode := 1 } := by
  simp [modeCommand, resolveDesiredMode, h]

theorem modeCommand_of_jog (h : m.lastTeleopCmd.requestedMode = 2) :
    m.modeCommand = { m.mapTeleopToJog {} with mode := 2 } := by
  simp [modeCommand, resolveDesiredMode, h]

theorem modeCommand_of_follow (h : m.lastTeleopCmd.requestedMode = 3) :
    m.modeCommand =
      { exec := true
        mode := 3
        targetPitch := m.lastTeleopCmd.targetPitch
        targetYaw := m.lastTeleopCmd.targetYaw } := by
  simp [modeCommand, resolveDesiredMode, h]

end Mode

theorem resolveDesiredMode_cases (m : ArgusManagerNode) :
    (m.lastTeleopCmd.requestedMode = 1 ∧ m.resolveDesiredMode true = .synch) ∨
    (m.lastTeleopCmd.requestedMode = 2 ∧ m.resolveDesiredMode true = .jog) ∨
    (m.lastTeleopCmd.requestedMode = 3 ∧ m.resolveDesiredMode true = .follow) ∨
    m.resolveDesiredMode true = .idle := by
  unfold resolveDesiredMode
  split_ifs <;> simp_all

/-- `cmd` carries out what the teleop message `msg` asks for, and nothing else. -/
structure Serves (msg : TeleopCommand) (cmd : PlcCommand) : Prop where
  mode_eq : cmd.mode = msg.requestedMode
  mode_mem : cmd.mode = 1 ∨ cmd.mode = 2 ∨ cmd.mode = 3
  exec_iff : cmd.exec = true ↔ cmd.mode = 1 ∨ cmd.mode = 3
  jogs_mode : cmd.jogs = true → cmd.mode = 2
  pitchJog : cmd.mode = 2 →
    (cmd.pitchJogP = true ↔ 0 < msg.pitchSpeed) ∧ (cmd.pitchJogN = true ↔ msg.pitchSpeed < 0)
  yawJog : cmd.mode = 2 →
    (cmd.yawJogP = true ↔ 0 < msg.yawSpeed) ∧ (cmd.yawJogN = true ↔ msg.yawSpeed < 0)
  oneWay : ¬ (cmd.pitchJogP = true ∧ cmd.pitchJogN = true) ∧
    ¬ (cmd.yawJogP = true ∧ cmd.yawJogN = true)
  target : cmd.mode = 3 → cmd.targetPitch = msg.targetPitch ∧ cmd.targetYaw = msg.targetYaw

theorem modeCommand_serves (m : ArgusManagerNode) (h : m.modeCommand.drives = true) :
    Serves m.lastTeleopCmd m.modeCommand := by
  obtain ⟨hreq, hmode⟩ | ⟨hreq, hmode⟩ | ⟨hreq, hmode⟩ | hmode := resolveDesiredMode_cases m
  · -- SYNCH
    constructor <;> simp [modeCommand, hmode, hreq, PlcCommand.jogs]
  · -- JOG
    have hp : ¬ (0 < m.lastTeleopCmd.pitchSpeed ∧ m.lastTeleopCmd.pitchSpeed < 0) :=
      fun h => lt_asymm h.1 h.2
    have hy : ¬ (0 < m.lastTeleopCmd.yawSpeed ∧ m.lastTeleopCmd.yawSpeed < 0) :=
      fun h => lt_asymm h.1 h.2
    constructor <;> simp_all [modeCommand, mapTeleopToJog]
  · -- FOLLOW
    constructor <;> simp [modeCommand, hmode, hreq, PlcCommand.jogs]
  · -- IDLE does not drive
    simp [modeCommand, hmode, PlcCommand.drives, PlcCommand.jogs] at h

end ArgusGate.ArgusManagerNode
