import ArgusGate.Interfaces

/-!
# The manager node

`ArgusManagerNode` of `argus_manager/src/manager_node.cpp`. A callback runs to completion at one
instant of the node's clock, which is passed in as `now`; the log lines have no effect on the
state and are left out. A definition here follows the member function of the same name.
-/

namespace ArgusGate

/-- Readings of the node's clock and their differences, in nanoseconds. -/
abbrev Time := Int

/-- `ControlMode`, the modes mandated by ROS2 to the PLC. -/
inductive ControlMode where
  | idle
  | synch
  | jog
  | follow
  deriving DecidableEq, Repr

/-- The underlying `int16_t` of a `ControlMode`. -/
def ControlMode.toInt16 : ControlMode → Int16
  | .idle => 0
  | .synch => 1
  | .jog => 2
  | .follow => 3

inductive ManagerState where
  | stop
  | ready
  | synch
  | jog
  | follow
  | error
  deriving DecidableEq, Repr

/-- The parameter the constructor reads into `timeout_threshold_`, in milliseconds. -/
structure ManagerParams where
  watchdogTimeoutMs : Int := 500

/-- `timeout_threshold_` on the clock's scale. -/
def ManagerParams.timeoutThreshold (p : ManagerParams) : Time := p.watchdogTimeoutMs * 1000000

/-- The data members of `ArgusManagerNode` that its callbacks read or write. -/
structure ArgusManagerNode where
  lastTeleopTime : Time
  lastStatusTime : Time
  requestedMode : ControlMode := .idle
  managerState : ManagerState := .stop
  lastResetError : Bool := false
  lastSendTarget : Bool := false
  lastTargetPitch : ℚ := 0
  lastTargetYaw : ℚ := 0
  lastTeleopCmd : TeleopCommand := {}
  lastStatus : PlcStatus := {}

namespace ArgusManagerNode

/-- The constructor: both watchdog timers start at "now". -/
def construct (now : Time) : ArgusManagerNode :=
  { lastTeleopTime := now, lastStatusTime := now }

def onTeleopReceived (m : ArgusManagerNode) (msg : TeleopCommand) (now : Time) :
    ArgusManagerNode :=
  { m with lastTeleopCmd := msg, lastTeleopTime := now }

def onStatusReceived (m : ArgusManagerNode) (msg : PlcStatus) (now : Time) : ArgusManagerNode :=
  { m with lastStatus := msg, lastStatusTime := now }

def checkWatchdog (p : ManagerParams) (lastTime now : Time) : Bool :=
  decide (now - lastTime < p.timeoutThreshold)

def resolveDesiredMode (m : ArgusManagerNode) (teleopReady : Bool) : ControlMode :=
  if !teleopReady then .idle
  else if m.lastTeleopCmd.requestedMode = 1 then .synch
  else if m.lastTeleopCmd.requestedMode = 2 then .jog
  else if m.lastTeleopCmd.requestedMode = 3 then .follow
  else .idle

def detectAckEdge (m : ArgusManagerNode) : Bool :=
  m.lastTeleopCmd.resetError && !m.lastResetError

def detectTargetUpdate (m : ArgusManagerNode) (desiredMode : ControlMode) (teleopReady : Bool) :
    Bool :=
  if !teleopReady || desiredMode ≠ .follow then false
  else
    let sendTargetEdge := m.lastTeleopCmd.sendTarget && !m.lastSendTarget
    let targetChanged := decide (|m.lastTeleopCmd.targetPitch - m.lastTargetPitch| > 1 / 1000000)
      || decide (|m.lastTeleopCmd.targetYaw - m.lastTargetYaw| > 1 / 1000000)
    sendTargetEdge || targetChanged

def resetCommand (_cmd : PlcCommand) : PlcCommand := {}

def processErrorRecovery (cmd : PlcCommand) : PlcCommand := { cmd with ack := true }

def mapTeleopToJog (m : ArgusManagerNode) (cmd : PlcCommand) : PlcCommand :=
  { cmd with
    pitchJogP := decide (m.lastTeleopCmd.pitchSpeed > 0)
    pitchJogN := decide (m.lastTeleopCmd.pitchSpeed < 0)
    yawJogP := decide (m.lastTeleopCmd.yawSpeed > 0)
    yawJogN := decide (m.lastTeleopCmd.yawSpeed < 0)
    pitchOverride := 1
    yawOverride := 1 }

/-- `execute_mode_logic`. The source passes `state_entry` and `target_update` and reads neither. -/
def executeModeLogic (m : ArgusManagerNode) (cmd : PlcCommand) (desiredMode : ControlMode)
    (_stateEntry _targetUpdate : Bool) : PlcCommand :=
  match desiredMode with
  | .synch => { cmd with exec := true }
  | .jog => m.mapTeleopToJog { cmd with exec := false }
  | .follow =>
    { cmd with
      targetPitch := m.lastTeleopCmd.targetPitch
      targetYaw := m.lastTeleopCmd.targetYaw
      exec := true }
  | .idle => { cmd with exec := false }

def stateToString : ManagerState → String
  | .stop => "STOP"
  | .ready => "READY"
  | .synch => "SYNCH"
  | .jog => "JOG"
  | .follow => "FOLLOW"
  | .error => "ERROR"

def modeToString : ControlMode → String
  | .synch => "SYNCH"
  | .jog => "JOG"
  | .follow => "FOLLOW"
  | .idle => "IDLE"

/-- Step 2 of `supervisor_cycle`, the state machine: the next state, and the outbound command after
the error branch has had its chance to acknowledge. -/
def stateMachine (m : ArgusManagerNode) (teleopAlive plcAlive : Bool) (desiredMode : ControlMode)
    (ackEdge : Bool) (cmd : PlcCommand) : ManagerState × PlcCommand :=
  if !plcAlive then (.ready, cmd)
  else if m.lastStatus.error ≠ 0 then
    if teleopAlive && ackEdge then (.ready, processErrorRecovery cmd) else (.error, cmd)
  else if !teleopAlive then (.ready, cmd)
  else
    match desiredMode with
    | .synch => (.synch, cmd)
    | .jog => (.jog, cmd)
    | .follow => (.follow, cmd)
    | .idle => (.ready, cmd)

/-- What `supervisor_cycle` leaves behind: the node, and the two messages it publishes. -/
structure Cycle where
  node : ArgusManagerNode
  command : PlcCommand
  status : ManagerStatus

def supervisorCycle (p : ManagerParams) (m : ArgusManagerNode) (now : Time) : Cycle :=
  let outboundCmd := resetCommand {}
  let teleopAlive := checkWatchdog p m.lastTeleopTime now
  let plcAlive := checkWatchdog p m.lastStatusTime now
  let desiredMode := m.resolveDesiredMode teleopAlive
  let ackEdge := m.detectAckEdge
  let targetUpdate := m.detectTargetUpdate desiredMode teleopAlive
  let next := m.stateMachine teleopAlive plcAlive desiredMode ackEdge outboundCmd
  let nextState := next.1
  let outboundCmd := next.2
  let stateEntered := decide (m.managerState ≠ nextState)
  let requestedMode := if nextState = .error then .idle else desiredMode
  let outboundCmd :=
    if nextState = .jog then m.executeModeLogic outboundCmd requestedMode stateEntered targetUpdate
    else if nextState = .synch then
      m.executeModeLogic outboundCmd requestedMode stateEntered targetUpdate
    else if nextState = .follow then
      m.executeModeLogic outboundCmd requestedMode stateEntered targetUpdate
    else outboundCmd
  { node :=
      { m with
        managerState := nextState
        requestedMode := requestedMode
        lastResetError := m.lastTeleopCmd.resetError
        lastSendTarget := m.lastTeleopCmd.sendTarget
        lastTargetPitch := if targetUpdate then m.lastTeleopCmd.targetPitch else m.lastTargetPitch
        lastTargetYaw := if targetUpdate then m.lastTeleopCmd.targetYaw else m.lastTargetYaw }
    command := { outboundCmd with mode := requestedMode.toInt16 }
    status :=
      { state := stateToString nextState
        requestedMode := modeToString requestedMode
        teleopOnline := teleopAlive
        plcOnline := plcAlive
        errorActive := nextState = .error || m.lastStatus.error ≠ 0
        busy := m.lastStatus.busy
        done := m.lastStatus.done
        synch := m.lastStatus.synch
        onTarget := m.lastStatus.onTarget
        pitchPosition := m.lastStatus.posPitch
        yawPosition := m.lastStatus.posYaw
        targetPitch := m.lastTeleopCmd.targetPitch
        targetYaw := m.lastTeleopCmd.targetYaw } }

end ArgusManagerNode

end ArgusGate
