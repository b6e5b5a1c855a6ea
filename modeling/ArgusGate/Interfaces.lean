import Mathlib.Algebra.Order.Ring.Rat

/-!
# Interface messages

The messages of `argus_interfaces/msg`, with the zero defaults of a freshly constructed ROS
message. Integer fields keep their declared width; a `float32` field is an exact rational, so
rounding, infinities and NaN are outside the model.
-/

namespace ArgusGate

/-- `TeleopCommand.msg`. -/
structure TeleopCommand where
  pitchSpeed : ℚ := 0
  yawSpeed : ℚ := 0
  targetPitch : ℚ := 0
  targetYaw : ℚ := 0
  requestedMode : Int16 := 0
  sendTarget : Bool := false
  executeAction : Bool := false
  resetError : Bool := false
  deriving DecidableEq

/-- `PlcCommand.msg`. -/
structure PlcCommand where
  lifeWord : UInt16 := 0
  ack : Bool := false
  exec : Bool := false
  fire : Bool := false
  pitchJogP : Bool := false
  pitchJogN : Bool := false
  yawJogP : Bool := false
  yawJogN : Bool := false
  mode : Int16 := 0
  pitchOverride : ℚ := 0
  yawOverride : ℚ := 0
  targetPitch : ℚ := 0
  targetYaw : ℚ := 0
  checksum : UInt16 := 0
  deriving DecidableEq

/-- `PlcStatus.msg`. -/
structure PlcStatus where
  lifeWord : UInt16 := 0
  done : Bool := false
  busy : Bool := false
  synch : Bool := false
  onTarget : Bool := false
  status : Int16 := 0
  error : Int16 := 0
  posPitch : ℚ := 0
  posYaw : ℚ := 0
  checksum : UInt16 := 0
  deriving DecidableEq

/-- `ManagerStatus.msg`. -/
structure ManagerStatus where
  state : String := ""
  requestedMode : String := ""
  teleopOnline : Bool := false
  plcOnline : Bool := false
  errorActive : Bool := false
  busy : Bool := false
  done : Bool := false
  synch : Bool := false
  onTarget : Bool := false
  pitchPosition : ℚ := 0
  yawPosition : ℚ := 0
  targetPitch : ℚ := 0
  targetYaw : ℚ := 0
  deriving DecidableEq

/-- One of the four jog bits is set. -/
def PlcCommand.jogs (cmd : PlcCommand) : Bool :=
  cmd.pitchJogP || cmd.pitchJogN || cmd.yawJogP || cmd.yawJogN

/-- The command asks for motion: `exec` or a jog bit is set. -/
def PlcCommand.drives (cmd : PlcCommand) : Bool := cmd.exec || cmd.jogs

theorem PlcCommand.drives_of_jogs {cmd : PlcCommand} (h : cmd.jogs = true) : cmd.drives = true := by
  rw [drives, h, Bool.or_true]

@[simp] theorem PlcCommand.drives_default (mode : Int16) :
    ({ mode := mode } : PlcCommand).drives = false := rfl

end ArgusGate
