import ArgusGate.Foundation.Reactive
import ArgusGate.Interfaces

/-!
# The GUI node

`ManagerGuiNode` and the controls of `FletGui` in `argus_flet_gui/gui.py`. The GUI keeps the fields
of the next `TeleopCommand`, which `publish_loop` sends on `teleop_cmd`; its mode buttons also
publish on `plc_command`. What the GUI displays is the business of `View`.
-/

namespace ArgusGate

/-- The members of `ManagerGuiNode` that its publishers read or write. -/
structure ManagerGuiNode where
  pitchSpeed : ℚ := 0
  yawSpeed : ℚ := 0
  targetPitch : ℚ := 0
  targetYaw : ℚ := 0
  requestedMode : Int16 := 0
  executeAction : Bool := false
  resetError : Bool := false
  sendTarget : Bool := false

namespace ManagerGuiNode

/-- `publish_mode`: the node, and the command it publishes on `plc_command`. -/
def publishMode (g : ManagerGuiNode) (mode : Int16) (execute : Bool := false) :
    ManagerGuiNode × PlcCommand :=
  ({ g with requestedMode := mode, executeAction := execute }, { mode := mode, exec := execute })

/-- `publish_teleop`, which only stores its arguments for the next `publish_loop`. -/
def publishTeleop (_g : ManagerGuiNode) (pitchSpeed : ℚ := 0) (yawSpeed : ℚ := 0)
    (requestedMode : Int16 := 2) (targetPitch : ℚ := 0) (targetYaw : ℚ := 0)
    (sendTarget : Bool := false) (executeAction : Bool := false) (resetError : Bool := false) :
    ManagerGuiNode :=
  { pitchSpeed, yawSpeed, targetPitch, targetYaw, requestedMode, executeAction, resetError,
    sendTarget }

/-- `publish_loop`: the node, and the message it publishes on `teleop_cmd`. -/
def publishLoop (g : ManagerGuiNode) : ManagerGuiNode × TeleopCommand :=
  ({ g with executeAction := false, resetError := false, sendTarget := false },
    { pitchSpeed := g.pitchSpeed
      yawSpeed := g.yawSpeed
      targetPitch := g.targetPitch
      targetYaw := g.targetYaw
      requestedMode := g.requestedMode
      sendTarget := g.sendTarget
      executeAction := g.executeAction
      resetError := g.resetError })

end ManagerGuiNode

/-- `FletGui`: the node, and what the jog controls remember. -/
structure FletGui where
  node : ManagerGuiNode := {}
  jogSpeed : ℚ := 4 / 5
  activeJogPitch : ℚ := 0
  activeJogYaw : ℚ := 0

/-- What the user does at the controls, and the timer of the node. -/
inductive GuiEvent where
  | idle
  | synch
  | jog
  | follow
  | startJog (pitchSpeed yawSpeed : ℚ)
  | stopJog
  | jogSpeedChange (value : ℚ)
  /-- "Send target", with the numbers in the two fields, or `none` if they do not parse. -/
  | sendTarget (target : Option (ℚ × ℚ))
  | resetError
  | publishLoop
  deriving DecidableEq

namespace FletGui

def publishJog (g : FletGui) : FletGui :=
  { g with
    node := g.node.publishTeleop (g.activeJogPitch * g.jogSpeed) (g.activeJogYaw * g.jogSpeed) 2 }

def startJog (g : FletGui) (pitchSpeed yawSpeed : ℚ) : FletGui :=
  publishJog { g with activeJogPitch := pitchSpeed, activeJogYaw := yawSpeed }

def stopJog (g : FletGui) : FletGui :=
  { g with activeJogPitch := 0, activeJogYaw := 0, node := g.node.publishTeleop 0 0 2 }

def onJogSpeedChange (g : FletGui) (value : ℚ) : FletGui :=
  let g := { g with jogSpeed := value }
  if g.activeJogPitch ≠ 0 ∨ g.activeJogYaw ≠ 0 then g.publishJog else g

def sendFollowTarget (g : FletGui) : Option (ℚ × ℚ) → FletGui
  | none => g
  | some (pitch, yaw) => { g with node := g.node.publishTeleop 0 0 3 pitch yaw true }

/-- What a GUI event leaves behind: the GUI, and the messages it published on the two topics. -/
structure Output where
  gui : FletGui
  command : Option PlcCommand := none
  teleop : Option TeleopCommand := none

/-- A mode button. -/
def modeButton (g : FletGui) (mode : Int16) (execute : Bool := false) : Output :=
  { gui := { g with node := (g.node.publishMode mode execute).1 }
    command := some (g.node.publishMode mode execute).2 }

def handle (g : FletGui) : GuiEvent → Output
  | .idle => g.modeButton 0
  | .synch => g.modeButton 1 true
  | .jog => g.modeButton 2
  | .follow => g.modeButton 3 true
  | .startJog pitchSpeed yawSpeed => { gui := g.startJog pitchSpeed yawSpeed }
  | .stopJog => { gui := g.stopJog }
  | .jogSpeedChange value => { gui := g.onJogSpeedChange value }
  | .sendTarget target => { gui := g.sendFollowTarget target }
  | .resetError =>
    { gui := { g with node := g.node.publishTeleop 0 0 0 0 0 false false true } }
  | .publishLoop =>
    { gui := { g with node := g.node.publishLoop.1 }, teleop := some g.node.publishLoop.2 }

/-- The GUI from its start. -/
def machine : Reactive.Machine FletGui GuiEvent :=
  { start := {}, step := fun g e => (g.handle e).gui }

/-- The messages a run of the GUI publishes on `teleop_cmd`. -/
def teleops (es : List GuiEvent) : List TeleopCommand :=
  machine.trace (fun g e => (g.handle e).teleop.toList) es

/-- The GUI drives the PLC by itself with two of its buttons. -/
theorem drives_iff (g : FletGui) (e : GuiEvent) :
    (∃ cmd, (g.handle e).command = some cmd ∧ cmd.drives = true) ↔ e = .synch ∨ e = .follow := by
  cases e <;> simp [handle, modeButton, ManagerGuiNode.publishMode, PlcCommand.drives,
    PlcCommand.jogs]

end FletGui

end ArgusGate
