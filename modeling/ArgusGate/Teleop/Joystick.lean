import ArgusGate.Interfaces
import Mathlib.Data.List.GetD

/-!
# The joystick driver and the joystick teleop

`JoystickNode` of `argus_joystick_driver/src/joystick_driver_node.cpp` and `ArgusTeleopJoyNode` of
`argus_teleop_joy/src/teleop_joy_node.cpp`. The driver reads SFML's joystick state and publishes it
as a `Joy` message, and the teleop node turns each message into a `TeleopCommand`.
-/

namespace ArgusGate

/-- `sf::Joystick::Axis`. -/
inductive JoystickAxis where
  | x
  | y
  | z
  | r
  | u
  | v
  | povX
  | povY

/-- What `sf::Joystick` reports after an update, for every joystick id. -/
structure JoystickReading where
  isConnected : ℕ → Bool
  getAxisPosition : ℕ → JoystickAxis → ℚ
  isButtonPressed : ℕ → ℕ → Bool

/-- `sensor_msgs/Joy` without its header. -/
structure Joy where
  axes : List ℚ
  buttons : List Int32

/-- `JoystickNode`; the id -1 of a driver that found no joystick is `none`. -/
structure JoystickNode where
  joystickId : Option ℕ

namespace JoystickNode

/-- The constructor takes the first of the `sf::Joystick::Count` joysticks that is connected. -/
def construct (reading : JoystickReading) : JoystickNode where
  joystickId := (List.range 8).find? reading.isConnected

/-- The condition under which `read_and_publish` reads the joystick. -/
def connected (n : JoystickNode) (reading : JoystickReading) : Bool :=
  match n.joystickId with
  | some id => reading.isConnected id
  | none => false

/-- `read_and_publish`: the message it publishes. -/
def readAndPublish (n : JoystickNode) (reading : JoystickReading) : Joy :=
  match n.joystickId with
  | some id =>
    if reading.isConnected id then
      { axes :=
          [ reading.getAxisPosition id .x / 100,
            reading.getAxisPosition id .y / -100,
            reading.getAxisPosition id .z / 100,
            reading.getAxisPosition id .r / -100,
            reading.getAxisPosition id .u / 100,
            reading.getAxisPosition id .v / 100,
            reading.getAxisPosition id .povX / 100,
            reading.getAxisPosition id .povY / 100 ]
        buttons := (List.range 14).map fun i => if reading.isButtonPressed id i then 1 else 0 }
    else { axes := List.replicate 8 0, buttons := List.replicate 14 0 }
  | none => { axes := List.replicate 8 0, buttons := List.replicate 14 0 }

variable (n : JoystickNode) (reading : JoystickReading)

/-- Every message has its eight axes and fourteen buttons. -/
theorem length_readAndPublish : (n.readAndPublish reading).axes.length = 8 ∧
    (n.readAndPublish reading).buttons.length = 14 := by
  unfold readAndPublish
  split
  · split_ifs <;> simp
  · simp

/-- A lost joystick reads as one at rest, with no button pressed. -/
theorem readAndPublish_of_not_connected (h : n.connected reading = false) :
    n.readAndPublish reading = { axes := List.replicate 8 0, buttons := List.replicate 14 0 } := by
  unfold connected at h
  unfold readAndPublish
  split
  · rename_i id hid
    simp only [hid] at h
    simp [h]
  · rfl

/-- An axis away from 0 was read from a connected joystick. -/
theorem connected_of_axis {i : ℕ} (h : (n.readAndPublish reading).axes.getD i 0 ≠ 0) :
    n.connected reading = true := by
  by_contra hlost
  rw [readAndPublish_of_not_connected n reading (by simpa using hlost),
    List.getD_eq_getElem?_getD] at h
  exact h (List.getElem?_getD_replicate_default_eq 0 8 i)

end JoystickNode

/-- `ArgusTeleopJoyNode`, whose `cmd` member outlives the callback. -/
structure ArgusTeleopJoyNode where
  cmd : TeleopCommand := {}

namespace ArgusTeleopJoyNode

/-- `on_joy_received`: the node, and the message it publishes, if any. -/
def onJoyReceived (n : ArgusTeleopJoyNode) (msg : Joy) :
    ArgusTeleopJoyNode × Option TeleopCommand :=
  if msg.axes.length < 8 ∨ msg.buttons.length < 4 then (n, none)
  else
    let cmd := { n.cmd with pitchSpeed := msg.axes.getD 5 0, yawSpeed := msg.axes.getD 4 0 }
    let cmd := if msg.buttons.getD 1 0 ≠ 0 then { cmd with requestedMode := 0 } else cmd
    let cmd := if msg.buttons.getD 2 0 ≠ 0 then { cmd with requestedMode := 2 } else cmd
    let cmd :=
      { cmd with
        executeAction := msg.buttons.getD 0 0 ≠ 0
        resetError := msg.buttons.getD 3 0 ≠ 0 }
    ({ cmd := cmd }, some cmd)

variable (n : ArgusTeleopJoyNode) {msg : Joy}

/-- A complete message is passed on: the speeds are its axes 5 and 4, and the mode is the old one
unless a button selects IDLE or JOG. -/
theorem onJoyReceived_of_complete (haxes : 8 ≤ msg.axes.length) (hbuttons : 4 ≤ msg.buttons.length) :
    ∃ cmd, n.onJoyReceived msg = ({ cmd := cmd }, some cmd) ∧
      cmd.pitchSpeed = msg.axes.getD 5 0 ∧ cmd.yawSpeed = msg.axes.getD 4 0 ∧
      cmd.requestedMode = (if msg.buttons.getD 2 0 ≠ 0 then 2
        else if msg.buttons.getD 1 0 ≠ 0 then 0 else n.cmd.requestedMode) := by
  unfold onJoyReceived
  rw [if_neg (by omega)]
  refine ⟨_, rfl, ?_, ?_, ?_⟩
  · split_ifs <;> rfl
  · split_ifs <;> rfl
  · split_ifs <;> rfl

/-- What the teleop publishes is what it keeps. -/
theorem cmd_of_publishes {cmd : TeleopCommand} (h : (n.onJoyReceived msg).2 = some cmd) :
    (n.onJoyReceived msg).1.cmd = cmd := by
  by_cases hshort : msg.axes.length < 8 ∨ msg.buttons.length < 4
  · simp [onJoyReceived, hshort] at h
  · unfold onJoyReceived at h ⊢
    rw [if_neg hshort] at h ⊢
    exact Option.some.inj h

end ArgusTeleopJoyNode

end ArgusGate
