import ArgusGate.Foundation.Decimal
import ArgusGate.Gui.Node

/-!
# What the GUI shows

The controls that `FletGui` of `argus_flet_gui/gui.py` writes to: `refresh_view` fills in most of them from
the last `ManagerStatus`, and the handlers of the jog speed and of the target leave a text of their own.
-/

namespace ArgusGate

open Decimal

/-- Python's format `.2f`. -/
def format2 (x : ℚ) : String := fixed false 2 x

/-- Python's format `+.2f`. -/
def formatSigned2 (x : ℚ) : String := fixed true 2 x

/-- Python's text of a `bool`. -/
def pyBool (b : Bool) : String := if b then "True" else "False"

structure Badge where
  content : String
  bgcolor : String
  deriving DecidableEq

/-- The controls that only `refresh_view` writes to, as the constructor leaves them. The alignment of
`error_target_dot` is always (0, 0). -/
structure Readout where
  stateText : String := "Waiting for manager status..."
  modeText : String := ""
  connectionText : String := ""
  positionText : String := ""
  targetText : String := ""
  errorText : String := ""
  errorMetaText : String := ""
  errorActualDot : ℚ × ℚ := (0, 0)
  badge : Badge := { content := "OFFLINE", bgcolor := "BLUE_GREY_700" }
  deriving DecidableEq

structure View where
  readout : Readout := {}
  logText : String := ""
  jogSpeedLabel : String := format2 (4 / 5)

def clamp (value : ℚ) (minimum maximum : ℚ) : ℚ := max minimum (min maximum value)

/-- `_set_error_map`: where it puts `error_actual_dot`. -/
def setErrorMap (pitchError yawError : ℚ) : ℚ × ℚ :=
  let pitchLimit := max (1 / 2) |pitchError|
  let yawLimit := max (1 / 2) |yawError|
  let x := clamp (yawError / yawLimit) (-1) 1
  let y := clamp (-pitchError / pitchLimit) (-1) 1
  (x * (82 / 100), y * (82 / 100))

namespace Readout

/-- What `refresh_view` shows of a status. -/
def ofStatus (status : ManagerStatus) : Readout :=
  let pitchError := status.targetPitch - status.pitchPosition
  let yawError := status.targetYaw - status.yawPosition
  { stateText := "State: " ++ status.state
    modeText := "Requested mode: " ++ status.requestedMode
    connectionText := "Teleop: " ++ (if status.teleopOnline then "online" else "offline") ++
      " | PLC: " ++ (if status.plcOnline then "online" else "offline")
    positionText := "Position: pitch=" ++ format2 status.pitchPosition ++
      " yaw=" ++ format2 status.yawPosition
    targetText := "Target: pitch=" ++ format2 status.targetPitch ++
      " yaw=" ++ format2 status.targetYaw
    errorText := "Tracking error: pitch=" ++ format2 pitchError ++ " yaw=" ++ format2 yawError
    errorMetaText := "pitch " ++ formatSigned2 pitchError ++ "   yaw " ++ formatSigned2 yawError
    errorActualDot := setErrorMap pitchError yawError
    badge :=
      if status.errorActive then { content := "ERROR", bgcolor := "RED_700" }
      else if status.busy then { content := "BUSY", bgcolor := "ORANGE_700" }
      else { content := "READY", bgcolor := "GREEN_700" } }

/-- What it shows before there is any. The badge stays. -/
def waiting (r : Readout) : Readout :=
  { stateText := "Waiting for manager status..."
    modeText := ""
    connectionText := "Teleop: -- | PLC: --"
    positionText := "Position: --"
    targetText := "Target: --"
    errorText := "Error tracking: --"
    errorMetaText := ""
    errorActualDot := setErrorMap 0 0
    badge := r.badge }

end Readout

namespace View

/-- The flags of a status, as `refresh_view` puts them into `log_text`. -/
def flagsText (status : ManagerStatus) : String :=
  "busy=" ++ pyBool status.busy ++ " done=" ++ pyBool status.done ++
    " synch=" ++ pyBool status.synch ++ " on_target=" ++ pyBool status.onTarget ++
    " error=" ++ pyBool status.errorActive

/-- What `send_follow_target` puts there. -/
def sentText : Option (ℚ × ℚ) → String
  | none => "Invalid target values"
  | some (pitch, yaw) => "Follow target sent: pitch=" ++ format2 pitch ++ " yaw=" ++ format2 yaw

/-- `refresh_view`, once the page is there. -/
def refreshView (v : View) : Option ManagerStatus → View
  | none => { v with readout := v.readout.waiting, logText := "" }
  | some status => { v with readout := .ofStatus status, logText := flagsText status }

/-- What the handlers of the controls leave on the page. -/
def operate (v : View) : GuiEvent → View
  | .jogSpeedChange value => { v with jogSpeedLabel := format2 value }
  | .sendTarget target => { v with logText := sentText target }
  | _ => v

end View

theorem abs_read_format2_sub_le (x : ℚ) : |read 2 (format2 x) - x| ≤ 1 / 200 :=
  (abs_read_fixed_sub_le false (by decide) x).trans (by norm_num)

/-! ## The error map -/

/-- The quotient of an error and its limit never leaves the map, so the clamp does nothing. -/
theorem clamp_error (e : ℚ) : clamp (e / max (1 / 2) |e|) (-1) 1 = e / max (1 / 2) |e| := by
  have hpos : (0 : ℚ) < max (1 / 2) |e| := lt_max_of_lt_left (by norm_num)
  have hle : |e / max (1 / 2) (abs e)| ≤ 1 := by
    rw [abs_div, abs_of_pos hpos, div_le_one hpos]
    exact le_max_right _ _
  obtain ⟨hlo, hhi⟩ := abs_le.mp hle
  rw [clamp, min_eq_right hhi, max_eq_right hlo]

/-- The dot is in the middle exactly if both axes are on target. -/
theorem setErrorMap_eq_zero_iff (pitchError yawError : ℚ) :
    setErrorMap pitchError yawError = (0, 0) ↔ pitchError = 0 ∧ yawError = 0 := by
  have hpos : ∀ e : ℚ, max (1 / 2) |e| ≠ 0 := fun e => (lt_max_of_lt_left (by norm_num)).ne'
  have hneg := clamp_error (-pitchError)
  rw [abs_neg] at hneg
  have hscale : (82 / 100 : ℚ) ≠ 0 := by norm_num
  simp only [setErrorMap, clamp_error, hneg, Prod.mk.injEq, mul_eq_zero, div_eq_zero_iff,
    neg_eq_zero, hpos, hscale, or_false]
  exact and_comm

end ArgusGate
