import ArgusGate.Interfaces
import ArgusGate.Manager.Node
import ArgusGate.Foundation.Reactive
import ArgusGate.Manager.Cycle
import ArgusGate.PlcSim.Node
import ArgusGate.Manager.Run
import ArgusGate.Manager.Interlock
import ArgusGate.PlcSim.ErrorLatch
import ArgusGate.Foundation.Approach
import ArgusGate.PlcSim.Rest
import ArgusGate.System.LinkLoss
import ArgusGate.Foundation.Topic
import ArgusGate.System.ClosedLoop
import ArgusGate.System.OperatorLoss
import ArgusGate.System.Recovery
import ArgusGate.System.Homing
import ArgusGate.Gui.Node
import ArgusGate.System.CommandTopic
import ArgusGate.Foundation.ByteOrder
import ArgusGate.PlcBridge.Packet
import ArgusGate.PlcBridge.Node
import ArgusGate.System.DeadMan
import ArgusGate.Foundation.Echo
import ArgusGate.System.Heartbeat
import ArgusGate.Manager.Agreement
import ArgusGate.Foundation.EdgeDetector
import ArgusGate.Manager.Acknowledge
import ArgusGate.System.ResetPulse
import ArgusGate.PlcSim.Status
import ArgusGate.PlcSim.Range
import ArgusGate.PlcBridge.Reception
import ArgusGate.System.AckPulse
import ArgusGate.System.FixedPoint
import ArgusGate.System.GuiPaths
import ArgusGate.System.JoystickLoss
import ArgusGate.PlcSim.Motion
import ArgusGate.System.Following
import ArgusGate.Manager.Influence
import ArgusGate.System.HomingCourse
import ArgusGate.Gui.Target
import ArgusGate.PlcBridge.Transmission
import ArgusGate.Foundation.Expiry
import ArgusGate.PlcBridge.WireFormat
import ArgusGate.Teleop.Keyboard
import ArgusGate.Teleop.KeyHistory
import ArgusGate.System.Console
import ArgusGate.Gui.Jog
import ArgusGate.System.HoldToRun
import ArgusGate.System.ResetLedger
import ArgusGate.System.Graph
import ArgusGate.System.ErrorFree
import ArgusGate.PlcSim.Moves
import ArgusGate.System.RateLimit
import ArgusGate.System.Unasked
import ArgusGate.System.HeldMotion
import ArgusGate.System.Telemetry
import ArgusGate.System.TargetReached
import ArgusGate.System.SynchRuns
import ArgusGate.System.Lockout
import ArgusGate.System.Wire
import ArgusGate.System.Availability
import ArgusGate.PlcBridge.NetworkLoop
import ArgusGate.System.Silence
import ArgusGate.PlcSim.Gate
import ArgusGate.System.Substitution
import ArgusGate.Foundation.Decimal
import ArgusGate.Gui.View
import ArgusGate.System.Screen
import ArgusGate.Teleop.Effective
import ArgusGate.System.Influence
