import ArgusGate.Manager.Run
import ArgusGate.PlcSim.Rest

/-!
# Loss of the PLC link

The command of a cycle that finds the PLC watchdog expired is a reset command, but its mode is
still the one the operator asks for. The simulator takes mode 3 without `exec` as a new target
while it is in FOLLOW, and the target of a reset command is (0, 0).
-/

namespace ArgusGate

open Reactive Approach PlcSimNode ArgusManagerNode

/-- A reset command of another mode than 3 leaves nothing pending. -/
theorem noPendingMotion_reset (q : PlcSimParams) (s : PlcSimNode) {mode : Int16} (h : mode ≠ 3) :
    NoPendingMotion q (s.commandCallback { mode := mode }) := by
  by_cases hjog : mode = 2
  · subst hjog
    exact noPendingMotion_of_jog (by simp [commandCallback]) (by simp [commandCallback])
      (by simp [commandCallback])
  · exact noPendingMotion_of_ready (by simp [commandCallback, h, hjog])

/-- A reset command of mode 3 sends a simulator in FOLLOW to (0, 0). -/
theorem noPendingMotion_reset_follow (q : PlcSimParams) (s : PlcSimNode) :
    NoPendingMotion q (s.commandCallback { mode := 3 }) ↔ (s.state = .follow →
      AtRest q.stepPerCycle q.targetTolerance s.currentPitch 0 ∧
      AtRest q.stepPerCycle q.targetTolerance s.currentYaw 0) := by
  by_cases hfollow : s.state = .follow
  · have hstate : (s.commandCallback { mode := 3 }).state = .follow := by
      simp [commandCallback, hfollow]
    rw [noPendingMotion_follow_iff hstate]
    simp [commandCallback, hfollow]
  · have hstate : (s.commandCallback { mode := 3 }).state = .ready := by
      simp [commandCallback, hfollow]
    simp [noPendingMotion_of_ready hstate, hfollow]

theorem resolveDesiredMode_follow_iff (m : ArgusManagerNode) (alive : Bool) :
    (m.resolveDesiredMode alive).toInt16 = 3 ↔
      alive = true ∧ m.lastTeleopCmd.requestedMode = 3 := by
  cases alive with
  | false => simp [ControlMode.toInt16]
  | true =>
    unfold resolveDesiredMode
    split_ifs <;> simp_all [ControlMode.toInt16]

/-- Whether a cycle with the PLC link lost stops the simulator, for every reachable manager and
simulator: it does unless the operator keeps asking for FOLLOW and the simulator is following,
away from (0, 0). -/
theorem linkLoss_noPendingMotion_iff (p : ManagerParams) (q : PlcSimParams) (t₀ : Time)
    (es : List (Time × ManagerEvent)) (fs : List SimEvent) (now : Time)
    (hlost : plcAlive p ((ArgusManagerNode.machine p t₀).state es) now = false) :
    let m := (ArgusManagerNode.machine p t₀).state es
    let s := (PlcSimNode.machine q).state fs
    NoPendingMotion q (s.commandCallback (supervisorCycle p m now).command) ↔
      (teleopAlive p m now = true ∧ m.lastTeleopCmd.requestedMode = 3 ∧ s.state = .follow →
        AtRest q.stepPerCycle q.targetTolerance s.currentPitch 0 ∧
        AtRest q.stepPerCycle q.targetTolerance s.currentYaw 0) := by
  intro m s
  rw [command_of_plc_lost p m now hlost, ← and_assoc, ← resolveDesiredMode_follow_iff]
  by_cases hmode : (m.resolveDesiredMode (teleopAlive p m now)).toInt16 = 3
  · rw [hmode, noPendingMotion_reset_follow]
    simp
  · have hquiet := noPendingMotion_reset q s hmode
    simp [hmode, hquiet]

/-- The link is lost for 900 ms while the operator keeps jogging and the pitch axis is on its way: the
command of the next cycle stops it. -/
theorem linkLoss_noPendingMotion_jog :
    let request : TeleopCommand := { requestedMode := 2, pitchSpeed := 1 }
    let es : List (Time × ManagerEvent) :=
      [(0, .status {}), (1000000, .teleop request), (899000000, .teleop request)]
    let fs : List SimEvent := [.tick, .command { mode := 2, pitchJogP := true }, .tick]
    let m := (ArgusManagerNode.machine {} 0).state es
    let s := (PlcSimNode.machine {}).state fs
    teleopAlive {} m 900000000 = true ∧ ¬ NoPendingMotion {} s ∧
    NoPendingMotion {} (s.commandCallback (supervisorCycle {} m 900000000).command) := by
  intro request es fs m s
  refine ⟨by decide +kernel, fun hquiet => ?_, ?_⟩
  · have hmove : ((tick {})^[1] s).currentPitch ≠ s.currentPitch := by decide +kernel
    exact hmove (hquiet 1).1
  · apply (linkLoss_noPendingMotion_iff {} {} 0 es fs 900000000 (by decide +kernel)).mpr
    rintro ⟨-, hmode, -⟩
    exact absurd hmode (by decide +kernel)

/-- The link is lost for 900 ms while the operator keeps sending FOLLOW to (1, 0) and the simulator
is on its way there: the command of the next cycle turns it round towards (0, 0). -/
theorem linkLoss_follow_moves :
    let request : TeleopCommand := { requestedMode := 3, targetPitch := 1 }
    let es : List (Time × ManagerEvent) :=
      [(0, .status {}), (1000000, .teleop request), (899000000, .teleop request)]
    let fs : List SimEvent :=
      [.command { mode := 3, exec := true, targetPitch := 1 }, .tick]
    let m := (ArgusManagerNode.machine {} 0).state es
    let s := (PlcSimNode.machine {}).state fs
    plcAlive {} m 900000000 = false ∧
    ¬ NoPendingMotion {} (s.commandCallback (supervisorCycle {} m 900000000).command) := by
  intro request es fs m s
  refine ⟨by decide +kernel, fun hquiet => ?_⟩
  have hmove : ((tick {})^[1] (s.commandCallback (supervisorCycle {} m 900000000).command)
      ).currentPitch ≠
      (s.commandCallback (supervisorCycle {} m 900000000).command).currentPitch := by
    decide +kernel
  exact hmove (hquiet 1).1

end ArgusGate
