import ArgusGate.Manager.Run

/-!
# What reaches the manager's outputs

The node remembers more than it publishes: the previous state, the requested mode, the `send_target`
edge and the last target only feed `state_entered` and `target_update`, which no branch of
`execute_mode_logic` reads. `SameInputs` compares two nodes on everything else, and two runs that start
so publish the same.
-/

namespace ArgusGate

open Reactive

/-- The two teleop messages differ at most in `execute_action` and `send_target`. -/
def TeleopCommand.Alike (msg msg' : TeleopCommand) : Prop :=
  { msg with
    executeAction := msg'.executeAction
    sendTarget := msg'.sendTarget } = msg'

/-- The same callback, with teleop messages that are alike. -/
def ManagerEvent.Alike : ManagerEvent → ManagerEvent → Prop
  | .teleop msg, .teleop msg' => msg.Alike msg'
  | .status msg, .status msg' => msg = msg'
  | .cycle, .cycle => True
  | _, _ => False

namespace ArgusManagerNode

/-- The two messages a callback publishes: those of a supervisor cycle. -/
def published (p : ManagerParams) (m : ArgusManagerNode) :
    Time × ManagerEvent → List (PlcCommand × ManagerStatus)
  | (now, .cycle) => [((supervisorCycle p m now).command, (supervisorCycle p m now).status)]
  | _ => []

/-- The two nodes agree on what can reach an output. -/
structure SameInputs (m m' : ArgusManagerNode) : Prop where
  teleop : m.lastTeleopCmd.Alike m'.lastTeleopCmd
  teleopTime : m.lastTeleopTime = m'.lastTeleopTime
  status : m.lastStatus = m'.lastStatus
  statusTime : m.lastStatusTime = m'.lastStatusTime
  resetError : m.lastResetError = m'.lastResetError

namespace SameInputs

variable {m m' : ArgusManagerNode}

theorem resolveDesiredMode_eq (h : SameInputs m m') (teleopReady : Bool) :
    m.resolveDesiredMode teleopReady = m'.resolveDesiredMode teleopReady := by
  unfold resolveDesiredMode
  rw [← h.teleop]

theorem detectAckEdge_eq (h : SameInputs m m') : m.detectAckEdge = m'.detectAckEdge := by
  unfold detectAckEdge
  rw [← h.teleop, h.resetError]

theorem stateMachine_eq (h : SameInputs m m') (teleopAlive plcAlive : Bool)
    (desiredMode : ControlMode) (ackEdge : Bool) (cmd : PlcCommand) :
    m.stateMachine teleopAlive plcAlive desiredMode ackEdge cmd =
      m'.stateMachine teleopAlive plcAlive desiredMode ackEdge cmd := by
  unfold stateMachine
  rw [h.status]

theorem modeCommand_eq (h : SameInputs m m') : m.modeCommand = m'.modeCommand := by
  unfold modeCommand mapTeleopToJog
  rw [h.resolveDesiredMode_eq, ← h.teleop]

theorem command_eq (h : SameInputs m m') (p : ManagerParams) (now : Time) :
    (supervisorCycle p m now).command = (supervisorCycle p m' now).command := by
  have hteleop : teleopAlive p m now = teleopAlive p m' now := by
    rw [teleopAlive, teleopAlive, h.teleopTime]
  have hplc : plcAlive p m now = plcAlive p m' now := by
    rw [plcAlive, plcAlive, h.statusTime]
  rw [ArgusManagerNode.command_eq, ArgusManagerNode.command_eq, hteleop, hplc, h.status,
    h.detectAckEdge_eq, h.modeCommand_eq, h.resolveDesiredMode_eq, h.resolveDesiredMode_eq]

theorem status_eq (h : SameInputs m m') (p : ManagerParams) (now : Time) :
    (supervisorCycle p m now).status = (supervisorCycle p m' now).status := by
  simp only [supervisorCycle]
  rw [h.teleopTime, h.statusTime, h.stateMachine_eq, h.resolveDesiredMode_eq, h.detectAckEdge_eq,
    h.status, ← h.teleop]

theorem published_eq (h : SameInputs m m') (p : ManagerParams) {now : Time}
    {e e' : ManagerEvent} (he : e.Alike e') :
    published p m (now, e) = published p m' (now, e') := by
  cases e <;> cases e' <;> first | exact he.elim | skip
  · rfl
  · rfl
  · rw [published, published, h.command_eq, h.status_eq]

/-- Nothing the two nodes differ in ever gets into what they are compared on. -/
theorem handle (h : SameInputs m m') (p : ManagerParams) {now : Time} {e e' : ManagerEvent}
    (he : e.Alike e') :
    SameInputs (ArgusManagerNode.handle p m (now, e)) (ArgusManagerNode.handle p m' (now, e')) := by
  cases e <;> cases e' <;> first | exact he.elim | skip
  · exact ⟨he, rfl, h.status, h.statusTime, h.resetError⟩
  · exact ⟨h.teleop, h.teleopTime, he, rfl, h.resetError⟩
  · have hreset : m.lastTeleopCmd.resetError = m'.lastTeleopCmd.resetError := by rw [← h.teleop]
    exact ⟨h.teleop, h.teleopTime, h.status, h.statusTime, hreset⟩

end SameInputs

/-- What two nodes publish from now on is the same if they agree on their inputs, are given the same
callbacks at the same times, and the teleop messages among these are alike. -/
theorem published_insensitive (p : ManagerParams) (t₀ : Time) {m m' : ArgusManagerNode}
    (h : SameInputs m m') {es es' : List (Time × ManagerEvent)}
    (hes : List.Forall₂ (fun e e' => e.1 = e'.1 ∧ e.2.Alike e'.2) es es') :
    ((machine p t₀).resume m).trace (published p) es =
      ((machine p t₀).resume m').trace (published p) es' := by
  apply ((machine p t₀).resume m).two_run_rule (N := (machine p t₀).resume m')
    (R := SameInputs) h ?_ ?_ hes
  · rintro m m' h ⟨now, e⟩ ⟨now', e'⟩ ⟨rfl, he⟩
    exact h.handle p he
  · rintro m m' h ⟨now, e⟩ ⟨now', e'⟩ ⟨rfl, he⟩
    exact h.published_eq p he

/-- One node has been following a target, the other has just been started: in the same three callbacks
from then on they publish the same. -/
theorem published_insensitive_following :
    let jog : TeleopCommand := { requestedMode := 2, pitchSpeed := 1 }
    let following : List (Time × ManagerEvent) :=
      [(0, .status {}), (0, .teleop { requestedMode := 3, targetPitch := 1, sendTarget := true }),
        (0, .cycle), (1, .teleop jog)]
    let started : List (Time × ManagerEvent) := [(0, .status {}), (1, .teleop jog)]
    let m := (machine {} 0).state following
    let m' := (machine {} 0).state started
    m.managerState ≠ m'.managerState ∧ m.lastTargetPitch ≠ m'.lastTargetPitch ∧
    m.lastSendTarget ≠ m'.lastSendTarget ∧ m.requestedMode ≠ m'.requestedMode ∧
    ((machine {} 0).resume m).trace (published {}) [(2, .cycle), (3, .teleop {}), (4, .cycle)] =
      ((machine {} 0).resume m').trace (published {})
        [(2, .cycle), (3, .teleop { sendTarget := true }), (4, .cycle)] := by
  intro jog following started m m'
  have hinputs : SameInputs m m' := ⟨rfl, rfl, rfl, rfl, rfl⟩
  refine ⟨by decide +kernel, by decide +kernel, by decide +kernel, by decide +kernel, ?_⟩
  apply published_insensitive {} 0 hinputs
  exact .cons ⟨rfl, trivial⟩ (.cons ⟨rfl, rfl⟩ (.cons ⟨rfl, trivial⟩ .nil))

end ArgusManagerNode

end ArgusGate
