import ArgusGate.Manager.Run

/-!
# Reported state and commanded mode

A supervisor cycle computes its state by the priorities of the state machine and its mode from the
operator's request, with ERROR as the only state that overrides the request. The two agree except
where the state machine goes to READY while a mode is requested.
-/

namespace ArgusGate

open Reactive

/-- The mode that goes with a state. -/
def ManagerState.mode : ManagerState → ControlMode
  | .synch => .synch
  | .jog => .jog
  | .follow => .follow
  | .stop | .ready | .error => .idle

namespace ArgusManagerNode

section Cycle

variable (p : ManagerParams) (m : ArgusManagerNode) (now : Time)

/-- The two messages of a cycle name a state, and both carry the mode that goes with it. -/
def Agrees (cycle : Cycle) : Prop :=
  ∃ state : ManagerState, state ≠ .stop ∧ cycle.status.state = stateToString state ∧
    cycle.status.requestedMode = modeToString state.mode ∧
    cycle.command.mode = state.mode.toInt16

/-- The operator asks for a mode, and the cycle goes to READY all the same: the PLC link is lost, or
a reported error is being acknowledged. -/
def Drifts : Prop :=
  teleopAlive p m now = true ∧
  (m.lastTeleopCmd.requestedMode = 1 ∨ m.lastTeleopCmd.requestedMode = 2 ∨
    m.lastTeleopCmd.requestedMode = 3) ∧
  (plcAlive p m now = false ∨ (m.lastStatus.error ≠ 0 ∧ m.detectAckEdge = true))

theorem supervisorCycle_managerState : (supervisorCycle p m now).node.managerState =
    (m.stateMachine (teleopAlive p m now) (plcAlive p m now)
      (m.resolveDesiredMode (teleopAlive p m now)) m.detectAckEdge {}).1 := rfl

theorem supervisorCycle_requestedMode : (supervisorCycle p m now).node.requestedMode =
    if (supervisorCycle p m now).node.managerState = .error then .idle
    else m.resolveDesiredMode (teleopAlive p m now) := rfl

theorem managerState_ne_stop : (supervisorCycle p m now).node.managerState ≠ .stop := by
  rw [supervisorCycle_managerState]
  unfold stateMachine
  split_ifs <;> first | decide | (split <;> decide)

theorem stateToString_inj {s s' : ManagerState} : stateToString s = stateToString s' ↔ s = s' := by
  cases s <;> cases s' <;> decide

theorem toInt16_inj {c c' : ControlMode} : c.toInt16 = c'.toInt16 ↔ c = c' := by
  cases c <;> cases c' <;> decide

/-- Agreement is a matter of the two members the messages are filled from. -/
theorem agrees_iff_members : Agrees (supervisorCycle p m now) ↔
    (supervisorCycle p m now).node.requestedMode =
      (supervisorCycle p m now).node.managerState.mode := by
  constructor
  · intro h
    obtain ⟨state, -, hstate, -, hmode⟩ := h
    obtain rfl := stateToString_inj.mp hstate
    exact toInt16_inj.mp hmode
  · intro h
    refine ⟨_, managerState_ne_stop p m now, rfl, ?_, ?_⟩
    · rw [← h]
      rfl
    · rw [← h]
      rfl

theorem resolveDesiredMode_idle_iff (alive : Bool) : m.resolveDesiredMode alive = .idle ↔
    ¬ (alive = true ∧ (m.lastTeleopCmd.requestedMode = 1 ∨ m.lastTeleopCmd.requestedMode = 2 ∨
      m.lastTeleopCmd.requestedMode = 3)) := by
  cases alive with
  | false => simp
  | true =>
    unfold resolveDesiredMode
    split_ifs <;> simp_all

/-- The published state and mode of one cycle agree unless the cycle drifts. -/
theorem agrees_iff : Agrees (supervisorCycle p m now) ↔ ¬ Drifts p m now := by
  rw [agrees_iff_members, supervisorCycle_requestedMode, supervisorCycle_managerState]
  have hidle := resolveDesiredMode_idle_iff m (teleopAlive p m now)
  unfold Drifts
  rw [← and_assoc, not_and_or, ← hidle]
  cases hplc : plcAlive p m now with
  | false => simp [stateMachine, ManagerState.mode]
  | true =>
    by_cases herr : m.lastStatus.error = 0
    · cases hteleop : teleopAlive p m now with
      | false => simp [stateMachine, ManagerState.mode, herr]
      | true =>
        cases hmode : m.resolveDesiredMode true <;>
          simp [stateMachine, ManagerState.mode, herr]
    · cases hteleop : teleopAlive p m now with
      | false => simp [stateMachine, ManagerState.mode, herr]
      | true =>
        -- the acknowledging cycle goes to READY, any other one to ERROR
        cases hedge : m.detectAckEdge <;> simp [stateMachine, ManagerState.mode, herr]

end Cycle

/-- Reported state and commanded mode agree in every cycle of the run exactly if no cycle drifts. -/
theorem reportsAgree_iff (p : ManagerParams) (t₀ : Time) (es : List (Time × ManagerEvent)) :
    EachStep (fun pre e => e.2 = .cycle →
      Agrees (supervisorCycle p ((machine p t₀).state pre) e.1)) es ↔
    EachStep (fun pre e => e.2 = .cycle → ¬ Drifts p ((machine p t₀).state pre) e.1) es := by
  apply eachStep_congr
  intro pre e
  rw [agrees_iff]

/-- The link is lost while the operator asks for JOG: the cycle reports READY and commands JOG. -/
theorem linkLoss_ready_jog :
    let es : List (Time × ManagerEvent) := [(400000000, .teleop { requestedMode := 2 })]
    let cycle := supervisorCycle {} ((machine {} 0).state es) 600000000
    cycle.status.state = "READY" ∧ cycle.status.requestedMode = "JOG" ∧ cycle.command.mode = 2 ∧
      ¬ Agrees cycle := by
  intro es cycle
  have hstate : cycle.status.state = "READY" := by decide +kernel
  have hmode : cycle.command.mode = 2 := by decide +kernel
  refine ⟨hstate, by decide +kernel, hmode, fun h => ?_⟩
  obtain ⟨state, -, hs, -, hm⟩ := h
  obtain rfl : .ready = state := stateToString_inj.mp (hstate.symm.trans hs)
  rw [hmode] at hm
  exact absurd hm (by decide)

end ArgusManagerNode

end ArgusGate
