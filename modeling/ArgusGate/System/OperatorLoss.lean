import ArgusGate.System.ClosedLoop

/-!
# Loss of the operator

A cycle that finds teleop expired publishes the idle command in every branch, and the idle command
brings the simulator to READY with all flags down from every state. Nothing but another command
ends that.
-/

namespace ArgusGate.ClosedLoop

open Reactive ArgusManagerNode

/-- READY with all flags down. -/
structure Idle (s : PlcSimNode) : Prop where
  state : s.state = .ready
  busy : s.busy = false
  done : s.done = false
  synch : s.synch = false
  onTarget : s.onTarget = false

theorem idle_commandCallback (s : PlcSimNode) : Idle (s.commandCallback {}) := by
  rw [PlcSimNode.commandCallback_idle]
  constructor <;> rfl

theorem idle_tick {s : PlcSimNode} (h : Idle s) (q : PlcSimParams) : Idle (s.tick q) := by
  rw [PlcSimNode.tick_of_ready q s h.state]
  exact ⟨h.state, rfl, rfl, rfl, rfl⟩

/-- The simulator's last command came from a cycle that found teleop expired. -/
def StoppedByLoss (σ : ClosedLoop) : Prop :=
  ∃ sent, σ.commands.last? = some sent ∧ sent.origin = .cycle false

/-- Along every run: the commands of cycles without teleop are idle commands, and while the last
command taken is one of these the simulator is idle. -/
structure LossInv (σ : ClosedLoop) : Prop where
  commands : ∀ sent ∈ σ.commands.log, sent.origin = .cycle false → sent.command = {}
  idle : StoppedByLoss σ → Idle σ.sim

theorem lossInv_publish {σ : ClosedLoop} (h : LossInv σ) (m : ArgusManagerNode) (sent : Sent)
    (hsent : sent.origin = .cycle false → sent.command = {}) :
    LossInv { σ with manager := m, commands := σ.commands.publish sent } := by
  refine ⟨?_, ?_⟩
  · intro other hmem
    rcases Topic.mem_publish.mp hmem with hmem | rfl
    · exact h.commands other hmem
    · exact hsent
  · intro hstop
    apply h.idle
    simpa [StoppedByLoss] using hstop

theorem lossInv_deliverCommand {σ : ClosedLoop} (h : LossInv σ) : LossInv σ.deliverCommand := by
  cases hnext : σ.commands.next? with
  | none =>
    rw [deliverCommand, hnext]
    exact h
  | some sent =>
    rw [deliverCommand_of_next hnext]
    refine ⟨by simpa using h.commands, ?_⟩
    intro hstop
    obtain ⟨last, hlast, horigin⟩ := hstop
    rw [show σ.commands.take.last? = some sent from Topic.take_last? hnext] at hlast
    obtain rfl := Option.some.inj hlast
    have hidle := h.commands sent (Topic.mem_of_next? hnext) horigin
    simp only [hidle]
    exact idle_commandCallback σ.sim

theorem lossInv_handle {σ : ClosedLoop} (h : LossInv σ) (p : ManagerParams) (q : PlcSimParams)
    (e : Time × LoopEvent) : LossInv (handle p q σ e) := by
  obtain ⟨now, e⟩ := e
  cases e with
  | teleop msg => exact ⟨h.commands, h.idle⟩
  | status msg => exact ⟨h.commands, h.idle⟩
  | cycle =>
    apply lossInv_publish h
    intro horigin
    exact command_of_teleop_lost p σ.manager now (by simpa using horigin)
  | publishCommand cmd => exact lossInv_publish h _ _ (fun horigin => (by cases horigin))
  | deliverCommand => exact lossInv_deliverCommand h
  | deliverStatus =>
    refine ⟨by simpa [handle] using h.commands, fun hstop => ?_⟩
    simpa [handle] using h.idle (by simpa [handle, StoppedByLoss] using hstop)
  | tick => exact ⟨h.commands, fun hstop => idle_tick (h.idle hstop) q⟩

theorem lossInv (p : ManagerParams) (q : PlcSimParams) (t₀ : Time)
    (es : List (Time × LoopEvent)) : LossInv ((machine p q t₀).state es) := by
  apply (machine p q t₀).history_rule (P := fun _ σ => LossInv σ)
  · refine ⟨by simp [construct], ?_⟩
    rintro ⟨sent, hlast, -⟩
    cases hlast
  · intro es e ih
    exact lossInv_handle ih p q e

/-- Operator-loss stop. As long as the last command the simulator has processed is one of a cycle
that found teleop expired, a tick stands still and publishes READY with all flags down. -/
theorem operatorLoss_stops (p : ManagerParams) (q : PlcSimParams) (t₀ : Time)
    (es : List (Time × LoopEvent)) (h : StoppedByLoss ((machine p q t₀).state es)) :
    let s := ((machine p q t₀).state es).sim
    (s.tick q).currentPitch = s.currentPitch ∧ (s.tick q).currentYaw = s.currentYaw ∧
    ∃ st, (s.publishStatus q).2 = some st ∧ st.busy = false ∧ st.done = false ∧
      st.synch = false ∧ st.onTarget = false ∧
      st.status = Int16.ofInt (PlcSimNode.stateToStatusCode .ready) := by
  intro s
  have hidle : Idle s := (lossInv p q t₀ es).idle h
  have htick := PlcSimNode.tick_of_ready q s hidle.state
  have hnext : Idle (s.tick q) := idle_tick hidle q
  refine ⟨by rw [htick], by rw [htick], (s.tick q).statusMsg, ?_, hnext.busy, hnext.done,
    hnext.synch, hnext.onTarget, ?_⟩
  · exact PlcSimNode.publishStatus_status q s (by simp [hidle.state])
  · simp only [PlcSimNode.statusMsg, hnext.state]

/-- The stop at work: a homing simulator takes the command of the first cycle after teleop has been
silent for half a second. -/
theorem operatorLoss_stops_homing :
    let es : List (Time × LoopEvent) :=
      [(0, .status {}), (1000000, .teleop { requestedMode := 1 }), (2000000, .cycle),
        (3000000, .deliverCommand), (4000000, .tick), (502000000, .status {}),
        (503000000, .cycle), (504000000, .deliverCommand)]
    let s := ((machine {} { initialYaw := 1 } 0).state es).sim
    (s.tick { initialYaw := 1 }).currentYaw = s.currentYaw := by
  intro es s
  have h : StoppedByLoss ((machine {} { initialYaw := 1 } 0).state es) :=
    ⟨⟨{}, .cycle false⟩, by decide +kernel, rfl⟩
  exact (operatorLoss_stops {} { initialYaw := 1 } 0 es h).2.1

end ArgusGate.ClosedLoop
