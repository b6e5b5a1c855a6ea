import ArgusGate.PlcSim.ErrorLatch
import ArgusGate.System.ClosedLoop

/-!
# Error recovery in the closed loop

An operator reset is one acknowledging command, and the simulator honours it only in state ERROR.
Between the error and the reset the manager sends a mode 0 command on every cycle, and the first
of them that is processed takes the simulator out of ERROR with its error code still set.
-/

namespace ArgusGate.ClosedLoop

open Reactive ArgusManagerNode PlcSimNode

/-- The cycle at `now` is one that sees a fresh operator reset for a reported error, with both
watchdogs alive. -/
structure SeesReset (p : ManagerParams) (m : ArgusManagerNode) (now : Time) : Prop where
  plc : plcAlive p m now = true
  teleop : teleopAlive p m now = true
  error : m.lastStatus.error ≠ 0
  edge : m.detectAckEdge = true

/-- The error is gone, and the next status says so, whatever commands other than fire commands are
processed before it. -/
structure Recovered (q : PlcSimParams) (s : PlcSimNode) : Prop where
  code : s.errorCode = 0
  status : ∀ cmds : List PlcCommand, (∀ c ∈ cmds, c.fire = false) →
    ∀ st, ((cmds.foldl commandCallback s).publishStatus q).2 = some st → st.error = 0

/-- An error code that has been cleared stays so until a fire command. -/
theorem errorCode_commands {s : PlcSimNode} (hcode : s.errorCode = 0) {cmds : List PlcCommand}
    (hfire : ∀ c ∈ cmds, c.fire = false) : (cmds.foldl commandCallback s).errorCode = 0 := by
  induction cmds generalizing s with
  | nil => exact hcode
  | cons c cmds ih =>
    have hnone : ¬ Raises s c := by
      rintro ⟨hraise, -⟩
      rw [hfire c List.mem_cons_self] at hraise
      cases hraise
    apply ih
    · rw [commandCallback_errorCode, if_neg hnone]
      split_ifs
      · rfl
      · exact hcode
    · exact fun c' hc' => hfire c' (List.mem_cons_of_mem c hc')

theorem recovered_iff (q : PlcSimParams) (s : PlcSimNode) : Recovered q s ↔ s.errorCode = 0 := by
  refine ⟨fun h => h.code, ?_⟩
  intro hcode
  refine ⟨hcode, ?_⟩
  intro cmds hfire st hst
  have hkeep := errorCode_commands hcode hfire
  generalize cmds.foldl commandCallback s = s' at hst hkeep
  by_cases hstart : s'.state = .startup
  · simp [publishStatus, hstart] at hst
  · rw [publishStatus_status q s' hstart] at hst
    obtain rfl := Option.some.inj hst
    simp only [statusMsg]
    rw [tick_errorCode, if_neg hstart, hkeep]
    rfl

/-- What an acknowledging command does to the error. -/
theorem errorCode_of_ack {s : PlcSimNode} {mode : Int16} :
    (s.commandCallback { ack := true, mode := mode }).errorCode = 0 ↔
      s.state = .error ∨ s.errorCode = 0 := by
  have hnone : ¬ Raises s { ack := true, mode := mode } := by simp [Raises]
  rw [commandCallback_errorCode, if_neg hnone]
  split_ifs with hack
  · simp [hack.2]
  · have hstate : s.state ≠ .error := fun h => hack ⟨rfl, h⟩
    simp [hstate]

/-- When the simulator has taken as many commands as were published before the cycle, the next one
it takes is the command of that cycle. -/
theorem next_of_cycle {p : ManagerParams} {q : PlcSimParams} {t₀ now : Time}
    {es fs : List (Time × LoopEvent)}
    (hturn : ((machine p q t₀).state (es ++ (now, .cycle) :: fs)).commands.taken =
      ((machine p q t₀).state es).commands.log.length) :
    ((machine p q t₀).state (es ++ (now, .cycle) :: fs)).commands.next? =
      some ⟨(supervisorCycle p ((machine p q t₀).state es).manager now).command,
        .cycle (teleopAlive p ((machine p q t₀).state es).manager now)⟩ := by
  have hlog := foldl_log p q (((machine p q t₀).state es).cycle p now) fs
  have hstate : (machine p q t₀).state (es ++ (now, .cycle) :: fs) =
      fs.foldl (handle p q) (((machine p q t₀).state es).cycle p now) := by
    rw [Machine.state_append]
    rfl
  rw [Topic.next?, hturn, hstate]
  obtain ⟨rest, hrest⟩ := hlog
  rw [← hrest]
  simp [cycle]

/-- Error recovery, for every run: once the simulator has processed the command of a cycle that saw
a fresh reset, it has recovered exactly if the error was not dropped before. -/
theorem errorRecovery_iff (p : ManagerParams) (q : PlcSimParams) (t₀ now t : Time)
    (es fs : List (Time × LoopEvent))
    (hreset : SeesReset p ((machine p q t₀).state es).manager now)
    (hturn : ((machine p q t₀).state (es ++ (now, .cycle) :: fs)).commands.taken =
      ((machine p q t₀).state es).commands.log.length) :
    let τ := (machine p q t₀).state (es ++ (now, .cycle) :: fs ++ [(t, .deliverCommand)])
    Recovered q τ.sim ↔
      ¬ Dropped q ((machine p q t₀).trace simEvents (es ++ (now, .cycle) :: fs)) := by
  intro τ
  have hnext := next_of_cycle hturn
  have hτ : τ.sim = ((machine p q t₀).state (es ++ (now, .cycle) :: fs)).sim.commandCallback
      (supervisorCycle p ((machine p q t₀).state es).manager now).command := by
    simp only [τ, Machine.state_concat, machine_step, handle]
    rw [deliverCommand_of_next hnext]
  rw [recovered_iff, hτ,
    command_of_ack p _ now hreset.plc hreset.teleop hreset.error hreset.edge, errorCode_of_ack,
    sim_state, dropped_iff]
  tauto

/-- Another node sends a fire command while the operator jogs, and the manager receives the status
that reports error 100. -/
def errorReported : List (Time × LoopEvent) :=
  [(1000000, .tick), (2000000, .tick), (3000000, .deliverStatus),
    (4000000, .teleop { requestedMode := 2 }), (5000000, .cycle), (6000000, .deliverCommand),
    (7000000, .publishCommand { fire := true }), (8000000, .deliverCommand),
    (9000000, .tick), (10000000, .deliverStatus)]

/-- A reset that reaches the simulator in ERROR: the operator presses it before the next cycle. -/
theorem errorRecovery_at_once :
    let es := errorReported ++ [(11000000, .teleop { requestedMode := 2, resetError := true })]
    Recovered {} ((machine {} {} 0).state
      (es ++ (12000000, .cycle) :: [] ++ [(13000000, .deliverCommand)])).sim := by
  intro es
  have hreset : SeesReset {} ((machine {} {} 0).state es).manager 12000000 :=
    ⟨by decide +kernel, by decide +kernel, by decide +kernel, by decide +kernel⟩
  apply (errorRecovery_iff {} {} 0 12000000 13000000 es [] hreset (by decide +kernel)).mpr
  rw [dropped_iff, ← sim_state]
  rintro ⟨hstate, -⟩
  exact hstate (by decide +kernel)

/-- One supervisor cycle between the error and the reset, and the reset is lost: its command does
carry `ack`, but the simulator is no longer in ERROR and keeps error code 100. -/
theorem errorRecovery_lost :
    let es := errorReported ++
      [(11000000, .cycle), (12000000, .deliverCommand), (13000000, .tick),
        (14000000, .deliverStatus), (15000000, .teleop { requestedMode := 2, resetError := true })]
    let σ := (machine {} {} 0).state (es ++ (16000000, .cycle) :: [])
    let τ := (machine {} {} 0).state
      (es ++ (16000000, .cycle) :: [] ++ [(17000000, .deliverCommand)])
    SeesReset {} ((machine {} {} 0).state es).manager 16000000 ∧
    σ.commands.taken = ((machine {} {} 0).state es).commands.log.length ∧
    (σ.commands.next?.map fun sent => sent.command.ack) = some true ∧
    τ.sim.errorCode = 100 ∧ ¬ Recovered {} τ.sim := by
  intro es σ τ
  have hcode : τ.sim.errorCode = 100 := by decide +kernel
  refine ⟨⟨by decide +kernel, by decide +kernel, by decide +kernel, by decide +kernel⟩,
    by decide +kernel, by decide +kernel, hcode, ?_⟩
  rw [recovered_iff, hcode]
  decide

end ArgusGate.ClosedLoop
