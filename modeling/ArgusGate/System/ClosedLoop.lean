import ArgusGate.Foundation.Topic
import ArgusGate.Manager.Run
import ArgusGate.PlcSim.Step

/-!
# The manager and the simulator in a closed loop

The two nodes are joined by the topics `plc_command` and `plc_status`, each in order and without
loss. Other nodes may publish on both topics as well. A command in the topic carries a note of
where it came from: the note is no part of the message, and no node reads it.
-/

namespace ArgusGate

open Reactive ArgusManagerNode

/-- Who published a command: a supervisor cycle, with the `teleop_alive` it computed, or another
node. -/
inductive Origin where
  | cycle (teleopAlive : Bool)
  | other
  deriving DecidableEq

/-- A message on `plc_command`. -/
structure Sent where
  command : PlcCommand
  origin : Origin
  deriving DecidableEq

structure ClosedLoop where
  manager : ArgusManagerNode
  sim : PlcSimNode
  commands : Topic Sent
  statuses : Topic PlcStatus

/-- What can happen in the loop. Teleop messages, and statuses and commands of other nodes, are
arbitrary. -/
inductive LoopEvent where
  | teleop (msg : TeleopCommand)
  | status (msg : PlcStatus)
  | cycle
  | publishCommand (cmd : PlcCommand)
  | deliverCommand
  | deliverStatus
  | tick

namespace ClosedLoop

def construct (q : PlcSimParams) (t₀ : Time) : ClosedLoop where
  manager := ArgusManagerNode.construct t₀
  sim := PlcSimNode.construct q
  commands := .empty
  statuses := .empty

/-- The simulator takes the next command. -/
def deliverCommand (σ : ClosedLoop) : ClosedLoop :=
  match σ.commands.next? with
  | some sent =>
    { σ with sim := σ.sim.commandCallback sent.command, commands := σ.commands.take }
  | none => σ

/-- The manager takes the next status. -/
def deliverStatus (σ : ClosedLoop) (now : Time) : ClosedLoop :=
  match σ.statuses.next? with
  | some st => { σ with manager := σ.manager.onStatusReceived st now, statuses := σ.statuses.take }
  | none => σ

/-- The simulator's timer fires. -/
def tick (q : PlcSimParams) (σ : ClosedLoop) : ClosedLoop :=
  { σ with
    sim := σ.sim.tick q
    statuses := (σ.sim.publishStatus q).2.elim σ.statuses σ.statuses.publish }

/-- A supervisor cycle publishes its command. -/
def cycle (p : ManagerParams) (σ : ClosedLoop) (now : Time) : ClosedLoop :=
  { σ with
    manager := (supervisorCycle p σ.manager now).node
    commands := σ.commands.publish
      ⟨(supervisorCycle p σ.manager now).command, .cycle (teleopAlive p σ.manager now)⟩ }

def handle (p : ManagerParams) (q : PlcSimParams) (σ : ClosedLoop) :
    Time × LoopEvent → ClosedLoop
  | (now, .teleop msg) => { σ with manager := σ.manager.onTeleopReceived msg now }
  | (now, .status msg) => { σ with manager := σ.manager.onStatusReceived msg now }
  | (now, .cycle) => σ.cycle p now
  | (_, .publishCommand cmd) => { σ with commands := σ.commands.publish ⟨cmd, .other⟩ }
  | (_, .deliverCommand) => σ.deliverCommand
  | (now, .deliverStatus) => σ.deliverStatus now
  | (_, .tick) => σ.tick q

def machine (p : ManagerParams) (q : PlcSimParams) (t₀ : Time) :
    Machine ClosedLoop (Time × LoopEvent) :=
  { start := construct q t₀, step := handle p q }

@[simp] theorem machine_start (p : ManagerParams) (q : PlcSimParams) (t₀ : Time) :
    (machine p q t₀).start = construct q t₀ := rfl

@[simp] theorem machine_step (p : ManagerParams) (q : PlcSimParams) (t₀ : Time) (σ : ClosedLoop)
    (e : Time × LoopEvent) : (machine p q t₀).step σ e = handle p q σ e := rfl

@[simp] theorem deliverStatus_sim (σ : ClosedLoop) (now : Time) :
    (σ.deliverStatus now).sim = σ.sim := by
  unfold deliverStatus
  split <;> rfl

@[simp] theorem deliverStatus_commands (σ : ClosedLoop) (now : Time) :
    (σ.deliverStatus now).commands = σ.commands := by
  unfold deliverStatus
  split <;> rfl

theorem deliverCommand_of_next {σ : ClosedLoop} {sent : Sent} (h : σ.commands.next? = some sent) :
    σ.deliverCommand =
      { σ with sim := σ.sim.commandCallback sent.command, commands := σ.commands.take } := by
  simp [deliverCommand, h]

/-! ## The nodes' own runs -/

/-- What the simulator handles in a step of the loop. -/
def simEvents (σ : ClosedLoop) : Time × LoopEvent → List SimEvent
  | (_, .deliverCommand) => (σ.commands.next?.map fun sent => .command sent.command).toList
  | (_, .tick) => [.tick]
  | _ => []

/-- What the manager handles in a step of the loop. -/
def managerEvents (σ : ClosedLoop) : Time × LoopEvent → List (Time × ManagerEvent)
  | (now, .teleop msg) => [(now, .teleop msg)]
  | (now, .status msg) => [(now, .status msg)]
  | (now, .cycle) => [(now, .cycle)]
  | (now, .deliverStatus) => (σ.statuses.next?.map fun st => (now, .status st)).toList
  | _ => []

/-- The simulator of a run of the loop is a simulator run. -/
theorem sim_state (p : ManagerParams) (q : PlcSimParams) (t₀ : Time)
    (es : List (Time × LoopEvent)) : ((machine p q t₀).state es).sim =
      (PlcSimNode.machine q).state ((machine p q t₀).trace simEvents es) := by
  apply Machine.view_state
  · rfl
  · rintro σ ⟨now, e⟩
    cases e with
    | deliverCommand =>
      rw [machine_step, handle, deliverCommand, simEvents]
      cases σ.commands.next? <;> rfl
    | deliverStatus => rw [machine_step, handle, deliverStatus_sim]; rfl
    | _ => rfl

/-- The manager of a run of the loop is a manager run. -/
theorem manager_state (p : ManagerParams) (q : PlcSimParams) (t₀ : Time)
    (es : List (Time × LoopEvent)) : ((machine p q t₀).state es).manager =
      (ArgusManagerNode.machine p t₀).state ((machine p q t₀).trace managerEvents es) := by
  apply Machine.view_state
  · rfl
  · rintro σ ⟨now, e⟩
    cases e with
    | deliverCommand =>
      rw [machine_step, handle, deliverCommand]
      cases σ.commands.next? <;> rfl
    | deliverStatus =>
      rw [machine_step, handle, deliverStatus, managerEvents]
      cases σ.statuses.next? <;> rfl
    | _ => rfl

/-! ## The command topic -/

/-- Published commands stay where they are in the log. -/
theorem handle_log (p : ManagerParams) (q : PlcSimParams) (σ : ClosedLoop)
    (e : Time × LoopEvent) : σ.commands.log <+: (handle p q σ e).commands.log := by
  obtain ⟨now, e⟩ := e
  cases e with
  | teleop msg => exact List.prefix_rfl
  | status msg => exact List.prefix_rfl
  | cycle => exact List.prefix_append _ _
  | publishCommand cmd => exact List.prefix_append _ _
  | deliverCommand =>
    simp only [handle, deliverCommand]
    split
    · exact (Topic.take_log σ.commands).symm ▸ List.prefix_rfl
    · exact List.prefix_rfl
  | deliverStatus => simp [handle]
  | tick => exact List.prefix_rfl

theorem foldl_log (p : ManagerParams) (q : PlcSimParams) (σ : ClosedLoop)
    (es : List (Time × LoopEvent)) :
    σ.commands.log <+: (es.foldl (handle p q) σ).commands.log := by
  induction es generalizing σ with
  | nil => exact List.prefix_rfl
  | cons e es ih => exact (handle_log p q σ e).trans (ih _)

end ClosedLoop

end ArgusGate
