import ArgusGate.PlcSim.Moves
import ArgusGate.PlcSim.Status

/-!
# The gate behind the simulator

An abstract model of what the simulator simulates: two axes and a task. A task holds what it needs and
nothing else; the flags of a status are not stored, they are the outcome of the tick that publishes it.
`publishes_gate` says that nobody can tell the simulator from it, with its stored flags, and its targets,
directions and counters that outlive the motion they were set for.
-/

namespace ArgusGate

open Reactive Approach

inductive GateTask where
  | starting
  | resting
  | homingPitch
  | homingYaw
  | homed
  /-- The axes go by these distances in every tick. -/
  | jogging (pitch yaw : ℚ)
  | following (pitch yaw : ℚ)
  | failed
  deriving DecidableEq

/-- What a tick has brought about. -/
inductive Outcome where
  | idle
  | moving
  | arrived
  | homed
  deriving DecidableEq

structure Gate where
  pitch : ℚ
  yaw : ℚ
  task : GateTask := .starting
  errorCode : Int := 0
  lifeWord : UInt16 := 0

namespace GateTask

/-- A task that `fire` turns into a failure. -/
def armed : GateTask → Bool
  | .jogging _ _ | .following _ _ => true
  | _ => false

def isFollowing : GateTask → Bool
  | .following _ _ => true
  | _ => false

def statusCode : GateTask → Int
  | .starting => 0
  | .resting => 2
  | .homingPitch | .homingYaw | .homed => 3
  | .jogging _ _ => 4
  | .following _ _ => 5
  | .failed => -1

end GateTask

/-- How far a jog command moves an axis in a tick. -/
def Axis.jogStep (a : Axis) (q : PlcSimParams) (msg : PlcCommand) : ℚ :=
  a.jogged msg * q.stepPerCycle * PlcSimNode.jogScale (a.override msg)

namespace Gate

def construct (q : PlcSimParams) : Gate := { pitch := q.initialPitch, yaw := q.initialYaw }

/-- A command gives the gate its next task, whatever it was doing. -/
def obey (q : PlcSimParams) (g : Gate) (msg : PlcCommand) : Gate :=
  let g := { g with lifeWord := msg.lifeWord }
  if msg.fire ∧ g.task.armed then { g with task := .failed, errorCode := 100 }
  else if msg.ack ∧ g.task = .failed then { g with task := .resting, errorCode := 0 }
  else if msg.mode = 1 ∧ msg.exec then { g with task := .homingPitch }
  else if msg.mode = 2 then
    { g with task := .jogging (Axis.jogStep .pitch q msg) (Axis.jogStep .yaw q msg) }
  else if msg.mode = 3 ∧ (msg.exec ∨ g.task.isFollowing) then
    { g with task := .following msg.targetPitch msg.targetYaw }
  else { g with task := .resting }

/-- A tick works on the task. -/
def work (q : PlcSimParams) (g : Gate) : Gate × Outcome :=
  let go := approach q.stepPerCycle q.targetTolerance
  match g.task with
  | .starting => ({ g with task := .resting, errorCode := 0 }, .idle)
  | .homingPitch =>
    ({ g with
       pitch := (go g.pitch 0).1
       task := if (go g.pitch 0).2 then .homingYaw else .homingPitch }, .moving)
  | .homingYaw =>
    ({ g with
       yaw := (go g.yaw 0).1
       task := if (go g.yaw 0).2 then .homed else .homingYaw }, .moving)
  | .homed => ({ g with task := .resting }, .homed)
  | .jogging pitch yaw => ({ g with pitch := g.pitch + pitch, yaw := g.yaw + yaw }, .idle)
  | .following pitch yaw =>
    let there := (go g.pitch pitch).2 && (go g.yaw yaw).2
    ({ g with
       pitch := (go g.pitch pitch).1
       yaw := (go g.yaw yaw).1
       task := if there then .resting else g.task }, if there then .arrived else .moving)
  | .resting | .failed => (g, .idle)

theorem work_of_homingPitch {q : PlcSimParams} {g : Gate} (h : g.task = .homingPitch) :
    g.work q =
      ({ g with
         pitch := (approach q.stepPerCycle q.targetTolerance g.pitch 0).1
         task := if (approach q.stepPerCycle q.targetTolerance g.pitch 0).2 then .homingYaw
           else .homingPitch }, .moving) := by
  simp [work, h]

theorem work_of_homingYaw {q : PlcSimParams} {g : Gate} (h : g.task = .homingYaw) :
    g.work q =
      ({ g with
         yaw := (approach q.stepPerCycle q.targetTolerance g.yaw 0).1
         task := if (approach q.stepPerCycle q.targetTolerance g.yaw 0).2 then .homed
           else .homingYaw }, .moving) := by
  simp [work, h]

/-- The status of a gate after a tick with the given outcome. -/
def report (g : Gate) (outcome : Outcome) : PlcStatus where
  lifeWord := g.lifeWord + 1
  done := outcome = .arrived ∨ outcome = .homed
  busy := outcome = .moving
  synch := outcome = .homed
  onTarget := outcome = .arrived ∨ outcome = .homed
  status := Int16.ofInt g.task.statusCode
  error := Int16.ofInt g.errorCode
  posPitch := g.pitch
  posYaw := g.yaw
  checksum := 0

/-- A gate that is starting does not report. -/
def tick (q : PlcSimParams) (g : Gate) : Gate × Option PlcStatus :=
  ((g.work q).1,
    if g.task = .starting then none else some ((g.work q).1.report (g.work q).2))

def machine (q : PlcSimParams) : Machine Gate SimEvent where
  start := construct q
  step
    | g, .command msg => g.obey q msg
    | g, .tick => (g.tick q).1

/-- What an event publishes. -/
def publishes (q : PlcSimParams) (g : Gate) : SimEvent → List PlcStatus
  | .command _ => []
  | .tick => (g.tick q).2.toList

end Gate

namespace PlcSimNode

/-- What an event publishes. -/
def publishes (q : PlcSimParams) (s : PlcSimNode) : SimEvent → List PlcStatus
  | .command _ => []
  | .tick => (s.publishStatus q).2.toList

/-- The task that a simulator is at. -/
def task (q : PlcSimParams) (s : PlcSimNode) : GateTask :=
  match s.state with
  | .startup => .starting
  | .stop | .ready => .resting
  | .synch => if s.syncStep = 0 then .homingPitch else if s.syncStep = 1 then .homingYaw else .homed
  | .jog =>
    .jogging (s.pitchDirection * q.stepPerCycle * jogScale s.lastCommand.pitchOverride)
      (s.yawDirection * q.stepPerCycle * jogScale s.lastCommand.yawOverride)
  | .follow => .following s.targetPitch s.targetYaw
  | .error => .failed

/-- The gate that a simulator stands for. -/
def gate (q : PlcSimParams) (s : PlcSimNode) : Gate where
  pitch := s.currentPitch
  yaw := s.currentYaw
  task := s.task q
  errorCode := s.errorCode
  lifeWord := s.lastCommand.lifeWord

variable {q : PlcSimParams} {s : PlcSimNode}

theorem armed_task : (s.task q).armed = true ↔ s.state = .jog ∨ s.state = .follow := by
  cases hs : s.state with
  | synch =>
    simp only [task, hs]
    split_ifs <;> simp [GateTask.armed]
  | _ => simp [task, hs, GateTask.armed]

theorem isFollowing_task : (s.task q).isFollowing = true ↔ s.state = .follow := by
  cases hs : s.state with
  | synch =>
    simp only [task, hs]
    split_ifs <;> simp [GateTask.isFollowing]
  | _ => simp [task, hs, GateTask.isFollowing]

theorem task_failed : s.task q = .failed ↔ s.state = .error := by
  cases hs : s.state with
  | synch =>
    simp only [task, hs]
    split_ifs <;> simp
  | _ => simp [task, hs]

theorem task_starting : s.task q = .starting ↔ s.state = .startup := by
  cases hs : s.state with
  | synch =>
    simp only [task, hs]
    split_ifs <;> simp
  | _ => simp [task, hs]

/-- The simulator takes a command as its gate does. -/
theorem gate_command (q : PlcSimParams) (s : PlcSimNode) (msg : PlcCommand) :
    (s.commandCallback msg).gate q = (s.gate q).obey q msg := by
  simp only [commandCallback, Gate.obey, gate, armed_task, task_failed, isFollowing_task]
  by_cases hfire : msg.fire = true ∧ (s.state = .jog ∨ s.state = .follow)
  · rw [if_pos hfire, if_pos hfire]
    rfl
  · rw [if_neg hfire, if_neg hfire]
    by_cases hack : msg.ack = true ∧ s.state = .error
    · rw [if_pos hack, if_pos hack]
      rfl
    · rw [if_neg hack, if_neg hack]
      by_cases hsynch : msg.mode = 1 ∧ msg.exec = true
      · rw [if_pos hsynch, if_pos hsynch]
        rfl
      · rw [if_neg hsynch, if_neg hsynch]
        by_cases hjog : msg.mode = 2
        · rw [if_pos hjog, if_pos hjog]
          rfl
        · rw [if_neg hjog, if_neg hjog, ite_and]
          split_ifs <;> rfl

/-- A tick of the homing sequencer. -/
theorem gate_tick_synch (q : PlcSimParams) (hs : s.state = .synch) :
    (s.tick q).gate q = ((s.gate q).work q).1 ∧
      some (s.tick q).statusMsg = some (((s.gate q).work q).1.report ((s.gate q).work q).2) := by
  by_cases h0 : s.syncStep = 0
  · have htask : (s.gate q).task = .homingPitch := by simp [gate, task, hs, h0]
    rw [tick_pitchStep q s hs h0, Gate.work_of_homingPitch htask]
    simp only [moveTowards_eq, gate]
    by_cases hdone : (approach q.stepPerCycle q.targetTolerance s.currentPitch 0).2 = true <;>
      simp [hdone, Gate.report, statusMsg, task, hs, stateToStatusCode, GateTask.statusCode]
  · by_cases h1 : s.syncStep = 1
    · have htask : (s.gate q).task = .homingYaw := by simp [gate, task, hs, h1]
      rw [tick_yawStep q s hs h1, Gate.work_of_homingYaw htask]
      simp only [moveTowards_eq, gate]
      by_cases hdone : (approach q.stepPerCycle q.targetTolerance s.currentYaw 0).2 = true <;>
        simp [hdone, Gate.report, statusMsg, task, hs, stateToStatusCode, GateTask.statusCode]
    · rw [tick_lastStep q s hs h0 h1]
      simp [Gate.work, Gate.report, gate, task, statusMsg, hs, h0, h1, stateToStatusCode,
        GateTask.statusCode]

/-- It works as its gate does, and reports the outcome. -/
theorem gate_tick (q : PlcSimParams) (h : s.state ≠ .stop) :
    (s.tick q).gate q = ((s.gate q).tick q).1 ∧
      (s.publishStatus q).2 = ((s.gate q).tick q).2 := by
  have hsilent : (s.gate q).task = .starting ↔ s.state = .startup := task_starting
  by_cases hstart : s.state = .startup
  · rw [tick_of_startup q s hstart]
    simp [Gate.tick, Gate.work, publishStatus, gate, task, hstart]
  · rw [publishStatus_status q s hstart, Gate.tick, if_neg (hsilent.not.mpr hstart)]
    cases hs : s.state with
    | startup => exact absurd hs hstart
    | stop => exact absurd hs h
    | ready =>
      rw [tick_of_ready q s hs]
      simp [Gate.work, Gate.report, gate, task, statusMsg, hs, stateToStatusCode, GateTask.statusCode]
    | error =>
      rw [tick_of_error q s hs]
      simp [Gate.work, Gate.report, gate, task, statusMsg, hs, stateToStatusCode, GateTask.statusCode]
    | jog =>
      rw [tick_of_jog q s hs]
      simp [Gate.work, Gate.report, gate, task, statusMsg, hs, stateToStatusCode, GateTask.statusCode,
        tickJog]
    | follow =>
      rw [tick_eq_tickFollow q s hs]
      simp only [tickFollow, moveTowards_eq, Gate.work, gate, task, hs]
      cases (approach q.stepPerCycle q.targetTolerance s.currentPitch s.targetPitch).2 <;>
        cases (approach q.stepPerCycle q.targetTolerance s.currentYaw s.targetYaw).2 <;>
        simp [Gate.report, statusMsg, stateToStatusCode, GateTask.statusCode]
    | synch => exact gate_tick_synch q hs

theorem gate_state (q : PlcSimParams) (es : List SimEvent) :
    ((machine q).state es).gate q = (Gate.machine q).state es := by
  apply (machine q).history_rule (P := fun es s => s.gate q = (Gate.machine q).state es)
  · rfl
  · intro es e ih
    rw [Machine.state_concat, ← ih]
    cases e with
    | command msg => exact gate_command q _ msg
    | tick => exact (gate_tick q (syncInv q es).ne_stop).1

/-- Refinement. In every run, whatever commands come in and whenever, the simulator publishes what its gate
publishes. -/
theorem publishes_gate (q : PlcSimParams) (es : List SimEvent) :
    (machine q).trace (publishes q) es = (Gate.machine q).trace (Gate.publishes q) es := by
  apply (machine q).trace_congr
  intro es e
  rw [← gate_state]
  cases e with
  | command msg => rfl
  | tick => exact congrArg Option.toList (gate_tick q (syncInv q es).ne_stop).2

end PlcSimNode

end ArgusGate
