import ArgusGate.PlcBridge.Reception
import ArgusGate.System.Console

/-!
# The whole graph

The operator's side and what stands at the other end of `plc_command` and `plc_status`: the launch file
starts either the simulator there, or the bridge, which goes between the graph and a PLC. The manager and
the GUI publish commands, the plant publishes statuses, and there is nobody else; these are all the nodes of
the repository.
-/

namespace ArgusGate

open Reactive ArgusManagerNode

/-- What takes the commands and publishes the statuses: its start, its command callback, and what it does
by itself, which may publish a status. -/
structure Plant (ρ ι : Type) where
  start : ρ
  command : ρ → PlcCommand → ρ
  run : ρ → ι → ρ × Option PlcStatus

/-- The plant works on the last command it has received, in the sense of `works`. -/
structure Plant.WorksOn {ρ ι : Type} (P : Plant ρ ι) (works : ρ → PlcCommand → Prop) : Prop where
  start : works P.start {}
  command : ∀ s msg, works (P.command s msg) msg
  run : ∀ s i cmd, works s cmd → works (P.run s i).1 cmd

structure Graph (ρ : Type) where
  console : Console
  plant : ρ
  plcCommand : Topic (Time × PlcCommand) := .empty
  plcStatus : Topic (Time × PlcStatus) := .empty

inductive GraphEvent (ι : Type) where
  | station (e : StationEvent)
  | deliverCommand
  | loseCommand
  /-- The plant does something by itself. -/
  | run (i : ι)
  | deliverStatus
  | loseStatus

namespace Graph

variable {ρ ι : Type}

def construct (c : Setup) (P : Plant ρ ι) : Graph ρ where
  console := .construct c
  plant := P.start

def deliverCommand (P : Plant ρ ι) (σ : Graph ρ) : Graph ρ :=
  match σ.plcCommand.next? with
  | none => σ
  | some m => { σ with plant := P.command σ.plant m.2, plcCommand := σ.plcCommand.take }

def deliverStatus (c : Setup) (σ : Graph ρ) (now : Time) : Graph ρ :=
  match σ.plcStatus.next? with
  | none => σ
  | some m =>
    { σ with
      console := σ.console.handle c (now, .status m.2)
      plcStatus := σ.plcStatus.take }

def handle (c : Setup) (P : Plant ρ ι) (σ : Graph ρ) : Time × GraphEvent ι → Graph ρ
  | (now, .station e) =>
    { σ with
      console := σ.console.station c (now, e)
      plcCommand := σ.plcCommand.publishSome ((σ.console.commandOut c (now, e)).map (now, ·)) }
  | (_, .deliverCommand) => σ.deliverCommand P
  | (_, .loseCommand) => { σ with plcCommand := σ.plcCommand.take }
  | (now, .run i) =>
    { σ with
      plant := (P.run σ.plant i).1
      plcStatus := σ.plcStatus.publishSome ((P.run σ.plant i).2.map (now, ·)) }
  | (now, .deliverStatus) => σ.deliverStatus c now
  | (_, .loseStatus) => { σ with plcStatus := σ.plcStatus.take }

def machine (c : Setup) (P : Plant ρ ι) : Machine (Graph ρ) (Time × GraphEvent ι) :=
  { start := construct c P, step := handle c P }

variable (c : Setup) (P : Plant ρ ι)

@[simp] theorem machine_start : (machine c P).start = construct c P := rfl

@[simp] theorem machine_step (σ : Graph ρ) (e : Time × GraphEvent ι) :
    (machine c P).step σ e = σ.handle c P e := rfl

theorem deliverCommand_of_next {σ : Graph ρ} {m : Time × PlcCommand}
    (h : σ.plcCommand.next? = some m) : σ.deliverCommand P =
      { σ with plant := P.command σ.plant m.2, plcCommand := σ.plcCommand.take } := by
  simp [deliverCommand, h]

theorem deliverCommand_of_none {σ : Graph ρ} (h : σ.plcCommand.next? = none) :
    σ.deliverCommand P = σ := by
  simp [deliverCommand, h]

theorem deliverStatus_of_next {σ : Graph ρ} {now : Time} {m : Time × PlcStatus}
    (h : σ.plcStatus.next? = some m) : σ.deliverStatus c now =
      { σ with
        console := σ.console.handle c (now, .status m.2)
        plcStatus := σ.plcStatus.take } := by
  simp [deliverStatus, h]

theorem deliverStatus_of_none {σ : Graph ρ} {now : Time} (h : σ.plcStatus.next? = none) :
    σ.deliverStatus c now = σ := by
  simp [deliverStatus, h]

variable {c P}

/-- The step rule: what holds at the start and is kept by the operator's side, by the plant, by the
delivery of a waiting message and by the loss of one, holds in every run. -/
theorem graph_rule {Q : List (Time × GraphEvent ι) → Graph ρ → Prop}
    (start : Q [] (construct c P))
    (station : ∀ es now e, Q es ((machine c P).state es) →
      Q (es ++ [(now, .station e)]) (((machine c P).state es).handle c P (now, .station e)))
    (command : ∀ es now m, ((machine c P).state es).plcCommand.next? = some m →
      Q es ((machine c P).state es) → Q (es ++ [(now, .deliverCommand)])
        { (machine c P).state es with
          plant := P.command ((machine c P).state es).plant m.2
          plcCommand := ((machine c P).state es).plcCommand.take })
    (run : ∀ es now i, Q es ((machine c P).state es) →
      Q (es ++ [(now, .run i)]) (((machine c P).state es).handle c P (now, .run i)))
    (status : ∀ es now m, ((machine c P).state es).plcStatus.next? = some m →
      Q es ((machine c P).state es) → Q (es ++ [(now, .deliverStatus)])
        { (machine c P).state es with
          console := ((machine c P).state es).console.handle c (now, .status m.2)
          plcStatus := ((machine c P).state es).plcStatus.take })
    (skip : ∀ es e σ, Q es ((machine c P).state es) → σ.console = ((machine c P).state es).console →
      σ.plant = ((machine c P).state es).plant →
      σ.plcCommand.log = ((machine c P).state es).plcCommand.log →
      σ.plcStatus.log = ((machine c P).state es).plcStatus.log → Q (es ++ [e]) σ)
    (es : List (Time × GraphEvent ι)) : Q es ((machine c P).state es) := by
  apply (machine c P).history_rule start
  rintro es ⟨now, e⟩ ih
  cases e with
  | station e => exact station es now e ih
  | deliverCommand =>
    rw [machine_step, handle]
    cases hnext : ((machine c P).state es).plcCommand.next? with
    | none =>
      rw [deliverCommand_of_none P hnext]
      exact skip es _ _ ih rfl rfl rfl rfl
    | some m =>
      rw [deliverCommand_of_next P hnext]
      exact command es now m hnext ih
  | loseCommand => exact skip es _ _ ih rfl rfl (Topic.take_log _) rfl
  | run i => exact run es now i ih
  | deliverStatus =>
    rw [machine_step, handle]
    cases hnext : ((machine c P).state es).plcStatus.next? with
    | none =>
      rw [deliverStatus_of_none c hnext]
      exact skip es _ _ ih rfl rfl rfl rfl
    | some m =>
      rw [deliverStatus_of_next c hnext]
      exact status es now m hnext ih
  | loseStatus => exact skip es _ _ ih rfl rfl rfl (Topic.take_log _)

/-! ## The operator's side -/

/-- What the operator's side handles in a step of the graph. -/
def consoleEvents (σ : Graph ρ) : Time × GraphEvent ι → List (Time × ConsoleEvent)
  | (now, .station e) => [(now, .station e)]
  | (now, .deliverStatus) => (σ.plcStatus.next?.map fun m => (now, .status m.2)).toList
  | _ => []

variable (c P) (es : List (Time × GraphEvent ι))

theorem console_state : ((machine c P).state es).console =
    (Console.machine c).state ((machine c P).trace consoleEvents es) := by
  apply Machine.view_state
  · rfl
  · rintro σ ⟨now, e⟩
    cases e with
    | deliverCommand =>
      simp only [machine_step, handle, deliverCommand]
      cases σ.plcCommand.next? <;> rfl
    | deliverStatus =>
      simp only [machine_step, handle, deliverStatus, consoleEvents]
      cases σ.plcStatus.next? <;> rfl
    | _ => rfl

variable {c P es}

/-- What the operator does on the operator's side is done in the graph. -/
theorem mem_of_consoleEvents {u : Time} {e : StationEvent}
    (h : (u, ConsoleEvent.station e) ∈ (machine c P).trace consoleEvents es) :
    (u, GraphEvent.station e) ∈ es := by
  obtain ⟨pre, ⟨now, e'⟩, post, rfl, hmem⟩ := (machine c P).mem_trace_iff.mp h
  cases e' with
  | station e' =>
    obtain ⟨rfl, rfl⟩ : u = now ∧ e = e' := by simpa [consoleEvents] using hmem
    simp
  | deliverStatus => simp [consoleEvents] at hmem
  | _ => cases hmem

/-! ## The topics -/

/-- What an event publishes on `plc_command`, stamped. -/
def stampedCommand (c : Setup) (σ : Graph ρ) : Time × GraphEvent ι → List (Time × PlcCommand)
  | (now, .station e) => ((σ.console.commandOut c (now, e)).map (now, ·)).toList
  | _ => []

/-- What an event publishes on `plc_status`, stamped. -/
def stampedStatus (P : Plant ρ ι) (σ : Graph ρ) : Time × GraphEvent ι → List (Time × PlcStatus)
  | (now, .run i) => ((P.run σ.plant i).2.map (now, ·)).toList
  | _ => []

variable (c P es)

theorem plcCommand_log :
    ((machine c P).state es).plcCommand.log = (machine c P).trace (stampedCommand c) es := by
  apply (machine c P).log_eq_trace fun σ => σ.plcCommand.log
  · rfl
  · rintro σ ⟨now, e⟩
    cases e with
    | deliverCommand =>
      simp only [machine_step, handle, deliverCommand]
      cases σ.plcCommand.next? <;> simp [stampedCommand]
    | deliverStatus =>
      simp only [machine_step, handle, deliverStatus]
      cases σ.plcStatus.next? <;> simp [stampedCommand]
    | _ => simp [handle, stampedCommand]

theorem plcStatus_log :
    ((machine c P).state es).plcStatus.log = (machine c P).trace (stampedStatus P) es := by
  apply (machine c P).log_eq_trace fun σ => σ.plcStatus.log
  · rfl
  · rintro σ ⟨now, e⟩
    cases e with
    | deliverCommand =>
      simp only [machine_step, handle, deliverCommand]
      cases σ.plcCommand.next? <;> simp [stampedStatus]
    | deliverStatus =>
      simp only [machine_step, handle, deliverStatus]
      cases σ.plcStatus.next? <;> simp [stampedStatus]
    | _ => simp [handle, stampedStatus]

variable {c P es}

/-- A command on `plc_command` is what an event of the operator's side has published. -/
theorem mem_plcCommand {s : Time} {cmd : PlcCommand}
    (h : (s, cmd) ∈ ((machine c P).state es).plcCommand.log) :
    ∃ pre e post, es = pre ++ (s, .station e) :: post ∧
      ((machine c P).state pre).console.commandOut c (s, e) = some cmd := by
  rw [plcCommand_log, Machine.mem_trace_iff] at h
  obtain ⟨pre, ⟨now, e⟩, post, rfl, hmem⟩ := h
  cases e with
  | station e =>
    obtain ⟨cmd', hout, heq⟩ : ∃ cmd', ((machine c P).state pre).console.commandOut c (now, e) =
        some cmd' ∧ (now, cmd') = (s, cmd) := by simpa [stampedCommand] using hmem
    obtain ⟨rfl, rfl⟩ := Prod.mk.inj heq
    exact ⟨pre, e, post, rfl, hout⟩
  | _ => cases hmem

/-- A status on `plc_status` is what the plant has published in a run. -/
theorem mem_plcStatus {s : Time} {st : PlcStatus}
    (h : (s, st) ∈ ((machine c P).state es).plcStatus.log) :
    ∃ pre i post, es = pre ++ (s, .run i) :: post ∧
      (P.run ((machine c P).state pre).plant i).2 = some st := by
  rw [plcStatus_log, Machine.mem_trace_iff] at h
  obtain ⟨pre, ⟨now, e⟩, post, rfl, hmem⟩ := h
  cases e with
  | run i =>
    obtain ⟨st', hout, heq⟩ : ∃ st', (P.run ((machine c P).state pre).plant i).2 =
        some st' ∧ (now, st') = (s, st) := by simpa [stampedStatus] using hmem
    obtain ⟨rfl, rfl⟩ := Prod.mk.inj heq
    exact ⟨pre, i, post, rfl, hout⟩
  | _ => cases hmem

/-- A message is stamped with the time of an event. -/
theorem stamp_of_teleop {m : Time × TeleopCommand}
    (h : m ∈ ((machine c P).state es).console.teleopCmd.log) : ∃ e ∈ es, e.1 = m.1 := by
  obtain ⟨s, msg⟩ := m
  rw [console_state] at h
  obtain ⟨pre, e, post, heq, -⟩ := (Console.mem_teleopCmd _ _).mp h
  have hmem : (s, ConsoleEvent.station e) ∈ (machine c P).trace consoleEvents es := by simp [heq]
  exact ⟨_, mem_of_consoleEvents hmem, rfl⟩

theorem stamp_of_command {m : Time × PlcCommand} (h : m ∈ ((machine c P).state es).plcCommand.log) :
    ∃ e ∈ es, e.1 = m.1 := by
  obtain ⟨s, cmd⟩ := m
  obtain ⟨pre, e, post, rfl, -⟩ := mem_plcCommand h
  exact ⟨(s, .station e), by simp, rfl⟩

theorem stamp_of_status {m : Time × PlcStatus} (h : m ∈ ((machine c P).state es).plcStatus.log) :
    ∃ e ∈ es, e.1 = m.1 := by
  obtain ⟨s, st⟩ := m
  obtain ⟨pre, i, post, rfl, -⟩ := mem_plcStatus h
  exact ⟨(s, .run i), by simp, rfl⟩

/-- Whatever has been delivered or lost, the plant works on a command of the topic or on none. -/
theorem worksOn_mem {works : ρ → PlcCommand → Prop} (hworks : P.WorksOn works)
    (es : List (Time × GraphEvent ι)) : works ((machine c P).state es).plant {} ∨
      ∃ m ∈ ((machine c P).state es).plcCommand.log,
        works ((machine c P).state es).plant m.2 := by
  apply graph_rule (Q := fun _ σ => works σ.plant {} ∨ ∃ m ∈ σ.plcCommand.log, works σ.plant m.2)
  · exact .inl hworks.start
  · rintro es now e (ih | ⟨m, hmem, ih⟩)
    · exact .inl ih
    · exact .inr ⟨m, by simp [handle, hmem], ih⟩
  · intro es now m hnext ih
    exact .inr ⟨m, by simpa using Topic.mem_of_next? hnext, hworks.command _ _⟩
  · rintro es now i (ih | ⟨m, hmem, ih⟩)
    · exact .inl (hworks.run _ _ _ ih)
    · exact .inr ⟨m, hmem, hworks.run _ _ _ ih⟩
  · exact fun es now m _ ih => ih
  · intro es e σ ih _ hplant hlog _
    rwa [hplant, hlog]

/-- The commands that are published are those of the manager and of the GUI's mode buttons. -/
theorem commandOut_cases {σ : Console} {e : Time × StationEvent} {cmd : PlcCommand}
    (h : σ.commandOut c e = some cmd) :
    (e.2 = .cycle ∧ cmd = (supervisorCycle c.manager σ.manager e.1).command) ∨
    (∃ g, e.2 = .gui g ∧ ((g = .idle ∧ cmd = {}) ∨ (g = .synch ∧ cmd = { mode := 1, exec := true }) ∨
      (g = .jog ∧ cmd = { mode := 2 }) ∨ (g = .follow ∧ cmd = { mode := 3, exec := true }))) := by
  obtain ⟨now, e⟩ := e
  cases e with
  | cycle => exact .inl ⟨rfl, (Option.some.inj h).symm⟩
  | gui g =>
    refine .inr ⟨g, rfl, ?_⟩
    cases g with
    | idle => exact .inl ⟨rfl, (Option.some.inj h).symm⟩
    | synch => exact .inr (.inl ⟨rfl, (Option.some.inj h).symm⟩)
    | jog => exact .inr (.inr (.inl ⟨rfl, (Option.some.inj h).symm⟩))
    | follow => exact .inr (.inr (.inr ⟨rfl, (Option.some.inj h).symm⟩))
    | _ => cases h
  | _ => cases h

end Graph

/-! ## The two plants -/

/-- The simulator, whose timer ticks. -/
def simPlant (q : PlcSimParams) : Plant PlcSimNode Unit where
  start := .construct q
  command := PlcSimNode.commandCallback
  run s _ := s.publishStatus q

/-- The two halves of an iteration of the bridge's network loop; a command can come in between. -/
inductive NetworkStep where
  | transmit
  | receive (inRaw : RxBuffer) (pending : List (List UInt8))

/-- The bridge with its network loop. -/
def bridgePlant : Plant PlcBridgeNode NetworkStep where
  start := {}
  command := PlcBridgeNode.commandCallback
  run
    | b, .transmit => (b.transmit.1, none)
    | b, .receive inRaw pending => b.receive inRaw pending

@[simp] theorem simPlant_start (q : PlcSimParams) : (simPlant q).start = .construct q := rfl

@[simp] theorem simPlant_command (q : PlcSimParams) (s : PlcSimNode) (msg : PlcCommand) :
    (simPlant q).command s msg = s.commandCallback msg := rfl

@[simp] theorem simPlant_run (q : PlcSimParams) (s : PlcSimNode) (u : Unit) :
    ((simPlant q).run s u).1 = s.tick q := rfl

@[simp] theorem simPlant_status (q : PlcSimParams) (s : PlcSimNode) (u : Unit) :
    ((simPlant q).run s u).2 = (s.publishStatus q).2 := rfl

@[simp] theorem bridgePlant_receive (b : PlcBridgeNode) (inRaw : RxBuffer)
    (pending : List (List UInt8)) :
    bridgePlant.run b (.receive inRaw pending) = b.receive inRaw pending := rfl

theorem simPlant_worksOn (q : PlcSimParams) :
    (simPlant q).WorksOn fun s cmd => s.lastCommand = cmd where
  start := rfl
  command := PlcSimNode.commandCallback_lastCommand
  run s _ _ h := (PlcSimNode.tick_lastCommand q s).trans h

/-- The bridge overwrites the life word of the command. -/
theorem bridgePlant_worksOn :
    bridgePlant.WorksOn fun b cmd => ∃ lifeWord, b.txData = { cmd with lifeWord } where
  start := ⟨0, rfl⟩
  command s msg := ⟨msg.lifeWord, rfl⟩
  run s i cmd h := by
    obtain ⟨lifeWord, h⟩ := h
    cases i with
    | transmit => exact ⟨s.rxData.lifeWord, by simp [bridgePlant, PlcBridgeNode.transmit, h]⟩
    | receive inRaw pending => exact ⟨lifeWord, by simp [bridgePlant, h]⟩

/-- A tick of the simulator. -/
@[match_pattern] abbrev GraphEvent.tick : GraphEvent Unit := .run ()

namespace Graph

/-- The graph with the simulator. -/
abbrev simMachine (c : Setup) : Machine (Graph PlcSimNode) (Time × GraphEvent Unit) :=
  machine c (simPlant c.sim)

/-- What the simulator handles in a step of the graph. -/
def simEvents (σ : Graph PlcSimNode) : Time × GraphEvent Unit → List SimEvent
  | (_, .deliverCommand) => (σ.plcCommand.next?.map fun m => .command m.2).toList
  | (_, .run _) => [.tick]
  | _ => []

theorem sim_handle (c : Setup) (σ : Graph PlcSimNode) (e : Time × GraphEvent Unit) :
    (σ.handle c (simPlant c.sim) e).plant =
      (simEvents σ e).foldl (PlcSimNode.machine c.sim).step σ.plant := by
  obtain ⟨now, e⟩ := e
  cases e with
  | deliverCommand =>
    simp only [handle, deliverCommand, simEvents]
    cases σ.plcCommand.next? <;> rfl
  | deliverStatus =>
    simp only [handle, deliverStatus]
    cases σ.plcStatus.next? <;> rfl
  | _ => rfl

theorem sim_state (c : Setup) (es : List (Time × GraphEvent Unit)) :
    ((simMachine c).state es).plant =
      (PlcSimNode.machine c.sim).state ((simMachine c).trace simEvents es) :=
  (simMachine c).view_state _ _ simEvents rfl (sim_handle c) es

/-- The simulator in a run that goes on from `σ`. -/
theorem sim_resume (c : Setup) (σ : Graph PlcSimNode) (fs : List (Time × GraphEvent Unit)) :
    (((simMachine c).resume σ).state fs).plant =
      ((PlcSimNode.machine c.sim).resume σ.plant).state
        (((simMachine c).resume σ).trace simEvents fs) :=
  ((simMachine c).resume σ).view_state ((PlcSimNode.machine c.sim).resume σ.plant) _ simEvents rfl
    (sim_handle c) fs

end Graph

end ArgusGate
