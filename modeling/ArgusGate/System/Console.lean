import ArgusGate.Foundation.Topic
import ArgusGate.Gui.Node
import ArgusGate.Manager.Run
import ArgusGate.PlcSim.Step
import ArgusGate.Teleop.Joystick
import ArgusGate.Teleop.KeyHistory

/-!
# The operator's side of the graph

All the nodes an operator works with, and the manager: the GUI, the keyboard teleop, the joystick
driver and the joystick teleop, joined by `joy` and `teleop_cmd`. The topics are in order and may lose
messages, since their queues are short. A node that has not been launched has no events. Every message
is stamped with the time of its publication, which no node reads.
-/

namespace ArgusGate

open Reactive ArgusManagerNode

/-- What the nodes are started with. -/
structure Setup where
  manager : ManagerParams := {}
  keyboard : KeyboardParams := {}
  sim : PlcSimParams := {}
  /-- What SFML reports when the joystick driver starts. -/
  reading : JoystickReading
  /-- When the manager starts. -/
  start : Time := 0

structure Console where
  gui : FletGui := {}
  keyboard : TeleopKeyboardNode := {}
  driver : JoystickNode
  joyTeleop : ArgusTeleopJoyNode := {}
  manager : ArgusManagerNode
  joy : Topic (Time × Joy) := .empty
  teleopCmd : Topic (Time × TeleopCommand) := .empty

/-- What happens on the operator's side. -/
inductive StationEvent where
  | gui (e : GuiEvent)
  /-- The timer of the keyboard teleop, with the keys it reads. -/
  | keyboard (keys : List (Char × Time))
  /-- The timer of the joystick driver; SFML reports `reading`. -/
  | readAndPublish (reading : JoystickReading)
  | deliverJoy
  | deliverTeleop
  | loseJoy
  | loseTeleop
  | cycle

/-- On its own the operator's side gets arbitrary statuses. -/
inductive ConsoleEvent where
  | station (e : StationEvent)
  | status (msg : PlcStatus)

namespace Console

def construct (c : Setup) : Console where
  driver := JoystickNode.construct c.reading
  manager := ArgusManagerNode.construct c.start

def deliverJoy (σ : Console) (now : Time) : Console :=
  match σ.joy.next? with
  | none => σ
  | some m =>
    { σ with
      joyTeleop := (σ.joyTeleop.onJoyReceived m.2).1
      joy := σ.joy.take
      teleopCmd := σ.teleopCmd.publishSome ((σ.joyTeleop.onJoyReceived m.2).2.map (now, ·)) }

def deliverTeleop (σ : Console) (now : Time) : Console :=
  match σ.teleopCmd.next? with
  | none => σ
  | some m =>
    { σ with manager := σ.manager.onTeleopReceived m.2 now, teleopCmd := σ.teleopCmd.take }

def station (c : Setup) (σ : Console) : Time × StationEvent → Console
  | (now, .gui e) =>
    { σ with
      gui := (σ.gui.handle e).gui
      teleopCmd := σ.teleopCmd.publishSome ((σ.gui.handle e).teleop.map (now, ·)) }
  | (now, .keyboard keys) =>
    { σ with
      keyboard := (σ.keyboard.publishLoop c.keyboard keys now).1
      teleopCmd := σ.teleopCmd.publish (now, (σ.keyboard.publishLoop c.keyboard keys now).2) }
  | (now, .readAndPublish reading) =>
    { σ with joy := σ.joy.publish (now, σ.driver.readAndPublish reading) }
  | (now, .deliverJoy) => σ.deliverJoy now
  | (now, .deliverTeleop) => σ.deliverTeleop now
  | (_, .loseJoy) => { σ with joy := σ.joy.take }
  | (_, .loseTeleop) => { σ with teleopCmd := σ.teleopCmd.take }
  | (now, .cycle) => { σ with manager := (supervisorCycle c.manager σ.manager now).node }

def handle (c : Setup) (σ : Console) : Time × ConsoleEvent → Console
  | (now, .station e) => σ.station c (now, e)
  | (now, .status msg) => { σ with manager := σ.manager.onStatusReceived msg now }

def machine (c : Setup) : Machine Console (Time × ConsoleEvent) :=
  { start := construct c, step := handle c }

@[simp] theorem machine_start (c : Setup) : (machine c).start = construct c := rfl

@[simp] theorem machine_step (c : Setup) (σ : Console) (e : Time × ConsoleEvent) :
    (machine c).step σ e = σ.handle c e := rfl

/-- What an event publishes on `teleop_cmd`. -/
def teleopOut (c : Setup) (σ : Console) : Time × StationEvent → Option TeleopCommand
  | (_, .gui e) => (σ.gui.handle e).teleop
  | (now, .keyboard keys) => some (σ.keyboard.publishLoop c.keyboard keys now).2
  | (_, .deliverJoy) => σ.joy.next?.bind fun m => (σ.joyTeleop.onJoyReceived m.2).2
  | _ => none

/-- What an event publishes on `plc_command`. -/
def commandOut (c : Setup) (σ : Console) : Time × StationEvent → Option PlcCommand
  | (_, .gui e) => (σ.gui.handle e).command
  | (now, .cycle) => some (supervisorCycle c.manager σ.manager now).command
  | _ => none

/-! ## The nodes' own runs -/

/-- What the user does at the GUI. -/
def guiRun (es : List (Time × ConsoleEvent)) : List GuiEvent :=
  es.filterMap fun | (_, .station (.gui e)) => some e | _ => none

/-- The runs of the keyboard's loop. -/
def keyboardRun (es : List (Time × ConsoleEvent)) : List TeleopKeyboardNode.LoopRun :=
  es.filterMap fun | (now, .station (.keyboard keys)) => some ⟨keys, now⟩ | _ => none

theorem mem_of_keyboardRun {es : List (Time × ConsoleEvent)} {r : TeleopKeyboardNode.LoopRun}
    (h : r ∈ keyboardRun es) : (r.now, ConsoleEvent.station (.keyboard r.keys)) ∈ es := by
  obtain ⟨⟨u, e⟩, hmem, he⟩ := List.mem_filterMap.mp h
  cases e with
  | status msg => cases he
  | station e =>
    cases e with
    | keyboard keys =>
      obtain rfl := Option.some.inj he
      exact hmem
    | _ => cases he

theorem mem_of_guiRun {es : List (Time × ConsoleEvent)} {g : GuiEvent} (h : g ∈ guiRun es) :
    ∃ u, (u, ConsoleEvent.station (.gui g)) ∈ es := by
  obtain ⟨⟨u, e⟩, hmem, he⟩ := List.mem_filterMap.mp h
  cases e with
  | status msg => cases he
  | station e =>
    cases e with
    | gui g' =>
      obtain rfl := Option.some.inj he
      exact ⟨u, hmem⟩
    | _ => cases he

variable (c : Setup) (σ : Console) (es : List (Time × ConsoleEvent))

@[simp] theorem deliverJoy_gui (now : Time) : (σ.deliverJoy now).gui = σ.gui := by
  unfold deliverJoy
  split <;> rfl

@[simp] theorem deliverJoy_keyboard (now : Time) : (σ.deliverJoy now).keyboard = σ.keyboard := by
  unfold deliverJoy
  split <;> rfl

@[simp] theorem deliverJoy_driver (now : Time) : (σ.deliverJoy now).driver = σ.driver := by
  unfold deliverJoy
  split <;> rfl

@[simp] theorem deliverJoy_manager (now : Time) : (σ.deliverJoy now).manager = σ.manager := by
  unfold deliverJoy
  split <;> rfl

@[simp] theorem deliverTeleop_gui (now : Time) : (σ.deliverTeleop now).gui = σ.gui := by
  unfold deliverTeleop
  split <;> rfl

@[simp] theorem deliverTeleop_keyboard (now : Time) :
    (σ.deliverTeleop now).keyboard = σ.keyboard := by
  unfold deliverTeleop
  split <;> rfl

@[simp] theorem deliverTeleop_driver (now : Time) : (σ.deliverTeleop now).driver = σ.driver := by
  unfold deliverTeleop
  split <;> rfl

@[simp] theorem deliverTeleop_joyTeleop (now : Time) :
    (σ.deliverTeleop now).joyTeleop = σ.joyTeleop := by
  unfold deliverTeleop
  split <;> rfl

@[simp] theorem deliverTeleop_joy (now : Time) : (σ.deliverTeleop now).joy = σ.joy := by
  unfold deliverTeleop
  split <;> rfl

@[simp] theorem deliverTeleop_log (now : Time) :
    (σ.deliverTeleop now).teleopCmd.log = σ.teleopCmd.log := by
  unfold deliverTeleop
  split
  · rfl
  · exact Topic.take_log _

theorem gui_state : ((machine c).state es).gui = FletGui.machine.state (guiRun es) := by
  apply Machine.view_state_filterMap
  · rfl
  · rintro σ ⟨now, e⟩
    cases e with
    | status msg => rfl
    | station e => cases e <;> simp [handle, station, FletGui.machine]

theorem keyboard_state : ((machine c).state es).keyboard =
    (TeleopKeyboardNode.machine c.keyboard).state (keyboardRun es) := by
  apply Machine.view_state_filterMap
  · rfl
  · rintro σ ⟨now, e⟩
    cases e with
    | status msg => rfl
    | station e => cases e <;> simp [handle, station, TeleopKeyboardNode.machine]

theorem driver_state : ((machine c).state es).driver = JoystickNode.construct c.reading := by
  apply (machine c).history_rule (P := fun _ σ => σ.driver = JoystickNode.construct c.reading) rfl
  rintro es ⟨now, e⟩ ih
  cases e with
  | status msg => exact ih
  | station e => cases e <;> simpa [handle, station] using ih

/-! ## The topics -/

/-- A step appends to `teleop_cmd` what its event publishes. -/
theorem station_log (e : Time × StationEvent) : (σ.station c e).teleopCmd.log =
    σ.teleopCmd.log ++ ((teleopOut c σ e).map (e.1, ·)).toList := by
  obtain ⟨now, e⟩ := e
  cases e with
  | gui e => simp [station, teleopOut]
  | keyboard keys => simp [station, teleopOut]
  | deliverJoy =>
    simp only [station, deliverJoy, teleopOut]
    cases σ.joy.next? <;> simp
  | _ => simp [station, teleopOut]

/-- What an event of the console publishes on `teleop_cmd`, stamped. -/
def stampedTeleop (c : Setup) (σ : Console) : Time × ConsoleEvent → List (Time × TeleopCommand)
  | (now, .station e) => ((teleopOut c σ (now, e)).map (now, ·)).toList
  | (_, .status _) => []

theorem teleopCmd_log :
    ((machine c).state es).teleopCmd.log = (machine c).trace (stampedTeleop c) es := by
  apply (machine c).log_eq_trace fun σ => σ.teleopCmd.log
  · rfl
  · rintro σ ⟨now, e⟩
    cases e with
    | status msg => exact (List.append_nil _).symm
    | station e => exact station_log c σ (now, e)

/-- A message on `teleop_cmd` is what some event of the run has published. -/
theorem mem_teleopCmd {s : Time} {msg : TeleopCommand} :
    (s, msg) ∈ ((machine c).state es).teleopCmd.log ↔
      ∃ pre e post, es = pre ++ (s, .station e) :: post ∧
        teleopOut c ((machine c).state pre) (s, e) = some msg := by
  rw [teleopCmd_log, Machine.mem_trace_iff]
  constructor
  · rintro ⟨pre, ⟨now, e⟩, post, rfl, hmem⟩
    cases e with
    | status st => cases hmem
    | station e =>
      obtain ⟨msg', hout, heq⟩ : ∃ msg', teleopOut c ((machine c).state pre) (now, e) = some msg' ∧
          (now, msg') = (s, msg) := by simpa [stampedTeleop] using hmem
      obtain ⟨rfl, rfl⟩ := Prod.mk.inj heq
      exact ⟨pre, e, post, rfl, hout⟩
  · rintro ⟨pre, e, post, rfl, hout⟩
    exact ⟨pre, _, post, rfl, by simp [stampedTeleop, hout]⟩

/-- What an event of the console publishes on `joy`, stamped. -/
def stampedJoy (σ : Console) : Time × ConsoleEvent → List (Time × Joy)
  | (now, .station (.readAndPublish reading)) => [(now, σ.driver.readAndPublish reading)]
  | _ => []

theorem joy_log : ((machine c).state es).joy.log = (machine c).trace stampedJoy es := by
  apply (machine c).log_eq_trace fun σ => σ.joy.log
  · rfl
  · rintro σ ⟨now, e⟩
    cases e with
    | status msg => exact (List.append_nil _).symm
    | station e =>
      cases e with
      | deliverJoy =>
        simp only [machine_step, handle, station, deliverJoy]
        cases σ.joy.next? <;> simp [stampedJoy]
      | _ => simp [handle, station, stampedJoy]

/-- A message on `joy` is what the driver made of a reading of the run. -/
theorem mem_joy {u : Time} {msg : Joy} (h : (u, msg) ∈ ((machine c).state es).joy.log) :
    ∃ reading, (u, ConsoleEvent.station (.readAndPublish reading)) ∈ es ∧
      msg = (JoystickNode.construct c.reading).readAndPublish reading := by
  rw [joy_log, Machine.mem_trace_iff] at h
  obtain ⟨pre, ⟨now, e⟩, post, rfl, hmem⟩ := h
  cases e with
  | status st => cases hmem
  | station e =>
    cases e with
    | readAndPublish reading =>
      rw [stampedJoy, List.mem_singleton, driver_state] at hmem
      obtain ⟨rfl, rfl⟩ := Prod.mk.inj hmem
      exact ⟨reading, by simp, rfl⟩
    | _ => cases hmem

/-- When the message was published that the event delivers. -/
def publishedAt (σ : Console) : ConsoleEvent → Option Time
  | .station .deliverJoy => σ.joy.next?.map Prod.fst
  | .station .deliverTeleop => σ.teleopCmd.next?.map Prod.fst
  | _ => none

/-! ## What the manager has heard -/

/-- The manager's last teleop message is on the topic, and was received at a time related by `R` to that
of its publication; or there is none yet. -/
def Heard (start : Time) (R : Time → Time → Prop) (σ : Console) : Prop :=
  (σ.manager.lastTeleopCmd = {} ∧ σ.manager.lastTeleopTime = start) ∨
    ∃ s, (s, σ.manager.lastTeleopCmd) ∈ σ.teleopCmd.log ∧ R s σ.manager.lastTeleopTime

variable {c σ es} {start : Time} {R : Time → Time → Prop}

/-- Steps that leave the manager's message alone. -/
theorem heard_frame {σ' : Console} (h : Heard start R σ)
    (hcmd : σ'.manager.lastTeleopCmd = σ.manager.lastTeleopCmd)
    (htime : σ'.manager.lastTeleopTime = σ.manager.lastTeleopTime)
    (hlog : σ.teleopCmd.log <+: σ'.teleopCmd.log) : Heard start R σ' := by
  unfold Heard at h ⊢
  rw [hcmd, htime]
  rcases h with h | ⟨s, hmem, hs⟩
  · exact .inl h
  · exact .inr ⟨s, hlog.subset hmem, hs⟩

theorem heard_deliverTeleop {now : Time} (h : Heard start R σ)
    (htime : ∀ s ∈ σ.publishedAt (.station .deliverTeleop), R s now) :
    Heard start R (σ.deliverTeleop now) := by
  unfold deliverTeleop
  cases hnext : σ.teleopCmd.next? with
  | none => exact h
  | some m =>
    refine .inr ⟨m.1, ?_, htime m.1 (by simp [publishedAt, hnext])⟩
    simpa [onTeleopReceived] using Topic.mem_of_next? hnext

/-- If every delivery is related by `R` to its publication, then so is the last one. -/
theorem heard (hrun : EachStep (fun pre e =>
      ∀ s ∈ ((machine c).state pre).publishedAt e.2, R s e.1) es) :
    Heard c.start R ((machine c).state es) := by
  apply (machine c).eachStep_rule (P := fun _ σ => Heard c.start R σ) (.inl ⟨rfl, rfl⟩) _ hrun
  rintro es ⟨now, e⟩ htime ih
  cases e with
  | status msg => exact heard_frame ih rfl rfl List.prefix_rfl
  | station e =>
    have hlog : ((machine c).state es).teleopCmd.log <+:
        (((machine c).state es).station c (now, e)).teleopCmd.log := by
      rw [station_log]
      exact List.prefix_append _ _
    cases e with
    | deliverTeleop => exact heard_deliverTeleop ih htime
    | deliverJoy => exact heard_frame ih (by simp [handle, station]) (by simp [handle, station]) hlog
    | _ => exact heard_frame ih rfl rfl hlog

/-- Whatever has been delivered or lost, the manager holds a message of the topic or none. -/
theorem lastTeleopCmd_mem (c : Setup) (es : List (Time × ConsoleEvent)) :
    ((machine c).state es).manager.lastTeleopCmd = {} ∨
    ∃ s, (s, ((machine c).state es).manager.lastTeleopCmd) ∈
      ((machine c).state es).teleopCmd.log := by
  have hheard : Heard c.start (fun _ _ => True) ((machine c).state es) :=
    heard fun _ _ _ _ _ _ => trivial
  rcases hheard with ⟨h, -⟩ | ⟨s, hmem, -⟩
  · exact .inl h
  · exact .inr ⟨s, hmem⟩

end Console

end ArgusGate
