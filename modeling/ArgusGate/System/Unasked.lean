import ArgusGate.Manager.Agreement
import ArgusGate.PlcSim.Moves
import ArgusGate.System.Graph
import ArgusGate.System.HoldToRun

/-!
# No motion unless asked for

An axis starts to move only for an operator who asks for SYNCH or FOLLOW, or for jogging along that axis.
What the stations publish by themselves, which is a message at every tick of their timers, moves
nothing, and neither do jogs of the other axis or of keys and buttons without a direction.
-/

namespace ArgusGate

open Reactive ArgusManagerNode PlcSimNode

/-- The two directions of an axis. -/
def Axis.directions : Axis → List JogDirection
  | .pitch => [.pitchP, .pitchN]
  | .yaw => [.yawP, .yawN]

/-- A command that jogs an axis has a jog bit of the axis. -/
theorem Axis.bit_of_jogged {a : Axis} {cmd : PlcCommand} (h : a.jogged cmd ≠ 0) :
    ∃ d ∈ a.directions, d.bit cmd = true := by
  cases a <;> simp only [jogged] at h <;> split_ifs at h <;>
    simp_all [directions, JogDirection.bit]

namespace Console

/-- The operator asks for SYNCH or FOLLOW. -/
def AsksMode : StationEvent → Prop
  | .gui .synch | .gui .follow | .gui (.sendTarget (some _)) => True
  | .keyboard keys => ∃ key ∈ keys, key.1 = '1' ∨ key.1 = '3'
  | _ => False

/-- The operator pushes a control of the direction. -/
def AsksJog (c : Setup) (d : JogDirection) : StationEvent → Prop
  | .gui (.startJog pitch yaw) => d.along pitch yaw ≠ 0
  | .keyboard keys => ∃ key ∈ keys, key.1 ∈ d.keys
  | .readAndPublish reading => ∃ id, (JoystickNode.construct c.reading).joystickId = some id ∧
      reading.isConnected id = true ∧
      0 < d.along (reading.getAxisPosition id .v) (reading.getAxisPosition id .u)
  | _ => False

/-- The modes that move without a jog. -/
def Moves (mode : Int16) : Prop := mode = 1 ∨ mode = 3

variable {c : Setup} {es : List (Time × ConsoleEvent)} {d : JogDirection}

/-! ## Modes -/

theorem asksMode_of_gui {gs : List GuiEvent}
    (h : Moves (FletGui.machine.state gs).node.requestedMode) :
    ∃ g ∈ gs, AsksMode (.gui g) := by
  induction gs using List.reverseRecOn with
  | nil => rcases h with h | h <;> cases h
  | append_singleton gs g ih =>
    rw [Machine.state_concat] at h
    by_cases hasks : AsksMode (.gui g)
    · exact ⟨g, by simp, hasks⟩
    · have hkeep : Moves (FletGui.machine.state gs).node.requestedMode := by
        cases g with
        | synch | follow => exact absurd trivial hasks
        | sendTarget target =>
          cases target with
          | none => exact h
          | some target => exact absurd trivial hasks
        | publishLoop => exact h
        | jogSpeedChange value =>
          simp only [FletGui.machine, FletGui.handle, FletGui.onJogSpeedChange] at h
          split_ifs at h
          · rcases h with h | h <;> cases h
          · exact h
        | idle | jog | startJog | stopJog | resetError => rcases h with h | h <;> cases h
      obtain ⟨g', hg', hasks'⟩ := ih hkeep
      exact ⟨g', List.mem_append_left _ hg', hasks'⟩

theorem asksMode_of_key {key : Char} {mode : Int16}
    (h : TeleopKeyboardNode.modeOfKey key = some mode) (hmode : Moves mode) :
    key = '1' ∨ key = '3' := by
  unfold TeleopKeyboardNode.modeOfKey at h
  split_ifs at h with h0 h1 h2 h3
  · obtain rfl := Option.some.inj h
    rcases hmode with hmode | hmode <;> cases hmode
  · exact .inl h1
  · obtain rfl := Option.some.inj h
    rcases hmode with hmode | hmode <;> cases hmode
  · exact .inr h3

theorem asksMode_of_keyboard {q : KeyboardParams} {rs : List TeleopKeyboardNode.LoopRun}
    {keys : List (Char × Time)} {now : Time} (h : Moves
      (((TeleopKeyboardNode.machine q).state rs).publishLoop q keys now).2.requestedMode) :
    ∃ r ∈ rs ++ [⟨keys, now⟩], ∃ key ∈ r.keys, key.1 = '1' ∨ key.1 = '3' := by
  have hknows := TeleopKeyboardNode.knows_refresh (TeleopKeyboardNode.idle q rs).knows ⟨keys, now⟩
  have hmode : (((TeleopKeyboardNode.machine q).state rs).publishLoop q keys now).2.requestedMode =
      (latest (fun key => TeleopKeyboardNode.modeOfKey key.1)
        (TeleopKeyboardNode.keysOf (rs ++ [⟨keys, now⟩]))).getD 0 := hknows.requestedMode
  rw [hmode] at h
  cases hlast : latest (fun key => TeleopKeyboardNode.modeOfKey key.1)
      (TeleopKeyboardNode.keysOf (rs ++ [⟨keys, now⟩])) with
  | none =>
    rw [hlast] at h
    rcases h with h | h <;> cases h
  | some mode =>
    rw [hlast] at h
    obtain ⟨key, hkey, hread⟩ := exists_of_latest hlast
    obtain ⟨r, hr, hmem⟩ := List.mem_flatMap.mp hkey
    exact ⟨r, hr, key, hmem, asksMode_of_key hread h⟩

/-- The joystick only ever asks for IDLE and JOG. -/
theorem joyTeleop_mode (c : Setup) (es : List (Time × ConsoleEvent)) :
    ¬ Moves ((machine c).state es).joyTeleop.cmd.requestedMode := by
  apply (machine c).history_rule (P := fun _ σ => ¬ Moves σ.joyTeleop.cmd.requestedMode)
  · rintro (h | h) <;> cases h
  · rintro es ⟨now, e⟩ ih
    cases e with
    | status msg => exact ih
    | station e =>
      cases e with
      | deliverJoy =>
        simp only [machine_step, handle, station, deliverJoy]
        cases hnext : ((machine c).state es).joy.next? with
        | none => exact ih
        | some m =>
          obtain ⟨reading, -, hjoy⟩ := mem_joy c es (Topic.mem_of_next? hnext)
          obtain ⟨haxes, hbuttons⟩ :=
            (JoystickNode.construct c.reading).length_readAndPublish reading
          have haxes' : 8 ≤ m.2.axes.length := by rw [hjoy, haxes]
          have hbuttons' : 4 ≤ m.2.buttons.length := by
            rw [hjoy, hbuttons]
            decide
          obtain ⟨cmd, hcmd, -, -, hmode⟩ :=
            ((machine c).state es).joyTeleop.onJoyReceived_of_complete haxes' hbuttons'
          simp only [hcmd, hmode]
          split_ifs
          · rintro (h | h) <;> cases h
          · rintro (h | h) <;> cases h
          · exact ih
      | deliverTeleop => simpa [handle, station] using ih
      | _ => exact ih

/-- A message that asks for SYNCH or FOLLOW goes back to the operator. -/
theorem asksMode_of_message {s : Time} {msg : TeleopCommand}
    (hmem : (s, msg) ∈ ((machine c).state es).teleopCmd.log) (hmode : Moves msg.requestedMode) :
    ∃ u e, (u, ConsoleEvent.station e) ∈ es ∧ AsksMode e := by
  obtain ⟨pre, e, post, rfl, hout⟩ := (mem_teleopCmd c es).mp hmem
  cases e with
  | gui g =>
    obtain ⟨rfl, rfl⟩ := FletGui.publishes_iff.mp hout
    rw [gui_state] at hmode
    obtain ⟨g, hg, hasks⟩ := asksMode_of_gui hmode
    obtain ⟨u, hu⟩ := mem_of_guiRun hg
    exact ⟨u, _, List.mem_append_left _ hu, hasks⟩
  | keyboard keys =>
    obtain rfl := Option.some.inj hout
    rw [keyboard_state] at hmode
    obtain ⟨r, hr, hkey⟩ := asksMode_of_keyboard hmode
    rcases List.mem_append.mp hr with hr | hr
    · exact ⟨r.now, .keyboard r.keys, List.mem_append_left _ (mem_of_keyboardRun hr), hkey⟩
    · obtain rfl := List.mem_singleton.mp hr
      exact ⟨s, .keyboard keys, by simp, hkey⟩
  | deliverJoy =>
    obtain ⟨m, hnext, hcmd⟩ := Option.bind_eq_some_iff.mp hout
    have hkeep := joyTeleop_mode c (pre ++ [(s, .station .deliverJoy)])
    rw [Machine.state_concat] at hkeep
    simp only [machine_step, handle, station, deliverJoy, hnext] at hkeep
    rw [((machine c).state pre).joyTeleop.cmd_of_publishes hcmd] at hkeep
    exact absurd hmode hkeep
  | _ => cases hout

/-! ## Speeds -/

theorem asksJog_of_gui {gs : List GuiEvent} (h : 0 < d.along
      (FletGui.machine.state gs).node.publishLoop.2.pitchSpeed
      (FletGui.machine.state gs).node.publishLoop.2.yawSpeed) :
    ∃ g ∈ gs, AsksJog c d (.gui g) := by
  have hholds := FletGui.holdsJog gs
  have hheld : d.along (FletGui.heldJog gs).1 (FletGui.heldJog gs).2 ≠ 0 := by
    intro hzero
    rcases hholds.speeds with ⟨hpitch, hyaw⟩ | ⟨hpitch, hyaw⟩
    · simp [ManagerGuiNode.publishLoop, hpitch, hyaw] at h
    · simp only [ManagerGuiNode.publishLoop, hpitch, hyaw] at h
      rw [JogDirection.along_mul] at h
      rw [← hholds.active] at hzero
      simp [hzero] at h
  refine ⟨_, FletGui.startJog_mem_of_heldJog (fun hzero => hheld ?_), hheld⟩
  rw [hzero, d.along_zero]

/-- A speed in a message goes back to the operator. -/
theorem asksJog_of_message {s : Time} {msg : TeleopCommand}
    (hmem : (s, msg) ∈ ((machine c).state es).teleopCmd.log)
    (hspeed : 0 < d.along msg.pitchSpeed msg.yawSpeed) :
    ∃ u e, (u, ConsoleEvent.station e) ∈ es ∧ AsksJog c d e := by
  obtain ⟨pre, e, post, rfl, hout⟩ := (mem_teleopCmd c es).mp hmem
  cases e with
  | gui g =>
    obtain ⟨rfl, rfl⟩ := FletGui.publishes_iff.mp hout
    rw [gui_state] at hspeed
    obtain ⟨g, hg, hasks⟩ := asksJog_of_gui hspeed
    obtain ⟨u, hu⟩ := mem_of_guiRun hg
    exact ⟨u, _, List.mem_append_left _ hu, hasks⟩
  | keyboard keys =>
    obtain rfl := Option.some.inj hout
    obtain ⟨r, hr, t, k, hread, hk, -⟩ := read_of_speed hspeed
    rcases List.mem_append.mp hr with hr | hr
    · refine ⟨r.now, .keyboard r.keys, ?_, (k, t), hread, hk⟩
      exact List.mem_append_left _ (mem_of_keyboardRun hr)
    · obtain rfl := List.mem_singleton.mp hr
      exact ⟨s, .keyboard keys, by simp, (k, t), hread, hk⟩
  | deliverJoy =>
    obtain ⟨m, hnext, hcmd⟩ := Option.bind_eq_some_iff.mp hout
    obtain ⟨reading, hread, hjoy⟩ := mem_joy c pre (Topic.mem_of_next? hnext)
    rw [hjoy] at hcmd
    refine ⟨m.1, .readAndPublish reading, List.mem_append_left _ hread, ?_⟩
    exact stick_of_speed hcmd hspeed
  | _ => cases hout

/-! ## Commands -/

/-- The operator asks for something that moves the axis. -/
def AsksMotion (c : Setup) (a : Axis) (e : StationEvent) : Prop :=
  AsksMode e ∨ ∃ d ∈ a.directions, AsksJog c d e

/-- The manager only asks for a mode that fresh teleop asks for. -/
theorem fresh_of_moves {p : ManagerParams} {m : ArgusManagerNode} {now : Time}
    (h : Moves (supervisorCycle p m now).command.mode) :
    now - m.lastTeleopTime < p.timeoutThreshold ∧ Moves m.lastTeleopCmd.requestedMode := by
  have hmode : (supervisorCycle p m now).command.mode =
      (supervisorCycle p m now).node.requestedMode.toInt16 := rfl
  rw [hmode, supervisorCycle_requestedMode] at h
  split_ifs at h
  · rcases h with h | h <;> cases h
  · cases halive : teleopAlive p m now with
    | false =>
      rw [halive, resolveDesiredMode_false] at h
      rcases h with h | h <;> cases h
    | true =>
      refine ⟨(checkWatchdog_iff p).mp halive, ?_⟩
      rw [halive] at h
      obtain ⟨hreq, -⟩ | ⟨-, hjog⟩ | ⟨hreq, -⟩ | hidle := resolveDesiredMode_cases m
      · exact .inl hreq
      · rw [hjog] at h
        rcases h with h | h <;> cases h
      · exact .inr hreq
      · rw [hidle] at h
        rcases h with h | h <;> cases h

theorem moves_or_jogs {a : Axis} {cmd : PlcCommand} (h : a.DrivenBy cmd) :
    Moves cmd.mode ∨ ∃ d ∈ a.directions, d.bit cmd = true := by
  rcases h with h | h | ⟨-, h⟩
  · exact .inl (.inl h)
  · exact .inl (.inr h)
  · exact .inr (Axis.bit_of_jogged h)

/-- A command of the manager that moves an axis goes back to the operator. -/
theorem asksMotion_of_cycle {a : Axis} {now : Time} (h : a.DrivenBy
      (supervisorCycle c.manager ((machine c).state es).manager now).command) :
    ∃ u e, (u, ConsoleEvent.station e) ∈ es ∧ AsksMotion c a e := by
  rcases moves_or_jogs h with hmode | ⟨d, hd, hbit⟩
  · obtain ⟨-, hreq⟩ := fresh_of_moves hmode
    rcases lastTeleopCmd_mem c es with hnone | ⟨s, hmem⟩
    · rw [hnone] at hreq
      rcases hreq with h | h <;> cases h
    · obtain ⟨u, e, he, hasks⟩ := asksMode_of_message hmem hreq
      exact ⟨u, e, he, .inl hasks⟩
  · obtain ⟨-, hspeed⟩ := speed_of_bit hbit
    rcases lastTeleopCmd_mem c es with hnone | ⟨s, hmem⟩
    · simp [hnone] at hspeed
    · obtain ⟨u, e, he, hasks⟩ := asksJog_of_message hmem hspeed
      exact ⟨u, e, he, .inr ⟨d, hd, hasks⟩⟩

end Console

namespace Graph

open Console

variable {ρ ι : Type} {c : Setup} {P : Plant ρ ι} {a : Axis}

/-- A command that moves an axis is one of the manager's, or of two of the GUI's buttons. -/
theorem commandOut_of_drivenBy {σ : Console} {e : Time × StationEvent} {cmd : PlcCommand}
    (h : σ.commandOut c e = some cmd) (hdriven : a.DrivenBy cmd) :
    (e.2 = .cycle ∧ cmd = (supervisorCycle c.manager σ.manager e.1).command) ∨
    e.2 = .gui .synch ∨ e.2 = .gui .follow := by
  obtain hcycle | ⟨g, he, ⟨-, rfl⟩ | ⟨rfl, -⟩ | ⟨-, rfl⟩ | ⟨rfl, -⟩⟩ := commandOut_cases h
  · exact .inl hcycle
  · exact absurd hdriven a.not_drivenBy_default
  · exact .inr (.inl he)
  · obtain h | h | ⟨-, h⟩ := hdriven
    · cases h
    · cases h
    · exact absurd (by cases a <;> rfl) h
  · exact .inr (.inr he)

/-- On `plc_command` jog bits only come with the mode JOG. -/
theorem jogs_mode {es : List (Time × GraphEvent ι)} {m : Time × PlcCommand}
    (hmem : m ∈ ((machine c P).state es).plcCommand.log) (hjogs : m.2.jogs = true) :
    m.2.mode = 2 := by
  obtain ⟨s, cmd⟩ := m
  obtain ⟨pre, e, post, rfl, hout⟩ := mem_plcCommand hmem
  obtain ⟨-, rfl⟩ | ⟨g, -, ⟨-, rfl⟩ | ⟨-, rfl⟩ | ⟨-, rfl⟩ | ⟨-, rfl⟩⟩ := commandOut_cases hout
  · have hdrives := PlcCommand.drives_of_jogs hjogs
    obtain ⟨-, -, -, hcmd⟩ := healthy_of_drives _ _ _ hdrives
    rw [hcmd] at hdrives hjogs ⊢
    exact (modeCommand_serves _ hdrives).jogs_mode hjogs
  all_goals cases hjogs

/-- A command on `plc_command` that moves an axis goes back to the operator. -/
theorem asksMotion_of_command {es : List (Time × GraphEvent ι)} {s : Time} {cmd : PlcCommand}
    (hmem : (s, cmd) ∈ ((machine c P).state es).plcCommand.log) (hdriven : a.DrivenBy cmd) :
    ∃ u e, (u, GraphEvent.station e) ∈ es ∧ AsksMotion c a e := by
  obtain ⟨pre, e, post, rfl, hout⟩ := mem_plcCommand hmem
  obtain ⟨-, rfl⟩ | rfl | rfl := commandOut_of_drivenBy hout hdriven
  · rw [console_state] at hdriven
    obtain ⟨u, e, he, hasks⟩ := asksMotion_of_cycle hdriven
    exact ⟨u, e, List.mem_append_left _ (mem_of_consoleEvents he), hasks⟩
  · exact ⟨s, .gui .synch, by simp, .inl trivial⟩
  · exact ⟨s, .gui .follow, by simp, .inl trivial⟩

variable {es : List (Time × GraphEvent Unit)}

/-- A tick that moves an axis is driven by the simulator's command. -/
theorem drivenBy_of_tick (h : a.current (((simMachine c).state es).plant.tick c.sim) ≠
      a.current ((simMachine c).state es).plant) :
    a.DrivenBy ((simMachine c).state es).plant.lastCommand := by
  have hobeys : Obeys ((simMachine c).state es).plant := sim_state c es ▸ obeys c.sim _
  exact drivenBy_of_moves hobeys h

/-- A tick that moves an axis goes back to the operator. -/
theorem asksMotion_of_tick
    (hmoves : a.current (((simMachine c).state es).plant.tick c.sim) ≠
      a.current ((simMachine c).state es).plant) :
    ∃ u e, (u, GraphEvent.station e) ∈ es ∧ AsksMotion c a e := by
  have hdriven := drivenBy_of_tick hmoves
  rcases worksOn_mem (simPlant_worksOn c.sim) es with hnone | ⟨m, hmem, hlast⟩
  · rw [hnone] at hdriven
    exact absurd hdriven a.not_drivenBy_default
  · rw [hlast] at hdriven
    exact asksMotion_of_command hmem hdriven

/-- Nothing moves unasked. In every run of the graph an axis that is not where it started has been
asked to move: the operator has asked for SYNCH or FOLLOW, or pushed a control of a direction of that
axis. -/
theorem moved_asked (c : Setup) (es : List (Time × GraphEvent Unit)) (a : Axis)
    (h : a.current ((simMachine c).state es).plant ≠ a.current (construct c (simPlant c.sim)).plant) :
    ∃ u e, (u, GraphEvent.station e) ∈ es ∧ AsksMotion c a e := by
  revert h
  apply graph_rule (Q := fun es σ => a.current σ.plant ≠ a.current (construct c (simPlant c.sim)).plant →
    ∃ u e, (u, GraphEvent.station e) ∈ es ∧ AsksMotion c a e)
  · exact fun h => absurd rfl h
  · intro es now e ih h
    obtain ⟨u, e', he, hasks⟩ := ih h
    exact ⟨u, e', List.mem_append_left _ he, hasks⟩
  · intro es now m _ ih h
    obtain ⟨u, e, he, hasks⟩ := ih (by simpa using h)
    exact ⟨u, e, List.mem_append_left _ he, hasks⟩
  · intro es now _ ih h
    obtain ⟨u, e, he, hasks⟩ : ∃ u e, (u, GraphEvent.station e) ∈ es ∧ AsksMotion c a e := by
      by_cases hstay : a.current (((simMachine c).state es).plant.tick c.sim) =
          a.current ((simMachine c).state es).plant
      · exact ih (hstay ▸ h)
      · exact asksMotion_of_tick hstay
    exact ⟨u, e, List.mem_append_left _ he, hasks⟩
  · intro es now m _ ih h
    obtain ⟨u, e, he, hasks⟩ := ih h
    exact ⟨u, e, List.mem_append_left _ he, hasks⟩
  · intro es e σ ih _ hplant _ _ h
    obtain ⟨u, e, he, hasks⟩ := ih (hplant ▸ h)
    exact ⟨u, e, List.mem_append_left _ he, hasks⟩

/-- The first tick after a press of Follow moves the pitch axis, which started away from 0. -/
theorem moved_asked_follow :
    let c : Setup :=
      { reading := ⟨fun _ => false, fun _ _ => 0, fun _ _ => false⟩, sim := { initialPitch := 1 } }
    let es : List (Time × GraphEvent Unit) :=
      [(0, .tick), (1, .station (.gui .follow)), (2, .deliverCommand), (3, .tick)]
    ∃ u e, (u, GraphEvent.station e) ∈ es ∧ AsksMotion c .pitch e :=
  moved_asked _ _ .pitch (by decide +kernel)

end Graph

end ArgusGate
