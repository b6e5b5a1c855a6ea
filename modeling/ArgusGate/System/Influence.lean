import ArgusGate.System.Graph
import ArgusGate.Teleop.Effective

/-!
# What can influence the gate

Two runs of the graph that differ in what does not count of the operator's input: the keys without an
effect, the axes and buttons that nobody reads, the other joysticks. They cannot be told apart by what the
plant receives, nor by what the manager reports.
-/

namespace ArgusGate

open Reactive ArgusManagerNode

variable {ρ ι : Type}

/-- The same event on the operator's side, up to what does not count. -/
inductive StationEvent.Alike (c : Setup) : StationEvent → StationEvent → Prop where
  | same (e : StationEvent) : Alike c e e
  | keys {keys keys' : List (Char × Time)}
      (h : (keys.filter fun key => TeleopKeyboardNode.effective key.1) =
        keys'.filter fun key => TeleopKeyboardNode.effective key.1) :
      Alike c (.keyboard keys) (.keyboard keys')
  | reading {r r' : JoystickReading}
      (h : r.plain (JoystickNode.construct c.reading).joystickId =
        r'.plain (JoystickNode.construct c.reading).joystickId) :
      Alike c (.readAndPublish r) (.readAndPublish r')

/-- The same event of the graph, up to what does not count. -/
inductive GraphEvent.Alike (c : Setup) : GraphEvent ι → GraphEvent ι → Prop where
  | same (e : GraphEvent ι) : Alike c e e
  | station {e e' : StationEvent} (h : e.Alike c e') : Alike c (.station e) (.station e')

namespace Console

/-- The operator's sides differ at most in what does not count. -/
structure Alike (c : Setup) (σ σ' : Console) : Prop where
  gui : σ.gui = σ'.gui
  keyboard : σ.keyboard.plain = σ'.keyboard.plain
  driver : σ.driver = JoystickNode.construct c.reading ∧ σ.driver = σ'.driver
  joyTeleop : σ.joyTeleop.plain = σ'.joyTeleop.plain
  manager : SameInputs σ.manager σ'.manager
  joy : σ.joy.map (Prod.map id Joy.plain) = σ'.joy.map (Prod.map id Joy.plain)
  teleopCmd : σ.teleopCmd.map (Prod.map id TeleopCommand.plain) =
    σ'.teleopCmd.map (Prod.map id TeleopCommand.plain)

variable {c : Setup} {σ σ' : Console}

theorem alike_start (c : Setup) : Alike c (construct c) (construct c) :=
  ⟨rfl, rfl, ⟨rfl, rfl⟩, rfl, ⟨rfl, rfl, rfl, rfl, rfl⟩, rfl, rfl⟩

/-- The manager's callbacks on nodes that are alike. -/
theorem Alike.manage (h : Alike c σ σ') (p : ManagerParams) (now : Time) {e e' : ManagerEvent}
    (he : e.Alike e') : SameInputs (ArgusManagerNode.handle p σ.manager (now, e))
      (ArgusManagerNode.handle p σ'.manager (now, e')) :=
  h.manager.handle p he

/-- The next messages of topics that are alike. -/
theorem next_cases {α : Type} {f : α → α} {t t' : Topic (Time × α)}
    (h : t.map (Prod.map id f) = t'.map (Prod.map id f)) :
    (t.next? = none ∧ t'.next? = none) ∨
    ∃ s m m', t.next? = some (s, m) ∧ t'.next? = some (s, m') ∧ f m = f m' := by
  have hnext : t.next?.map (Prod.map id f) = t'.next?.map (Prod.map id f) := by
    rw [← Topic.map_next?, ← Topic.map_next?, h]
  cases ht : t.next? with
  | none =>
    rw [ht] at hnext
    exact .inl ⟨rfl, by simpa using hnext.symm⟩
  | some m =>
    cases ht' : t'.next? with
    | none => simp [ht, ht'] at hnext
    | some m' =>
      obtain ⟨s, m⟩ := m
      obtain ⟨s', m'⟩ := m'
      rw [ht, ht'] at hnext
      obtain ⟨rfl, hm⟩ : s = s' ∧ f m = f m' := by simpa using hnext
      exact .inr ⟨s, m, m', rfl, rfl, hm⟩

/-- A message published on such topics at the same time. -/
theorem map_publishSome_stamped {α : Type} (f : α → α) (t : Topic (Time × α)) (now : Time)
    (a : Option α) : (t.publishSome (a.map (now, ·))).map (Prod.map id f) =
      (t.map (Prod.map id f)).publishSome ((a.map f).map (now, ·)) := by
  cases a <;> simp

theorem alike_deliverJoy (h : Alike c σ σ') (now : Time) :
    Alike c (σ.deliverJoy now) (σ'.deliverJoy now) := by
  unfold deliverJoy
  rcases next_cases h.joy with ⟨hnone, hnone'⟩ | ⟨s, m, m', hnext, hnext', hm⟩
  · rw [hnone, hnone']
    exact h
  · rw [hnext, hnext']
    obtain ⟨hnode, hmsg⟩ := ArgusTeleopJoyNode.onJoyReceived_congr h.joyTeleop hm
    refine ⟨h.gui, h.keyboard, h.driver, hnode, h.manager, ?_, ?_⟩
    · rw [Topic.map_take, Topic.map_take, h.joy]
    · rw [map_publishSome_stamped, map_publishSome_stamped, h.teleopCmd, hmsg]

theorem alike_deliverTeleop (h : Alike c σ σ') (now : Time) :
    Alike c (σ.deliverTeleop now) (σ'.deliverTeleop now) := by
  unfold deliverTeleop
  rcases next_cases h.teleopCmd with ⟨hnone, hnone'⟩ | ⟨s, m, m', hnext, hnext', hm⟩
  · rw [hnone, hnone']
    exact h
  · rw [hnext, hnext']
    have he : ManagerEvent.Alike (.teleop m) (.teleop m') := TeleopCommand.alike_iff.mpr hm
    refine ⟨h.gui, h.keyboard, h.driver, h.joyTeleop, h.manage c.manager now he, h.joy, ?_⟩
    · rw [Topic.map_take, Topic.map_take, h.teleopCmd]

theorem alike_keyboard (h : Alike c σ σ') (now : Time) {keys keys' : List (Char × Time)}
    (hkeys : (keys.filter fun key => TeleopKeyboardNode.effective key.1) =
      keys'.filter fun key => TeleopKeyboardNode.effective key.1) :
    Alike c (σ.station c (now, .keyboard keys)) (σ'.station c (now, .keyboard keys')) := by
  obtain ⟨hnode, hmsg⟩ :=
    TeleopKeyboardNode.publishLoop_congr c.keyboard h.keyboard hkeys now
  refine ⟨h.gui, hnode, h.driver, h.joyTeleop, h.manager, h.joy, ?_⟩
  simp only [station]
  rw [Topic.map_publish, Topic.map_publish, h.teleopCmd, Prod.map_apply, Prod.map_apply, hmsg]

theorem alike_readAndPublish (h : Alike c σ σ') (now : Time) {r r' : JoystickReading}
    (hr : r.plain (JoystickNode.construct c.reading).joystickId =
      r'.plain (JoystickNode.construct c.reading).joystickId) :
    Alike c (σ.station c (now, .readAndPublish r)) (σ'.station c (now, .readAndPublish r')) := by
  refine ⟨h.gui, h.keyboard, h.driver, h.joyTeleop, h.manager, ?_, h.teleopCmd⟩
  simp only [station]
  rw [Topic.map_publish, Topic.map_publish, h.joy, ← h.driver.2, h.driver.1, Prod.map_apply,
    Prod.map_apply, JoystickNode.readAndPublish_plain, JoystickNode.readAndPublish_plain, hr]

theorem alike_station (h : Alike c σ σ') (now : Time) {e e' : StationEvent} (he : e.Alike c e') :
    Alike c (σ.station c (now, e)) (σ'.station c (now, e')) := by
  cases he with
  | keys hkeys => exact alike_keyboard h now hkeys
  | reading hr => exact alike_readAndPublish h now hr
  | same e =>
    cases e with
    | gui g =>
      refine ⟨?_, h.keyboard, h.driver, h.joyTeleop, h.manager, h.joy, ?_⟩
      · simp only [station, h.gui]
      · simp only [station]
        rw [map_publishSome_stamped, map_publishSome_stamped, h.teleopCmd, h.gui]
    | keyboard keys => exact alike_keyboard h now rfl
    | readAndPublish r => exact alike_readAndPublish h now rfl
    | deliverJoy => exact alike_deliverJoy h now
    | deliverTeleop => exact alike_deliverTeleop h now
    | loseJoy =>
      refine ⟨h.gui, h.keyboard, h.driver, h.joyTeleop, h.manager, ?_, h.teleopCmd⟩
      simp only [station]
      rw [Topic.map_take, Topic.map_take, h.joy]
    | loseTeleop =>
      refine ⟨h.gui, h.keyboard, h.driver, h.joyTeleop, h.manager, h.joy, ?_⟩
      simp only [station]
      rw [Topic.map_take, Topic.map_take, h.teleopCmd]
    | cycle =>
      have he : ManagerEvent.Alike .cycle .cycle := trivial
      exact ⟨h.gui, h.keyboard, h.driver, h.joyTeleop, h.manage c.manager now he, h.joy, h.teleopCmd⟩

theorem alike_status (h : Alike c σ σ') (now : Time) (st : PlcStatus) :
    Alike c (σ.handle c (now, .status st)) (σ'.handle c (now, .status st)) := by
  have he : ManagerEvent.Alike (.status st) (.status st) := rfl
  exact ⟨h.gui, h.keyboard, h.driver, h.joyTeleop, h.manage c.manager now he, h.joy, h.teleopCmd⟩

/-- They publish the same commands. -/
theorem Alike.commandOut_eq (h : Alike c σ σ') (now : Time) {e e' : StationEvent}
    (he : e.Alike c e') : σ.commandOut c (now, e) = σ'.commandOut c (now, e') := by
  cases he with
  | keys | reading => rfl
  | same e =>
    cases e with
    | gui g => simp only [commandOut, h.gui]
    | cycle => simp only [commandOut, h.manager.command_eq]
    | _ => rfl

end Console

namespace Graph

/-- The graphs differ at most in what does not count. -/
structure SameButInput (c : Setup) (σ σ' : Graph ρ) : Prop where
  console : Console.Alike c σ.console σ'.console
  plant : σ.plant = σ'.plant
  plcCommand : σ.plcCommand = σ'.plcCommand
  plcStatus : σ.plcStatus = σ'.plcStatus

variable {c : Setup} {σ σ' : Graph ρ}

theorem sameButInput_handle (h : SameButInput c σ σ') (P : Plant ρ ι) (now : Time)
    {e e' : GraphEvent ι} (he : e.Alike c e') :
    SameButInput c (σ.handle c P (now, e)) (σ'.handle c P (now, e')) := by
  have hstation : ∀ {e e' : StationEvent}, e.Alike c e' →
      SameButInput c (σ.handle c P (now, .station e)) (σ'.handle c P (now, .station e')) := by
    intro e e' he
    refine ⟨Console.alike_station h.console now he, h.plant, ?_, h.plcStatus⟩
    simp only [handle, h.plcCommand, h.console.commandOut_eq now he]
  cases he with
  | station he => exact hstation he
  | same e =>
    cases e with
    | station e => exact hstation (.same e)
    | deliverCommand =>
      simp only [handle, deliverCommand, h.plcCommand]
      split
      · exact h
      · exact ⟨h.console, by simp only [h.plant], rfl, h.plcStatus⟩
    | loseCommand => exact ⟨h.console, h.plant, by simp only [handle, h.plcCommand], h.plcStatus⟩
    | run i =>
      exact ⟨h.console, by simp only [handle, h.plant], h.plcCommand,
        by simp only [handle, h.plcStatus, h.plant]⟩
    | deliverStatus =>
      simp only [handle, deliverStatus, h.plcStatus]
      split
      · exact h
      · exact ⟨Console.alike_status h.console now _, h.plant, h.plcCommand, rfl⟩
    | loseStatus => exact ⟨h.console, h.plant, h.plcCommand, by simp only [handle, h.plcStatus]⟩

/-- What does not count has no influence. Two runs of the graph with the same events at the same times, up
to the keys without an effect and to the readings of the joystick beyond its axes U and V and three
buttons, have the same plant at the other end, the same messages on `plc_command` and `plc_status`, and
managers that publish the same. -/
theorem influence (c : Setup) (P : Plant ρ ι) (es es' : List (Time × GraphEvent ι))
    (h : List.Forall₂ (fun e e' => e.1 = e'.1 ∧ e.2.Alike c e'.2) es es') :
    let σ := (machine c P).state es
    let σ' := (machine c P).state es'
    σ.plant = σ'.plant ∧ σ.plcCommand = σ'.plcCommand ∧ σ.plcStatus = σ'.plcStatus ∧
    ∀ now,
      (supervisorCycle c.manager σ.console.manager now).command =
        (supervisorCycle c.manager σ'.console.manager now).command ∧
      (supervisorCycle c.manager σ.console.manager now).status =
        (supervisorCycle c.manager σ'.console.manager now).status := by
  intro σ σ'
  have hsame : SameButInput c σ σ' := by
    apply (machine c P).two_run_state (R := SameButInput c) _ _ h
    · exact ⟨Console.alike_start c, rfl, rfl, rfl⟩
    · rintro σ σ' hsame ⟨now, e⟩ ⟨_, e'⟩ ⟨rfl, he⟩
      exact sameButInput_handle hsame P now he
  exact ⟨hsame.plant, hsame.plcCommand, hsame.plcStatus, fun now =>
    ⟨hsame.console.manager.command_eq c.manager now, hsame.console.manager.status_eq c.manager now⟩⟩

/-- Space and an unknown key, and a joystick with its left stick pushed and a shoulder button pressed. -/
theorem influence_left_stick :
    let reading : JoystickReading := ⟨fun _ => true, fun _ _ => 0, fun _ _ => false⟩
    let pushed : JoystickReading :=
      ⟨fun _ => true, fun _ a => match a with | .x => 100 | _ => 0, fun _ b => b = 5⟩
    let c : Setup := { reading }
    let run (keys : List (Char × Time)) (r : JoystickReading) : List (Time × GraphEvent Unit) :=
      [(0, .station (.keyboard keys)), (1, .station (.readAndPublish r)), (2, .station .deliverJoy),
        (3, .station .deliverTeleop), (4, .station .cycle), (5, .deliverCommand), (6, .tick)]
    ((simMachine c).state (run [('2', 0), ('w', 0)] reading)).plant =
      ((simMachine c).state (run [('2', 0), (' ', 0), ('x', 0), ('w', 0)] pushed)).plant := by
  intro reading pushed c run
  refine (influence c (simPlant c.sim) _ _ ?_).1
  have hreading : reading.plain (JoystickNode.construct c.reading).joystickId =
      pushed.plain (JoystickNode.construct c.reading).joystickId := by
    simp only [JoystickReading.plain, JoystickReading.mk.injEq]
    refine ⟨rfl, ?_, ?_⟩
    · funext i a
      cases a <;> simp [reading, pushed]
    · funext i b
      by_cases hb : b = 5 <;> simp [reading, pushed, hb]
  exact .cons ⟨rfl, .station (.keys (by decide))⟩ (.cons ⟨rfl, .station (.reading hreading)⟩
    (.cons ⟨rfl, .same _⟩ (.cons ⟨rfl, .same _⟩ (.cons ⟨rfl, .same _⟩ (.cons ⟨rfl, .same _⟩
      (.cons ⟨rfl, .same _⟩ .nil))))))

end Graph

end ArgusGate
