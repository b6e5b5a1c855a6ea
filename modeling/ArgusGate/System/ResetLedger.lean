import ArgusGate.Manager.Cycle
import ArgusGate.System.Console

/-!
# The resets in flight

A reset that the operator asks for travels as a flag: in the GUI until it publishes next, in a message
on `joy` or `teleop_cmd`, and last as an edge that the manager has not sampled. No node makes two flags
of one, so that the acknowledgements published and the resets in flight are never more than the resets
asked for.
-/

namespace ArgusGate

open Reactive ArgusManagerNode

/-- The reset button of the driver's joystick is pressed in the reading. -/
def JoystickNode.resetPressed (n : JoystickNode) (reading : JoystickReading) : Bool :=
  match n.joystickId with
  | some id => reading.isConnected id && reading.isButtonPressed id 3
  | none => false

theorem JoystickNode.resetButton_iff (n : JoystickNode) (reading : JoystickReading) :
    (n.readAndPublish reading).buttons.getD 3 0 ≠ 0 ↔ n.resetPressed reading = true := by
  unfold readAndPublish resetPressed
  cases n.joystickId with
  | none => simp
  | some id =>
    by_cases hconnected : reading.isConnected id = true
    · simp [hconnected, List.range_succ]
    · simp [hconnected]

namespace Console

/-- How many resets the operator asks for in an event: presses of the GUI's button, keys read, and
readings with the joystick's button pressed. -/
def resetsAsked (c : Setup) : Time × ConsoleEvent → ℕ
  | (_, .station (.gui .resetError)) => 1
  | (_, .station (.keyboard keys)) => keys.countP fun key => decide (key.1 ∈ ['r', 'R'])
  | (_, .station (.readAndPublish reading)) =>
    ((JoystickNode.construct c.reading).resetPressed reading).toNat
  | _ => 0

/-- The event publishes an acknowledgement. -/
def acknowledges (c : Setup) (σ : Console) : Time × ConsoleEvent → Bool
  | (now, .station .cycle) => (supervisorCycle c.manager σ.manager now).command.ack
  | _ => false

/-- The resets in flight. -/
def pendingResets (σ : Console) : ℕ :=
  σ.gui.node.resetError.toNat +
    σ.joy.waiting.countP (fun m => decide (m.2.buttons.getD 3 0 ≠ 0)) +
    σ.teleopCmd.waiting.countP (fun m => m.2.resetError) +
    σ.manager.detectAckEdge.toNat

/-! ## What each node does with a reset -/

theorem resets_gui (g : FletGui) (e : GuiEvent) :
    (g.handle e).gui.node.resetError.toNat +
        (g.handle e).teleop.toList.countP (fun msg => msg.resetError) ≤
      g.node.resetError.toNat + (if e = .resetError then 1 else 0) := by
  cases e with
  | jogSpeedChange value =>
    simp only [FletGui.handle, FletGui.onJogSpeedChange]
    split_ifs <;> simp [FletGui.publishJog, ManagerGuiNode.publishTeleop]
  | sendTarget target =>
    cases target <;> simp [FletGui.handle, FletGui.sendFollowTarget, ManagerGuiNode.publishTeleop]
  | publishLoop =>
    cases h : g.node.resetError <;> simp [FletGui.handle, ManagerGuiNode.publishLoop, h]
  | idle | synch | jog | follow =>
    simp [FletGui.handle, FletGui.modeButton, ManagerGuiNode.publishMode]
  | startJog | stopJog | resetError =>
    simp [FletGui.handle, FletGui.startJog, FletGui.stopJog, FletGui.publishJog,
      ManagerGuiNode.publishTeleop]

theorem resets_keyboard {q : KeyboardParams} {n : TeleopKeyboardNode} (h : n.resetError = false)
    (keys : List (Char × Time)) (now : Time) :
    (n.publishLoop q keys now).2.resetError.toNat ≤
      keys.countP fun key => decide (key.1 ∈ ['r', 'R']) := by
  have hflag : (n.publishLoop q keys now).2.resetError =
      keys.any fun key => decide (key.1 ∈ ['r', 'R']) := by
    simp only [TeleopKeyboardNode.publishLoop, TeleopKeyboardNode.refreshPressedKeys_eq]
    rw [(TeleopKeyboardNode.keysRead q n keys).resetError, h, Bool.false_or]
  rw [hflag]
  cases hany : keys.any fun key => decide (key.1 ∈ ['r', 'R']) with
  | false => exact Nat.zero_le _
  | true =>
    rw [List.any_eq_true] at hany
    exact List.countP_pos_iff.mpr hany

theorem resets_joyTeleop (n : ArgusTeleopJoyNode) (msg : Joy) :
    (n.onJoyReceived msg).2.toList.countP (fun cmd => cmd.resetError) ≤
      (decide (msg.buttons.getD 3 0 ≠ 0)).toNat := by
  by_cases hshort : msg.axes.length < 8 ∨ msg.buttons.length < 4
  · simp [ArgusTeleopJoyNode.onJoyReceived, hshort]
  · obtain ⟨cmd, hcmd, hflag⟩ : ∃ cmd, (n.onJoyReceived msg).2 = some cmd ∧
        cmd.resetError = decide (msg.buttons.getD 3 0 ≠ 0) := by
      unfold ArgusTeleopJoyNode.onJoyReceived
      rw [if_neg hshort]
      exact ⟨_, rfl, rfl⟩
    rw [hcmd, ← hflag]
    cases h : cmd.resetError <;> simp [h]

/-- A message can only bring up the edge if it carries the flag. -/
theorem resets_teleop (m : ArgusManagerNode) (msg : TeleopCommand) (now : Time) :
    (m.onTeleopReceived msg now).detectAckEdge.toNat ≤ msg.resetError.toNat := by
  cases h : msg.resetError <;> simp [detectAckEdge, onTeleopReceived, h, Bool.toNat_le]

/-- A cycle samples the edge, and acknowledges at most if there was one. -/
theorem resets_cycle (p : ManagerParams) (m : ArgusManagerNode) (now : Time) :
    (supervisorCycle p m now).command.ack.toNat +
        (supervisorCycle p m now).node.detectAckEdge.toNat ≤ m.detectAckEdge.toNat := by
  have hsampled : (supervisorCycle p m now).node.detectAckEdge = false := by
    simp [detectAckEdge, supervisorCycle]
  rw [hsampled, Bool.toNat_false, Nat.add_zero]
  apply Bool.toNat_le_toNat
  rw [Bool.le_iff_imp]
  intro hack
  exact ((command_ack_iff p m now).mp hack).2.2.2

/-! ## The ledger -/

theorem countP_waiting_concat {α : Type*} (f : Time × α → Bool) (t : Topic (Time × α))
    (m : Time × α) : (t.publish m).waiting.countP f = t.waiting.countP f + (f m).toNat := by
  rw [Topic.publish_waiting, List.countP_append, List.countP_singleton]
  cases f m <;> rfl

theorem countP_waiting_publish {α : Type*} (f : α → Bool) (t : Topic (Time × α)) (now : Time)
    (a : Option α) : (t.publishSome (a.map (now, ·))).waiting.countP (fun m => f m.2) =
      t.waiting.countP (fun m => f m.2) + a.toList.countP f := by
  rw [Topic.publishSome_waiting, List.countP_append]
  cases a <;> simp

theorem countP_waiting_take {α : Type*} (f : Time × α → Bool) (t : Topic (Time × α)) :
    t.take.waiting.countP f ≤ t.waiting.countP f := by
  rw [Topic.take_waiting]
  exact (List.tail_sublist _).countP_le

/-- Taking a message hands over what it carries. -/
theorem countP_waiting_next {α : Type*} (f : Time × α → Bool) {t : Topic (Time × α)} {m : Time × α}
    (h : t.next? = some m) : t.waiting.countP f = t.take.waiting.countP f + (f m).toNat := by
  rw [Topic.take_waiting, Topic.waiting_of_next? h, List.tail_cons, List.countP_cons]
  cases f m <;> simp

/-- No event publishes an acknowledgement or brings up a reset that has not been asked for. -/
theorem pendingResets_station (c : Setup) {σ : Console} (hdriver : σ.driver = .construct c.reading)
    (hkeys : σ.keyboard.resetError = false) (now : Time) (e : StationEvent) :
    (σ.acknowledges c (now, .station e)).toNat + (σ.station c (now, e)).pendingResets ≤
      σ.pendingResets + resetsAsked c (now, .station e) := by
  cases e with
  | gui e =>
    have hgui := resets_gui σ.gui e
    have hasked : resetsAsked c (now, .station (.gui e)) = if e = .resetError then 1 else 0 := by
      cases e <;> rfl
    simp only [acknowledges, pendingResets, station, countP_waiting_publish fun msg :
      TeleopCommand => msg.resetError, hasked, Bool.toNat_false]
    omega
  | keyboard keys =>
    have hkeyboard := resets_keyboard (q := c.keyboard) hkeys keys now
    simp only [acknowledges, pendingResets, station, resetsAsked, countP_waiting_concat,
      Bool.toNat_false]
    omega
  | readAndPublish reading =>
    have hbutton := JoystickNode.resetButton_iff (.construct c.reading) reading
    simp only [acknowledges, pendingResets, station, resetsAsked, countP_waiting_concat, hdriver,
      hbutton, Bool.decide_eq_true, Bool.toNat_false]
    omega
  | deliverJoy =>
    simp only [acknowledges, pendingResets, station, deliverJoy, Bool.toNat_false]
    cases hnext : σ.joy.next? with
    | none => simp
    | some m =>
      have hjoy := resets_joyTeleop σ.joyTeleop m.2
      have hwaiting := countP_waiting_next (fun m => decide (m.2.buttons.getD 3 0 ≠ 0)) hnext
      simp only [countP_waiting_publish fun msg : TeleopCommand => msg.resetError]
      omega
  | deliverTeleop =>
    simp only [acknowledges, pendingResets, station, deliverTeleop, Bool.toNat_false]
    cases hnext : σ.teleopCmd.next? with
    | none => simp
    | some m =>
      have hteleop := resets_teleop σ.manager m.2 now
      have hwaiting := countP_waiting_next (fun m => m.2.resetError) hnext
      simp only
      omega
  | loseJoy =>
    have htake := countP_waiting_take (fun m => decide (m.2.buttons.getD 3 0 ≠ 0)) σ.joy
    simp only [acknowledges, pendingResets, station, Bool.toNat_false]
    omega
  | loseTeleop =>
    have htake := countP_waiting_take (fun m => m.2.resetError) σ.teleopCmd
    simp only [acknowledges, pendingResets, station, Bool.toNat_false]
    omega
  | cycle =>
    have hcycle := resets_cycle c.manager σ.manager now
    simp only [acknowledges, pendingResets, station]
    omega

/-- No reset is acknowledged twice, whichever stations are at work, whatever the topics lose and
whatever the PLC reports: the acknowledgements published so far and the resets still in flight are
together no more than the resets the operator has asked for. -/
theorem acks_add_pending_le (c : Setup) (es : List (Time × ConsoleEvent)) :
    (machine c).count (acknowledges c) es + ((machine c).state es).pendingResets ≤
      (es.map (resetsAsked c)).sum := by
  apply (machine c).count_add_potential_le rfl
  rintro es ⟨now, e⟩
  cases e with
  | status msg => exact (Nat.zero_add _).le
  | station e =>
    apply pendingResets_station c (driver_state c es)
    rw [keyboard_state]
    exact (TeleopKeyboardNode.idle c.keyboard (keyboardRun es)).resetError

end Console

end ArgusGate
