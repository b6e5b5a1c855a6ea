import ArgusGate.Gui.Jog
import ArgusGate.Gui.Target
import ArgusGate.Manager.Interlock
import ArgusGate.System.Console
import Mathlib.Tactic.Linarith

/-!
# Hold to run

Jogging is meant to go on only while the operator keeps a control pushed. Each station has its own way
to see to that: the GUI clears the speeds when the button is released, the keyboard drops keys that have
not been repeated, the joystick is read anew each time. Here is what they achieve together at the
manager, in which of them the jog bits of a command must have their origin.
-/

namespace ArgusGate

open Reactive ArgusManagerNode

/-- The four directions of jogging. -/
inductive JogDirection where
  | pitchP
  | pitchN
  | yawP
  | yawN

namespace JogDirection

/-- The bit of the direction in a command. -/
def bit : JogDirection → PlcCommand → Bool
  | .pitchP, cmd => cmd.pitchJogP
  | .pitchN, cmd => cmd.pitchJogN
  | .yawP, cmd => cmd.yawJogP
  | .yawN, cmd => cmd.yawJogN

/-- What a pair of speeds is along the direction. -/
def along (pitch yaw : ℚ) : JogDirection → ℚ
  | .pitchP => pitch
  | .pitchN => -pitch
  | .yawP => yaw
  | .yawN => -yaw

/-- The keys of the direction. -/
def keys : JogDirection → List Char
  | .pitchP => ['w', 'W']
  | .pitchN => ['s', 'S']
  | .yawP => ['d', 'D']
  | .yawN => ['a', 'A']

theorem mem_jogKeys {d : JogDirection} {k : Char} (h : k ∈ d.keys) :
    k ∈ TeleopKeyboardNode.jogKeys := by
  cases d <;> simp_all [keys, TeleopKeyboardNode.jogKeys] <;> tauto

@[simp] theorem along_zero (d : JogDirection) : d.along 0 0 = 0 := by
  cases d <;> simp [along]

theorem along_mul (d : JogDirection) (pitch yaw x : ℚ) :
    d.along (pitch * x) (yaw * x) = d.along pitch yaw * x := by
  cases d <;> simp [along]

theorem along_div (d : JogDirection) (pitch yaw x : ℚ) :
    d.along (pitch / x) (yaw / x) = d.along pitch yaw / x := by
  cases d <;> simp [along, neg_div]

end JogDirection

namespace Console

/-- A message that is delivered is delivered within `delay` of its publication. -/
def Prompt (c : Setup) (delay : Time) (es : List (Time × ConsoleEvent)) : Prop :=
  EachStep (fun pre e => ∀ s ∈ ((machine c).state pre).publishedAt e.2, e.1 ≤ s + delay) es

/-- The operator asks for the direction, later than `since`: the GUI publishes while a jog button is
held with the slider up, or the keyboard has read a key of the direction, or the driver has read a
connected joystick with its axis V (for pitch) or U (for yaw) on that side. The key may be older by the
release timeout, and the reading by the delay of `joy`. -/
inductive Asked (c : Setup) (delay : Time) (es : List (Time × ConsoleEvent)) (d : JogDirection)
    (since : Time) : Prop where
  | gui (pre post : List (Time × ConsoleEvent)) (s : Time)
      (publish : es = pre ++ (s, .station (.gui .publishLoop)) :: post) (recent : since < s)
      (held : 0 < d.along (FletGui.heldJog (guiRun pre)).1 (FletGui.heldJog (guiRun pre)).2 *
        FletGui.slider (guiRun pre))
  | keyboard (u t : Time) (keys : List (Char × Time)) (k : Char)
      (run : (u, ConsoleEvent.station (.keyboard keys)) ∈ es) (read : (k, t) ∈ keys)
      (key : k ∈ d.keys) (recent : since - c.keyboard.releaseTimeout < t)
  | joystick (u : Time) (reading : JoystickReading) (id : ℕ)
      (read : (u, ConsoleEvent.station (.readAndPublish reading)) ∈ es)
      (recent : since - delay < u)
      (driver : (JoystickNode.construct c.reading).joystickId = some id)
      (connected : reading.isConnected id = true)
      (stick : 0 < d.along (reading.getAxisPosition id .v) (reading.getAxisPosition id .u))

variable {c : Setup} {delay now : Time} {es : List (Time × ConsoleEvent)} {d : JogDirection}

/-- What was asked for stays so, and was asked for later than any earlier time. -/
theorem Asked.mono {fs : List (Time × ConsoleEvent)} {since since' : Time}
    (h : Asked c delay es d since) (hbegins : es <+: fs) (hle : since' ≤ since) :
    Asked c delay fs d since' := by
  obtain ⟨rest, rfl⟩ := hbegins
  cases h with
  | gui pre post s publish recent held =>
    exact .gui pre (post ++ rest) s (by simp [publish]) (hle.trans_lt recent) held
  | keyboard u t keys k run read key recent =>
    exact .keyboard u t keys k (List.mem_append_left _ run) read key
      ((sub_le_sub_right hle _).trans_lt recent)
  | joystick u reading id read recent driver connected stick =>
    exact .joystick u reading id (List.mem_append_left _ read)
      ((sub_le_sub_right hle _).trans_lt recent) driver connected stick

/-! ## What the stations publish -/

theorem asked_of_gui {pre post : List (Time × ConsoleEvent)} {s since : Time} {e : GuiEvent}
    {msg : TeleopCommand} (hes : es = pre ++ (s, .station (.gui e)) :: post)
    (hout : (((machine c).state pre).gui.handle e).teleop = some msg)
    (hspeed : 0 < d.along msg.pitchSpeed msg.yawSpeed) (hs : since < s) :
    Asked c delay es d since := by
  obtain ⟨rfl, rfl⟩ := FletGui.publishes_iff.mp hout
  have hheld := FletGui.holdsJog (guiRun pre)
  rw [gui_state] at hspeed
  refine .gui pre post s hes hs ?_
  rw [← hheld.active, ← hheld.jogSpeed, ← JogDirection.along_mul]
  rcases hheld.speeds with ⟨hpitch, hyaw⟩ | ⟨hpitch, hyaw⟩
  · simp [ManagerGuiNode.publishLoop, hpitch, hyaw] at hspeed
  · simpa [ManagerGuiNode.publishLoop, hpitch, hyaw] using hspeed

section KeySpeed

variable {P Q : Prop} [Decidable P] [Decidable Q]

theorem of_keySpeed_pos (h : (0 : ℚ) < if P then 1 else if Q then -1 else 0) : P := by
  split_ifs at h with hp
  · exact hp
  · norm_num at h
  · exact absurd h (lt_irrefl 0)

theorem of_keySpeed_neg (h : (0 : ℚ) < -if P then 1 else if Q then -1 else 0) : Q := by
  split_ifs at h with hp hq
  · norm_num at h
  · exact hq
  · norm_num at h

end KeySpeed

/-- The keyboard publishes a speed only for a key that is pressed. -/
theorem pressed_of_speed {q : KeyboardParams} {n : TeleopKeyboardNode} {keys : List (Char × Time)}
    (h : 0 < d.along (n.publishLoop q keys now).2.pitchSpeed (n.publishLoop q keys now).2.yawSpeed) :
    ∃ k ∈ d.keys, k ∈ ((n.readKeys q keys).refreshPressedKeys q now).pressedKeys := by
  cases d with
  | pitchP => simpa [JogDirection.keys] using of_keySpeed_pos h
  | pitchN => simpa [JogDirection.keys] using of_keySpeed_neg h
  | yawP => simpa [JogDirection.keys] using of_keySpeed_pos h
  | yawN => simpa [JogDirection.keys] using of_keySpeed_neg h

/-- A speed that the keyboard publishes goes back to a key of the direction, read within the release
timeout. -/
theorem read_of_speed {pre : List (Time × ConsoleEvent)} {s : Time} {keys : List (Char × Time)}
    (h : 0 < d.along
      (((machine c).state pre).keyboard.publishLoop c.keyboard keys s).2.pitchSpeed
      (((machine c).state pre).keyboard.publishLoop c.keyboard keys s).2.yawSpeed) :
    ∃ r ∈ keyboardRun pre ++ [⟨keys, s⟩], ∃ t k, (k, t) ∈ r.keys ∧ k ∈ d.keys ∧
      s - t ≤ c.keyboard.releaseTimeout := by
  obtain ⟨k, hk, hpressed⟩ := pressed_of_speed h
  rw [keyboard_state] at hpressed
  have hknows := TeleopKeyboardNode.knows_refresh
    (TeleopKeyboardNode.idle c.keyboard (keyboardRun pre)).knows ⟨keys, s⟩
  obtain ⟨t, hread, hfresh⟩ :=
    TeleopKeyboardNode.read_of_pressed hknows (JogDirection.mem_jogKeys hk) hpressed
  obtain ⟨r, hr, hkey⟩ := List.mem_flatMap.mp hread
  exact ⟨r, hr, t, k, hkey, hk, hfresh⟩

theorem asked_of_keyboard {pre post : List (Time × ConsoleEvent)} {s since : Time}
    {keys : List (Char × Time)} (hes : es = pre ++ (s, .station (.keyboard keys)) :: post)
    (hspeed : 0 < d.along
      (((machine c).state pre).keyboard.publishLoop c.keyboard keys s).2.pitchSpeed
      (((machine c).state pre).keyboard.publishLoop c.keyboard keys s).2.yawSpeed)
    (hs : since < s) : Asked c delay es d since := by
  obtain ⟨r, hr, t, k, hread, hk, hfresh⟩ := read_of_speed hspeed
  have hrecent : since - c.keyboard.releaseTimeout < t :=
    (sub_lt_sub_right hs _).trans_le (sub_le_comm.mp hfresh)
  have hrun : (r.now, ConsoleEvent.station (.keyboard r.keys)) ∈ es := by
    rw [hes, List.append_cons]
    apply List.mem_append_left
    rcases List.mem_append.mp hr with hr | hr
    · exact List.mem_append_left _ (mem_of_keyboardRun hr)
    · obtain rfl := List.mem_singleton.mp hr
      simp
  exact .keyboard r.now t r.keys k hrun hread hk hrecent

/-- The speeds that the joystick teleop publishes are read off the connected joystick. -/
theorem stick_of_speed {n : ArgusTeleopJoyNode} {driver : JoystickNode} {reading : JoystickReading}
    {msg : TeleopCommand} (hout : (n.onJoyReceived (driver.readAndPublish reading)).2 = some msg)
    (hspeed : 0 < d.along msg.pitchSpeed msg.yawSpeed) :
    ∃ id, driver.joystickId = some id ∧ reading.isConnected id = true ∧
      0 < d.along (reading.getAxisPosition id .v) (reading.getAxisPosition id .u) := by
  obtain ⟨haxes, hbuttons⟩ := driver.length_readAndPublish reading
  obtain ⟨cmd, hcmd, hpitch, hyaw, -⟩ := n.onJoyReceived_of_complete haxes.ge (by omega)
  rw [hcmd] at hout
  obtain rfl := Option.some.inj hout
  rw [hpitch, hyaw] at hspeed
  cases hid : driver.joystickId with
  | none => simp [JoystickNode.readAndPublish, hid] at hspeed
  | some id =>
    cases hconnected : reading.isConnected id with
    | false => simp [JoystickNode.readAndPublish, hid, hconnected] at hspeed
    | true =>
      refine ⟨id, rfl, hconnected, ?_⟩
      have hscaled : 0 < d.along (reading.getAxisPosition id .v / 100)
          (reading.getAxisPosition id .u / 100) := by
        simpa [JoystickNode.readAndPublish, hid, hconnected] using hspeed
      rw [JogDirection.along_div] at hscaled
      linarith

theorem asked_of_joystick (hrun : Prompt c delay es) {pre post : List (Time × ConsoleEvent)}
    {s since : Time} {m : Time × Joy} {msg : TeleopCommand}
    (hes : es = pre ++ (s, .station .deliverJoy) :: post)
    (hnext : ((machine c).state pre).joy.next? = some m)
    (hout : (((machine c).state pre).joyTeleop.onJoyReceived m.2).2 = some msg)
    (hspeed : 0 < d.along msg.pitchSpeed msg.yawSpeed) (hs : since < s) :
    Asked c delay es d since := by
  have hprompt : s ≤ m.1 + delay := by
    apply hrun pre _ post hes
    simp [publishedAt, hnext]
  obtain ⟨reading, hread, hjoy⟩ := mem_joy c pre (Topic.mem_of_next? hnext)
  rw [hjoy] at hout
  obtain ⟨id, hid, hconnected, hstick⟩ := stick_of_speed hout hspeed
  have hread' : (m.1, ConsoleEvent.station (.readAndPublish reading)) ∈ es := by
    rw [hes]
    exact List.mem_append_left _ hread
  exact .joystick m.1 reading id hread' (sub_lt_iff_lt_add.mpr (hs.trans_le hprompt)) hid
    hconnected hstick

/-- A speed in a message on `teleop_cmd` was asked for at one of the stations. -/
theorem asked_of_message (hrun : Prompt c delay es) {s since : Time} {msg : TeleopCommand}
    (hmem : (s, msg) ∈ ((machine c).state es).teleopCmd.log)
    (hspeed : 0 < d.along msg.pitchSpeed msg.yawSpeed) (hs : since < s) :
    Asked c delay es d since := by
  obtain ⟨pre, e, post, hes, hout⟩ := (mem_teleopCmd c es).mp hmem
  cases e with
  | gui e => exact asked_of_gui hes hout hspeed hs
  | keyboard keys =>
    obtain rfl := Option.some.inj hout
    exact asked_of_keyboard hes hspeed hs
  | deliverJoy =>
    obtain ⟨m, hnext, hout⟩ := Option.bind_eq_some_iff.mp hout
    exact asked_of_joystick hrun hes hnext hout hspeed hs
  | _ => cases hout

/-! ## What the manager makes of it -/

/-- A jog bit goes back to a speed in the last teleop message, which is fresh. -/
theorem speed_of_bit {p : ManagerParams} {m : ArgusManagerNode}
    (h : d.bit (supervisorCycle p m now).command = true) :
    now - m.lastTeleopTime < p.timeoutThreshold ∧
      0 < d.along m.lastTeleopCmd.pitchSpeed m.lastTeleopCmd.yawSpeed := by
  have hdrives : (supervisorCycle p m now).command.drives = true := by
    cases d <;> simp only [JogDirection.bit] at h <;> simp [PlcCommand.drives, PlcCommand.jogs, h]
  obtain ⟨-, halive, -, hcmd⟩ := healthy_of_drives p m now hdrives
  refine ⟨(checkWatchdog_iff p).mp halive, ?_⟩
  rw [hcmd, modeCommand] at h
  split at h
  · cases d <;> cases h
  · cases d <;> simpa [JogDirection.bit, JogDirection.along, mapTeleopToJog] using h
  · cases d <;> cases h
  · cases d <;> cases h

/-- A message that the manager does not find too old was published a little longer ago. -/
theorem published_of_fresh (hrun : Prompt c delay es)
    (h : now - ((machine c).state es).manager.lastTeleopTime < c.manager.timeoutThreshold) :
    (((machine c).state es).manager.lastTeleopCmd = {} ∧ now - c.start < c.manager.timeoutThreshold) ∨
    ∃ s, (s, ((machine c).state es).manager.lastTeleopCmd) ∈ ((machine c).state es).teleopCmd.log ∧
      now - (c.manager.timeoutThreshold + delay) < s := by
  rcases heard (R := fun s t => t ≤ s + delay) hrun with ⟨hnone, hstart⟩ | ⟨s, hmem, hs⟩
  · exact .inl ⟨hnone, hstart ▸ h⟩
  · refine .inr ⟨s, hmem, ?_⟩
    calc now - (c.manager.timeoutThreshold + delay)
        = now - c.manager.timeoutThreshold - delay := (sub_sub _ _ _).symm
      _ < ((machine c).state es).manager.lastTeleopTime - delay :=
        sub_lt_sub_right (sub_lt_comm.mp h) _
      _ ≤ s := sub_le_iff_le_add.mpr hs

/-- Hold to run. In every run whose deliveries are prompt, a jog bit that the manager sends at `now`
was asked for by the operator, at one of the stations and in that direction, later than
`now - (watchdog_timeout + delay)`. -/
theorem jog_held (c : Setup) (delay now : Time) (es : List (Time × ConsoleEvent))
    (d : JogDirection) (hrun : Prompt c delay es)
    (hbit : d.bit (supervisorCycle c.manager ((machine c).state es).manager now).command = true) :
    Asked c delay es d (now - (c.manager.timeoutThreshold + delay)) := by
  obtain ⟨hfresh, hspeed⟩ := speed_of_bit hbit
  rcases published_of_fresh hrun hfresh with ⟨hnone, -⟩ | ⟨s, hmem, hs⟩
  · simp [hnone] at hspeed
  · exact asked_of_message hrun hmem hspeed hs

/-- JOG is selected on the keyboard and 'w' is pressed; the manager's next command goes back to it. -/
theorem jog_held_key :
    let c : Setup := { reading := ⟨fun _ => false, fun _ _ => 0, fun _ _ => false⟩ }
    let es : List (Time × ConsoleEvent) :=
      [(0, .status {}), (1000000, .station (.keyboard [('2', 500000), ('w', 600000)])),
        (2000000, .station .deliverTeleop)]
    Asked c 5000000 es .pitchP (3000000 - (500 * 1000000 + 5000000)) := by
  intro c es
  refine jog_held c 5000000 3000000 es .pitchP ?_ (by decide +kernel)
  unfold Prompt
  decide +kernel

end Console

end ArgusGate
