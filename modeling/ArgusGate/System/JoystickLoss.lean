import ArgusGate.Foundation.Reactive
import ArgusGate.Foundation.Topic
import ArgusGate.Manager.Run
import ArgusGate.Teleop.Joystick

/-!
# Loss of the joystick

The joystick driver, the joystick teleop and the manager, with the two topics between them. The
driver goes on publishing when the joystick is lost, so neither the watchdog of the manager nor the
requested mode reacts to the loss: what stops the machine are the zeroed axes.
-/

namespace ArgusGate

open Reactive ArgusManagerNode

/-- The chain of the three nodes. Next to each message on the topics stands the reading that the
driver took for it. -/
structure JoystickChain where
  driver : JoystickNode
  teleop : ArgusTeleopJoyNode := {}
  manager : ArgusManagerNode
  joy : Topic (JoystickReading × Joy) := .empty
  teleopCmd : Topic (JoystickReading × TeleopCommand) := .empty

inductive ChainEvent where
  /-- The driver's timer; SFML reports `reading`. -/
  | readAndPublish (reading : JoystickReading)
  | deliverJoy
  | deliverTeleop
  | status (msg : PlcStatus)
  | cycle

namespace JoystickChain

def readAndPublish (σ : JoystickChain) (reading : JoystickReading) : JoystickChain :=
  { σ with joy := σ.joy.publish (reading, σ.driver.readAndPublish reading) }

def deliverJoy (σ : JoystickChain) : JoystickChain :=
  match σ.joy.next? with
  | none => σ
  | some (reading, msg) =>
    { σ with
      teleop := (σ.teleop.onJoyReceived msg).1
      joy := σ.joy.take
      teleopCmd :=
        match (σ.teleop.onJoyReceived msg).2 with
        | none => σ.teleopCmd
        | some cmd => σ.teleopCmd.publish (reading, cmd) }

def deliverTeleop (σ : JoystickChain) (now : Time) : JoystickChain :=
  match σ.teleopCmd.next? with
  | none => σ
  | some (_, msg) =>
    { σ with manager := σ.manager.onTeleopReceived msg now, teleopCmd := σ.teleopCmd.take }

def handle (p : ManagerParams) (σ : JoystickChain) : Time × ChainEvent → JoystickChain
  | (_, .readAndPublish reading) => σ.readAndPublish reading
  | (_, .deliverJoy) => σ.deliverJoy
  | (now, .deliverTeleop) => σ.deliverTeleop now
  | (now, .status msg) => { σ with manager := σ.manager.onStatusReceived msg now }
  | (now, .cycle) => { σ with manager := (supervisorCycle p σ.manager now).node }

/-- The chain started at `t₀`; the driver looks for a joystick in `reading`. -/
def machine (p : ManagerParams) (reading : JoystickReading) (t₀ : Time) :
    Machine JoystickChain (Time × ChainEvent) where
  start :=
    { driver := JoystickNode.construct reading, manager := ArgusManagerNode.construct t₀ }
  step := handle p

/-- `cmd` takes its speeds from the driver's message for `reading`, and asks for IDLE or JOG. -/
structure Mapped (driver : JoystickNode) (reading : JoystickReading) (cmd : TeleopCommand) :
    Prop where
  pitchSpeed : cmd.pitchSpeed = (driver.readAndPublish reading).axes.getD 5 0
  yawSpeed : cmd.yawSpeed = (driver.readAndPublish reading).axes.getD 4 0
  mode : cmd.requestedMode = 0 ∨ cmd.requestedMode = 2

/-- Along every run. A teleop message of a lost joystick repeats the mode of the one before. -/
structure ChainInv (σ : JoystickChain) : Prop where
  joy : ∀ m ∈ σ.joy.log, m.2 = σ.driver.readAndPublish m.1
  mapped : ∀ m ∈ σ.teleopCmd.log, Mapped σ.driver m.1 m.2
  sticky : σ.teleopCmd.log.IsChain fun m m' =>
    σ.driver.connected m'.1 = false → m'.2.requestedMode = m.2.requestedMode
  teleop : σ.teleop.cmd = (σ.teleopCmd.log.getLast?.map Prod.snd).getD {}
  manager : σ.manager.lastTeleopCmd = (σ.teleopCmd.last?.map Prod.snd).getD {}

variable {σ : JoystickChain} {reading : JoystickReading} {msg : Joy}

theorem chainInv_readAndPublish (h : ChainInv σ) (reading : JoystickReading) :
    ChainInv (σ.readAndPublish reading) := by
  refine ⟨?_, h.mapped, h.sticky, h.teleop, h.manager⟩
  intro m hm
  rcases Topic.mem_publish.mp hm with hm | rfl
  · exact h.joy m hm
  · rfl

/-- The mode that the teleop node holds is IDLE or JOG. -/
theorem ChainInv.teleop_mode (h : ChainInv σ) :
    σ.teleop.cmd.requestedMode = 0 ∨ σ.teleop.cmd.requestedMode = 2 := by
  rw [h.teleop]
  cases hlast : σ.teleopCmd.log.getLast? with
  | none => exact .inl rfl
  | some m => exact (h.mapped m (List.mem_of_getLast? hlast)).mode

/-- What the teleop node makes of the next message of the driver. It keeps the mode if the joystick
was lost. -/
theorem deliverJoy_of_next (h : ChainInv σ) (hnext : σ.joy.next? = some (reading, msg)) :
    ∃ cmd, Mapped σ.driver reading cmd ∧
      (σ.driver.connected reading = false → cmd.requestedMode = σ.teleop.cmd.requestedMode) ∧
      σ.deliverJoy = { σ with
        teleop := { cmd := cmd }
        joy := σ.joy.take
        teleopCmd := σ.teleopCmd.publish (reading, cmd) } := by
  obtain rfl : msg = σ.driver.readAndPublish reading := h.joy _ (Topic.mem_of_next? hnext)
  obtain ⟨haxes, hbuttons⟩ := σ.driver.length_readAndPublish reading
  obtain ⟨cmd, hcmd, hpitch, hyaw, hmode⟩ :=
    σ.teleop.onJoyReceived_of_complete haxes.ge (by omega)
  refine ⟨cmd, ⟨hpitch, hyaw, ?_⟩, ?_, ?_⟩
  · rw [hmode]
    split_ifs
    · exact .inr rfl
    · exact .inl rfl
    · exact h.teleop_mode
  · intro hlost
    rw [hmode, JoystickNode.readAndPublish_of_not_connected _ _ hlost]
    rfl
  · simp [deliverJoy, hnext, hcmd]

theorem chainInv_deliverJoy (h : ChainInv σ) : ChainInv σ.deliverJoy := by
  cases hnext : σ.joy.next? with
  | none =>
    rw [deliverJoy, hnext]
    exact h
  | some m =>
    obtain ⟨reading, msg⟩ := m
    obtain ⟨cmd, hmapped, hkept, hstep⟩ := deliverJoy_of_next h hnext
    rw [hstep]
    refine ⟨by simpa using h.joy, ?_, ?_, by simp, by simpa using h.manager⟩
    · intro m hm
      rcases Topic.mem_publish.mp hm with hm | rfl
      · exact h.mapped m hm
      · exact hmapped
    · apply Topic.isChain_publish h.sticky
      intro m hm hlost
      rw [hkept hlost, h.teleop, Option.mem_def.mp hm]
      rfl

theorem chainInv_deliverTeleop (h : ChainInv σ) (now : Time) :
    ChainInv (σ.deliverTeleop now) := by
  cases hnext : σ.teleopCmd.next? with
  | none =>
    rw [deliverTeleop, hnext]
    exact h
  | some m =>
    simp only [deliverTeleop, hnext]
    refine ⟨h.joy, by simpa using h.mapped, by simpa using h.sticky, by simpa using h.teleop, ?_⟩
    rw [show σ.teleopCmd.take.last? = some m from Topic.take_last? hnext]
    rfl

theorem chainInv (p : ManagerParams) (r₀ : JoystickReading) (t₀ : Time)
    (es : List (Time × ChainEvent)) : ChainInv ((machine p r₀ t₀).state es) := by
  apply (machine p r₀ t₀).history_rule (P := fun _ σ => ChainInv σ)
  · exact ⟨fun m hm => (by cases hm), fun m hm => (by cases hm), .nil, rfl, rfl⟩
  · rintro es ⟨now, e⟩ ih
    cases e with
    | readAndPublish reading => exact chainInv_readAndPublish ih reading
    | deliverJoy => exact chainInv_deliverJoy ih
    | deliverTeleop => exact chainInv_deliverTeleop ih now
    | status msg => exact ⟨ih.joy, ih.mapped, ih.sticky, ih.teleop, ih.manager⟩
    | cycle => exact ⟨ih.joy, ih.mapped, ih.sticky, ih.teleop, ih.manager⟩

/-! ## What the manager makes of it -/

section Command

variable (p : ManagerParams) (m : ArgusManagerNode) (now : Time)

/-- A manager that is only ever asked for IDLE and JOG mandates no other mode and never sets
`exec`. -/
theorem command_of_idle_or_jog
    (h : m.lastTeleopCmd.requestedMode = 0 ∨ m.lastTeleopCmd.requestedMode = 2) :
    (supervisorCycle p m now).command.exec = false ∧
      ((supervisorCycle p m now).command.mode = 0 ∨
        (supervisorCycle p m now).command.mode = 2) := by
  have hdesired : ∀ alive, m.resolveDesiredMode alive = .idle ∨ m.resolveDesiredMode alive = .jog := by
    intro alive
    unfold resolveDesiredMode
    rcases h with hidle | hjog
    · simp [hidle]
    · cases alive <;> simp [hjog]
  rw [command_eq]
  split_ifs
  · rcases hdesired (teleopAlive p m now) with hmode | hmode <;> simp [hmode, ControlMode.toInt16]
  · rcases hdesired true with hmode | hmode <;> simp [hmode, ControlMode.toInt16]
  · simp
  · simp
  · unfold modeCommand
    rcases hdesired true with hmode | hmode <;> simp [hmode, mapTeleopToJog]

/-- While teleop is alive and no error is reported, a JOG request is mandated whatever the state
of the PLC link. -/
theorem command_mode_of_jog (hteleop : teleopAlive p m now = true)
    (herr : m.lastStatus.error = 0) (hjog : m.lastTeleopCmd.requestedMode = 2) :
    (supervisorCycle p m now).command.mode = 2 := by
  have hdesired : m.resolveDesiredMode true = .jog := by simp [resolveDesiredMode, hjog]
  cases hplc : plcAlive p m now with
  | false =>
    rw [command_of_plc_lost p m now hplc, hteleop, hdesired]
    rfl
  | true =>
    rw [command_of_healthy p m now hplc hteleop herr, modeCommand_of_jog hjog]

end Command

/-- The jog bits that are set agree in sign with axis 5 (pitch) and axis 4 (yaw) of `joy`. -/
structure JogsFollow (joy : Joy) (cmd : PlcCommand) : Prop where
  pitchJogP : cmd.pitchJogP = true → 0 < joy.axes.getD 5 0
  pitchJogN : cmd.pitchJogN = true → joy.axes.getD 5 0 < 0
  yawJogP : cmd.yawJogP = true → 0 < joy.axes.getD 4 0
  yawJogN : cmd.yawJogN = true → joy.axes.getD 4 0 < 0

/-- A moving command comes from a connected joystick. -/
theorem connected_of_jogs {cmd : PlcCommand} (hjogs : cmd.jogs = true)
    (hfollow : JogsFollow (σ.driver.readAndPublish reading) cmd) :
    σ.driver.connected reading = true := by
  simp only [PlcCommand.jogs, Bool.or_eq_true] at hjogs
  rcases hjogs with ((hbit | hbit) | hbit) | hbit
  · exact σ.driver.connected_of_axis reading (hfollow.pitchJogP hbit).ne'
  · exact σ.driver.connected_of_axis reading (hfollow.pitchJogN hbit).ne
  · exact σ.driver.connected_of_axis reading (hfollow.yawJogP hbit).ne'
  · exact σ.driver.connected_of_axis reading (hfollow.yawJogN hbit).ne

/-- A jog bit goes back to the reading behind the last teleop message the manager received. -/
theorem reading_of_jogs (h : ChainInv σ) (p : ManagerParams) (now : Time)
    (hjogs : (supervisorCycle p σ.manager now).command.jogs = true) :
    ∃ reading msg, σ.teleopCmd.last? = some (reading, msg) ∧
      σ.driver.connected reading = true ∧
      JogsFollow (σ.driver.readAndPublish reading) (supervisorCycle p σ.manager now).command := by
  have hdrives : (supervisorCycle p σ.manager now).command.drives = true := by
    simp [PlcCommand.drives, hjogs]
  obtain ⟨-, -, -, hcmd⟩ := healthy_of_drives p σ.manager now hdrives
  rw [hcmd] at hjogs hdrives ⊢
  have hserves := modeCommand_serves σ.manager hdrives
  have hmode := hserves.jogs_mode hjogs
  have hasked : σ.manager.lastTeleopCmd.requestedMode = 2 := hserves.mode_eq.symm.trans hmode
  have hmanager := h.manager
  cases hlast : σ.teleopCmd.last? with
  | none =>
    -- before the first message the manager holds a default one, which asks for IDLE
    rw [hlast] at hmanager
    rw [hmanager] at hasked
    cases hasked
  | some m =>
    obtain ⟨reading, msg⟩ := m
    obtain rfl : σ.manager.lastTeleopCmd = msg := by simpa [hlast] using hmanager
    have hmapped := h.mapped _ (Topic.mem_of_last? hlast)
    obtain ⟨hpitchP, hpitchN⟩ := hserves.pitchJog hmode
    obtain ⟨hyawP, hyawN⟩ := hserves.yawJog hmode
    rw [hmapped.pitchSpeed] at hpitchP hpitchN
    rw [hmapped.yawSpeed] at hyawP hyawN
    have hfollow : JogsFollow (σ.driver.readAndPublish reading) σ.manager.modeCommand :=
      ⟨hpitchP.mp, hpitchN.mp, hyawP.mp, hyawN.mp⟩
    exact ⟨reading, _, rfl, connected_of_jogs hjogs hfollow, hfollow⟩

section Watchdog

variable {p : ManagerParams} {r₀ : JoystickReading} {t₀ t now : Time}

/-- The receive time does not go back if the clock does not. -/
theorem le_lastTeleopTime_handle {e : Time × ChainEvent} (hclock : t ≤ e.1)
    (h : t ≤ σ.manager.lastTeleopTime) : t ≤ (handle p σ e).manager.lastTeleopTime := by
  obtain ⟨now, e⟩ := e
  cases e with
  | readAndPublish reading => exact h
  | deliverJoy =>
    simp only [handle, deliverJoy]
    split <;> exact h
  | deliverTeleop =>
    simp only [handle, deliverTeleop]
    split
    · exact h
    · exact hclock
  | status msg => exact h
  | cycle => exact h

theorem deliverTeleop_lastTeleopTime (h : σ.teleopCmd.next? ≠ none) (now : Time) :
    (σ.deliverTeleop now).manager.lastTeleopTime = now := by
  unfold deliverTeleop
  split
  · contradiction
  · rfl

/-- After a delivery the receive time never falls behind it. -/
theorem le_lastTeleopTime_of_delivery {pre post : List (Time × ChainEvent)}
    (hnext : ((machine p r₀ t₀).state pre).teleopCmd.next? ≠ none)
    (hclock : ∀ e ∈ post, t ≤ e.1) : t ≤
      ((machine p r₀ t₀).state (pre ++ (t, .deliverTeleop) :: post)).manager.lastTeleopTime := by
  induction post using List.reverseRecOn with
  | nil =>
    rw [Machine.state_concat]
    exact (deliverTeleop_lastTeleopTime hnext t).ge
  | append_singleton post e ih =>
    rw [← List.cons_append, ← List.append_assoc, Machine.state_concat]
    apply le_lastTeleopTime_handle (hclock e (by simp))
    exact ih fun e' he' => hclock e' (List.mem_append_left _ he')

/-- Any delivery of a teleop message keeps the watchdog alive for `watchdog_timeout`. -/
theorem teleopAlive_of_delivery {pre post : List (Time × ChainEvent)}
    (hnext : ((machine p r₀ t₀).state pre).teleopCmd.next? ≠ none)
    (hclock : ∀ e ∈ post, t ≤ e.1) (hfresh : now - t < p.timeoutThreshold) :
    teleopAlive p ((machine p r₀ t₀).state (pre ++ (t, .deliverTeleop) :: post)).manager now =
      true := by
  have hreceived := le_lastTeleopTime_of_delivery hnext hclock
  simp only [teleopAlive, checkWatchdog, decide_eq_true_eq]
  exact (sub_le_sub_left hreceived now).trans_lt hfresh

end Watchdog

/-- Joystick-loss safety, in every run of the chain: no cycle sets `exec` or mandates a mode other
than IDLE and JOG; a jog bit goes back to the reading behind the last teleop message received, which
was taken with the joystick connected and has the axis on that side; so a disconnected reading sets
none. The loss is seen nowhere else: the messages of a lost joystick are passed on, each delivery
keeps the watchdog alive, and the mode stays JOG. -/
theorem joystickLoss_safe (p : ManagerParams) (r₀ : JoystickReading) (t₀ now : Time)
    (es : List (Time × ChainEvent)) :
    let σ := (machine p r₀ t₀).state es
    let cmd := (supervisorCycle p σ.manager now).command
    (cmd.exec = false ∧ (cmd.mode = 0 ∨ cmd.mode = 2)) ∧
    (cmd.jogs = true → ∃ reading msg, σ.teleopCmd.last? = some (reading, msg) ∧
      σ.driver.connected reading = true ∧ JogsFollow (σ.driver.readAndPublish reading) cmd) ∧
    (∀ reading msg, σ.teleopCmd.last? = some (reading, msg) →
      σ.driver.connected reading = false → cmd.jogs = false) ∧
    (∀ m, σ.joy.next? = some m →
      ∃ msg, σ.deliverJoy.teleopCmd.log = σ.teleopCmd.log ++ [(m.1, msg)]) ∧
    (∀ pre t post, es = pre ++ (t, .deliverTeleop) :: post →
      ((machine p r₀ t₀).state pre).teleopCmd.next? ≠ none → (∀ e ∈ post, t ≤ e.1) →
      now - t < p.timeoutThreshold → teleopAlive p σ.manager now = true) ∧
    (∀ pre m post, σ.teleopCmd.received = pre ++ m :: post → m.2.requestedMode = 2 →
      (∀ m' ∈ post, σ.driver.connected m'.1 = false) → teleopAlive p σ.manager now = true →
      σ.manager.lastStatus.error = 0 → cmd.mode = 2) := by
  intro σ cmd
  have hinv : ChainInv σ := chainInv p r₀ t₀ es
  refine ⟨command_of_idle_or_jog p σ.manager now ?_, reading_of_jogs hinv p now, ?_, ?_, ?_, ?_⟩
  · rw [hinv.manager]
    cases hlast : σ.teleopCmd.last? with
    | none => exact .inl rfl
    | some m => exact (hinv.mapped m (Topic.mem_of_last? hlast)).mode
  · intro reading msg hlast hlost
    by_contra hjogs
    obtain ⟨reading', msg', hlast', hconnected, -⟩ :=
      reading_of_jogs hinv p now (by simpa using hjogs)
    obtain ⟨rfl, rfl⟩ : reading = reading' ∧ msg = msg' := by simpa [hlast] using hlast'
    simp [hlost] at hconnected
  · rintro ⟨reading, msg⟩ hnext
    obtain ⟨cmd, -, -, hstep⟩ := deliverJoy_of_next hinv hnext
    exact ⟨cmd, by rw [hstep, Topic.publish_log]⟩
  · rintro pre t post rfl hnext hclock hfresh
    exact teleopAlive_of_delivery hnext hclock hfresh
  · intro pre m post hreceived hjog hlost hteleop herr
    apply command_mode_of_jog p σ.manager now hteleop herr
    have hlast := Topic.last?_of_sticky (f := fun m => m.2.requestedMode) hinv.sticky hreceived hlost
    rw [hinv.manager]
    cases hmsg : σ.teleopCmd.last? with
    | none => simp [hmsg] at hlast
    | some m' =>
      have hsame : m'.2.requestedMode = m.2.requestedMode := by simpa [hmsg] using hlast
      exact hsame.trans hjog

/-- JOG is selected and the axis for pitch pushed; then the joystick is lost. The command after the
loss still says JOG, and moves nothing. -/
theorem joystickLoss_safe_jog :
    let pushed : JoystickReading :=
      { isConnected := fun i => i = 0
        getAxisPosition := fun _ axis => match axis with | .v => 100 | _ => 0
        isButtonPressed := fun _ button => button = 2 }
    let lost : JoystickReading :=
      { isConnected := fun _ => false
        getAxisPosition := fun _ _ => 0
        isButtonPressed := fun _ _ => false }
    let es : List (Time × ChainEvent) :=
      [(0, .status {}), (1000000, .readAndPublish pushed), (2000000, .deliverJoy),
        (3000000, .deliverTeleop)]
    let fs : List (Time × ChainEvent) :=
      es ++ [(21000000, .readAndPublish lost), (22000000, .deliverJoy),
        (23000000, .deliverTeleop)]
    let σ := (machine {} pushed 0).state es
    (supervisorCycle {} σ.manager 4000000).command =
      { pitchJogP := true, pitchOverride := 1, yawOverride := 1, mode := 2 } ∧
    (∃ reading msg, σ.teleopCmd.last? = some (reading, msg) ∧ σ.driver.connected reading = true) ∧
    (supervisorCycle {} ((machine {} pushed 0).state fs).manager 24000000).command =
      { pitchOverride := 1, yawOverride := 1, mode := 2 } := by
  intro pushed lost es fs σ
  have hcmd : (supervisorCycle {} σ.manager 4000000).command =
      { pitchJogP := true, pitchOverride := 1, yawOverride := 1, mode := 2 } := by decide +kernel
  obtain ⟨-, hjogs, -⟩ := joystickLoss_safe {} pushed 0 4000000 es
  obtain ⟨reading, msg, hlast, hconnected, -⟩ := hjogs (by rw [hcmd]; rfl)
  exact ⟨hcmd, ⟨reading, msg, hlast, hconnected⟩, by decide +kernel⟩

end JoystickChain

end ArgusGate
