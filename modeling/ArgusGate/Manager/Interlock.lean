import ArgusGate.Manager.Run

/-!
# Interlocks of the manager over whole runs

`interlock_sound` is the contract of every command the manager publishes in any run. The PLC half
of the interlock has a start-up window: the watchdog timers are initialised to "now", so that for
one timeout after construction the link counts as alive without any status having arrived
(`motion_before_first_status`); `plc_feedback` is what holds in every run.
-/

namespace ArgusGate.ArgusManagerNode

open Reactive

variable (p : ManagerParams) (t₀ : Time) (es : List (Time × ManagerEvent)) (now : Time)

theorem checkWatchdog_iff {lastTime now : Time} :
    checkWatchdog p lastTime now = true ↔ now - lastTime < p.timeoutThreshold := by
  simp [checkWatchdog]

/-- A teleop message has been received, and the last one is less than `watchdog_timeout` old. -/
def TeleopFresh (msg : TeleopCommand) : Prop :=
  ∃ t, latestTeleop es = some (t, msg) ∧ now - t < p.timeoutThreshold

/-- The last PLC status was received less than `watchdog_timeout` ago, or none was received and the
manager was constructed less than `watchdog_timeout` ago. -/
def PlcFresh : Prop :=
  match latestStatus es with
  | some (t, _) => now - t < p.timeoutThreshold
  | none => now - t₀ < p.timeoutThreshold

/-- The last PLC status, if any, reports no error. -/
def NoError : Prop := ∀ t msg, latestStatus es = some (t, msg) → msg.error = 0

variable {p t₀ es now}

theorem plcFresh_of_alive (h : plcAlive p ((machine p t₀).state es) now = true) :
    PlcFresh p t₀ es now := by
  have htime := (tracks p t₀ es).statusTime
  rw [plcAlive, checkWatchdog_iff, htime] at h
  unfold PlcFresh
  cases hlast : latestStatus es with
  | none => simpa [hlast] using h
  | some last => simpa [hlast] using h

theorem noError_of_status (h : ((machine p t₀).state es).lastStatus.error = 0) :
    NoError es := by
  intro t msg hlast
  have hstatus := (tracks p t₀ es).status
  rw [hlast] at hstatus
  rw [hstatus] at h
  exact h

/-- The stored teleop command requests a mode other than IDLE only if it was received. -/
theorem teleopFresh_of_alive
    (halive : teleopAlive p ((machine p t₀).state es) now = true)
    (hmode : ((machine p t₀).state es).lastTeleopCmd.requestedMode ≠ 0) :
    TeleopFresh p es now ((machine p t₀).state es).lastTeleopCmd := by
  have htime := (tracks p t₀ es).teleopTime
  have hcmd := (tracks p t₀ es).teleopCmd
  rw [teleopAlive, checkWatchdog_iff, htime] at halive
  cases hlast : latestTeleop es with
  | none =>
    rw [hlast] at hcmd
    rw [hcmd] at hmode
    exact absurd rfl hmode
  | some last =>
    rw [hlast] at hcmd halive
    refine ⟨last.1, ?_, by simpa using halive⟩
    rw [hlast, hcmd]
    rfl

/-- A driving command serves the last teleop message, which is fresh. -/
theorem served_of_drives
    (h : (supervisorCycle p ((machine p t₀).state es) now).command.drives = true) :
    TeleopFresh p es now ((machine p t₀).state es).lastTeleopCmd ∧
      Serves ((machine p t₀).state es).lastTeleopCmd
        (supervisorCycle p ((machine p t₀).state es) now).command := by
  obtain ⟨-, hteleop, -, hcmd⟩ := healthy_of_drives _ _ _ h
  rw [hcmd] at h ⊢
  have hserves := modeCommand_serves _ h
  refine ⟨teleopFresh_of_alive hteleop ?_, hserves⟩
  rw [← hserves.mode_eq]
  rcases hserves.mode_mem with hmode | hmode | hmode <;> rw [hmode] <;> decide

/-- Interlock soundness. A command with `exec` or a jog bit is published only while teleop and PLC
are fresh and no error is reported, and it serves the last teleop message; no command fires, and
none acknowledges and drives at once. -/
theorem interlock_sound (p : ManagerParams) (t₀ : Time) (es : List (Time × ManagerEvent))
    (now : Time) :
    let cycle := supervisorCycle p ((machine p t₀).state es) now
    (cycle.command.drives = true →
      plcAlive p ((machine p t₀).state es) now = true ∧ PlcFresh p t₀ es now ∧ NoError es ∧
      ∃ msg, TeleopFresh p es now msg ∧ Serves msg cycle.command) ∧
    cycle.command.fire = false ∧
    (cycle.command.ack = true → cycle.command.drives = false) := by
  intro cycle
  refine ⟨?_, command_fire _ _ _, drives_of_ack _ _ _⟩
  intro hdrives
  obtain ⟨hplc, -, herr, -⟩ := healthy_of_drives _ _ _ hdrives
  obtain ⟨hfresh, hserves⟩ := served_of_drives hdrives
  exact ⟨hplc, plcFresh_of_alive hplc, noError_of_status herr, _, hfresh, hserves⟩

/-- The contract at work: a jog command after one status and one jog request. -/
theorem interlock_sound_jog :
    let es : List (Time × ManagerEvent) :=
      [(0, .status {}), (1000000, .teleop { requestedMode := 2, pitchSpeed := 1 })]
    let cycle := supervisorCycle {} ((machine {} 0).state es) 2000000
    cycle.command.drives = true ∧
      ∃ msg, TeleopFresh {} es 2000000 msg ∧ Serves msg cycle.command :=
  ⟨by decide +kernel, ((interlock_sound {} 0 _ 2000000).1 (by decide +kernel)).2.2.2⟩

/-- A PLC status was really received less than `watchdog_timeout` before `now`. -/
def PlcHeard (p : ManagerParams) (es : List (Time × ManagerEvent)) (now : Time) : Prop :=
  ∃ t msg, (t, ManagerEvent.status msg) ∈ es ∧ now - t < p.timeoutThreshold

/-- No PLC status has been received yet, and the manager is less than `watchdog_timeout` old. -/
def StartUpWindow (p : ManagerParams) (t₀ : Time) (es : List (Time × ManagerEvent)) (now : Time) :
    Prop :=
  (∀ t msg, (t, ManagerEvent.status msg) ∉ es) ∧ now - t₀ < p.timeoutThreshold

theorem latestStatus_eq_none {es : List (Time × ManagerEvent)} (h : latestStatus es = none) :
    ∀ t msg, (t, ManagerEvent.status msg) ∉ es := by
  intro t msg hmem
  simp only [latestStatus, latest, List.findSome?_eq_none_iff, List.mem_reverse] at h
  exact absurd (h _ hmem) (by simp)

theorem plcHeard_or_startUp (h : PlcFresh p t₀ es now) :
    PlcHeard p es now ∨ StartUpWindow p t₀ es now := by
  unfold PlcFresh at h
  split at h
  · rename_i t msg hlast
    obtain ⟨⟨u, e⟩, hmem, he⟩ := exists_of_latest hlast
    cases e <;> simp at he
    obtain ⟨rfl, rfl⟩ := he
    exact .inl ⟨u, _, hmem, h⟩
  · rename_i hlast
    exact .inr ⟨latestStatus_eq_none hlast, h⟩

/-- Motion commands and `plc_online` rest on a received PLC status, or on the start-up window. -/
theorem plc_feedback (p : ManagerParams) (t₀ : Time) (es : List (Time × ManagerEvent))
    (now : Time) :
    let cycle := supervisorCycle p ((machine p t₀).state es) now
    (cycle.command.drives = true → PlcHeard p es now ∨ StartUpWindow p t₀ es now) ∧
    (cycle.status.plcOnline = true → PlcHeard p es now ∨ StartUpWindow p t₀ es now) := by
  intro cycle
  constructor
  · intro hdrives
    have halive := (healthy_of_drives _ _ _ hdrives).1
    exact plcHeard_or_startUp (plcFresh_of_alive halive)
  · intro honline
    exact plcHeard_or_startUp (plcFresh_of_alive honline)

/-- One millisecond after construction an operator requests SYNCH, before any PLC status. The next
cycle publishes `exec` and reports the PLC online. -/
theorem motion_before_first_status :
    let es : List (Time × ManagerEvent) := [(1000000, .teleop { requestedMode := 1 })]
    let cycle := supervisorCycle {} ((machine {} 0).state es) 2000000
    cycle.command.drives = true ∧ cycle.status.plcOnline = true ∧ ¬ PlcHeard {} es 2000000 := by
  refine ⟨by decide, by decide, ?_⟩
  rintro ⟨t, msg, hmem, -⟩
  simp at hmem

end ArgusGate.ArgusManagerNode
