import ArgusGate.System.ErrorFree
import ArgusGate.System.HeldMotion
import ArgusGate.System.RateLimit

/-!
# The operator leaves the GUI alone

After some last action at the GUI the operator does nothing more, and nobody but the GUI publishes on
`teleop_cmd`. The nodes repeat themselves all the way: the GUI its message, the manager its command, and the
simulator its motion. Once what was under way before has run dry, every tick works on the command for the
GUI's standing request, whatever the order of events, and whatever `teleop_cmd` and `plc_status` lose.
-/

namespace ArgusGate

open Reactive ArgusManagerNode PlcSimNode Console

/-- The command that a healthy cycle publishes for the message. -/
def commandFor (msg : TeleopCommand) : PlcCommand :=
  modeCommand { construct 0 with lastTeleopCmd := msg }

/-- The messages ask for the same: they only differ in their flags. -/
structure SameRequest (msg msg' : TeleopCommand) : Prop where
  mode : msg'.requestedMode = msg.requestedMode
  pitchSpeed : msg'.pitchSpeed = msg.pitchSpeed
  yawSpeed : msg'.yawSpeed = msg.yawSpeed
  targetPitch : msg'.targetPitch = msg.targetPitch
  targetYaw : msg'.targetYaw = msg.targetYaw

theorem modeCommand_of_sameRequest {m : ArgusManagerNode} {msg : TeleopCommand}
    (h : SameRequest msg m.lastTeleopCmd) : m.modeCommand = commandFor msg := by
  simp only [commandFor, modeCommand, resolveDesiredMode, mapTeleopToJog, h.mode, h.pitchSpeed,
    h.yawSpeed, h.targetPitch, h.targetYaw]

namespace Graph

/-! ## The scenario -/

/-- The operator does nothing at the GUI, and nobody but the GUI publishes on `teleop_cmd`: the timer of the
keyboard teleop and the callback of the joystick teleop do not run. The joystick driver may go on, the other
topics go on delivering and losing, and the manager and the simulator go on as ever. -/
def GuiOnly : GraphEvent Unit → Prop
  | .station (.gui .publishLoop) => True
  | .station (.gui _) | .station (.keyboard _) | .station .deliverJoy => False
  | _ => True

/-- A supervisor cycle finds both links alive. -/
def LinksAlive (c : Setup) (pre : List (Time × GraphEvent Unit)) : Time × GraphEvent Unit → Prop
  | (now, .station .cycle) =>
    teleopAlive c.manager ((simMachine c).state pre).console.manager now = true ∧
    plcAlive c.manager ((simMachine c).state pre).console.manager now = true
  | _ => True

instance (c : Setup) (pre : List (Time × GraphEvent Unit)) (e : Time × GraphEvent Unit) :
    Decidable (LinksAlive c pre e) := by
  unfold LinksAlive
  split <;> infer_instance

/-- The run `es`, then the operator's last action `g` at the time `last`, then the run `fs`. -/
def lastRun (last : Time) (g : GuiEvent) (es fs : List (Time × GraphEvent Unit)) :
    List (Time × GraphEvent Unit) :=
  es ++ (last, .station (.gui g)) :: fs

/-- The operator leaves it at `g`; from then on only the GUI is heard of the stations. The run is timely, and
its links stay alive. -/
structure LeftAlone (c : Setup) (gap delay last : Time) (g : GuiEvent)
    (es fs : List (Time × GraphEvent Unit)) : Prop where
  delay_nonneg : 0 ≤ delay
  timeout_nonneg : 0 ≤ c.manager.timeoutThreshold
  started : c.start ≤ last
  past : ∀ e ∈ es, e.1 ≤ last
  guiOnly : ∀ e ∈ fs, GuiOnly e.2
  timely : Timely c (simPlant c.sim) gap delay (lastRun last g es fs)
  alive : EachStep (fun pre e => last < e.1 → LinksAlive c pre e) (lastRun last g es fs)

/-- What the GUI asks for after the operator's last action. -/
def standing (c : Setup) (last : Time) (g : GuiEvent) (es : List (Time × GraphEvent Unit)) :
    TeleopCommand :=
  ((simMachine c).state (lastRun last g es [])).console.gui.node.publishLoop.2

variable {c : Setup} {gap delay last now : Time} {g : GuiEvent}
variable {es fs : List (Time × GraphEvent Unit)} {msg : TeleopCommand} {σ : Graph PlcSimNode}

theorem lastRun_append (gs : List (Time × GraphEvent Unit)) :
    lastRun last g es (fs ++ gs) = lastRun last g es fs ++ gs := by
  simp [lastRun]

theorem lastRun_concat (e : Time × GraphEvent Unit) :
    lastRun last g es (fs ++ [e]) = lastRun last g es fs ++ [e] :=
  lastRun_append [e]

theorem LeftAlone.of_concat {e : Time × GraphEvent Unit}
    (h : LeftAlone c gap delay last g es (fs ++ [e])) : LeftAlone c gap delay last g es fs := by
  have htimely := h.timely
  have halive := h.alive
  rw [lastRun_concat] at htimely halive
  exact ⟨h.delay_nonneg, h.timeout_nonneg, h.started, h.past,
    fun e he => h.guiOnly e (List.mem_append_left _ he), htimely.of_append, halive.of_append⟩

theorem LeftAlone.of_append {gs : List (Time × GraphEvent Unit)}
    (h : LeftAlone c gap delay last g es (fs ++ gs)) : LeftAlone c gap delay last g es fs := by
  induction gs using List.reverseRecOn with
  | nil => simpa using h
  | append_singleton gs e ih =>
    rw [← List.append_assoc] at h
    exact ih h.of_concat

/-! ## What is sent on the way -/

/-- The GUI and what has been published since the time `last` ask for the same as `msg`. -/
structure Carries (c : Setup) (delay last : Time) (msg : TeleopCommand) (σ : Graph PlcSimNode) : Prop where
  gui : SameRequest msg σ.console.gui.node.publishLoop.2
  teleops : ∀ m ∈ σ.console.teleopCmd.log, last < m.1 → SameRequest msg m.2
  commands : ∀ m ∈ σ.plcCommand.log, last + (c.manager.timeoutThreshold + delay) < m.1 →
    m.2 = commandFor msg

theorem carries_start (h : LeftAlone c gap delay last g es []) :
    Carries c delay last (standing c last g es) ((simMachine c).state (lastRun last g es [])) := by
  have hpast : ∀ e ∈ lastRun last g es [], e.1 ≤ last := by
    intro e he
    rcases List.mem_append.mp he with he | he
    · exact h.past e he
    · obtain rfl := List.mem_singleton.mp he
      exact le_rfl
  refine ⟨⟨rfl, rfl, rfl, rfl, rfl⟩, fun m hm hlate => ?_, fun m hm hlate => ?_⟩
  · obtain ⟨e, he, hstamp⟩ := stamp_of_teleop hm
    exact absurd (hstamp ▸ hpast e he) (not_le.mpr hlate)
  · obtain ⟨e, he, hstamp⟩ := stamp_of_command hm
    have hle : m.1 ≤ last := hstamp ▸ hpast e he
    have hdelay := h.delay_nonneg
    have htimeout := h.timeout_nonneg
    linarith

/-- A late enough cycle publishes the command for the message. -/
theorem command_of_carries (h : Carries c delay last msg ((simMachine c).state es))
    (hrun : Timely c (simPlant c.sim) gap delay es) (hdelay : 0 ≤ delay) (hstart : c.start ≤ last)
    (halive : LinksAlive c es (now, .station .cycle))
    (hlate : last + (c.manager.timeoutThreshold + delay) < now) :
    (supervisorCycle c.manager ((simMachine c).state es).console.manager now).command =
      commandFor msg := by
  obtain ⟨hteleop, hplc⟩ := halive
  have hfresh := (checkWatchdog_iff c.manager).mp hteleop
  have hpublished : ((simMachine c).state es).console.manager.lastTeleopCmd = {} ∧
        now - c.start < c.manager.timeoutThreshold ∨
      ∃ s, (s, ((simMachine c).state es).console.manager.lastTeleopCmd) ∈
          ((simMachine c).state es).console.teleopCmd.log ∧
        now - (c.manager.timeoutThreshold + delay) < s := by
    rw [console_state] at hfresh ⊢
    exact published_of_fresh (prompt_console hrun) hfresh
  rcases hpublished with ⟨-, hstartup⟩ | ⟨s, hmem, hs⟩
  · linarith
  · rw [command_of_healthy _ _ now hplc hteleop (errorFree c es).reported]
    exact modeCommand_of_sameRequest (h.teleops _ hmem (by linarith))

/-- Steps that publish neither messages nor commands, and leave the GUI alone. -/
theorem carries_frame {σ' : Graph PlcSimNode} (h : Carries c delay last msg σ)
    (hgui : σ'.console.gui = σ.console.gui)
    (hteleops : σ'.console.teleopCmd.log = σ.console.teleopCmd.log)
    (hcommands : σ'.plcCommand.log = σ.plcCommand.log) : Carries c delay last msg σ' :=
  ⟨hgui ▸ h.gui, hteleops ▸ h.teleops, hcommands ▸ h.commands⟩

/-- The other half of the graph does not reach the operator's side but for the statuses. -/
theorem carries_plant (h : Carries c delay last msg σ) (now : Time) :
    Carries c delay last msg (σ.deliverCommand (simPlant c.sim)) ∧
    Carries c delay last msg (σ.deliverStatus c now) := by
  constructor
  · unfold deliverCommand
    split
    · exact h
    · exact carries_frame h rfl rfl (Topic.take_log _)
  · unfold deliverStatus
    split
    · exact h
    · exact carries_frame h rfl rfl rfl

/-- The GUI repeats its message. -/
theorem carries_publishLoop (h : Carries c delay last msg σ) (now : Time) :
    Carries c delay last msg (σ.handle c (simPlant c.sim) (now, .station (.gui .publishLoop))) := by
  refine ⟨⟨h.gui.mode, h.gui.pitchSpeed, h.gui.yawSpeed, h.gui.targetPitch, h.gui.targetYaw⟩,
    fun m hm hlate => ?_, ?_⟩
  · rcases Topic.mem_publish.mp hm with hm | rfl
    · exact h.teleops m hm hlate
    · exact h.gui
  · simpa [handle, commandOut, FletGui.handle] using h.commands

theorem carries (h : LeftAlone c gap delay last g es fs) :
    Carries c delay last (standing c last g es) ((simMachine c).state (lastRun last g es fs)) := by
  induction fs using List.reverseRecOn with
  | nil => exact carries_start h
  | append_singleton fs e ih =>
    have hcarries := ih h.of_concat
    have honly := h.guiOnly e (by simp)
    have halive := h.alive
    rw [lastRun_concat] at halive ⊢
    rw [eachStep_concat] at halive
    rw [Machine.state_concat, machine_step]
    obtain ⟨now, e⟩ := e
    cases e with
    | station e =>
      cases e with
      | gui g =>
        cases g with
        | publishLoop => exact carries_publishLoop hcarries now
        | _ => exact absurd honly id
      | cycle =>
        refine ⟨hcarries.gui, hcarries.teleops, fun m hm hlate => ?_⟩
        rcases Topic.mem_publish.mp hm with hm | rfl
        · exact hcarries.commands m hm hlate
        · have hafter : last < now := by
            have hdelay := h.delay_nonneg
            have htimeout := h.timeout_nonneg
            linarith
          exact command_of_carries hcarries h.of_concat.timely h.delay_nonneg h.started
            (halive.2 hafter) hlate
      | deliverTeleop =>
        refine carries_frame hcarries ?_ ?_ rfl
        · simp [handle, station]
        · simp [handle, station]
      | loseTeleop => exact carries_frame hcarries rfl (Topic.take_log _) rfl
      | readAndPublish | loseJoy => exact carries_frame hcarries rfl rfl rfl
      | _ => exact absurd honly id
    | deliverCommand => exact (carries_plant hcarries now).1
    | loseCommand => exact carries_frame hcarries rfl rfl (Topic.take_log _)
    | run u => exact carries_frame hcarries rfl rfl rfl
    | deliverStatus => exact (carries_plant hcarries now).2
    | loseStatus => exact carries_frame hcarries rfl rfl rfl

/-! ## What the simulator works on -/

/-- A tick that comes late enough works on the command for the standing request. -/
theorem lastCommand_of_leftAlone (h : LeftAlone c gap delay last g es (fs ++ [(now, .tick)]))
    (hfed : (simMachine c).trace receptions (lastRun last g es fs) ≠ [])
    (hlate : last + (gap + delay) + (c.manager.timeoutThreshold + delay) < now) :
    ((simMachine c).state (lastRun last g es fs)).plant.lastCommand =
      commandFor (standing c last g es) := by
  have hbefore := h.of_concat
  have htick := h.timely
  rw [lastRun_concat, Timely, eachStep_concat] at htick
  have hworks := received_worksOn (simPlant_worksOn c.sim) hbefore.timely
  rcases hworks with ⟨-, hnone⟩ | ⟨m, hmem, hlast, r, hr, hm⟩
  · exact absurd hnone hfed
  · have hgap : now ≤ r + gap := htick.2 r hr
    rw [hlast]
    exact (carries hbefore).commands m hmem (by linarith)

/-- What the simulator has once received, it has received later, too. -/
theorem receptions_ne_nil (gs : List (Time × GraphEvent Unit))
    (h : (simMachine c).trace receptions (lastRun last g es fs) ≠ []) :
    (simMachine c).trace receptions (lastRun last g es (fs ++ gs)) ≠ [] := by
  rw [lastRun_append]
  intro hnone
  apply h
  rw [← List.prefix_nil, ← hnone]
  exact (simMachine c).trace_extends _ _ _

/-- The motion after the deadlines: if under the command for the standing request a tick always takes the
axis from `x` to `f x`, then it goes as many of these steps as there are ticks. -/
theorem late_motion {Q : PlcSimNode → Prop} {a : Axis} {f : ℚ → ℚ}
    (gs : List (Time × GraphEvent Unit))
    (h : LeftAlone c gap delay last g es (fs ++ gs))
    (hfed : (simMachine c).trace receptions (lastRun last g es fs) ≠ [])
    (hlate : ∀ e ∈ gs, last + (gap + delay) + (c.manager.timeoutThreshold + delay) < e.1)
    (works : ∀ ts, ((PlcSimNode.machine c.sim).state ts).lastCommand =
      commandFor (standing c last g es) → Q ((PlcSimNode.machine c.sim).state ts))
    (tick : ∀ s, Q s → a.current (s.tick c.sim) = f (a.current s)) :
    a.current ((simMachine c).state (lastRun last g es (fs ++ gs))).plant =
      f^[ticks gs] (a.current ((simMachine c).state (lastRun last g es fs)).plant) := by
  induction gs using List.reverseRecOn with
  | nil =>
    rw [List.append_nil]
    rfl
  | append_singleton gs e ih =>
    rw [← List.append_assoc] at h ⊢
    have hbefore := ih h.of_concat fun e he => hlate e (List.mem_append_left _ he)
    have hticks : ticks (gs ++ [e]) = ticks gs + ticks [e] := by simp [ticks, List.countP_append]
    rw [lastRun_concat, Machine.state_concat, machine_step, hticks]
    obtain ⟨now, e⟩ := e
    cases e with
    | run u =>
      have hlast := lastCommand_of_leftAlone h (receptions_ne_nil gs hfed)
        (hlate (now, .tick) (List.mem_append_right _ (List.mem_singleton_self _)))
      have hworks : Q ((simMachine c).state (lastRun last g es (fs ++ gs))).plant := by
        rw [sim_state] at hlast ⊢
        exact works _ hlast
      have hone : ticks [(now, GraphEvent.tick)] = 1 := rfl
      rw [hone, Function.iterate_succ_apply', ← hbefore]
      exact tick _ hworks
    | deliverCommand =>
      have hzero : ticks [(now, GraphEvent.deliverCommand)] = 0 := rfl
      rw [hzero, Nat.add_zero]
      simp only [handle, deliverCommand]
      split
      · exact hbefore
      · simpa using hbefore
    | deliverStatus =>
      simp only [handle, deliverStatus]
      split <;> exact hbefore
    | _ => exact hbefore

end Graph

end ArgusGate
