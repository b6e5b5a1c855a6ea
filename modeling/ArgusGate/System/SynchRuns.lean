import ArgusGate.System.Homing
import ArgusGate.System.TargetReached

/-!
# The gate under the standing request for SYNCH

Every command of the manager starts the sequencer again, with its pitch step. The pitch axis gets home all
the same. The yaw axis only moves in ticks that come right after another tick, so that it starves when a
command gets in before every tick, as it may with the manager and the simulator at the same rate.
-/

namespace ArgusGate

open Reactive ArgusManagerNode PlcSimNode

namespace PlcSimNode

variable {q : PlcSimParams} {s : PlcSimNode} {es : List SimEvent} {e : SimEvent}

/-- At rest with both axes at 0. -/
structure Home (s : PlcSimNode) : Prop where
  state : s.state = .ready
  pitch : s.currentPitch = 0
  yaw : s.currentYaw = 0

/-- The sequencer is past its pitch step, or has come to its end. -/
inductive PastPitch (s : PlcSimNode) : Prop where
  | homing (homing : Homing s) (step : 0 < s.syncStep)
  | home (home : Home s)

theorem PastPitch.pitch (h : PastPitch s) : s.currentPitch = 0 := by
  cases h with
  | homing hhoming hstep => exact hhoming.pitch hstep
  | home hhome => exact hhome.pitch

/-- What a tick does to the sequencer: its step moves one axis. -/
structure StepTaken (q : PlcSimParams) (s s' : PlcSimNode) : Prop where
  pitch : s'.currentPitch = (moveTowards q s.currentPitch 0).1
  yaw : s'.currentYaw = if s.syncStep = 0 then s.currentYaw else (moveTowards q s.currentYaw 0).1
  next : Homing s' ∨ Home s'
  past : s.currentPitch = 0 → PastPitch s'

theorem homing_tick (htol : 0 ≤ q.targetTolerance) (h : Homing s) : StepTaken q s (s.tick q) := by
  have hzero : moveTowards q 0 0 = (0, true) := moveTowards_self htol 0
  have hdone : ∀ x : ℚ, (moveTowards q x 0).2 = true → (moveTowards q x 0).1 = 0 := fun x hx =>
    Approach.approach_eq_of_done hx
  have hcases : s.syncStep = 0 ∨ s.syncStep = 1 ∨ s.syncStep = 2 := by
    have := h.step
    omega
  rcases hcases with hs | hs | hs
  · rw [tick_pitchStep q s h.state hs]
    have hhoming : Homing { s with
        targetPitch := 0
        currentPitch := (moveTowards q s.currentPitch 0).1
        syncStep := if (moveTowards q s.currentPitch 0).2 then 1 else 0
        busy := true, done := false, synch := false, onTarget := false } := by
      refine ⟨h.state, ?_, fun hpos => hdone _ ?_, ?_⟩
      · dsimp only
        split_ifs <;> omega
      · by_contra hfar
        simp [hfar] at hpos
      · dsimp only
        split_ifs <;> omega
    refine ⟨rfl, by simp [hs], .inl hhoming, fun hpitch => .homing hhoming ?_⟩
    simp [hpitch, hzero]
  · rw [tick_yawStep q s h.state hs]
    have hpitch : s.currentPitch = 0 := h.pitch (by omega)
    have hhoming : Homing { s with
        targetYaw := 0
        currentYaw := (moveTowards q s.currentYaw 0).1
        syncStep := if (moveTowards q s.currentYaw 0).2 then 2 else 1
        busy := true, done := false, synch := false, onTarget := false } := by
      refine ⟨h.state, ?_, fun _ => hpitch, fun hpos => hdone _ ?_⟩
      · dsimp only
        split_ifs <;> omega
      · by_contra hfar
        simp [hfar] at hpos
    refine ⟨by simp [hpitch, hzero], by simp [hs], .inl hhoming, fun _ => .homing hhoming ?_⟩
    dsimp only
    split_ifs <;> omega
  · rw [tick_lastStep q s h.state (by omega) (by omega)]
    have hpitch : s.currentPitch = 0 := h.pitch (by omega)
    have hyaw : s.currentYaw = 0 := h.yaw (by omega)
    refine ⟨by simp [hpitch, hzero], by simp [hyaw, hzero], .inr ⟨rfl, hpitch, hyaw⟩,
      fun _ => .home ⟨rfl, hpitch, hyaw⟩⟩

theorem home_tick (h : Home s) : Home (s.tick q) := by
  rw [tick_of_ready q s h.state]
  exact ⟨h.state, h.pitch, h.yaw⟩

/-- Past its pitch step, a tick moves the yaw axis. -/
theorem pastPitch_tick (htol : 0 ≤ q.targetTolerance) (h : PastPitch s) :
    PastPitch (s.tick q) ∧ (s.tick q).currentYaw = (moveTowards q s.currentYaw 0).1 := by
  cases h with
  | homing hhoming hstep =>
    have htaken := homing_tick htol hhoming
    refine ⟨htaken.past (hhoming.pitch hstep), ?_⟩
    rw [htaken.yaw, if_neg hstep.ne']
  | home hhome =>
    refine ⟨.home (home_tick hhome), ?_⟩
    rw [(home_tick hhome).yaw, hhome.yaw, moveTowards_self htol]

/-! ## The pitch axis -/

/-- While the SYNCH command is the last one, the sequencer is at work, or the simulator is at home. -/
theorem homing_of_lastCommand (htol : 0 ≤ q.targetTolerance) (es : List SimEvent)
    (h : ((machine q).state es).lastCommand = synchCommand) :
    Homing ((machine q).state es) ∨ Home ((machine q).state es) := by
  refine lastCommand_rule (Q := fun s => Homing s ∨ Home s) (fun hcmd => ?_) (fun s => ?_)
    (fun s hs => ?_) es h
  · cases congrArg PlcCommand.mode hcmd
  · exact .inl (homing_command s).1
  · rcases hs with hs | hs
    · exact (homing_tick htol hs).next
    · exact .inr (home_tick hs)

/-- A tick is one call of `move_towards` for the pitch axis. -/
theorem pitch_tick (htol : 0 ≤ q.targetTolerance) (h : Homing s ∨ Home s) :
    (s.tick q).currentPitch = (moveTowards q s.currentPitch 0).1 := by
  rcases h with h | h
  · exact (homing_tick htol h).pitch
  · rw [(home_tick h).pitch, h.pitch, moveTowards_self htol]

/-! ## The yaw axis -/

/-- How many ticks come right after another one. -/
def freeTicks : List SimEvent → ℕ
  | .tick :: .tick :: es => freeTicks (.tick :: es) + 1
  | _ :: es => freeTicks es
  | [] => 0

theorem freeTicks_concat (es : List SimEvent) (e : SimEvent) : freeTicks (es ++ [e]) =
    freeTicks es + if es.getLast? = some .tick ∧ e = .tick then 1 else 0 := by
  fun_induction freeTicks es with
  | case1 es ih =>
    rw [List.cons_append, List.cons_append, freeTicks, ← List.cons_append, ih,
      List.getLast?_cons_cons]
    omega
  | case2 x es hx ih =>
    cases es with
    | nil => cases x <;> cases e <;> simp [freeTicks]
    | cons y es =>
      rw [List.cons_append, List.getLast?_cons_cons, ← ih]
      cases x <;> cases y <;> simp_all [freeTicks]
  | case3 => cases e <;> simp [freeTicks]

/-- The pitch axis is home, and the yaw axis has moved in the free ticks of the run `es`. -/
structure YawRuns (q : PlcSimParams) (yaw : ℚ) (es : List SimEvent) (s : PlcSimNode) : Prop where
  pitch : s.currentPitch = 0
  yaw : s.currentYaw = moved q yaw 0 (freeTicks es)
  phase : (es.getLast? ≠ some .tick ∧ ∃ s' : PlcSimNode, s = s'.commandCallback s.lastCommand) ∨
    (es.getLast? = some .tick ∧ PastPitch s)

/-- If every tick of a run finds the SYNCH command the last one, then the yaw axis moves in the free ticks
alone. -/
theorem yawRuns (htol : 0 ≤ q.targetTolerance) (hpitch : s.currentPitch = 0)
    (hcommand : ∃ s' : PlcSimNode, s = s'.commandCallback s.lastCommand)
    (hes : EachStep (fun pre e => e = .tick →
      (((machine q).resume s).state pre).lastCommand = synchCommand) es) :
    YawRuns q s.currentYaw es (((machine q).resume s).state es) := by
  apply ((machine q).resume s).eachStep_rule (P := YawRuns q s.currentYaw) _ _ hes
  · exact ⟨hpitch, rfl, .inl ⟨by simp, hcommand⟩⟩
  · intro es e hlast ih
    generalize ((machine q).resume s).state es = σ at hlast ih
    cases e with
    | command msg =>
      refine ⟨?_, ?_, .inl ⟨by simp, σ, ?_⟩⟩
      · exact (commandCallback_currentPitch σ msg).trans ih.pitch
      · rw [freeTicks_concat, if_neg (fun h => (by cases h.2)), add_zero, ← ih.yaw]
        exact commandCallback_currentYaw σ msg
      · exact congrArg σ.commandCallback (commandCallback_lastCommand σ msg).symm
    | tick =>
      have hsynch := hlast rfl
      rcases ih.phase with ⟨hnone, s', hs'⟩ | ⟨htick, hpast⟩
      · -- the command that has come in between has started the sequencer again
        rw [hsynch] at hs'
        obtain ⟨hhoming, hstep⟩ := homing_command s'
        rw [← hs'] at hhoming hstep
        have htaken := homing_tick htol hhoming
        have hpast := htaken.past ih.pitch
        refine ⟨hpast.pitch, ?_, .inr ⟨by simp, hpast⟩⟩
        rw [freeTicks_concat, if_neg (fun h => hnone h.1), add_zero, ← ih.yaw]
        exact htaken.yaw.trans (if_pos hstep)
      · obtain ⟨hpast', hyaw⟩ := pastPitch_tick htol hpast
        refine ⟨hpast'.pitch, ?_, .inr ⟨by simp, hpast'⟩⟩
        rw [freeTicks_concat, if_pos ⟨htick, rfl⟩, moved_succ, ← ih.yaw]
        exact hyaw

end PlcSimNode

namespace Graph

variable {c : Setup} {gap delay last : Time} {g : GuiEvent}
variable {es fs gs : List (Time × GraphEvent Unit)}

/-- What the simulator handles in the run `gs` after the run `es`. -/
def simRun (c : Setup) (es gs : List (Time × GraphEvent Unit)) : List SimEvent :=
  ((simMachine c).resume ((simMachine c).state es)).trace simEvents gs

/-- The simulator has received a command since its last tick. -/
def Commanded (c : Setup) (es : List (Time × GraphEvent Unit)) : Prop :=
  ∃ msg, ((simMachine c).trace simEvents es).getLast? = some (.command msg)

theorem commandFor_of_synch {msg : TeleopCommand} (h : msg.requestedMode = 1) :
    commandFor msg = synchCommand :=
  modeCommand_of_synch h

/-- A simulator that has received a command since its last tick is as the command has left it. -/
theorem Commanded.exists (h : Commanded c es) : ∃ s' : PlcSimNode,
    ((simMachine c).state es).plant =
      s'.commandCallback ((simMachine c).state es).plant.lastCommand := by
  obtain ⟨msg, hmsg⟩ := h
  obtain ⟨ts, hts⟩ := List.getLast?_eq_some_iff.mp hmsg
  refine ⟨(PlcSimNode.machine c.sim).state ts, ?_⟩
  rw [sim_state, hts, Machine.state_concat, machine_step_command, commandCallback_lastCommand]

/-- Every late tick works on the command for the standing request. -/
theorem lastCommand_simRun (h : LeftAlone c gap delay last g es (fs ++ gs))
    (hfed : (simMachine c).trace receptions (lastRun last g es fs) ≠ [])
    (hlate : ∀ e ∈ gs, last + (gap + delay) + (c.manager.timeoutThreshold + delay) < e.1) :
    EachStep (fun pre e => e = .tick →
      (((PlcSimNode.machine c.sim).resume
        ((simMachine c).state (lastRun last g es fs)).plant).state pre).lastCommand =
        commandFor (standing c last g es)) (simRun c (lastRun last g es fs) gs) := by
  refine Machine.eachStep_trace _ ?_
  rintro pre ⟨now, e⟩ post rfl
  cases e with
  | run u =>
    have hpost : LeftAlone c gap delay last g es (fs ++ pre ++ [(now, .tick)] ++ post) := by
      simpa using h
    have hlast := lastCommand_of_leftAlone hpost.of_append (receptions_ne_nil pre hfed)
      (hlate (now, .tick) (by simp))
    rw [lastRun_append, ← Machine.resume_state, sim_resume] at hlast
    refine eachStep_singleton.mpr fun _ => ?_
    rwa [List.append_nil]
  | deliverCommand =>
    simp only [simEvents]
    cases (((simMachine c).resume _).state pre).plcCommand.next? with
    | none => exact .nil _
    | some m => exact eachStep_singleton.mpr fun htick => (by cases htick)
  | _ => exact .nil _

/-- Homing at the graph's own pace. The operator's last action leaves the GUI asking for SYNCH; in a run as in
`target_reached`, with the keyboard and joystick teleop silent, the pitch axis is where as many calls of
`move_towards` take it as there have been ticks, and so gets home. From then on, and from a command on, the
yaw axis is where as many calls take it as there have been ticks right after another one: it stays where it
is if a command gets in before every tick. -/
theorem synch_runs (c : Setup) (hstep : 0 < c.sim.stepPerCycle)
    (htol : 0 ≤ c.sim.targetTolerance) (gap delay last : Time) (g : GuiEvent)
    (es fs gs : List (Time × GraphEvent Unit)) (h : LeftAlone c gap delay last g es (fs ++ gs))
    (hmode : (standing c last g es).requestedMode = 1)
    (hfed : (simMachine c).trace receptions (lastRun last g es fs) ≠ [])
    (hlate : ∀ e ∈ gs, last + (gap + delay) + (c.manager.timeoutThreshold + delay) < e.1) :
    let s := ((simMachine c).state (lastRun last g es fs)).plant
    let s' := ((simMachine c).state (lastRun last g es (fs ++ gs))).plant
    s'.currentPitch = moved c.sim s.currentPitch 0 (ticks gs) ∧
    (arrivalCall c.sim s.currentPitch 0 ≤ ticks gs → s'.currentPitch = 0) ∧
    (s.currentPitch = 0 → Commanded c (lastRun last g es fs) →
      s'.currentYaw = moved c.sim s.currentYaw 0 (freeTicks (simRun c (lastRun last g es fs) gs))) := by
  intro s s'
  have hcommand := commandFor_of_synch hmode
  have hpitch : s'.currentPitch = moved c.sim s.currentPitch 0 (ticks gs) := by
    refine late_motion (Q := fun s => Homing s ∨ Home s) (a := .pitch)
      (f := fun x => (moveTowards c.sim x 0).1) gs h hfed hlate ?_ ?_
    · intro ts hlast
      exact homing_of_lastCommand htol ts (hlast.trans hcommand)
    · exact fun s => pitch_tick htol
  refine ⟨hpitch, fun hcall => ?_, fun hhome hcommanded => ?_⟩
  · rw [hpitch]
    exact moved_eq_target hstep htol hcall
  · have hlast := lastCommand_simRun h hfed hlate
    rw [hcommand] at hlast
    have hruns := yawRuns htol hhome hcommanded.exists hlast
    have hs' : s' = ((PlcSimNode.machine c.sim).resume s).state
        (simRun c (lastRun last g es fs) gs) := by
      rw [simRun, ← sim_resume, Machine.resume_state, ← lastRun_append]
    rw [hs']
    exact hruns.yaw

/-- The yaw axis stands one step from home, and the manager's cycles come between the ticks: in three ticks
it does not get any closer. -/
theorem synch_runs_starved :
    let c : Setup :=
      { reading := ⟨fun _ => false, fun _ _ => 0, fun _ _ => false⟩
        manager := { watchdogTimeoutMs := 1 }, sim := { initialYaw := 1 / 50 } }
    let es : List (Time × GraphEvent Unit) := [(0, .tick), (1, .tick)]
    let fs : List (Time × GraphEvent Unit) :=
      [(2, .deliverCommand), (1000000, .station (.gui .publishLoop)),
        (1000001, .station .deliverTeleop), (1000002, .deliverStatus), (1000030, .station .cycle),
        (1000032, .deliverCommand)]
    let gs : List (Time × GraphEvent Unit) :=
      [(1000033, .tick), (1000034, .station .cycle), (1000035, .deliverCommand), (1000036, .tick),
        (1000037, .station .cycle), (1000038, .deliverCommand), (1000039, .tick)]
    ((simMachine c).state (lastRun 1 .synch es (fs ++ gs))).plant.currentYaw = 1 / 50 := by
  intro c es fs gs
  have h : LeftAlone c 10 10 1 .synch es (fs ++ gs) := by
    refine ⟨by decide, by decide, by decide, by decide, by simp [fs, gs, GuiOnly], ?_, ?_⟩
    · unfold Timely
      decide +kernel
    · decide +kernel
  have hcommanded : Commanded c (lastRun 1 .synch es fs) := ⟨_, rfl⟩
  have hruns := synch_runs c (by decide +kernel) (by decide +kernel) 10 10 1 .synch es fs gs h
    (by decide +kernel) (by decide +kernel) (by decide +kernel)
  rw [hruns.2.2 (by decide +kernel) hcommanded]
  decide +kernel

end Graph

end ArgusGate
