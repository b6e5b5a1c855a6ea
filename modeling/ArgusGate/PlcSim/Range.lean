import ArgusGate.PlcSim.Rest

/-!
# The range of the motion

Without jogging, an axis only ever moves towards its stored target, and the stored target is one that
was commanded or the 0 of a homing. So the axis stays in any interval that contains 0, its initial
position and the commanded targets.
-/

namespace ArgusGate

open Reactive Approach

/-- The two axes, which the simulator treats alike. -/
inductive Axis where
  | pitch
  | yaw

namespace Axis

def current : Axis → PlcSimNode → ℚ
  | .pitch, s => s.currentPitch
  | .yaw, s => s.currentYaw

def target : Axis → PlcSimNode → ℚ
  | .pitch, s => s.targetPitch
  | .yaw, s => s.targetYaw

/-- The target a command carries for the axis. -/
def commanded : Axis → PlcCommand → ℚ
  | .pitch, msg => msg.targetPitch
  | .yaw, msg => msg.targetYaw

def initial : Axis → PlcSimParams → ℚ
  | .pitch, q => q.initialPitch
  | .yaw, q => q.initialYaw

end Axis

namespace PlcSimNode

variable (a : Axis)

@[simp] theorem commandCallback_current (s : PlcSimNode) (msg : PlcCommand) :
    a.current (s.commandCallback msg) = a.current s := by
  cases a <;> simp [Axis.current]

/-- A command leaves the stored target alone, or stores its own. -/
theorem commandCallback_target (s : PlcSimNode) (msg : PlcCommand) :
    a.target (s.commandCallback msg) = a.target s ∨
    (msg.mode = 3 ∧ a.target (s.commandCallback msg) = a.commanded msg) := by
  have hcases := handles s msg
  generalize s.commandCallback msg = s' at hcases ⊢
  cases hcases with
  | follow _ _ hmode => exact .inr ⟨hmode, by cases a <;> rfl⟩
  | _ => exact .inl (by cases a <;> rfl)

/-- Only commands of mode 2 lead to JOG. -/
theorem mode_of_commandCallback_jog {s : PlcSimNode} {msg : PlcCommand}
    (h : (s.commandCallback msg).state = .jog) : msg.mode = 2 := by
  have hcases := handles s msg
  generalize s.commandCallback msg = s' at hcases h
  cases hcases with
  | jog _ _ hmode => exact hmode
  | _ => cases h

theorem tick_ne_jog {q : PlcSimParams} {s : PlcSimNode} (h : s.state ≠ .jog) :
    (s.tick q).state ≠ .jog := by
  by_cases hstart : s.state = .startup
  · simp [tick_of_startup q s hstart]
  · rw [tick_of_ne_startup q s hstart]
    rcases advance_state q s with hkeep | ⟨-, hready⟩
    · rwa [hkeep]
    · simp [hready]

/-- What a tick outside JOG does to an axis: its target stays or becomes 0, and the axis stays or
makes one move towards it. -/
theorem tick_axis {q : PlcSimParams} {s : PlcSimNode} (h : s.state ≠ .jog) :
    (a.target (s.tick q) = a.target s ∨ a.target (s.tick q) = 0) ∧
    (a.current (s.tick q) = a.current s ∨
      a.current (s.tick q) = (moveTowards q (a.current s) (a.target (s.tick q))).1) := by
  cases hs : s.state with
  | startup =>
    rw [tick_of_startup q s hs]
    cases a <;> exact ⟨.inl rfl, .inl rfl⟩
  | stop =>
    rw [tick_of_ne_startup q s (by simp [hs])]
    cases a <;> simp [advance, hs, Axis.target, Axis.current]
  | ready =>
    rw [tick_of_ready q s hs]
    cases a <;> exact ⟨.inl rfl, .inl rfl⟩
  | synch =>
    by_cases h0 : s.syncStep = 0
    · rw [tick_pitchStep q s hs h0]
      cases a with
      | pitch => exact ⟨.inr rfl, .inr rfl⟩
      | yaw => exact ⟨.inl rfl, .inl rfl⟩
    · by_cases h1 : s.syncStep = 1
      · rw [tick_yawStep q s hs h1]
        cases a with
        | pitch => exact ⟨.inl rfl, .inl rfl⟩
        | yaw => exact ⟨.inr rfl, .inr rfl⟩
      · rw [tick_lastStep q s hs h0 h1]
        cases a <;> exact ⟨.inl rfl, .inl rfl⟩
  | jog => exact absurd hs h
  | follow =>
    rw [tick_eq_tickFollow q s hs]
    cases a <;> exact ⟨.inl rfl, .inr rfl⟩
  | error =>
    rw [tick_of_error q s hs]
    cases a <;> exact ⟨.inl rfl, .inl rfl⟩

/-- The simulator is not jogging, and the axis and its target are in `[lo, hi]`. -/
structure InRange (lo hi : ℚ) (s : PlcSimNode) : Prop where
  ne_jog : s.state ≠ .jog
  current : a.current s ∈ Set.Icc lo hi
  target : a.target s ∈ Set.Icc lo hi

variable {a} {lo hi : ℚ} {q : PlcSimParams} {s : PlcSimNode}

theorem inRange_command {msg : PlcCommand} (h : InRange a lo hi s) (hjog : msg.mode ≠ 2)
    (hcmd : msg.mode = 3 → a.commanded msg ∈ Set.Icc lo hi) :
    InRange a lo hi (s.commandCallback msg) := by
  refine ⟨fun hs => hjog (mode_of_commandCallback_jog hs), ?_, ?_⟩
  · rw [commandCallback_current]
    exact h.current
  · rcases commandCallback_target a s msg with hkeep | ⟨hmode, hnew⟩
    · rw [hkeep]
      exact h.target
    · rw [hnew]
      exact hcmd hmode

theorem inRange_tick (hstep : 0 ≤ q.stepPerCycle) (hlo : lo ≤ 0) (hhi : 0 ≤ hi)
    (h : InRange a lo hi s) : InRange a lo hi (s.tick q) := by
  obtain ⟨htarget, hcurrent⟩ := tick_axis a (q := q) h.ne_jog
  have htarget' : a.target (s.tick q) ∈ Set.Icc lo hi := by
    rcases htarget with hkeep | hzero
    · rw [hkeep]
      exact h.target
    · rw [hzero]
      exact ⟨hlo, hhi⟩
  refine ⟨tick_ne_jog h.ne_jog, ?_, htarget'⟩
  rcases hcurrent with hstay | hmove
  · rw [hstay]
    exact h.current
  · rw [hmove, moveTowards_eq]
    exact Set.uIcc_subset_Icc h.current htarget' (approach_mem_uIcc hstep)

/-- The motion stays inside the commanded range: in a run without jog commands, after every event,
each axis and its stored target are in any interval that contains 0, the initial position of the axis
and its target in every command of mode 3. -/
theorem motion_inRange (q : PlcSimParams) (hstep : 0 ≤ q.stepPerCycle) (es : List SimEvent)
    (hjog : ∀ msg, SimEvent.command msg ∈ es → msg.mode ≠ 2) (a : Axis) (lo hi : ℚ)
    (hlo : lo ≤ 0) (hhi : 0 ≤ hi) (hinit : a.initial q ∈ Set.Icc lo hi)
    (hcmd : ∀ msg, SimEvent.command msg ∈ es → msg.mode = 3 → a.commanded msg ∈ Set.Icc lo hi)
    (pre : List SimEvent) (hpre : pre <+: es) :
    a.current ((machine q).state pre) ∈ Set.Icc lo hi ∧
    a.target ((machine q).state pre) ∈ Set.Icc lo hi := by
  have hmem : EachStep (fun _ e => ∀ msg, e = .command msg →
      msg.mode ≠ 2 ∧ (msg.mode = 3 → a.commanded msg ∈ Set.Icc lo hi)) pre := by
    intro before e after heq msg he
    have hin : SimEvent.command msg ∈ es := hpre.subset (by simp [heq, he])
    exact ⟨hjog msg hin, hcmd msg hin⟩
  have hrange : InRange a lo hi ((machine q).state pre) := by
    apply (machine q).eachStep_rule (P := fun _ s => InRange a lo hi s) _ _ hmem
    · refine ⟨by simp [construct], ?_, ?_⟩
      · cases a <;> exact hinit
      · cases a <;> exact ⟨hlo, hhi⟩
    · intro es e hevent ih
      cases e with
      | command msg =>
        obtain ⟨hmode, htarget⟩ := hevent msg rfl
        exact inRange_command ih hmode htarget
      | tick => exact inRange_tick hstep hlo hhi ih
  exact ⟨hrange.current, hrange.target⟩

/-- A homing interrupts a move to 1, and stays in [0, 1]. -/
theorem motion_inRange_homing :
    let es : List SimEvent := [.command { mode := 3, exec := true, targetPitch := 1 }, .tick, .tick,
      .command { mode := 1, exec := true }, .tick]
    Axis.current .pitch ((machine {}).state es) ∈ Set.Icc 0 1 ∧
    Axis.target .pitch ((machine {}).state es) ∈ Set.Icc 0 1 := by
  intro es
  apply motion_inRange {} (by decide +kernel) es _ .pitch 0 1 le_rfl (by decide) _ _ es
    List.prefix_rfl
  · intro msg hmem
    simp only [es, List.mem_cons, SimEvent.command.injEq, reduceCtorEq, List.not_mem_nil,
      or_false, false_or] at hmem
    rcases hmem with rfl | rfl <;> decide
  · exact ⟨le_rfl, by decide⟩
  · intro msg hmem hmode
    simp only [es, List.mem_cons, SimEvent.command.injEq, reduceCtorEq, List.not_mem_nil,
      or_false, false_or] at hmem
    rcases hmem with rfl | rfl
    · exact ⟨by decide, le_rfl⟩
    · exact absurd hmode (by decide)

end PlcSimNode

end ArgusGate
