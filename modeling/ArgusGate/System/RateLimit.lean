import ArgusGate.PlcSim.Moves
import ArgusGate.System.Graph

/-!
# The rate of motion in the graph

The simulator scales a jog step by the override of the last command, whatever it is. The nodes of the
graph only ever send the overrides 0 and 1, so that `step_per_cycle` and `target_tolerance` bound every
motion, commanded through whichever station.
-/

namespace ArgusGate.Graph

open Reactive ArgusManagerNode PlcSimNode

variable {c : Setup} {es : List (Time × GraphEvent Unit)}

/-- The overrides 0 and 1 both stand for full speed. -/
theorem jogScale_eq_one {x : ℚ} (h : x = 0 ∨ x = 1) : jogScale x = 1 := by
  rcases h with rfl | rfl <;> norm_num [jogScale]

theorem override_modeCommand (m : ArgusManagerNode) (a : Axis) :
    a.override m.modeCommand = 0 ∨ a.override m.modeCommand = 1 := by
  unfold modeCommand mapTeleopToJog
  split
  · cases a <;> exact .inl rfl
  · cases a <;> exact .inr rfl
  · cases a <;> exact .inl rfl
  · cases a <;> exact .inl rfl

theorem override_cycle (p : ManagerParams) (m : ArgusManagerNode) (now : Time) (a : Axis) :
    a.override (supervisorCycle p m now).command = 0 ∨
    a.override (supervisorCycle p m now).command = 1 := by
  rw [command_eq]
  split_ifs
  · cases a <;> exact .inl rfl
  · cases a <;> exact .inl rfl
  · cases a <;> exact .inl rfl
  · cases a <;> exact .inl rfl
  · exact override_modeCommand m a

theorem override_of_mem {m : Time × PlcCommand} (h : m ∈ ((simMachine c).state es).plcCommand.log)
    (a : Axis) : a.override m.2 = 0 ∨ a.override m.2 = 1 := by
  obtain ⟨s, cmd⟩ := m
  obtain ⟨pre, e, post, -, hout⟩ := mem_plcCommand h
  obtain ⟨-, rfl⟩ | ⟨g, -, ⟨-, rfl⟩ | ⟨-, rfl⟩ | ⟨-, rfl⟩ | ⟨-, rfl⟩⟩ := commandOut_cases hout
  · exact override_cycle _ _ _ a
  all_goals cases a <;> exact .inl rfl

theorem limited (c : Setup) (es : List (Time × GraphEvent Unit)) :
    Limited 1 ((simMachine c).state es).plant := by
  apply graph_rule (Q := fun _ σ => Limited 1 σ.plant)
  · refine ⟨fun a => ?_, fun a => ?_⟩
    · have hdirection : a.direction (construct c (simPlant c.sim)).plant = 0 := by cases a <;> rfl
      rw [hdirection]
      decide
    · have hoverride : a.override (construct c (simPlant c.sim)).plant.lastCommand = 0 := by
        cases a <;> rfl
      rw [jogScale_eq_one (.inl hoverride), abs_one]
  · exact fun es now e ih => ih
  · intro es now m hnext ih
    apply limited_command ih
    intro a
    rw [jogScale_eq_one (override_of_mem (Topic.mem_of_next? hnext) a), abs_one]
  · exact fun es now u ih => limited_tick ih c.sim
  · exact fun es now m _ ih => ih
  · exact fun es e σ ih _ hsim _ _ => hsim ▸ ih

/-- The ticks among the events. -/
def ticks (es : List (Time × GraphEvent Unit)) : ℕ := es.countP fun | (_, .tick) => true | _ => false

/-- One step moves an axis only if it is a tick. -/
theorem abs_handle_sub_le (hstep : 0 ≤ c.sim.stepPerCycle) (es : List (Time × GraphEvent Unit))
    (e : Time × GraphEvent Unit) (a : Axis) :
    |a.current (((simMachine c).state es).handle c (simPlant c.sim) e).plant -
      a.current ((simMachine c).state es).plant| ≤
        ticks [e] * max c.sim.stepPerCycle c.sim.targetTolerance := by
  have hmax : 0 ≤ max c.sim.stepPerCycle c.sim.targetTolerance := le_max_of_le_left hstep
  have hlimited := limited c es
  generalize (simMachine c).state es = σ at hlimited ⊢
  obtain ⟨now, e⟩ := e
  cases e with
  | run u =>
    have htick := abs_tick_sub_le (a := a) hstep le_rfl hlimited
    simpa [handle, ticks] using htick
  | deliverCommand =>
    simp only [handle, deliverCommand]
    split <;> simp [ticks]
  | deliverStatus =>
    simp only [handle, deliverStatus]
    split <;> simp [ticks]
  | _ => simp [handle, ticks]

theorem sum_ticks (B : ℚ) (fs : List (Time × GraphEvent Unit)) :
    (fs.map fun e => ticks [e] * B).sum = ticks fs * B := by
  induction fs with
  | nil => simp [ticks]
  | cons e fs ih =>
    have hticks : (ticks (e :: fs) : ℚ) = ticks [e] + ticks fs := by
      rw [← Nat.cast_add, ticks, ticks, ticks, ← List.countP_append, List.singleton_append]
    rw [List.map_cons, List.sum_cons, ih, hticks, add_mul]

theorem abs_state_sub_le (hstep : 0 ≤ c.sim.stepPerCycle) (es fs : List (Time × GraphEvent Unit))
    (a : Axis) :
    |a.current ((simMachine c).state (es ++ fs)).plant - a.current ((simMachine c).state es).plant| ≤
      ticks fs * max c.sim.stepPerCycle c.sim.targetTolerance := by
  rw [← sum_ticks]
  apply (simMachine c).abs_sub_le_sum (f := fun σ => a.current σ.plant)
  intro es e
  exact abs_handle_sub_le hstep es e a

/-- The motion is rate-limited. Between any two points of a run of the graph no axis has moved by more
than `max step_per_cycle target_tolerance` for each tick in between. -/
theorem rate_limit (c : Setup) (hstep : 0 ≤ c.sim.stepPerCycle) (es fs : List (Time × GraphEvent Unit))
    (a : Axis) :
    |a.current ((simMachine c).state (es ++ fs)).plant - a.current ((simMachine c).state es).plant| ≤
      ticks fs * max c.sim.stepPerCycle c.sim.targetTolerance :=
  abs_state_sub_le hstep es fs a

/-- Ten ticks after a press of Follow, with the default step of 1/50. -/
theorem rate_limit_follow :
    let c : Setup :=
      { reading := ⟨fun _ => false, fun _ _ => 0, fun _ _ => false⟩, sim := { initialPitch := 1 } }
    let es : List (Time × GraphEvent Unit) := [(0, .station (.gui .follow)), (0, .deliverCommand)]
    let fs : List (Time × GraphEvent Unit) := List.replicate 10 (1, .tick)
    |Axis.current .pitch ((simMachine c).state (es ++ fs)).plant -
      Axis.current .pitch ((simMachine c).state es).plant| ≤ (ticks fs : ℕ) * max (1 / 50) (1 / 100) :=
  rate_limit _ (by decide +kernel) _ _ .pitch

end ArgusGate.Graph
