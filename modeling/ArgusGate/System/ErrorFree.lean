import ArgusGate.Manager.Agreement
import ArgusGate.System.Graph

/-!
# The error path in the graph

The simulator raises its error for a `fire` command alone, and the manager shows an error and
acknowledges it for a reported one alone. But no node of the graph ever sets `fire`: among themselves the
nodes never use the error path.
-/

namespace ArgusGate.Graph

open Reactive ArgusManagerNode PlcSimNode

/-- There is no error in the simulator, in a status or at the manager. -/
structure ErrorFree (σ : Graph PlcSimNode) : Prop where
  code : σ.plant.errorCode = 0
  state : σ.plant.state ≠ .error
  statuses : ∀ m ∈ σ.plcStatus.log, m.2.error = 0 ∧ m.2.status ≠ -1
  reported : σ.console.manager.lastStatus.error = 0
  shown : σ.console.manager.managerState ≠ .error

variable {c : Setup} {es : List (Time × GraphEvent Unit)}

/-- Neither the manager nor the GUI sets `fire`. -/
theorem fire_of_mem {m : Time × PlcCommand} (h : m ∈ ((simMachine c).state es).plcCommand.log) :
    m.2.fire = false := by
  obtain ⟨s, cmd⟩ := m
  obtain ⟨pre, e, post, -, hout⟩ := mem_plcCommand h
  obtain ⟨-, rfl⟩ | ⟨g, -, ⟨-, rfl⟩ | ⟨-, rfl⟩ | ⟨-, rfl⟩ | ⟨-, rfl⟩⟩ := commandOut_cases hout
  · exact command_fire _ _ _
  all_goals rfl

/-- The status of a simulator without an error. -/
theorem errorFree_status {q : PlcSimParams} {s : PlcSimNode} (hcode : s.errorCode = 0)
    (hstate : s.state ≠ .error) {st : PlcStatus} (h : (s.publishStatus q).2 = some st) :
    st.error = 0 ∧ st.status ≠ -1 := by
  by_cases hstart : s.state = .startup
  · simp [publishStatus, hstart] at h
  · rw [publishStatus_status q s hstart] at h
    obtain rfl := Option.some.inj h
    have hcode' : (s.tick q).errorCode = 0 := by rw [tick_errorCode, if_neg hstart, hcode]
    have hstate' : (s.tick q).state ≠ .error := (tick_error_iff q s).not.mpr hstate
    refine ⟨by simp [statusMsg, hcode'], ?_⟩
    cases hs : (s.tick q).state with
    | error => exact absurd hs hstate'
    | _ => simp [statusMsg, hs, stateToStatusCode]

theorem managerState_ne_error {p : ManagerParams} {m : ArgusManagerNode} (now : Time)
    (h : m.lastStatus.error = 0) : (supervisorCycle p m now).node.managerState ≠ .error := by
  rw [supervisorCycle_managerState]
  unfold stateMachine
  rw [h]
  split_ifs
  · decide
  · contradiction
  · contradiction
  · decide
  · split <;> decide

theorem errorFree_station {σ : Graph PlcSimNode} (h : ErrorFree σ) (now : Time) (e : StationEvent) :
    ErrorFree (σ.handle c (simPlant c.sim) (now, .station e)) := by
  refine ⟨h.code, h.state, h.statuses, ?_, ?_⟩
  · cases e with
    | deliverTeleop =>
      simp only [handle, Console.station, Console.deliverTeleop]
      split <;> exact h.reported
    | deliverJoy => simpa [handle, Console.station] using h.reported
    | _ => exact h.reported
  · cases e with
    | deliverTeleop =>
      simp only [handle, Console.station, Console.deliverTeleop]
      split <;> exact h.shown
    | deliverJoy => simpa [handle, Console.station] using h.shown
    | cycle => exact managerState_ne_error now h.reported
    | _ => exact h.shown

theorem errorFree (c : Setup) (es : List (Time × GraphEvent Unit)) :
    ErrorFree ((simMachine c).state es) := by
  apply graph_rule (Q := fun _ σ => ErrorFree σ)
  · exact ⟨rfl, by simp [construct, PlcSimNode.construct], by simp [construct], rfl,
      by simp [construct, Console.construct, ArgusManagerNode.construct]⟩
  · exact fun es now e ih => errorFree_station ih now e
  · intro es now m hnext ih
    have hraise : ¬ Raises ((simMachine c).state es).plant m.2 := by
      rintro ⟨hfire, -⟩
      rw [fire_of_mem (Topic.mem_of_next? hnext)] at hfire
      cases hfire
    refine ⟨?_, (commandCallback_error_iff _ _).not.mpr hraise, ih.statuses, ih.reported, ih.shown⟩
    rw [simPlant_command, commandCallback_errorCode, if_neg hraise, ih.code, ite_self]
  · intro es now u ih
    refine ⟨?_, (tick_error_iff _ _).not.mpr ih.state, ?_, ih.reported, ih.shown⟩
    · simp only [handle]
      rw [simPlant_run, tick_errorCode, ih.code, ite_self]
    · intro m hm
      rw [handle, Topic.publishSome_log, List.mem_append, Option.mem_toList] at hm
      rcases hm with hm | hm
      · exact ih.statuses m hm
      · obtain ⟨st, hst, rfl⟩ := Option.map_eq_some_iff.mp hm
        exact errorFree_status ih.code ih.state hst
  · intro es now m hnext ih
    exact ⟨ih.code, ih.state, by simpa using ih.statuses,
      (ih.statuses m (Topic.mem_of_next? hnext)).1, ih.shown⟩
  · intro es e σ ih hconsole hsim hcommands hstatuses
    exact ⟨hsim ▸ ih.code, hsim ▸ ih.state, hstatuses ▸ ih.statuses, hconsole ▸ ih.reported,
      hconsole ▸ ih.shown⟩

theorem errorActive_of_errorFree {σ : Graph PlcSimNode} (h : ErrorFree σ) (p : ManagerParams)
    (now : Time) : (supervisorCycle p σ.console.manager now).status.errorActive = false := by
  have herror : (supervisorCycle p σ.console.manager now).status.errorActive =
      (decide ((supervisorCycle p σ.console.manager now).node.managerState = .error) ||
        decide (σ.console.manager.lastStatus.error ≠ 0)) := rfl
  rw [herror, decide_eq_false (managerState_ne_error now h.reported), h.reported]
  rfl

/-- The error path is never used. In every run of the graph, whatever the operator does and whatever is
delivered or lost: the simulator has no error, no status reports one, no command carries `fire` or `ack`,
and no cycle of the manager shows an error. -/
theorem error_unreachable (c : Setup) (es : List (Time × GraphEvent Unit)) :
    let σ := (simMachine c).state es
    (σ.plant.errorCode = 0 ∧ σ.plant.state ≠ .error) ∧
    (∀ m ∈ σ.plcStatus.log, m.2.error = 0 ∧ m.2.status ≠ -1) ∧
    (∀ m ∈ σ.plcCommand.log, m.2.fire = false ∧ m.2.ack = false) ∧
    ∀ now, (supervisorCycle c.manager σ.console.manager now).status.errorActive = false ∧
      (supervisorCycle c.manager σ.console.manager now).status.state ≠ "ERROR" := by
  intro σ
  have h : ErrorFree σ := errorFree c es
  refine ⟨⟨h.code, h.state⟩, h.statuses, fun m hm => ⟨fire_of_mem hm, ?_⟩, fun now => ?_⟩
  · obtain ⟨s, cmd⟩ := m
    obtain ⟨pre, e, post, -, hout⟩ := mem_plcCommand hm
    obtain ⟨-, rfl⟩ | ⟨g, -, ⟨-, rfl⟩ | ⟨-, rfl⟩ | ⟨-, rfl⟩ | ⟨-, rfl⟩⟩ := commandOut_cases hout
    · rw [← Bool.not_eq_true, command_ack_iff]
      exact fun hack => hack.2.2.1 (errorFree c pre).reported
    all_goals rfl
  · have hstate := managerState_ne_error (p := c.manager) now h.reported
    exact ⟨errorActive_of_errorFree h _ now, fun hs => hstate (stateToString_inj.mp hs)⟩

end ArgusGate.Graph
