import ArgusGate.Manager.Interlock
import ArgusGate.System.RateLimit
import Mathlib.Tactic.Linarith

/-!
# What the manager's status says about the gate

A `ManagerStatus` repeats the last `PlcStatus`, which the simulator made up at one of its ticks. Once a
status has been received and while the PLC counts as online, that tick was not long ago, and the gate has
not gone further since than the ticks since then allow. Positions are exact here, as in all messages of the
model: their rounding to `float` is left out.
-/

namespace ArgusGate

open Reactive ArgusManagerNode PlcSimNode

/-- The position of an axis in the manager's status. -/
def Axis.shown : Axis → ManagerStatus → ℚ
  | .pitch, msg => msg.pitchPosition
  | .yaw, msg => msg.yawPosition

/-- The manager's status shows the simulator in the state `s`. -/
structure Shows (msg : ManagerStatus) (s : PlcSimNode) : Prop where
  position : ∀ a : Axis, a.shown msg = a.current s
  busy : msg.busy = s.busy
  done : msg.done = s.done
  synch : msg.synch = s.synch
  onTarget : msg.onTarget = s.onTarget

theorem shows_statusMsg {p : ManagerParams} {m : ArgusManagerNode} {s : PlcSimNode}
    (h : m.lastStatus = s.statusMsg) (now : Time) : Shows (supervisorCycle p m now).status s := by
  refine ⟨fun a => ?_, ?_, ?_, ?_, ?_⟩
  · cases a <;> simp [Axis.shown, Axis.current, supervisorCycle, h, statusMsg]
  all_goals simp [supervisorCycle, h, statusMsg]

namespace Graph

variable {ρ ι : Type}

/-- When the status was published that the event delivers. -/
def publishedAt (σ : Graph ρ) : GraphEvent ι → Option Time
  | .deliverStatus => σ.plcStatus.next?.map Prod.fst
  | _ => none

/-- A status that is delivered is delivered within `delay` of its publication. -/
def PromptStatus (c : Setup) (P : Plant ρ ι) (delay : Time) (es : List (Time × GraphEvent ι)) : Prop :=
  EachStep (fun pre e => ∀ s ∈ ((machine c P).state pre).publishedAt e.2, e.1 ≤ s + delay) es

/-- The manager has received a status. -/
def Informed (c : Setup) (P : Plant ρ ι) (es : List (Time × GraphEvent ι)) : Prop :=
  ∃ e ∈ (machine c P).trace consoleEvents es, ∃ st, e.2 = ConsoleEvent.status st

variable {c : Setup} {P : Plant ρ ι} {delay now : Time} {es : List (Time × GraphEvent ι)}

/-- The manager holds a status of the topic, received at most `delay` after its publication; until it has
received one, it counts from its construction. -/
def HoldsStatus (c : Setup) (P : Plant ρ ι) (delay : Time) (es : List (Time × GraphEvent ι))
    (σ : Graph ρ) : Prop :=
  (¬ Informed c P es ∧ σ.console.manager.lastStatus = {} ∧
    σ.console.manager.lastStatusTime = c.start) ∨
  ∃ s, (s, σ.console.manager.lastStatus) ∈ σ.plcStatus.log ∧
    σ.console.manager.lastStatusTime ≤ s + delay

/-- Steps that leave the manager's status alone. -/
theorem holdsStatus_frame {σ σ' : Graph ρ} {e : Time × GraphEvent ι} (h : HoldsStatus c P delay es σ)
    (hinformed : Informed c P (es ++ [e]) → Informed c P es)
    (hstatus : σ'.console.manager.lastStatus = σ.console.manager.lastStatus)
    (htime : σ'.console.manager.lastStatusTime = σ.console.manager.lastStatusTime)
    (hlog : σ.plcStatus.log <+: σ'.plcStatus.log) : HoldsStatus c P delay (es ++ [e]) σ' := by
  rcases h with ⟨hnone, hdefault, hstart⟩ | ⟨s, hmem, hs⟩
  · exact .inl ⟨fun hinf => hnone (hinformed hinf), hstatus.trans hdefault, htime.trans hstart⟩
  · refine .inr ⟨s, ?_, ?_⟩
    · rw [hstatus]
      exact hlog.subset hmem
    · rwa [htime]

theorem station_lastStatus (c : Setup) (σ : Console) (now : Time) (e : StationEvent) :
    (σ.station c (now, e)).manager.lastStatus = σ.manager.lastStatus ∧
    (σ.station c (now, e)).manager.lastStatusTime = σ.manager.lastStatusTime := by
  cases e with
  | deliverTeleop =>
    simp only [Console.station, Console.deliverTeleop]
    split <;> exact ⟨rfl, rfl⟩
  | deliverJoy => simp [Console.station]
  | _ => exact ⟨rfl, rfl⟩

theorem informed_concat {e : Time × GraphEvent ι} : Informed c P (es ++ [e]) ↔
    Informed c P es ∨
      ∃ e' ∈ consoleEvents ((machine c P).state es) e, ∃ st, e'.2 = ConsoleEvent.status st := by
  unfold Informed
  rw [Machine.trace_concat]
  simp only [List.mem_append, or_and_right, exists_or]

theorem holdsStatus (hrun : PromptStatus c P delay es) :
    HoldsStatus c P delay es ((machine c P).state es) := by
  apply (machine c P).eachStep_rule (P := HoldsStatus c P delay) _ _ hrun
  · refine .inl ⟨?_, rfl, rfl⟩
    rintro ⟨e, he, -⟩
    cases he
  · rintro es ⟨now, e⟩ htime ih
    cases e with
    | station e =>
      obtain ⟨hstatus, hstamp⟩ := station_lastStatus c ((machine c P).state es).console now e
      exact holdsStatus_frame ih (by simp [informed_concat, consoleEvents]) hstatus hstamp
        List.prefix_rfl
    | deliverStatus =>
      rw [machine_step, handle]
      cases hnext : ((machine c P).state es).plcStatus.next? with
      | none =>
        rw [deliverStatus_of_none c hnext]
        exact holdsStatus_frame ih (by simp [informed_concat, consoleEvents, hnext]) rfl rfl
          List.prefix_rfl
      | some m =>
        rw [deliverStatus_of_next c hnext]
        refine .inr ⟨m.1, ?_, htime m.1 (by simp [publishedAt, hnext])⟩
        simpa [Console.handle, onStatusReceived] using Topic.mem_of_next? hnext
    | run i =>
      refine holdsStatus_frame ih (by simp [informed_concat, consoleEvents]) rfl rfl ?_
      simp [handle]
    | deliverCommand =>
      refine holdsStatus_frame ih (by simp [informed_concat, consoleEvents]) ?_ ?_ ?_
      all_goals
        simp only [machine_step, handle, deliverCommand]
        split <;> simp
    | loseCommand =>
      exact holdsStatus_frame ih (by simp [informed_concat, consoleEvents]) rfl rfl
        List.prefix_rfl
    | loseStatus =>
      refine holdsStatus_frame ih (by simp [informed_concat, consoleEvents]) rfl rfl ?_
      simp [handle]

variable {es : List (Time × GraphEvent Unit)}

/-- A status of the topic is that of the simulator after the tick that published it. -/
theorem statusMsg_of_mem {s : Time} {st : PlcStatus}
    (h : (s, st) ∈ ((simMachine c).state es).plcStatus.log) :
    ∃ pre post, es = pre ++ (s, .tick) :: post ∧
      st = ((simMachine c).state (pre ++ [(s, .tick)])).plant.statusMsg := by
  obtain ⟨pre, u, post, rfl, hout⟩ := mem_plcStatus h
  refine ⟨pre, post, rfl, ?_⟩
  rw [simPlant_status] at hout
  by_cases hstart : ((simMachine c).state pre).plant.state = .startup
  · simp [publishStatus, hstart] at hout
  · rw [publishStatus_status _ _ hstart] at hout
    obtain rfl := Option.some.inj hout
    simp [handle]

/-- A manager that reports the PLC online shows the simulator after a recent tick, or is young. -/
theorem shows_of_online (hrun : PromptStatus c (simPlant c.sim) delay es)
    (honline :
      (supervisorCycle c.manager ((simMachine c).state es).console.manager now).status.plcOnline) :
    (¬ Informed c (simPlant c.sim) es ∧ now - c.manager.timeoutThreshold < c.start) ∨
    ∃ pre s post, es = pre ++ (s, .tick) :: post ∧
      now - (c.manager.timeoutThreshold + delay) < s ∧
      Shows (supervisorCycle c.manager ((simMachine c).state es).console.manager now).status
        ((simMachine c).state (pre ++ [(s, .tick)])).plant := by
  have hfresh := (checkWatchdog_iff c.manager).mp honline
  rcases holdsStatus hrun with ⟨hnone, -, hstart⟩ | ⟨s, hmem, hs⟩
  · rw [hstart] at hfresh
    exact .inl ⟨hnone, by linarith⟩
  · obtain ⟨pre, post, rfl, hst⟩ := statusMsg_of_mem hmem
    exact .inr ⟨pre, s, post, rfl, by linarith, shows_statusMsg hst now⟩

/-- The telemetry is accurate. In every run of the graph whose statuses are delivered promptly, whatever
else is lost: if the manager has received a status and reports the PLC online at `now`, then its report
shows the simulator as it was at a tick later than `now - (watchdog_timeout + delay)`, and no axis has gone
further since than `max step_per_cycle target_tolerance` a tick. -/
theorem telemetry (c : Setup) (hstep : 0 ≤ c.sim.stepPerCycle) (delay now : Time)
    (es : List (Time × GraphEvent Unit)) (hrun : PromptStatus c (simPlant c.sim) delay es)
    (hinformed : Informed c (simPlant c.sim) es)
    (honline :
      (supervisorCycle c.manager ((simMachine c).state es).console.manager now).status.plcOnline) :
    let report := (supervisorCycle c.manager ((simMachine c).state es).console.manager now).status
    ∃ pre s post, es = pre ++ (s, .tick) :: post ∧
      now - (c.manager.timeoutThreshold + delay) < s ∧
      Shows report ((simMachine c).state (pre ++ [(s, .tick)])).plant ∧
      ∀ a : Axis, |a.shown report - a.current ((simMachine c).state es).plant| ≤
        ticks post * max c.sim.stepPerCycle c.sim.targetTolerance := by
  intro report
  obtain ⟨pre, s, post, rfl, hs, hshows⟩ :=
    (shows_of_online hrun honline).resolve_left fun h => h.1 hinformed
  refine ⟨pre, s, post, rfl, hs, hshows, fun a => ?_⟩
  rw [hshows.position, abs_sub_comm, List.append_cons]
  exact abs_state_sub_le hstep _ post a

/-- Two ticks, whose second one publishes; one more tick and the operator's Follow before the report. -/
theorem telemetry_follow :
    let c : Setup :=
      { reading := ⟨fun _ => false, fun _ _ => 0, fun _ _ => false⟩, sim := { initialPitch := 1 } }
    let es : List (Time × GraphEvent Unit) :=
      [(0, .tick), (1, .tick), (2, .deliverStatus), (3, .station (.gui .follow)),
        (4, .deliverCommand), (5, .tick)]
    let report := (supervisorCycle c.manager ((simMachine c).state es).console.manager 6).status
    ∃ pre s post, es = pre ++ (s, .tick) :: post ∧
      6 - (c.manager.timeoutThreshold + 1) < s ∧
      Shows report ((simMachine c).state (pre ++ [(s, .tick)])).plant ∧
      ∀ a : Axis, |a.shown report - a.current ((simMachine c).state es).plant| ≤
        ticks post * max c.sim.stepPerCycle c.sim.targetTolerance := by
  intro c es report
  refine telemetry c (by decide +kernel) 1 6 es ?_ ?_ (by decide +kernel)
  · unfold PromptStatus
    decide +kernel
  · exact ⟨_, .head _, _, rfl⟩

end Graph

end ArgusGate
