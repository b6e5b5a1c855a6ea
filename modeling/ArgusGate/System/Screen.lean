import ArgusGate.Gui.View
import ArgusGate.System.ErrorFree
import ArgusGate.System.Telemetry

/-!
# What the operator sees

The graph, the topic `manager_status` and the page of the GUI, which the event loop of Flet refreshes. The
page shows one report of the manager at a time, and never a mixture of two; only its log line may belong to
the last Send target instead. How far the gate can be from what the page shows is bounded, whatever the
topics lose. The numbers are exact but for the two decimals on the page.
-/

namespace ArgusGate

open Reactive ArgusManagerNode PlcSimNode Decimal ArgusGate.Graph

structure Desk (ρ : Type) where
  graph : Graph ρ
  managerStatus : Topic (Time × ManagerStatus) := .empty
  /-- `latest_status` of the GUI's node. -/
  latestStatus : Option ManagerStatus := none
  view : View := {}

inductive DeskEvent (ι : Type) where
  | graph (e : GraphEvent ι)
  | deliverReport
  | loseReport
  | refresh

namespace Desk

variable {ρ ι : Type}

/-- What an event of the graph publishes on `manager_status`. -/
def report (c : Setup) (σ : Graph ρ) : Time × GraphEvent ι → Option ManagerStatus
  | (now, .station .cycle) => some (supervisorCycle c.manager σ.console.manager now).status
  | _ => none

/-- What an event of the graph leaves on the page. -/
def operate (v : View) : GraphEvent ι → View
  | .station (.gui e) => v.operate e
  | _ => v

/-- `status_cb`. -/
def deliverReport (σ : Desk ρ) : Desk ρ :=
  match σ.managerStatus.next? with
  | none => σ
  | some m => { σ with latestStatus := some m.2, managerStatus := σ.managerStatus.take }

def handle (c : Setup) (P : Plant ρ ι) (σ : Desk ρ) : Time × DeskEvent ι → Desk ρ
  | (now, .graph e) =>
    { σ with
      graph := σ.graph.handle c P (now, e)
      managerStatus := σ.managerStatus.publishSome ((report c σ.graph (now, e)).map (now, ·))
      view := operate σ.view e }
  | (_, .deliverReport) => σ.deliverReport
  | (_, .loseReport) => { σ with managerStatus := σ.managerStatus.take }
  | (_, .refresh) => { σ with view := σ.view.refreshView σ.latestStatus }

def machine (c : Setup) (P : Plant ρ ι) : Machine (Desk ρ) (Time × DeskEvent ι) where
  start := { graph := .construct c P }
  step := handle c P

@[simp] theorem machine_start (c : Setup) (P : Plant ρ ι) :
    (machine c P).start = { graph := .construct c P } := rfl

@[simp] theorem machine_step (c : Setup) (P : Plant ρ ι) (σ : Desk ρ) (e : Time × DeskEvent ι) :
    (machine c P).step σ e = σ.handle c P e := rfl

/-- The run of the graph. -/
def graphRun (es : List (Time × DeskEvent ι)) : List (Time × GraphEvent ι) :=
  es.filterMap fun | (now, .graph e) => some (now, e) | _ => none

theorem graph_state (c : Setup) (P : Plant ρ ι) (es : List (Time × DeskEvent ι)) :
    ((machine c P).state es).graph = (Graph.machine c P).state (graphRun es) := by
  apply Machine.view_state_filterMap
  · rfl
  · rintro σ ⟨now, e⟩
    cases e with
    | deliverReport =>
      simp only [machine_step, handle, deliverReport]
      cases σ.managerStatus.next? <;> rfl
    | _ => rfl

/-- The status is the one that a cycle of the run has published. -/
structure Reports (c : Setup) (P : Plant ρ ι) (es : List (Time × DeskEvent ι)) (now : Time)
    (st : ManagerStatus) : Prop where
  cycle : ∃ pre post, es = pre ++ (now, .graph (.station .cycle)) :: post ∧
    st = (supervisorCycle c.manager ((machine c P).state pre).graph.console.manager now).status

variable {c : Setup} {P : Plant ρ ι} {es : List (Time × DeskEvent ι)} {now : Time}
variable {st : ManagerStatus}

theorem Reports.concat (h : Reports c P es now st) (e : Time × DeskEvent ι) :
    Reports c P (es ++ [e]) now st := by
  obtain ⟨pre, post, rfl, hst⟩ := h.cycle
  exact ⟨pre, post ++ [e], by simp, hst⟩

/-- What a Send target has left in the log line, if the page has not been refreshed since. -/
def sentLine (es : List (Time × DeskEvent ι)) : Option String :=
  (latest (fun
    | (_, .refresh) => some none
    | (_, .graph (.station (.gui (.sendTarget target)))) => some (some (View.sentText target))
    | _ => none) es).join

/-- The page as it is before the first status. -/
structure Blank (es : List (Time × DeskEvent ι)) (v : View) : Prop where
  readout : v.readout = {} ∨ v.readout = .waiting {}
  log : v.logText = (sentLine es).getD ""

/-- The page shows the status, and all of it unless a Send target has written over the flags. -/
structure Displays (es : List (Time × DeskEvent ι)) (v : View) (st : ManagerStatus) : Prop where
  readout : v.readout = .ofStatus st
  log : v.logText = (sentLine es).getD (View.flagsText st)

/-- The page shows a status of a cycle, or none yet. -/
def Shown (c : Setup) (P : Plant ρ ι) (es : List (Time × DeskEvent ι)) (v : View) : Prop :=
  Blank es v ∨ ∃ now st, Reports c P es now st ∧ Displays es v st

/-- Everything that the GUI holds of the manager comes from one of its cycles. -/
structure Sourced (c : Setup) (P : Plant ρ ι) (es : List (Time × DeskEvent ι)) (σ : Desk ρ) : Prop where
  topic : ∀ m ∈ σ.managerStatus.log, Reports c P es m.1 m.2
  latest : ∀ st ∈ σ.latestStatus, ∃ now, Reports c P es now st
  blank : σ.latestStatus = none → Blank es σ.view
  shown : Shown c P es σ.view
  label : σ.view.jogSpeedLabel = format2 σ.graph.console.gui.jogSpeed

/-- Steps that leave the texts of the manager alone, and the log line but for a Send target. -/
structure Keeps (es : List (Time × DeskEvent ι)) (e : Time × DeskEvent ι) (v v' : View) : Prop where
  readout : v'.readout = v.readout
  log : ∀ line, v.logText = (sentLine es).getD line → v'.logText = (sentLine (es ++ [e])).getD line

variable {e : Time × DeskEvent ι} {v v' : View}

theorem Blank.keep (h : Blank es v) (hkeep : Keeps es e v v') : Blank (es ++ [e]) v' :=
  ⟨hkeep.readout ▸ h.readout, hkeep.log _ h.log⟩

theorem Shown.keep (h : Shown c P es v) (hkeep : Keeps es e v v') : Shown c P (es ++ [e]) v' := by
  rcases h with hblank | ⟨now, st, hreports, hdisplays⟩
  · exact .inl (hblank.keep hkeep)
  · refine .inr ⟨now, st, hreports.concat e, ?_, hkeep.log _ hdisplays.log⟩
    rw [hkeep.readout, hdisplays.readout]

theorem keeps_unsent (h : sentLine (es ++ [e]) = sentLine es) (v : View) : Keeps es e v v :=
  ⟨rfl, fun line hlog => by rwa [h]⟩

/-- The handlers of the controls leave what the page shows of the manager. -/
theorem keeps_operate (es : List (Time × DeskEvent ι)) (now : Time) (v : View) (e : GraphEvent ι) :
    Keeps es (now, .graph e) v (operate v e) := by
  cases e with
  | station e =>
    cases e with
    | gui g =>
      cases g with
      | sendTarget target => exact ⟨rfl, fun line _ => by simp [sentLine, operate, View.operate]⟩
      | _ => exact ⟨rfl, fun line h => by simpa [sentLine, operate, View.operate] using h⟩
    | _ => exact ⟨rfl, fun line h => by simpa [sentLine, operate] using h⟩
  | _ => exact ⟨rfl, fun line h => by simpa [sentLine, operate] using h⟩

/-- The label follows the slider. -/
theorem operate_label {σ : Graph ρ} {v : View}
    (h : v.jogSpeedLabel = format2 σ.console.gui.jogSpeed) (now : Time) (e : GraphEvent ι) :
    (operate v e).jogSpeedLabel = format2 (σ.handle c P (now, e)).console.gui.jogSpeed := by
  cases e with
  | station e =>
    cases e with
    | gui g =>
      cases g with
      | jogSpeedChange value =>
        simp only [operate, View.operate, Graph.handle, Console.station, FletGui.handle,
          FletGui.onJogSpeedChange]
        split_ifs <;> rfl
      | sendTarget target => cases target <;> exact h
      | _ => exact h
    | deliverJoy =>
      simp only [operate, Graph.handle, Console.station, Console.deliverJoy]
      split <;> exact h
    | deliverTeleop =>
      simp only [operate, Graph.handle, Console.station, Console.deliverTeleop]
      split <;> exact h
    | _ => exact h
  | deliverCommand =>
    simp only [operate, Graph.handle, Graph.deliverCommand]
    split <;> exact h
  | deliverStatus =>
    simp only [operate, Graph.handle, Graph.deliverStatus]
    split <;> exact h
  | _ => exact h

theorem Sourced.latest_concat {σ : Desk ρ} (h : Sourced c P es σ) (e : Time × DeskEvent ι) :
    ∀ st ∈ σ.latestStatus, ∃ now, Reports c P (es ++ [e]) now st := by
  intro st hst
  obtain ⟨now, hreports⟩ := h.latest st hst
  exact ⟨now, hreports.concat e⟩

theorem sourced (c : Setup) (P : Plant ρ ι) (es : List (Time × DeskEvent ι)) :
    Sourced c P es ((machine c P).state es) := by
  apply (machine c P).history_rule (P := Sourced c P)
  · have hblank : Blank ([] : List (Time × DeskEvent ι)) {} := ⟨.inl rfl, rfl⟩
    exact ⟨by simp, by simp, fun _ => hblank, .inl hblank, rfl⟩
  · rintro es ⟨now, e⟩ ih
    rw [machine_step]
    cases e with
    | graph e =>
      have hkeep := keeps_operate es now ((machine c P).state es).view e
      refine ⟨?_, ih.latest_concat _, fun hnone => (ih.blank hnone).keep hkeep, ih.shown.keep hkeep,
        operate_label ih.label now e⟩
      intro m hm
      rw [handle, Topic.publishSome_log, List.mem_append, Option.mem_toList] at hm
      rcases hm with hm | hm
      · exact (ih.topic m hm).concat _
      · obtain ⟨st, hst, rfl⟩ := Option.map_eq_some_iff.mp hm
        cases e with
        | station e =>
          cases e with
          | cycle => exact ⟨es, [], rfl, (Option.some.inj hst).symm⟩
          | _ => cases hst
        | _ => cases hst
    | deliverReport =>
      have hline : sentLine (es ++ [(now, .deliverReport)]) = sentLine es := by simp [sentLine]
      have hkeep := keeps_unsent hline ((machine c P).state es).view
      simp only [handle, deliverReport]
      cases hnext : ((machine c P).state es).managerStatus.next? with
      | none =>
        exact ⟨fun m hm => (ih.topic m hm).concat _, ih.latest_concat _,
          fun hnone => (ih.blank hnone).keep hkeep, ih.shown.keep hkeep, ih.label⟩
      | some m =>
        refine ⟨fun m hm => (ih.topic m (by simpa using hm)).concat _, ?_, fun h => (by cases h),
          ih.shown.keep hkeep, ih.label⟩
        intro st hst
        obtain rfl := Option.some.inj hst
        exact ⟨m.1, (ih.topic m (Topic.mem_of_next? hnext)).concat _⟩
    | loseReport =>
      have hline : sentLine (es ++ [(now, .loseReport)]) = sentLine es := by simp [sentLine]
      have hkeep := keeps_unsent hline ((machine c P).state es).view
      exact ⟨fun m hm => (ih.topic m (by simpa [handle] using hm)).concat _, ih.latest_concat _,
        fun hnone => (ih.blank hnone).keep hkeep, ih.shown.keep hkeep, ih.label⟩
    | refresh =>
      have hline : sentLine (es ++ [(now, .refresh)]) = none := by simp [sentLine]
      simp only [handle]
      cases hlatest : ((machine c P).state es).latestStatus with
      | none =>
        have hblank : Blank (es ++ [(now, .refresh)])
            (((machine c P).state es).view.refreshView none) := by
          refine ⟨.inr ?_, by rw [hline]; rfl⟩
          -- refreshing a blank page leaves it blank
          rcases (ih.blank hlatest).readout with h | h
          · rw [View.refreshView, h]
          · rw [View.refreshView, h]
            rfl
        exact ⟨fun m hm => (ih.topic m hm).concat _, by simp, fun _ => hblank, .inl hblank, ih.label⟩
      | some st =>
        obtain ⟨now', hreports⟩ := ih.latest_concat (now, .refresh) st hlatest
        refine ⟨fun m hm => (ih.topic m hm).concat _, ?_, fun h => (by cases h),
          .inr ⟨now', st, hreports, rfl, by rw [hline]; rfl⟩, ih.label⟩
        intro st' hst'
        obtain rfl := Option.some.inj hst'
        exact ⟨now', hreports⟩

/-! ## With the simulator -/

/-- The page, which shows the status `st`, shows the simulator as it was after a tick later than `t`: the
status has its flags, the badge says whether it was busy, and the positions are out by half a hundredth and
by what the axes have gone since. -/
def Accurate (c : Setup) (es : List (Time × GraphEvent Unit)) (t : Time) (st : ManagerStatus)
    (r : Readout) : Prop :=
  ∃ pre s rest pitch yaw, es = pre ++ (s, .tick) :: rest ∧ t < s ∧
    Shows st ((simMachine c).state (pre ++ [(s, .tick)])).plant ∧
    r.badge.content =
      (if ((simMachine c).state (pre ++ [(s, .tick)])).plant.busy then "BUSY" else "READY") ∧
    r.positionText = "Position: pitch=" ++ pitch ++ " yaw=" ++ yaw ∧
    |read 2 pitch - ((simMachine c).state es).plant.currentPitch| ≤
      1 / 200 + ticks rest * max c.sim.stepPerCycle c.sim.targetTolerance ∧
    |read 2 yaw - ((simMachine c).state es).plant.currentYaw| ≤
      1 / 200 + ticks rest * max c.sim.stepPerCycle c.sim.targetTolerance

/-- A number of the page against the axis that it shows. -/
theorem abs_read_sub_le {x y z B : ℚ} (hxy : x = y) (hyz : |z - y| ≤ B) :
    |read 2 (format2 x) - z| ≤ 1 / 200 + B := by
  have hround := abs_read_format2_sub_le x
  rw [hxy] at hround ⊢
  calc |read 2 (format2 y) - z| ≤ |read 2 (format2 y) - y| + |y - z| := abs_sub_le _ _ _
    _ ≤ 1 / 200 + B := add_le_add hround (by rwa [abs_sub_comm])

theorem accurate_of_shows {c : Setup} (hstep : 0 ≤ c.sim.stepPerCycle) {s t : Time}
    {pre r : List (Time × GraphEvent Unit)} {st : ManagerStatus} (ht : t < s)
    (herror : st.errorActive = false)
    (h : Shows st ((simMachine c).state (pre ++ [(s, .tick)])).plant) :
    Accurate c (pre ++ (s, .tick) :: r) t st (.ofStatus st) := by
  refine ⟨pre, s, r, _, _, rfl, ht, h, ?_, rfl, ?_, ?_⟩
  · simp only [Readout.ofStatus, herror, h.busy]
    split_ifs <;> trivial
  · apply abs_read_sub_le (h.position .pitch)
    rw [List.append_cons]
    exact abs_state_sub_le hstep _ r .pitch
  · apply abs_read_sub_le (h.position .yaw)
    rw [List.append_cons]
    exact abs_state_sub_le hstep _ r .yaw

/-- What the page says is true, up to its age. In every run of the desk whose statuses are delivered promptly
to the manager, whatever else is lost and whenever the page is refreshed: the page is blank, or it shows one
report of the manager, flags and all, where a Send target since the last refresh has its own text in the log
line. If the report says that the PLC is online, then the manager had only just been started, or the page
shows the simulator as it was not long before that report. -/
theorem screen (c : Setup) (hstep : 0 ≤ c.sim.stepPerCycle) (delay : Time)
    (es : List (Time × DeskEvent Unit))
    (hrun : PromptStatus c (simPlant c.sim) delay (graphRun es)) :
    let σ := (machine c (simPlant c.sim)).state es
    σ.view.jogSpeedLabel = format2 σ.graph.console.gui.jogSpeed ∧
    (Blank es σ.view ∨ ∃ now st, Reports c (simPlant c.sim) es now st ∧ Displays es σ.view st ∧
      (st.plcOnline = true → now - c.manager.timeoutThreshold < c.start ∨
        Accurate c (graphRun es) (now - (c.manager.timeoutThreshold + delay)) st σ.view.readout)) := by
  intro σ
  have h : Sourced c (simPlant c.sim) es σ := sourced c (simPlant c.sim) es
  refine ⟨h.label, h.shown.imp_right ?_⟩
  rintro ⟨now, st, hreports, hdisplays⟩
  refine ⟨now, st, hreports, hdisplays, fun honline => ?_⟩
  rw [hdisplays.readout]
  obtain ⟨pre, post, rfl, rfl⟩ := hreports.cycle
  have hsplit : graphRun (pre ++ (now, .graph (.station .cycle)) :: post) =
      graphRun pre ++ (now, .station .cycle) :: graphRun post := by
    simp [graphRun]
  rw [hsplit] at hrun ⊢
  rw [graph_state] at honline ⊢
  rcases shows_of_online hrun.of_append honline with ⟨-, hyoung⟩ | ⟨pre', s, post', hpre, hs, hshows⟩
  · exact .inl hyoung
  · have herror := errorActive_of_errorFree (errorFree c (graphRun pre)) c.manager now
    have haccurate := accurate_of_shows hstep
      (r := post' ++ (now, .station .cycle) :: graphRun post) hs herror hshows
    rw [← List.cons_append, ← List.append_assoc, ← hpre] at haccurate
    exact .inr haccurate

/-- The page after two ticks, a cycle and a refresh, with the two deliveries in between. An invalid target has
been sent since. -/
theorem screen_tick :
    let c : Setup :=
      { reading := ⟨fun _ => false, fun _ _ => 0, fun _ _ => false⟩, sim := { initialPitch := 1 }
        start := -1000000000 }
    let es : List (Time × DeskEvent Unit) :=
      [(0, .graph .tick), (1, .graph .tick), (2, .graph .deliverStatus),
        (3, .graph (.station .cycle)), (4, .deliverReport), (5, .refresh), (6, .graph .tick),
        (7, .graph (.station (.gui (.sendTarget none))))]
    let σ := (machine c (simPlant c.sim)).state es
    σ.view.readout.positionText = "Position: pitch=1.00 yaw=0.00" ∧
    σ.view.logText = "Invalid target values" ∧
    ∃ st, Accurate c (graphRun es) (3 - (c.manager.timeoutThreshold + 1)) st σ.view.readout := by
  intro c es σ
  refine ⟨by decide +kernel, by decide +kernel, ?_⟩
  have hrun : PromptStatus c (simPlant c.sim) 1 (graphRun es) := by
    unfold PromptStatus
    decide +kernel
  have hscreen := (screen c (by decide +kernel) 1 es hrun).2
  rcases hscreen with hblank | ⟨now, st, hreports, hdisplays, honline⟩
  · rcases hblank.readout with h | h
    · exact absurd h (by decide +kernel)
    · exact absurd h (by decide +kernel)
  · -- the only cycle of the run is the one at 3
    have hnow : now = 3 := by
      obtain ⟨pre, post, hes, -⟩ := hreports.cycle
      have hmem : (now, DeskEvent.graph (.station .cycle)) ∈ es := by simp [hes]
      simpa [es] using hmem
    have hshown : (Readout.ofStatus st).connectionText = "Teleop: offline | PLC: online" := by
      rw [← hdisplays.readout]
      decide +kernel
    have hplc : st.plcOnline = true := by
      by_contra hoffline
      cases hteleop : st.teleopOnline <;> simp [Readout.ofStatus, hoffline, hteleop] at hshown
    rw [hnow] at honline
    exact ⟨st, (honline hplc).resolve_left (by decide)⟩

end Desk

end ArgusGate
