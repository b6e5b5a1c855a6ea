import ArgusGate.System.LeftAlone
import ArgusGate.System.Wire

/-!
# The watchdogs do not trip by mistake

The other half of the interlocks: as long as somebody publishes on `teleop_cmd` and the plant publishes on
`plc_status`, and the messages get through in time, each cycle of the manager reports both links online and
serves the operator.
-/

namespace ArgusGate.Graph

open Reactive ArgusManagerNode

variable {ρ ι : Type}

/-- The event loses a message that the manager waits for. -/
def loses : GraphEvent ι → Bool
  | .loseStatus | .station .loseTeleop => true
  | _ => false

/-- The clock never goes back, and no message to the manager is lost. -/
def Reliable (es : List (Time × GraphEvent ι)) : Prop :=
  EachStep (fun pre e => (∀ e' ∈ pre, e'.1 ≤ e.1) ∧ loses e.2 = false) es

/-- At `now` both topics to the manager have been fed since it started. The default messages that it starts
with count as published at its start. -/
structure WellFed (c : Setup) (period delay now : Time) (σ : Graph ρ) : Prop where
  teleops : (σ.console.teleopCmd.precede (c.start, {})).Fed period delay now
  statuses : (σ.plcStatus.precede (c.start, {})).Fed period delay now

/-- The manager has what it has taken from its two topics. -/
structure Attends (c : Setup) (σ : Graph ρ) : Prop where
  teleop : σ.console.teleopCmd.Holds (c.start, {}) σ.console.manager.lastTeleopCmd
    σ.console.manager.lastTeleopTime
  status : σ.plcStatus.Holds (c.start, {}) σ.console.manager.lastStatus
    σ.console.manager.lastStatusTime

variable {c : Setup} {P : Plant ρ ι} {period delay now : Time} {es : List (Time × GraphEvent ι)}

theorem attends_station {σ : Graph ρ} (h : Attends c σ) (e : StationEvent)
    (hkeep : loses (GraphEvent.station e : GraphEvent ι) = false)
    (hpast : ∀ m ∈ σ.console.teleopCmd.log, m.1 ≤ now) :
    Attends c (σ.handle c P (now, .station e)) := by
  refine ⟨?_, ?_⟩
  · cases e with
    | gui g => exact Topic.holds_publishSome h.teleop _
    | keyboard keys => exact Topic.holds_publish h.teleop _
    | deliverJoy =>
      simp only [handle, Console.station, Console.deliverJoy]
      split
      · exact h.teleop
      · exact Topic.holds_publishSome h.teleop _
    | deliverTeleop =>
      simp only [handle, Console.station, Console.deliverTeleop]
      cases hnext : σ.console.teleopCmd.next? with
      | none => exact h.teleop
      | some m => exact Topic.holds_take hnext (hpast m (Topic.mem_of_next? hnext))
    | loseTeleop => cases hkeep
    | _ => exact h.teleop
  · obtain ⟨hstatus, hstamp⟩ := station_lastStatus c σ.console now e
    simp only [handle]
    rw [hstatus, hstamp]
    exact h.status

theorem attends (h : Reliable es) : Attends c ((machine c P).state es) := by
  apply (machine c P).eachStep_rule (P := fun _ σ => Attends c σ) _ _ h
  · exact ⟨Topic.holds_empty _ _, Topic.holds_empty _ _⟩
  · rintro es ⟨now, e⟩ ⟨hclock, hkeep⟩ ih
    cases e with
    | station e =>
      refine attends_station (P := P) ih e hkeep fun m hm => ?_
      obtain ⟨e', he', hstamp⟩ := stamp_of_teleop hm
      exact hstamp ▸ hclock e' he'
    | deliverCommand =>
      simp only [machine_step, handle, deliverCommand]
      split <;> exact ⟨ih.teleop, ih.status⟩
    | run i => exact ⟨ih.teleop, Topic.holds_publishSome ih.status _⟩
    | deliverStatus =>
      rw [machine_step, handle]
      cases hnext : ((machine c P).state es).plcStatus.next? with
      | none =>
        rw [deliverStatus_of_none c hnext]
        exact ih
      | some m =>
        rw [deliverStatus_of_next c hnext]
        obtain ⟨e', he', hstamp⟩ := stamp_of_status (Topic.mem_of_next? hnext)
        exact ⟨ih.teleop, Topic.holds_take hnext (hstamp ▸ hclock e' he')⟩
    | loseCommand => exact ⟨ih.teleop, ih.status⟩
    | loseStatus => cases hkeep

/-- What is held of a well-fed topic keeps its watchdog quiet. -/
theorem checkWatchdog_of_holds {α : Type} {t : Topic (Time × α)} {first : Time × α} {a : α}
    {received : Time} (h : t.Holds first a received)
    (hfed : (t.precede first).Fed period delay now) (hdelay : 0 ≤ delay)
    (hmargin : period + delay < c.manager.timeoutThreshold) :
    checkWatchdog c.manager received now = true := by
  have hfresh := h.fresh hfed hdelay
  rw [checkWatchdog_iff]
  linarith

/-- The message `a` was the last one of the topic at some time in the last `delay`. -/
def InForce {α : Type} (t : Topic (Time × α)) (delay now : Time) (a : α) : Prop :=
  ∃ pre s post, t.log = pre ++ (s, a) :: post ∧ ∀ m ∈ post, now ≤ m.1 + delay

theorem inForce_of_holds {α : Type} {t : Topic (Time × α)} {first : Time × α} {a : α}
    {received : Time} (h : t.Holds first a received)
    (hfed : (t.precede first).Fed period delay now) : InForce (t.precede first) delay now a := by
  obtain ⟨s, -, hlast⟩ := h
  obtain ⟨pre, hlog⟩ := Topic.log_of_last? hlast
  exact ⟨pre, s, _, hlog, hfed.prompt⟩

/-- No watchdog trips by mistake. In every run of the graph, with either plant, that loses no message to the
manager: if at `now` both its topics have been fed every `period` since it started, no message waits for
more than `delay`, and the two together are less than `watchdog_timeout`, then a cycle at `now` reports both
links online. Its report repeats a status, and without an error in it its command serves a teleop message,
which were the last ones at most `delay` ago; before the first message of a topic this is the default one,
as if published at the start. -/
theorem served (c : Setup) (P : Plant ρ ι) (period delay now : Time)
    (es : List (Time × GraphEvent ι)) (hdelay : 0 ≤ delay)
    (hmargin : period + delay < c.manager.timeoutThreshold) (hrun : Reliable es)
    (hfed : WellFed c period delay now ((machine c P).state es)) :
    let σ := (machine c P).state es
    let out := supervisorCycle c.manager σ.console.manager now
    (out.status.teleopOnline = true ∧ out.status.plcOnline = true) ∧
    ∃ msg st, InForce (σ.console.teleopCmd.precede (c.start, {})) delay now msg ∧
      InForce (σ.plcStatus.precede (c.start, {})) delay now st ∧ Repeats out.status st ∧
      (st.error = 0 → out.command = commandFor msg) := by
  intro σ out
  have hattends : Attends c σ := attends hrun
  have hteleop : teleopAlive c.manager σ.console.manager now = true :=
    checkWatchdog_of_holds hattends.teleop hfed.teleops hdelay hmargin
  have hplc : plcAlive c.manager σ.console.manager now = true :=
    checkWatchdog_of_holds hattends.status hfed.statuses hdelay hmargin
  refine ⟨⟨hteleop, hplc⟩, _, _, inForce_of_holds hattends.teleop hfed.teleops,
    inForce_of_holds hattends.status hfed.statuses, repeats_lastStatus _ _ _, fun herror => ?_⟩
  have hcommand : out.command = σ.console.manager.modeCommand :=
    command_of_healthy _ _ now hplc hteleop herror
  rw [hcommand]
  exact modeCommand_of_sameRequest ⟨rfl, rfl, rfl, rfl, rfl⟩

/-- The jog button with two messages of the GUI and two statuses, a tenth of a second apart. The second ones
are still under way. -/
theorem served_jog :
    let c : Setup := { reading := ⟨fun _ => false, fun _ _ => 0, fun _ _ => false⟩ }
    let es : List (Time × GraphEvent Unit) :=
      [(0, .tick), (1000000, .tick), (2000000, .station (.gui (.startJog 1 0))),
        (2000000, .station (.gui .publishLoop)), (3000000, .deliverStatus),
        (3000000, .station .deliverTeleop), (101000000, .tick),
        (102000000, .station (.gui .publishLoop))]
    let σ := (simMachine c).state es
    let out := supervisorCycle c.manager σ.console.manager 105000000
    ∃ msg, InForce (σ.console.teleopCmd.precede (c.start, {})) 5000000 105000000 msg ∧
      out.command = commandFor msg := by
  intro c es σ out
  have hrun : Reliable es := by
    unfold Reliable
    decide +kernel
  have hfed : WellFed c 100000000 5000000 105000000 σ := by
    refine ⟨⟨?_, ?_, ?_⟩, ⟨?_, ?_, ?_⟩⟩
    all_goals decide +kernel
  obtain ⟨-, msg, st, hmsg, -, hrepeats, hcommand⟩ := served c (simPlant c.sim) 100000000 5000000
    105000000 es (by decide) (by decide) hrun hfed
  refine ⟨msg, hmsg, hcommand ?_⟩
  by_contra herror
  have hnone : out.status.errorActive = false := by decide +kernel
  rw [hrepeats.error herror] at hnone
  cases hnone

end ArgusGate.Graph
