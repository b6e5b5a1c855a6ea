import ArgusGate.System.Unasked

/-!
# The dead man's grip on the motion

A plant goes on with its last command until it receives another one, and has no timeout of its own. A motion
ends all the same soon after the operator stops asking for it, since there is a deadline on every
hop of the way: the stations' own timeouts, the manager's watchdog, and the commands that the manager
keeps sending.
-/

namespace ArgusGate.Graph

open Reactive ArgusManagerNode PlcSimNode Console

variable {ρ ι : Type}

/-- When the plant receives a command. -/
def receptions (σ : Graph ρ) : Time × GraphEvent ι → List Time
  | (now, .deliverCommand) => (σ.plcCommand.next?.map fun _ => now).toList
  | _ => []

/-- What the schedule promises of a step: a message that is delivered was published at most `delay`
before, and when the plant does something by itself it has received its last command at most `gap`
before. -/
def OnTime (c : Setup) (P : Plant ρ ι) (gap delay : Time) (pre : List (Time × GraphEvent ι)) :
    Time × GraphEvent ι → Prop
  | (now, .station e) =>
    ∀ s ∈ ((machine c P).state pre).console.publishedAt (.station e), now ≤ s + delay
  | (now, .deliverCommand) => ∀ m ∈ ((machine c P).state pre).plcCommand.next?, now ≤ m.1 + delay
  | (now, .run _) => ∀ r ∈ ((machine c P).trace receptions pre).getLast?, now ≤ r + gap
  | _ => True

instance (c : Setup) (P : Plant ρ ι) (gap delay : Time) (pre : List (Time × GraphEvent ι))
    (e : Time × GraphEvent ι) : Decidable (OnTime c P gap delay pre e) :=
  match e with
  | (now, .station e) => inferInstanceAs (Decidable
      (∀ s ∈ ((machine c P).state pre).console.publishedAt (.station e), now ≤ s + delay))
  | (now, .deliverCommand) => inferInstanceAs (Decidable
      (∀ m ∈ ((machine c P).state pre).plcCommand.next?, now ≤ m.1 + delay))
  | (now, .run _) => inferInstanceAs (Decidable
      (∀ r ∈ ((machine c P).trace receptions pre).getLast?, now ≤ r + gap))
  | (_, .loseCommand) | (_, .deliverStatus) | (_, .loseStatus) => inferInstanceAs (Decidable True)

/-- A run that keeps to the schedule at every step. -/
def Timely (c : Setup) (P : Plant ρ ι) (gap delay : Time) (es : List (Time × GraphEvent ι)) : Prop :=
  EachStep (OnTime c P gap delay) es

/-- The operator asks for motion of the axis around `now`: Synch or Follow was pressed on the GUI, or a
station has published SYNCH or FOLLOW, or a control of a direction of the axis was pushed. -/
inductive Held (c : Setup) (P : Plant ρ ι) (gap delay : Time) (es : List (Time × GraphEvent ι))
    (a : Axis) (now : Time) : Prop where
  | button (s : Time) (g : GuiEvent) (press : (s, GraphEvent.station (.gui g)) ∈ es)
      (moves : g = .synch ∨ g = .follow) (recent : now - (gap + delay) ≤ s)
  | mode (s : Time) (msg : TeleopCommand)
      (publish : (s, msg) ∈ ((machine c P).state es).console.teleopCmd.log)
      (moves : Moves msg.requestedMode)
      (recent : now - (gap + delay) - (c.manager.timeoutThreshold + delay) < s)
  | jog (d : JogDirection) (direction : d ∈ a.directions)
      (asked : Asked c delay ((machine c P).trace consoleEvents es) d
        (now - (gap + delay) - (c.manager.timeoutThreshold + delay)))

variable {c : Setup} {P : Plant ρ ι} {gap delay now : Time} {es : List (Time × GraphEvent ι)}
variable {a : Axis}

/-- The operator's side sees prompt deliveries. -/
theorem prompt_console (h : Timely c P gap delay es) :
    Prompt c delay ((machine c P).trace consoleEvents es) := by
  refine (machine c P).eachStep_trace ?_
  rintro pre ⟨now, e⟩ post hes
  have htime := h pre (now, e) post hes
  -- each step adds one event of the operator's side or none
  cases e with
  | station e =>
    refine eachStep_singleton.mpr fun s hs => ?_
    rw [List.append_nil, ← console_state] at hs
    exact htime s hs
  | deliverStatus =>
    simp only [consoleEvents]
    cases ((machine c P).state pre).plcStatus.next? with
    | none => exact .nil _
    | some m => exact eachStep_singleton.mpr fun s hs => (by cases hs)
  | _ => exact .nil _

/-- The plant works on a command that was published at most `delay` before its last reception, if there
has been any. -/
theorem received_worksOn {works : ρ → PlcCommand → Prop} (hworks : P.WorksOn works)
    (h : Timely c P gap delay es) :
    (works ((machine c P).state es).plant {} ∧ (machine c P).trace receptions es = []) ∨
    ∃ m ∈ ((machine c P).state es).plcCommand.log, works ((machine c P).state es).plant m.2 ∧
      ∃ r ∈ ((machine c P).trace receptions es).getLast?, r ≤ m.1 + delay := by
  apply (machine c P).eachStep_rule (P := fun es σ =>
    (works σ.plant {} ∧ (machine c P).trace receptions es = []) ∨
    ∃ m ∈ σ.plcCommand.log, works σ.plant m.2 ∧
      ∃ r ∈ ((machine c P).trace receptions es).getLast?, r ≤ m.1 + delay)
    (.inl ⟨hworks.start, rfl⟩) _ h
  rintro es ⟨now, e⟩ htime ih
  rw [Machine.trace_concat, machine_step]
  cases e with
  | deliverCommand =>
    simp only [handle, receptions]
    cases hnext : ((machine c P).state es).plcCommand.next? with
    | none => simpa [deliverCommand, hnext] using ih
    | some m =>
      rw [deliverCommand_of_next P hnext]
      refine .inr ⟨m, ?_, hworks.command _ _, now, by simp, htime m hnext⟩
      simpa using Topic.mem_of_next? hnext
  | station e =>
    rcases ih with hnone | ⟨m, hmem, hwork, r, hr, hs⟩
    · exact .inl (by simpa [handle, receptions] using hnone)
    · exact .inr ⟨m, by simp [handle, hmem], hwork, r, by simpa [receptions] using hr, hs⟩
  | run i =>
    rcases ih with ⟨hnone, htrace⟩ | ⟨m, hmem, hwork, r, hr, hs⟩
    · exact .inl ⟨hworks.run _ _ _ hnone, by simpa [receptions] using htrace⟩
    · exact .inr ⟨m, hmem, hworks.run _ _ _ hwork, r, by simpa [receptions] using hr, hs⟩
  | loseCommand => simpa [handle, receptions] using ih
  | deliverStatus =>
    simp only [handle, deliverStatus, receptions, List.append_nil]
    split <;> exact ih
  | loseStatus => simpa [handle, receptions] using ih

/-- When the plant does something by itself in a timely run, it works on a command that was published at
most `gap + delay` before, or on none. -/
theorem recent_of_worksOn {works : ρ → PlcCommand → Prop} (hworks : P.WorksOn works) {i : ι}
    (hrun : Timely c P gap delay (es ++ [(now, .run i)])) :
    works ((machine c P).state es).plant {} ∨
    ∃ s cmd, (s, cmd) ∈ ((machine c P).state es).plcCommand.log ∧ now - (gap + delay) ≤ s ∧
      works ((machine c P).state es).plant cmd := by
  obtain ⟨hbefore, hlast⟩ := eachStep_concat.mp hrun
  rcases received_worksOn hworks hbefore with ⟨hnone, -⟩ | ⟨⟨s, cmd⟩, hmem, hwork, r, hr, hs⟩
  · exact .inl hnone
  · have hfed : now ≤ r + gap := hlast r hr
    exact .inr ⟨s, cmd, hmem, by linarith, hwork⟩

/-! ## Who is behind a command -/

theorem held_of_cycle {pre : List (Time × GraphEvent ι)} {s : Time} (hrun : Timely c P gap delay pre)
    (hbegins : pre <+: es) (hs : now - (gap + delay) ≤ s)
    (h : a.DrivenBy (supervisorCycle c.manager ((machine c P).state pre).console.manager s).command) :
    Held c P gap delay es a now := by
  obtain ⟨post, rfl⟩ := hbegins
  have hprompt := prompt_console hrun
  have htrace : (machine c P).trace consoleEvents pre <+:
      (machine c P).trace consoleEvents (pre ++ post) := (machine c P).trace_extends _ _ _
  have hshift : now - (gap + delay) - (c.manager.timeoutThreshold + delay) ≤
      s - (c.manager.timeoutThreshold + delay) := sub_le_sub_right hs _
  rw [console_state] at h
  rcases moves_or_jogs h with hmode | ⟨d, hd, hbit⟩
  · obtain ⟨hfresh, hreq⟩ := fresh_of_moves hmode
    rcases published_of_fresh hprompt hfresh with ⟨hnone, -⟩ | ⟨u, hmem, hu⟩
    · rw [hnone] at hreq
      rcases hreq with h | h <;> cases h
    · refine .mode u _ ?_ hreq (hshift.trans_lt hu)
      rw [teleopCmd_log] at hmem
      rw [console_state, teleopCmd_log]
      obtain ⟨rest, hrest⟩ := htrace
      rw [← hrest]
      exact ((Console.machine c).trace_extends _ _ _).subset hmem
  · obtain ⟨hfresh, hspeed⟩ := speed_of_bit hbit
    rcases published_of_fresh hprompt hfresh with ⟨hnone, -⟩ | ⟨u, hmem, hu⟩
    · simp [hnone] at hspeed
    · have hasked := asked_of_message hprompt hmem hspeed hu
      exact .jog d hd (hasked.mono htrace hshift)

/-- A command that moves the axis, published at `s`, and the operator behind it. -/
theorem held_of_command {s : Time} {cmd : PlcCommand} (hrun : Timely c P gap delay es)
    (hmem : (s, cmd) ∈ ((machine c P).state es).plcCommand.log)
    (hs : now - (gap + delay) ≤ s) (hdriven : a.DrivenBy cmd) : Held c P gap delay es a now := by
  obtain ⟨pre, e, post, rfl, hout⟩ := mem_plcCommand hmem
  obtain ⟨-, rfl⟩ | rfl | rfl := commandOut_of_drivenBy hout hdriven
  · exact held_of_cycle hrun.of_append (List.prefix_append _ _) hs hdriven
  · exact .button s .synch (by simp) (.inl rfl) hs
  · exact .button s .follow (by simp) (.inr rfl) hs

/-- Whoever looks at the plant in a timely run, and finds it working on a command that drives the axis, finds
the operator behind it. Such a command has jog bits only in JOG. -/
theorem held_of_worksOn {works : ρ → PlcCommand → Prop} (hworks : P.WorksOn works) {i : ι}
    (hrun : Timely c P gap delay (es ++ [(now, .run i)]))
    (hdriven : ∀ cmd, (cmd.jogs = true → cmd.mode = 2) → works ((machine c P).state es).plant cmd →
      a.DrivenBy cmd) :
    Held c P gap delay es a now := by
  rcases recent_of_worksOn hworks hrun with hnone | ⟨s, cmd, hmem, hs, hwork⟩
  · exact absurd (hdriven _ (fun h => (by cases h)) hnone) a.not_drivenBy_default
  · exact held_of_command hrun.of_append hmem hs (hdriven _ (jogs_mode hmem) hwork)

/-- Motion is held. In every timely run of the graph with the simulator, with whatever the topics of the
operator's side and `plc_status` lose: a tick at `now` moves an axis only if the operator still asks for it,
which was at the longest `gap + delay` ago at a mode button of the GUI, and else longer by the manager's
`watchdog_timeout` and one more delivery. -/
theorem motion_held (c : Setup) (gap delay now : Time) (es : List (Time × GraphEvent Unit)) (a : Axis)
    (hrun : Timely c (simPlant c.sim) gap delay (es ++ [(now, .tick)]))
    (hmoves : a.current ((simMachine c).state (es ++ [(now, .tick)])).plant ≠
      a.current ((simMachine c).state es).plant) :
    Held c (simPlant c.sim) gap delay es a now := by
  rw [Machine.state_concat] at hmoves
  have hdriven := drivenBy_of_tick hmoves
  exact held_of_worksOn (simPlant_worksOn c.sim) hrun fun cmd _ hcmd => hcmd ▸ hdriven

/-- Follow on the GUI while the pitch axis stands away from 0; the messages take a millisecond, and the
simulator has been fed two milliseconds ago. -/
theorem motion_held_follow :
    let c : Setup :=
      { reading := ⟨fun _ => false, fun _ _ => 0, fun _ _ => false⟩, sim := { initialPitch := 1 } }
    let es : List (Time × GraphEvent Unit) :=
      [(0, .tick), (1000000, .station (.gui .follow)), (2000000, .deliverCommand)]
    Held c (simPlant c.sim) 2000000 1000000 es .pitch 4000000 := by
  intro c es
  refine motion_held c 2000000 1000000 4000000 es .pitch ?_ (by decide +kernel)
  unfold Timely
  decide +kernel

end ArgusGate.Graph
