import ArgusGate.PlcBridge.NetworkLoop
import ArgusGate.System.Telemetry

/-!
# Silence on the wire

The bridge and the manager each have a watchdog over the same link, half a second long by default, and they
never speak of it. Still they agree: the silence that the bridge warns about has reached the manager by the
time a status would have.
-/

namespace ArgusGate.Graph

open Reactive ArgusManagerNode PlcBridgeNode

/-- What the network loop handles in a step of the graph. -/
def loopEvents (σ : Graph PlcBridgeNode) : Time × GraphEvent NetworkStep → List (Time × BridgeEvent)
  | (now, .deliverCommand) => (σ.plcCommand.next?.map fun m => (now, .command m.2)).toList
  | (now, .run .transmit) => [(now, .transmit)]
  | (now, .run (.receive inRaw pending)) => [(now, .receive inRaw pending)]
  | _ => []

/-- The network loop in a run of the graph, if the bridge has been constructed at `start`. -/
def networkLoop (c : Setup) (start : Time) (es : List (Time × GraphEvent NetworkStep)) : NetworkLoop :=
  (NetworkLoop.machine start).state ((machine c bridgePlant).trace loopEvents es)

/-- The event accepts a datagram. -/
def accepted : GraphEvent NetworkStep → Bool
  | .run (.receive _ pending) => (received pending).isSome
  | _ => false

variable {c : Setup} {start late t now : Time} {es fs : List (Time × GraphEvent NetworkStep)}

/-- Its node is the bridge of the graph. -/
theorem networkLoop_node (c : Setup) (start : Time) (es : List (Time × GraphEvent NetworkStep)) :
    ((machine c bridgePlant).state es).plant = (networkLoop c start es).node := by
  rw [networkLoop, NetworkLoop.node_state]
  have hview : ∀ es : List (Time × GraphEvent NetworkStep),
      ((machine c bridgePlant).trace loopEvents es).map Prod.snd =
        (machine c bridgePlant).trace (fun σ e => (loopEvents σ e).map Prod.snd) es := by
    intro es
    induction es using List.reverseRecOn with
    | nil => rfl
    | append_singleton es e ih => rw [Machine.trace_concat, Machine.trace_concat, List.map_append, ih]
  rw [hview]
  apply Machine.view_state
  · rfl
  · rintro σ ⟨now, e⟩
    cases e with
    | deliverCommand =>
      simp only [machine_step, handle, deliverCommand, loopEvents]
      cases σ.plcCommand.next? <;> rfl
    | deliverStatus =>
      simp only [machine_step, handle, deliverStatus]
      cases σ.plcStatus.next? <;> rfl
    | run i => cases i <;> rfl
    | _ => rfl

/-- The loop keeps the time of the last datagram that the graph has accepted. -/
theorem networkLoop_lastRxTime (e : GraphEvent NetworkStep) :
    (networkLoop c start (es ++ [(now, e)])).lastRxTime =
      if accepted e then now else (networkLoop c start es).lastRxTime := by
  rw [networkLoop, Machine.trace_concat, Machine.state_append, ← networkLoop]
  cases e with
  | deliverCommand =>
    simp only [loopEvents]
    cases ((machine c bridgePlant).state es).plcCommand.next? <;> rfl
  | run i =>
    cases i with
    | transmit => rfl
    | receive inRaw pending =>
      exact (networkLoop c start es).handle_lastRxTime now (.receive inRaw pending)
  | _ => rfl

theorem lastRxTime_of_quiet (hquiet : ∀ e ∈ fs, accepted e.2 = false) :
    (networkLoop c start (es ++ fs)).lastRxTime = (networkLoop c start es).lastRxTime := by
  induction fs using List.reverseRecOn with
  | nil => rw [List.append_nil]
  | append_singleton fs e ih =>
    have hlast : accepted e.2 = false := hquiet e (by simp)
    rw [← List.append_assoc, networkLoop_lastRxTime, hlast]
    exact ih fun e he => hquiet e (List.mem_append_left _ he)

/-- No status of the topic is younger than the last datagram. -/
theorem stamp_le_lastRxTime (hclock : EachStep (fun pre e => ∀ e' ∈ pre, e'.1 ≤ e.1) es) :
    ∀ m ∈ ((machine c bridgePlant).state es).plcStatus.log,
      m.1 ≤ (networkLoop c start es).lastRxTime := by
  apply (machine c bridgePlant).eachStep_rule
    (P := fun es σ => ∀ m ∈ σ.plcStatus.log, m.1 ≤ (networkLoop c start es).lastRxTime) _ _ hclock
  · intro m hm
    cases hm
  · rintro es ⟨now, e⟩ hpast ih m hm
    rw [networkLoop_lastRxTime]
    cases e with
    | run i =>
      cases i with
      | transmit => exact ih m (by simpa [handle, bridgePlant] using hm)
      | receive inRaw pending =>
        rw [machine_step, handle, bridgePlant_receive, receive_eq] at hm
        rw [accepted]
        cases hreceived : received pending with
        | none => exact ih m (by simpa [hreceived, Topic.publishSome] using hm)
        | some st =>
          rw [hreceived] at hm
          rcases Topic.mem_publish.mp hm with hm | rfl
          · obtain ⟨e', he', hstamp⟩ := stamp_of_status hm
            exact hstamp ▸ hpast e' he'
          · exact le_rfl
    | deliverCommand =>
      apply ih m
      simp only [machine_step, handle, deliverCommand] at hm
      split at hm <;> exact hm
    | deliverStatus =>
      apply ih m
      simp only [machine_step, handle, deliverStatus] at hm
      split at hm
      · exact hm
      · simpa using hm
    | loseStatus => exact ih m (by simpa [handle] using hm)
    | _ => exact ih m hm

/-- The silence stops the gate. In every run of the graph with the bridge whose statuses are delivered
promptly, whatever else is lost: when the bridge has come to its warning at `t` and has accepted nothing
since, every cycle from `t + delay` on reports the PLC offline, and neither drives it nor acknowledges an
error, unless the manager has only just been started and has not received any status. -/
theorem silence_stops (c : Setup) (start delay t now : Time) (inRaw : RxBuffer)
    (pending : List (List UInt8)) (es fs : List (Time × GraphEvent NetworkStep))
    (hthreshold : c.manager.timeoutThreshold ≤ NetworkLoop.timeoutThreshold)
    (hclock : EachStep (fun pre e => ∀ e' ∈ pre, e'.1 ≤ e.1)
      (es ++ (t, .run (.receive inRaw pending)) :: fs))
    (hstatus : PromptStatus c bridgePlant delay (es ++ (t, .run (.receive inRaw pending)) :: fs))
    (hwarns : ((networkLoop c start es).receive t inRaw pending).warns = true)
    (hquiet : ∀ e ∈ fs, accepted e.2 = false) (hnow : t + delay ≤ now) :
    let σ := (machine c bridgePlant).state (es ++ (t, .run (.receive inRaw pending)) :: fs)
    let out := supervisorCycle c.manager σ.console.manager now
    (¬ Informed c bridgePlant (es ++ (t, .run (.receive inRaw pending)) :: fs) ∧
      now - c.manager.timeoutThreshold < c.start) ∨
    (out.status.plcOnline = false ∧ out.command.drives = false ∧ out.command.ack = false) := by
  intro σ out
  obtain ⟨hnone, hsilent⟩ := (NetworkLoop.warns_iff _ _ _ _).mp hwarns
  by_cases honline : plcAlive c.manager σ.console.manager now = true
  · refine .inl ?_
    have hfresh := (checkWatchdog_iff c.manager).mp honline
    rcases holdsStatus hstatus with ⟨huninformed, -, htime⟩ | ⟨s, hmem, hs⟩
    · rw [htime] at hfresh
      exact ⟨huninformed, by linarith⟩
    · -- its status is older than the last datagram, and that is too old for the watchdog
      have hsince : ∀ e ∈ (t, GraphEvent.run (.receive inRaw pending)) :: fs, accepted e.2 = false := by
        rintro e (_ | ⟨_, he⟩)
        · rw [accepted, hnone]
          rfl
        · exact hquiet e he
      have hlast : s ≤ (networkLoop c start es).lastRxTime := by
        rw [← lastRxTime_of_quiet hsince]
        exact stamp_le_lastRxTime hclock _ hmem
      linarith
  · have hoffline : plcAlive c.manager σ.console.manager now = false := by simpa using honline
    have hcommand := command_of_plc_lost _ _ _ hoffline
    refine .inr ⟨hoffline, ?_, ?_⟩
    · rw [hcommand]
      rfl
    · rw [hcommand]

/-- One status, and then half a second without any, in which the operator goes on jogging. -/
theorem silence_stops_jog :
    let c : Setup :=
      { reading := ⟨fun _ => false, fun _ _ => 0, fun _ _ => false⟩, start := -1000000000 }
    let es : List (Time × GraphEvent NetworkStep) :=
      [(0, .run (.receive (.replicate 20 0) [statusDatagram {} (.replicate 16 0)])),
        (1000000, .deliverStatus), (2000000, .station (.gui (.startJog 1 0)))]
    let fs : List (Time × GraphEvent NetworkStep) :=
      [(500000000, .station (.gui .publishLoop)), (500500000, .station .deliverTeleop)]
    let σ := (machine c bridgePlant).state
      (es ++ (500000000, .run (.receive (.replicate 20 0) [])) :: fs)
    let out := supervisorCycle c.manager σ.console.manager 501000000
    out.status.plcOnline = false ∧ out.command.drives = false ∧ out.command.ack = false := by
  intro c es fs σ out
  have hclock : EachStep (fun pre e => ∀ e' ∈ pre, e'.1 ≤ e.1)
      (es ++ (500000000, .run (.receive (.replicate 20 0) [])) :: fs) := by
    decide +kernel
  have hstatus : PromptStatus c bridgePlant 1000000
      (es ++ (500000000, .run (.receive (.replicate 20 0) [])) :: fs) := by
    unfold PromptStatus
    decide +kernel
  have hsilence := silence_stops c 0 1000000 500000000 501000000 (.replicate 20 0) [] es fs
    (by decide) hclock hstatus (by decide +kernel) (by decide) (by decide)
  exact hsilence.resolve_left fun h => absurd h.2 (by decide)

end ArgusGate.Graph
