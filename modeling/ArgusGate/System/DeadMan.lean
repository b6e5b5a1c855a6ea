import ArgusGate.Foundation.Topic
import ArgusGate.Manager.Interlock
import ArgusGate.PlcBridge.Node

/-!
# The dead-man bound on the wire

The bridge sends the last command it has received again and again and has no timeout of its own. A
packet that drives the PLC is nevertheless bounded in age: the manager's watchdog bounds the teleop
message behind each command, its period the time to the next command, and the topic's delay the
time until that one takes over.
-/

namespace ArgusGate

open Reactive ArgusManagerNode

/-- The manager and the bridge, joined by `plc_command`. Every command in the topic is stamped with
the time of the cycle that published it. -/
structure CommandPath where
  manager : ArgusManagerNode
  bridge : PlcBridgeNode
  commands : Topic (Time × PlcCommand)

inductive PathEvent where
  | teleop (msg : TeleopCommand)
  | status (msg : PlcStatus)
  | cycle
  | deliverCommand
  | transmit
  | receive (inRaw : RxBuffer) (pending : List (List UInt8))

namespace CommandPath

/-- The bridge takes the next command. -/
def deliverCommand (σ : CommandPath) : CommandPath :=
  match σ.commands.next? with
  | some m => { σ with bridge := σ.bridge.commandCallback m.2, commands := σ.commands.take }
  | none => σ

def cycle (p : ManagerParams) (σ : CommandPath) (now : Time) : CommandPath :=
  { σ with
    manager := (supervisorCycle p σ.manager now).node
    commands := σ.commands.publish (now, (supervisorCycle p σ.manager now).command) }

def handle (p : ManagerParams) (σ : CommandPath) : Time × PathEvent → CommandPath
  | (now, .teleop msg) => { σ with manager := σ.manager.onTeleopReceived msg now }
  | (now, .status msg) => { σ with manager := σ.manager.onStatusReceived msg now }
  | (now, .cycle) => σ.cycle p now
  | (_, .deliverCommand) => σ.deliverCommand
  | (_, .transmit) => { σ with bridge := σ.bridge.transmit.1 }
  | (_, .receive inRaw pending) => { σ with bridge := (σ.bridge.receive inRaw pending).1 }

def machine (p : ManagerParams) (t₀ : Time) : Machine CommandPath (Time × PathEvent) where
  start := { manager := ArgusManagerNode.construct t₀, bridge := {}, commands := .empty }
  step := handle p

/-- The callbacks of the manager in a run. -/
def managerRun (es : List (Time × PathEvent)) : List (Time × ManagerEvent) :=
  es.filterMap fun
    | (now, .teleop msg) => some (now, .teleop msg)
    | (now, .status msg) => some (now, .status msg)
    | (now, .cycle) => some (now, .cycle)
    | _ => none

theorem manager_state (p : ManagerParams) (t₀ : Time) (es : List (Time × PathEvent)) :
    ((machine p t₀).state es).manager = (ArgusManagerNode.machine p t₀).state (managerRun es) := by
  apply Machine.view_state_filterMap
  · rfl
  · rintro σ ⟨now, e⟩
    cases e with
    | deliverCommand =>
      simp only [machine, handle, deliverCommand]
      split <;> rfl
    | _ => rfl

/-- What the schedule promises at an event at `now`: the clock has not gone back, no more than
`period` has passed since the last supervisor cycle, and no command has been waiting for more than
`delay`. -/
structure OnTime (period delay : Time) (es : List (Time × PathEvent)) (σ : CommandPath)
    (now : Time) : Prop where
  clock : ∀ e ∈ es.getLast?, e.1 ≤ now
  cycles : ∀ m ∈ σ.commands.log.getLast?, now ≤ m.1 + period
  delivery : ∀ m ∈ σ.commands.log.drop σ.commands.taken, now ≤ m.1 + delay

instance (period delay : Time) (es : List (Time × PathEvent)) (σ : CommandPath) (now : Time) :
    Decidable (OnTime period delay es σ now) :=
  decidable_of_iff ((∀ e ∈ es.getLast?, e.1 ≤ now) ∧
      (∀ m ∈ σ.commands.log.getLast?, now ≤ m.1 + period) ∧
      ∀ m ∈ σ.commands.log.drop σ.commands.taken, now ≤ m.1 + delay)
    ⟨fun h => ⟨h.1, h.2.1, h.2.2⟩, fun h => ⟨h.clock, h.cycles, h.delivery⟩⟩

/-- A run that keeps to the schedule at every event. -/
def Timely (p : ManagerParams) (t₀ period delay : Time) (es : List (Time × PathEvent)) : Prop :=
  EachStep (fun pre e => OnTime period delay pre ((machine p t₀).state pre) e.1) es

/-- A teleop message was received later than `t`. -/
def TeleopAfter (es : List (Time × PathEvent)) (t : Time) : Prop :=
  ∃ r msg, (r, PathEvent.teleop msg) ∈ es ∧ t < r

theorem TeleopAfter.append {es : List (Time × PathEvent)} {t : Time} (h : TeleopAfter es t)
    (fs : List (Time × PathEvent)) : TeleopAfter (es ++ fs) t := by
  obtain ⟨r, msg, hmem, hr⟩ := h
  exact ⟨r, msg, List.mem_append_left fs hmem, hr⟩

/-- A driving command is published only shortly after a teleop message. -/
theorem teleopAfter_of_drives {p : ManagerParams} {t₀ now : Time} {es : List (Time × PathEvent)}
    (h : (supervisorCycle p ((machine p t₀).state es).manager now).command.drives = true) :
    TeleopAfter es (now - p.timeoutThreshold) := by
  rw [manager_state] at h
  obtain ⟨⟨r, hlast, hfresh⟩, -⟩ := served_of_drives h
  obtain ⟨⟨now', e⟩, hmem, he⟩ := List.mem_filterMap.mp (mem_of_latestTeleop hlast)
  cases e <;> simp at he
  obtain ⟨rfl, rfl⟩ := he
  exact ⟨now', _, hmem, sub_lt_comm.mp hfresh⟩

/-- What holds along every run that keeps to the schedule. -/
structure PathInv (p : ManagerParams) (period delay : Time) (es : List (Time × PathEvent))
    (σ : CommandPath) : Prop where
  /-- The bridge holds the last command it took, or has not taken any. -/
  held : σ.bridge.txData.drives = true → ∃ m, σ.commands.last? = some m ∧ m.2.drives = true
  served : ∀ m ∈ σ.commands.log, m.2.drives = true → TeleopAfter es (m.1 - p.timeoutThreshold)
  spaced : σ.commands.log.IsChain fun m m' => m'.1 ≤ m.1 + period
  past : ∀ now, (∀ e ∈ es.getLast?, e.1 ≤ now) → ∀ m ∈ σ.commands.log, m.1 ≤ now
  delay_nonneg : ∀ m, σ.commands.last? = some m → 0 ≤ delay

variable {p : ManagerParams} {t₀ period delay now : Time} {es : List (Time × PathEvent)}
variable {σ : CommandPath}

theorem pathInv_start : PathInv p period delay [] (machine p t₀).start where
  held h := by cases h
  served m hm := by cases hm
  spaced := .nil
  past now _ m hm := by cases hm
  delay_nonneg m h := by cases h

/-- An event at `now` lies after all that was published before. -/
theorem past_concat (h : PathInv p period delay es σ) (htime : OnTime period delay es σ now)
    (e : PathEvent) (t : Time) (ht : ∀ e' ∈ (es ++ [(now, e)]).getLast?, e'.1 ≤ t) :
    now ≤ t ∧ ∀ m ∈ σ.commands.log, m.1 ≤ t := by
  have hnow : now ≤ t := ht (now, e) (by simp)
  exact ⟨hnow, fun m hm => (h.past now htime.clock m hm).trans hnow⟩

/-- Steps that leave alone the topic and what the bridge's command asks for. -/
theorem pathInv_frame {σ' : CommandPath} (h : PathInv p period delay es σ)
    (htime : OnTime period delay es σ now) (e : PathEvent) (hcommands : σ'.commands = σ.commands)
    (hbridge : σ'.bridge.txData.drives = σ.bridge.txData.drives) :
    PathInv p period delay (es ++ [(now, e)]) σ' := by
  refine ⟨?_, ?_, ?_, ?_, ?_⟩ <;> rw [hcommands]
  · rw [hbridge]
    exact h.held
  · exact fun m hm hdrives => (h.served m hm hdrives).append _
  · exact h.spaced
  · exact fun t ht => (past_concat h htime e t ht).2
  · exact h.delay_nonneg

theorem pathInv_cycle (h : PathInv p period delay es ((machine p t₀).state es))
    (htime : OnTime period delay es ((machine p t₀).state es) now) :
    PathInv p period delay (es ++ [(now, .cycle)]) (((machine p t₀).state es).cycle p now) := by
  refine ⟨?_, ?_, ?_, ?_, ?_⟩ <;> simp only [cycle]
  · simpa using h.held
  · intro m hm hdrives
    rcases Topic.mem_publish.mp hm with hm | rfl
    · exact (h.served m hm hdrives).append _
    · exact (teleopAfter_of_drives hdrives).append _
  · exact Topic.isChain_publish h.spaced htime.cycles
  · intro t ht m hm
    obtain ⟨hnow, hpast⟩ := past_concat h htime .cycle t ht
    rcases Topic.mem_publish.mp hm with hm | rfl
    · exact hpast m hm
    · exact hnow
  · simpa using h.delay_nonneg

theorem pathInv_deliverCommand (h : PathInv p period delay es σ)
    (htime : OnTime period delay es σ now) :
    PathInv p period delay (es ++ [(now, .deliverCommand)]) σ.deliverCommand := by
  cases hnext : σ.commands.next? with
  | none =>
    have hstay : σ.deliverCommand = σ := by simp [deliverCommand, hnext]
    rw [hstay]
    exact pathInv_frame h htime _ rfl rfl
  | some m =>
    have htake : σ.deliverCommand =
        { σ with bridge := σ.bridge.commandCallback m.2, commands := σ.commands.take } := by
      simp [deliverCommand, hnext]
    rw [htake]
    refine ⟨?_, ?_, ?_, ?_, ?_⟩ <;> simp only [Topic.take_log]
    · exact fun hdrives => ⟨m, Topic.take_last? hnext, hdrives⟩
    · exact fun m hm hdrives => (h.served m hm hdrives).append _
    · exact h.spaced
    · exact fun t ht => (past_concat h htime _ t ht).2
    · -- the message was published before now and has waited no longer than `delay`
      intro _ _
      have hpast : m.1 ≤ now := h.past now htime.clock m (Topic.mem_of_next? hnext)
      have hwait : now ≤ m.1 + delay := htime.delivery m (Topic.mem_drop_of_next? hnext)
      exact le_of_add_le_add_left ((add_zero m.1).le.trans (hpast.trans hwait))

theorem pathInv (h : Timely p t₀ period delay es) :
    PathInv p period delay es ((machine p t₀).state es) := by
  apply (machine p t₀).eachStep_rule (P := PathInv p period delay) pathInv_start _ h
  rintro es ⟨now, e⟩ htime hinv
  cases e with
  | teleop msg => exact pathInv_frame hinv htime _ rfl rfl
  | status msg => exact pathInv_frame hinv htime _ rfl rfl
  | cycle => exact pathInv_cycle hinv htime
  | deliverCommand => exact pathInv_deliverCommand hinv htime
  | transmit => exact pathInv_frame hinv htime _ rfl (PlcBridgeNode.transmit_drives _)
  | receive inRaw pending =>
    have hkeep : (((machine p t₀).state es).bridge.receive inRaw pending).1.txData.drives =
        ((machine p t₀).state es).bridge.txData.drives := by simp
    exact pathInv_frame hinv htime _ rfl hkeep

/-- The dead-man bound. A packet sent at `now` whose exec flag or a jog bit is set goes back to a
teleop message received later than `now - (watchdog_timeout + period + delay)`, in every run that
keeps to the schedule. -/
theorem deadMan (p : ManagerParams) (t₀ period delay now : Time) (es : List (Time × PathEvent))
    (hrun : Timely p t₀ period delay (es ++ [(now, .transmit)]))
    (hpacket : (packetExec ((machine p t₀).state es).bridge.transmit.2.bytes ||
      packetJogs ((machine p t₀).state es).bridge.transmit.2.bytes) = true) :
    TeleopAfter es (now - (p.timeoutThreshold + period + delay)) := by
  obtain ⟨hes, htime⟩ := eachStep_concat.mp hrun
  have hinv := pathInv hes
  rw [PlcBridgeNode.transmit_packetDrives] at hpacket
  obtain ⟨m, hlast, hdrives⟩ := hinv.held hpacket
  have hage : now ≤ m.1 + period + delay := Topic.last?_age hinv.spaced htime.cycles htime.delivery
    (hinv.delay_nonneg m hlast) hlast
  obtain ⟨r, msg, hmem, hr⟩ := hinv.served m (Topic.mem_of_last? hlast) hdrives
  refine ⟨r, msg, hmem, ?_⟩
  calc now - (p.timeoutThreshold + period + delay)
      ≤ m.1 + period + delay - (p.timeoutThreshold + period + delay) := sub_le_sub_right hage _
    _ = m.1 - p.timeoutThreshold := by ring
    _ < r := hr

/-- The bound at work: a jog packet 2 ms after the cycle that published its command. -/
theorem deadMan_jog :
    TeleopAfter [(0, .status {}), (1000000, .teleop { requestedMode := 2, pitchSpeed := 1 }),
      (2000000, .cycle), (3000000, .deliverCommand)]
      (4000000 - (500 * 1000000 + 20000000 + 5000000)) := by
  refine deadMan {} 0 20000000 5000000 4000000 _ ?_ (by decide +kernel)
  unfold Timely
  decide +kernel

end CommandPath

end ArgusGate
