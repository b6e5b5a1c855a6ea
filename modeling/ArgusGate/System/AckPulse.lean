import ArgusGate.Manager.Run
import ArgusGate.PlcBridge.Reception

/-!
# Acknowledgements on the wire

The manager acknowledges in one command, and the next command, without `ack`, follows one cycle
later. The bridge keeps the last command and samples it on the timer of its network loop. Each packet
here carries a note of the command it was encoded from: the note is no part of the packet, and the
bridge does not read it.
-/

namespace ArgusGate

open Reactive

/-- A packet on the wire, with the place in the run of the callback whose command it was encoded
from. -/
structure WirePacket where
  source : Option ℕ
  packet : List UInt8

/-- The bridge, with the place of the callback that stored its command, and the number of events
handled. -/
structure BridgeWire where
  bridge : PlcBridgeNode := {}
  source : Option ℕ := none
  handled : ℕ := 0

namespace BridgeWire

def handle (σ : BridgeWire) (e : BridgeEvent) : BridgeWire where
  bridge := σ.bridge.handle e
  source := match e with
    | .command _ => some σ.handled
    | _ => σ.source
  handled := σ.handled + 1

def machine : Machine BridgeWire BridgeEvent := { start := {}, step := handle }

/-- The packets a run sends. -/
def sent (es : List BridgeEvent) : List WirePacket :=
  machine.trace (fun σ e => match e with
    | .transmit => [⟨σ.source, σ.bridge.transmit.2.bytes⟩]
    | _ => []) es

/-- The notes do not change what the bridge does. -/
theorem bridge_state (es : List BridgeEvent) :
    (machine.state es).bridge = PlcBridgeNode.machine.state es := by
  induction es using List.reverseRecOn with
  | nil => rfl
  | append_singleton es e ih =>
    rw [Machine.state_concat, Machine.state_concat, ← ih]
    rfl

theorem handled_state (es : List BridgeEvent) : (machine.state es).handled = es.length := by
  induction es using List.reverseRecOn with
  | nil => rfl
  | append_singleton es e ih =>
    rw [Machine.state_concat, List.length_append, ← ih]
    rfl

/-- The bridge holds the command of the last callback; its `ack` is the stored one. -/
theorem source_of_last (pre mid : List BridgeEvent) (cmd : PlcCommand)
    (h : ∀ c, BridgeEvent.command c ∉ mid) :
    (machine.state (pre ++ .command cmd :: mid)).source = some pre.length ∧
    (machine.state (pre ++ .command cmd :: mid)).bridge.txData.ack = cmd.ack := by
  induction mid using List.reverseRecOn with
  | nil =>
    rw [Machine.state_concat, ← handled_state pre]
    exact ⟨rfl, rfl⟩
  | append_singleton mid e ih =>
    have hmid := ih (fun c hc => h c (by simp [hc]))
    rw [← List.cons_append, ← List.append_assoc, Machine.state_concat]
    cases e with
    | command c => exact absurd (by simp) (h c)
    | transmit => exact hmid
    | receive inRaw pending =>
      refine ⟨hmid.1, ?_⟩
      rw [← hmid.2]
      exact congrArg PlcCommand.ack (PlcBridgeNode.receive_txData _ inRaw pending)

theorem last_of_source {es : List BridgeEvent} {i : ℕ} (h : (machine.state es).source = some i) :
    ∃ pre cmd mid, es = pre ++ .command cmd :: mid ∧ pre.length = i ∧
      ∀ c, BridgeEvent.command c ∉ mid := by
  induction es using List.reverseRecOn with
  | nil => cases h
  | append_singleton es e ih =>
    rw [Machine.state_concat] at h
    have hkeep : (∀ c, e ≠ .command c) → (machine.state es).source = some i →
        ∃ pre cmd mid, es ++ [e] = pre ++ .command cmd :: mid ∧ pre.length = i ∧
          ∀ c, BridgeEvent.command c ∉ mid := by
      intro he hsource
      obtain ⟨pre, cmd, mid, rfl, hlen, hmid⟩ := ih hsource
      refine ⟨pre, cmd, mid ++ [e], by simp, hlen, fun c hc => ?_⟩
      rcases List.mem_append.mp hc with hmem | hmem
      · exact hmid c hmem
      · exact he c (List.mem_singleton.mp hmem).symm
    cases e with
    | command c =>
      refine ⟨es, c, [], rfl, ?_, by simp⟩
      rw [← handled_state es]
      exact Option.some.inj h
    | transmit => exact hkeep (by simp) h
    | receive inRaw pending => exact hkeep (by simp) h

/-- Every command with `ack` that has a transmission after it is carried by a packet with the ack
flag. -/
def AcksCarried (es : List BridgeEvent) : Prop :=
  ∀ pre cmd post, es = pre ++ .command cmd :: post → cmd.ack = true → BridgeEvent.transmit ∈ post →
    ∃ s ∈ sent es, s.source = some pre.length ∧ packetAck s.packet = true

/-- After every command with `ack` that has a transmission after it, the transmission comes before
the next command. -/
def AcksInTime (es : List BridgeEvent) : Prop :=
  ∀ pre cmd post, es = pre ++ .command cmd :: post → cmd.ack = true → BridgeEvent.transmit ∈ post →
    ∃ mid rest, post = mid ++ .transmit :: rest ∧ ∀ c, BridgeEvent.command c ∉ mid

/-- The acknowledgements of a run reach the wire exactly if they are transmitted in time. -/
theorem acksCarried_iff (es : List BridgeEvent) : AcksCarried es ↔ AcksInTime es := by
  constructor
  · intro h pre cmd post heq hack htransmit
    obtain ⟨s, hs, hsource, -⟩ := h pre cmd post heq hack htransmit
    obtain ⟨before, e, rest, heq', hout⟩ := machine.mem_trace_iff.mp hs
    cases e with
    | command c => simp at hout
    | receive inRaw pending => simp at hout
    | transmit =>
      rw [List.mem_singleton] at hout
      rw [hout] at hsource
      obtain ⟨pre', cmd', mid, rfl, hlen, hmid⟩ := last_of_source hsource
      -- the two cuts of the run are at the same place
      rw [heq, List.append_assoc] at heq'
      obtain ⟨-, htail⟩ := List.append_inj heq' hlen.symm
      exact ⟨mid, rest, (List.cons.inj htail).2, hmid⟩
  · intro h pre cmd post heq hack htransmit
    obtain ⟨mid, rest, rfl, hmid⟩ := h pre cmd post heq hack htransmit
    obtain ⟨hsource, htx⟩ := source_of_last pre mid cmd hmid
    refine ⟨⟨_, _⟩, machine.mem_trace_iff.mpr ⟨pre ++ .command cmd :: mid, .transmit, rest,
      by simp [heq], List.mem_singleton.mpr rfl⟩, hsource, ?_⟩
    rw [PlcBridgeNode.transmit, packetAck_encode]
    exact htx.trans hack

/-- Two consecutive cycles of the manager publish an acknowledgement and the command after it; both
reach the bridge before its next transmission. -/
theorem ack_overwritten :
    let reset : List (Time × ManagerEvent) :=
      [(0, .status { error := 1 }), (1000000, .teleop { resetError := true })]
    let cycles := reset ++ [(20000000, .cycle)]
    let es : List BridgeEvent := [.command { ack := true }, .command {}, .transmit]
    (ArgusManagerNode.supervisorCycle {} ((ArgusManagerNode.machine {} 0).state reset)
      20000000).command = { ack := true } ∧
    (ArgusManagerNode.supervisorCycle {} ((ArgusManagerNode.machine {} 0).state cycles)
      40000000).command = {} ∧
    ¬ AcksCarried es := by
  intro reset cycles es
  refine ⟨by decide +kernel, by decide +kernel, fun h => ?_⟩
  obtain ⟨s, hs, -, hack⟩ := h [] { ack := true } [.command {}, .transmit] rfl rfl (by simp)
  have hnone : ∀ s ∈ sent es, packetAck s.packet = false := by decide +kernel
  rw [hnone s hs] at hack
  cases hack

end BridgeWire

end ArgusGate
