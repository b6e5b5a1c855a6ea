import ArgusGate.Manager.Node
import ArgusGate.PlcBridge.Reception

/-!
# The watchdog of the network loop

`network_loop` notes when it has last accepted a datagram, and in an iteration without one its watchdog
decides whether to warn that nothing comes from the PLC. Neither what it sends nor what it publishes depends
on that.
-/

namespace ArgusGate

open Reactive PlcBridgeNode

/-- The bridge with `last_rx_time_`. -/
structure NetworkLoop where
  node : PlcBridgeNode := {}
  lastRxTime : Time

namespace NetworkLoop

/-- `timeout_threshold_` on the clock's scale. -/
def timeoutThreshold : Time := 500 * 1000000

def checkWatchdog (lastTime now : Time) : Bool := decide (now - lastTime < timeoutThreshold)

/-- What the reception of an iteration leaves behind: the loop, the status it publishes, if any, and whether
it comes to the warning, of which no more than one in two seconds is logged. -/
structure Reception where
  loop : NetworkLoop
  status : Option PlcStatus
  warns : Bool

/-- The reception of `network_loop` at `now`. -/
def receive (l : NetworkLoop) (now : Time) (inRaw : RxBuffer) (pending : List (List UInt8)) :
    Reception :=
  match l.node.receive inRaw pending with
  | (node, some status) => { loop := { node, lastRxTime := now }, status := some status, warns := false }
  | (node, none) =>
    { loop := { l with node }, status := none, warns := !checkWatchdog l.lastRxTime now }

def handle (l : NetworkLoop) : Time × BridgeEvent → NetworkLoop
  | (now, .receive inRaw pending) => (l.receive now inRaw pending).loop
  | (_, e) => { l with node := l.node.handle e }

/-- The loop from the construction of the node at `start`. -/
def machine (start : Time) : Machine NetworkLoop (Time × BridgeEvent) :=
  { start := { lastRxTime := start }, step := handle }

theorem receive_eq (l : NetworkLoop) (now : Time) (inRaw : RxBuffer) (pending : List (List UInt8)) :
    l.receive now inRaw pending =
      { loop :=
          { node := (l.node.receive inRaw pending).1
            lastRxTime := if (received pending).isSome then now else l.lastRxTime }
        status := received pending
        warns := (received pending).isNone && !checkWatchdog l.lastRxTime now } := by
  rw [receive, PlcBridgeNode.receive_eq]
  cases received pending <;> rfl

/-- A datagram is accepted. -/
def accepted : BridgeEvent → Bool
  | .receive _ pending => (received pending).isSome
  | _ => false

/-- The loop keeps the time of the last datagram it has accepted. -/
theorem handle_lastRxTime (l : NetworkLoop) (now : Time) (e : BridgeEvent) :
    (l.handle (now, e)).lastRxTime = if accepted e then now else l.lastRxTime := by
  cases e with
  | receive inRaw pending => rw [handle, receive_eq, accepted]
  | _ => rfl

/-- Its node is the bridge without a clock. -/
theorem node_state (start : Time) (es : List (Time × BridgeEvent)) :
    ((machine start).state es).node = PlcBridgeNode.machine.state (es.map Prod.snd) := by
  induction es using List.reverseRecOn with
  | nil => rfl
  | append_singleton es e ih =>
    obtain ⟨now, e⟩ := e
    rw [List.map_append, List.map_singleton, Machine.state_concat, Machine.state_concat, ← ih]
    cases e with
    | receive inRaw pending =>
      simp only [machine, handle, receive_eq]
      rfl
    | _ => rfl

theorem warns_iff (l : NetworkLoop) (now : Time) (inRaw : RxBuffer) (pending : List (List UInt8)) :
    (l.receive now inRaw pending).warns = true ↔
      received pending = none ∧ l.lastRxTime + timeoutThreshold ≤ now := by
  rw [receive_eq]
  simp only [checkWatchdog, Bool.and_eq_true, Option.isNone_iff_eq_none, Bool.not_eq_true',
    decide_eq_false_iff_not, not_lt]
  exact and_congr_right' le_sub_iff_add_le'

end NetworkLoop

end ArgusGate
