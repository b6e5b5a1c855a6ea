import ArgusGate.Foundation.Reactive
import ArgusGate.Manager.Cycle

/-!
# Timed runs of the manager

A run of the manager from its construction at `t₀` is a list of timed callbacks in any order.
`latestTeleop` and `latestStatus` read the last received message and its receive time off the
run itself; `tracks` says that the node's members hold just that, with the construction time and
the default messages standing in before the first reception.
-/

namespace ArgusGate

open Reactive

/-- The callbacks of the manager. -/
inductive ManagerEvent where
  | teleop (msg : TeleopCommand)
  | status (msg : PlcStatus)
  | cycle
  deriving DecidableEq

namespace ArgusManagerNode

/-- One callback at the given clock reading. -/
def handle (p : ManagerParams) (m : ArgusManagerNode) : Time × ManagerEvent → ArgusManagerNode
  | (now, .teleop msg) => m.onTeleopReceived msg now
  | (now, .status msg) => m.onStatusReceived msg now
  | (now, .cycle) => (supervisorCycle p m now).node

/-- The manager constructed at `t₀`. -/
def machine (p : ManagerParams) (t₀ : Time) : Machine ArgusManagerNode (Time × ManagerEvent) :=
  { start := construct t₀, step := handle p }

/-- The last teleop message of the run, with its receive time. -/
def latestTeleop (es : List (Time × ManagerEvent)) : Option (Time × TeleopCommand) :=
  latest (fun | (t, .teleop msg) => some (t, msg) | _ => none) es

/-- The last PLC status of the run, with its receive time. -/
def latestStatus (es : List (Time × ManagerEvent)) : Option (Time × PlcStatus) :=
  latest (fun | (t, .status msg) => some (t, msg) | _ => none) es

@[simp] theorem latestTeleop_nil : latestTeleop [] = none := rfl
@[simp] theorem latestStatus_nil : latestStatus [] = none := rfl

@[simp] theorem latestTeleop_concat (es : List (Time × ManagerEvent)) (t : Time)
    (e : ManagerEvent) : latestTeleop (es ++ [(t, e)]) =
      match e with | .teleop msg => some (t, msg) | _ => latestTeleop es := by
  cases e <;> simp [latestTeleop]

@[simp] theorem latestStatus_concat (es : List (Time × ManagerEvent)) (t : Time)
    (e : ManagerEvent) : latestStatus (es ++ [(t, e)]) =
      match e with | .status msg => some (t, msg) | _ => latestStatus es := by
  cases e <;> simp [latestStatus]

theorem mem_of_latestTeleop {es : List (Time × ManagerEvent)} {t : Time} {msg : TeleopCommand}
    (h : latestTeleop es = some (t, msg)) : (t, .teleop msg) ∈ es := by
  obtain ⟨⟨u, e⟩, hmem, he⟩ := exists_of_latest h
  cases e <;> simp at he
  obtain ⟨rfl, rfl⟩ := he
  exact hmem

/-- The node's stored messages and receive times are those of the run. -/
structure Tracks (t₀ : Time) (es : List (Time × ManagerEvent)) (m : ArgusManagerNode) : Prop where
  teleopTime : m.lastTeleopTime = ((latestTeleop es).map Prod.fst).getD t₀
  teleopCmd : m.lastTeleopCmd = ((latestTeleop es).map Prod.snd).getD {}
  statusTime : m.lastStatusTime = ((latestStatus es).map Prod.fst).getD t₀
  status : m.lastStatus = ((latestStatus es).map Prod.snd).getD {}

theorem tracks (p : ManagerParams) (t₀ : Time) (es : List (Time × ManagerEvent)) :
    Tracks t₀ es ((machine p t₀).state es) := by
  apply (machine p t₀).history_rule (P := Tracks t₀)
  · exact ⟨rfl, rfl, rfl, rfl⟩
  · rintro es ⟨t, e⟩ ih
    cases e with
    | teleop msg => exact ⟨by simp [machine, handle, onTeleopReceived],
        by simp [machine, handle, onTeleopReceived],
        by simpa [machine, handle, onTeleopReceived] using ih.statusTime,
        by simpa [machine, handle, onTeleopReceived] using ih.status⟩
    | status msg => exact ⟨by simpa [machine, handle, onStatusReceived] using ih.teleopTime,
        by simpa [machine, handle, onStatusReceived] using ih.teleopCmd,
        by simp [machine, handle, onStatusReceived],
        by simp [machine, handle, onStatusReceived]⟩
    | cycle => exact ⟨by simpa [machine, handle] using ih.teleopTime,
        by simpa [machine, handle] using ih.teleopCmd,
        by simpa [machine, handle] using ih.statusTime,
        by simpa [machine, handle] using ih.status⟩

end ArgusManagerNode

end ArgusGate
