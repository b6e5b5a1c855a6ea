import ArgusGate.Gui.Node
import ArgusGate.Manager.Acknowledge

/-!
# Operator resets between teleop and manager

A front end sends a reset as a pulse in one teleop message, on its own timer. The manager samples
the last message once a cycle, so a pulse can come and go between two cycles.
-/

namespace ArgusGate.ArgusManagerNode

open Reactive EdgeDetector

variable (p : ManagerParams) (t₀ : Time)

/-- A cycle at `now` finds both links alive and an error in the last status. -/
def Alarmed (m : ArgusManagerNode) (now : Time) : Prop :=
  plcAlive p m now = true ∧ teleopAlive p m now = true ∧ m.lastStatus.error ≠ 0

instance (m : ArgusManagerNode) (now : Time) : Decidable (Alarmed p m now) :=
  inferInstanceAs (Decidable (_ ∧ _))

/-- The teleop message `msg`, received after `pre`, is a rising edge of `reset_error`; the first
cycle after it comes at `now`, after the callbacks `mid`, and is alarmed. -/
structure ResetEdge (pre : List (Time × ManagerEvent)) (t : Time) (msg : TeleopCommand)
    (mid : List (Time × ManagerEvent)) (now : Time) : Prop where
  down : level (resets pre) = false
  up : msg.resetError = true
  first : ∀ u, (u, ManagerEvent.cycle) ∉ mid
  alarmed : Alarmed p ((machine p t₀).state (pre ++ (t, .teleop msg) :: mid)) now

/-- Every rising edge of the run is acknowledged by the first cycle after it. -/
def ResetsAcked (es : List (Time × ManagerEvent)) : Prop :=
  ∀ pre t msg mid now post, es = pre ++ (t, .teleop msg) :: mid ++ (now, .cycle) :: post →
    ResetEdge p t₀ pre t msg mid now →
    (supervisorCycle p ((machine p t₀).state (pre ++ (t, .teleop msg) :: mid)) now).command.ack =
      true

/-- Every rising edge of the run is still up at the first cycle after it, and the last cycle before
it, if any, saw the flag down. -/
def ResetsSampled (es : List (Time × ManagerEvent)) : Prop :=
  ∀ pre t msg mid now post, es = pre ++ (t, .teleop msg) :: mid ++ (now, .cycle) :: post →
    ResetEdge p t₀ pre t msg mid now →
    level (resets (pre ++ (t, .teleop msg) :: mid)) = true ∧
    ∀ pre' u mid', pre = pre' ++ (u, .cycle) :: mid' → (∀ v, (v, ManagerEvent.cycle) ∉ mid') →
      level (resets pre') = false

variable {p t₀} {pre mid : List (Time × ManagerEvent)} {t now : Time} {msg : TeleopCommand}

/-- Until the next cycle the manager remembers what the last one saw. -/
theorem lastResetError_keep (h : ∀ u, (u, ManagerEvent.cycle) ∉ mid) :
    ((machine p t₀).state (pre ++ mid)).lastResetError =
      ((machine p t₀).state pre).lastResetError := by
  induction mid using List.reverseRecOn with
  | nil => simp
  | append_singleton mid e ih =>
    obtain ⟨u, e⟩ := e
    have hkeep := ih (fun v hv => h v (by simp [hv]))
    rw [← List.append_assoc, Machine.state_concat, ← hkeep]
    cases e with
    | teleop msg => rfl
    | status msg => rfl
    | cycle => exact absurd (by simp) (h u)

/-- An edge is acknowledged exactly if it is still up and the cycle before it saw the flag down. -/
theorem ack_of_resetEdge (h : ResetEdge p t₀ pre t msg mid now) :
    (supervisorCycle p ((machine p t₀).state (pre ++ (t, .teleop msg) :: mid)) now).command.ack =
      true ↔
    level (resets (pre ++ (t, .teleop msg) :: mid)) = true ∧
      ((machine p t₀).state pre).lastResetError = false := by
  obtain ⟨hplc, hteleop, herr⟩ := h.alarmed
  have hlevel := congrArg Detector.value (reset_state p t₀ (pre ++ (t, .teleop msg) :: mid))
  rw [state_value, values_resetEvent] at hlevel
  have hkeep : ((machine p t₀).state (pre ++ (t, .teleop msg) :: mid)).lastResetError =
      ((machine p t₀).state pre).lastResetError := by
    apply lastResetError_keep
    intro u hu
    rcases List.mem_cons.mp hu with heq | hmem
    · cases heq
    · exact h.first u hmem
  rw [command_ack_iff, ← hlevel, ← hkeep]
  simp [hplc, hteleop, herr, detectAckEdge]

/-- No reset of a run is lost exactly if every one is sampled. -/
theorem resetsAcked_iff (p : ManagerParams) (t₀ : Time) (es : List (Time × ManagerEvent)) :
    ResetsAcked p t₀ es ↔ ResetsSampled p t₀ es := by
  constructor
  · intro h pre t msg mid now post heq hedge
    have hack := (ack_of_resetEdge hedge).mp (h pre t msg mid now post heq hedge)
    exact ⟨hack.1, (lastResetError_eq_false_iff p t₀ pre).mp hack.2⟩
  · intro h pre t msg mid now post heq hedge
    obtain ⟨hup, hdown⟩ := h pre t msg mid now post heq hedge
    exact (ack_of_resetEdge hedge).mpr ⟨hup, (lastResetError_eq_false_iff p t₀ pre).mpr hdown⟩

/-- The user presses the reset button, and two messages of the GUI reach the manager between two of
its cycles: the pulse and its end. -/
theorem pulse_between_cycles :
    let pulse : TeleopCommand := { resetError := true }
    let es : List (Time × ManagerEvent) :=
      [(0, .status { error := 1 }), (1000000, .teleop {}), (20000000, .cycle),
        (21000000, .teleop pulse), (39000000, .teleop {}), (40000000, .cycle)]
    FletGui.teleops [.publishLoop, .resetError, .publishLoop, .publishLoop] = [{}, pulse, {}] ∧
    EachStep (fun pre e => e.2 = .cycle → Alarmed {} ((machine {} 0).state pre) e.1) es ∧
    ¬ ResetsAcked {} 0 es := by
  intro pulse es
  refine ⟨by decide +kernel, by decide +kernel, fun h => ?_⟩
  have hedge : ResetEdge {} 0
      [(0, .status { error := 1 }), (1000000, .teleop {}), (20000000, .cycle)] 21000000 pulse
      [(39000000, .teleop {})] 40000000 :=
    ⟨by decide, rfl, by simp, by decide +kernel⟩
  have hack := h _ _ _ _ _ [] rfl hedge
  revert hack
  decide +kernel

end ArgusGate.ArgusManagerNode
