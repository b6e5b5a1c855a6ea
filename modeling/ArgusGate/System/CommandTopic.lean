import ArgusGate.Gui.Node
import ArgusGate.Manager.Interlock

/-!
# The publishers of `plc_command`

The manager and the GUI both publish on `plc_command`. Every command of the manager is gated by the
PLC watchdog and the reported error; the mode buttons of the GUI publish past that gate.
-/

namespace ArgusGate

open Reactive ArgusManagerNode

/-- The two nodes that publish on `plc_command`. -/
structure Publishers where
  gui : FletGui := {}
  manager : ArgusManagerNode

/-- Teleop and status messages reach the manager from anywhere, the GUI included. -/
inductive PublisherEvent where
  | gui (e : GuiEvent)
  | teleop (msg : TeleopCommand)
  | status (msg : PlcStatus)
  | cycle

namespace Publishers

def handle (p : ManagerParams) (σ : Publishers) : Time × PublisherEvent → Publishers
  | (_, .gui e) => { σ with gui := (σ.gui.handle e).gui }
  | (now, .teleop msg) => { σ with manager := σ.manager.onTeleopReceived msg now }
  | (now, .status msg) => { σ with manager := σ.manager.onStatusReceived msg now }
  | (now, .cycle) => { σ with manager := (supervisorCycle p σ.manager now).node }

def machine (p : ManagerParams) (t₀ : Time) : Machine Publishers (Time × PublisherEvent) :=
  { start := { manager := ArgusManagerNode.construct t₀ }, step := handle p }

/-- What a step publishes on `plc_command`. -/
def published (p : ManagerParams) (σ : Publishers) : Time × PublisherEvent → Option PlcCommand
  | (_, .gui e) => (σ.gui.handle e).command
  | (now, .cycle) => some (supervisorCycle p σ.manager now).command
  | _ => none

/-- The callbacks of the manager in a run. -/
def managerRun (es : List (Time × PublisherEvent)) : List (Time × ManagerEvent) :=
  es.filterMap fun
    | (_, .gui _) => none
    | (now, .teleop msg) => some (now, .teleop msg)
    | (now, .status msg) => some (now, .status msg)
    | (now, .cycle) => some (now, .cycle)

theorem manager_state (p : ManagerParams) (t₀ : Time) (es : List (Time × PublisherEvent)) :
    ((machine p t₀).state es).manager = (ArgusManagerNode.machine p t₀).state (managerRun es) := by
  apply Machine.view_state_filterMap
  · rfl
  · rintro σ ⟨now, e⟩
    cases e <;> rfl

/-- The interlock of the manager at `now`: the last PLC status it received is fresh and reports no
error; before the first one, the manager has not been up for `watchdog_timeout`. -/
def InterlockOpen (p : ManagerParams) (t₀ : Time) (es : List (Time × PublisherEvent))
    (now : Time) : Prop :=
  PlcFresh p t₀ (managerRun es) now ∧ NoError (managerRun es)

/-- Every driving command of the run was published with the interlock open. -/
def AllGated (p : ManagerParams) (t₀ : Time) (es : List (Time × PublisherEvent)) : Prop :=
  EachStep (fun pre e => ∀ cmd, published p ((machine p t₀).state pre) e = some cmd →
    cmd.drives = true → InterlockOpen p t₀ pre e.1) es

/-- The Synch and Follow buttons are pressed only while the interlock is open. -/
def ButtonsGated (p : ManagerParams) (t₀ : Time) (es : List (Time × PublisherEvent)) : Prop :=
  EachStep (fun pre e => e.2 = .gui .synch ∨ e.2 = .gui .follow → InterlockOpen p t₀ pre e.1) es

/-- The manager's own commands are gated in every run. -/
theorem cycle_gated {p : ManagerParams} {t₀ now : Time} {es : List (Time × PublisherEvent)}
    (h : (supervisorCycle p ((machine p t₀).state es).manager now).command.drives = true) :
    InterlockOpen p t₀ es now := by
  rw [manager_state] at h
  obtain ⟨hplc, -, herr, -⟩ := healthy_of_drives _ _ _ h
  exact ⟨plcFresh_of_alive hplc, noError_of_status herr⟩

/-- A run is gated exactly if its Synch and Follow presses are. -/
theorem allGated_iff (p : ManagerParams) (t₀ : Time) (es : List (Time × PublisherEvent)) :
    AllGated p t₀ es ↔ ButtonsGated p t₀ es := by
  constructor
  · intro h pre e post heq hbutton
    obtain ⟨now, e⟩ := e
    have hgui : ∀ g, e = .gui g → (g = .synch ∨ g = .follow) → InterlockOpen p t₀ pre now := by
      rintro g rfl hg
      obtain ⟨cmd, hcmd, hdrives⟩ :=
        (FletGui.drives_iff ((machine p t₀).state pre).gui g).mpr hg
      exact h pre (now, .gui g) post heq cmd hcmd hdrives
    rcases hbutton with hsynch | hfollow
    · exact hgui .synch hsynch (.inl rfl)
    · exact hgui .follow hfollow (.inr rfl)
  · intro h pre e post heq cmd hcmd hdrives
    obtain ⟨now, e⟩ := e
    cases e with
    | gui g =>
      have hg := (FletGui.drives_iff ((machine p t₀).state pre).gui g).mp ⟨cmd, hcmd, hdrives⟩
      apply h pre (now, .gui g) post heq
      rcases hg with rfl | rfl
      · exact .inl rfl
      · exact .inr rfl
    | teleop msg => cases hcmd
    | status msg => cases hcmd
    | cycle =>
      obtain rfl := Option.some.inj hcmd
      exact cycle_gated hdrives

/-- The PLC has reported an error, and the user presses Synch. -/
theorem synch_button_ungated :
    let es : List (Time × PublisherEvent) :=
      [(0, .status { error := 1 }), (1000000, .gui .synch)]
    published {} ((machine {} 0).state [(0, .status { error := 1 })]) (1000000, .gui .synch) =
      some { mode := 1, exec := true } ∧ ¬ AllGated {} 0 es := by
  intro es
  refine ⟨by decide +kernel, fun h => ?_⟩
  have hopen := h [(0, .status { error := 1 })] (1000000, .gui .synch) [] rfl
    { mode := 1, exec := true } (by decide +kernel) (by decide)
  exact absurd (hopen.2 0 { error := 1 } rfl) (by decide)

end Publishers

end ArgusGate
