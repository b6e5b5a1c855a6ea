import ArgusGate.Gui.Node

/-!
# The target that the GUI remembers

`publish_teleop` stores every argument it has, and all its callers but `send_follow_target` leave the
targets at their defaults. So the target survives the mode buttons and is lost with a jog or a reset;
the Follow button then sends (0, 0).
-/

namespace ArgusGate.FletGui

open Reactive

/-- The target stored for the next message. -/
def target (g : FletGui) : ℚ × ℚ := (g.node.targetPitch, g.node.targetYaw)

/-- The target of the last successful `send_follow_target`. -/
def sentTarget (es : List GuiEvent) : ℚ × ℚ :=
  (latest (fun | .sendTarget target => target | _ => none) es).getD (0, 0)

/-- A `send_follow_target` whose two fields hold numbers. -/
def Sends : GuiEvent → Prop
  | .sendTarget (some _) => True
  | _ => False

/-- The events that call `publish_teleop` without a target. -/
def DropsTarget (g : FletGui) : GuiEvent → Prop
  | .startJog _ _ | .stopJog | .resetError => True
  | .jogSpeedChange _ => g.activeJogPitch ≠ 0 ∨ g.activeJogYaw ≠ 0
  | _ => False

/-- Every event that dropped the target has been followed by a successful `send_follow_target`. -/
def TargetKept (es : List GuiEvent) : Prop :=
  ∀ pre e post, es = pre ++ e :: post → DropsTarget (machine.state pre) e → ∃ x ∈ post, Sends x

/-- In the run `es`, every message that asks for FOLLOW carries the target that was sent last. -/
def KeepsTarget (es : List GuiEvent) : Prop :=
  EachStep (fun pre e => ∀ msg, ((machine.state pre).handle e).teleop = some msg →
    msg.requestedMode = 3 → (msg.targetPitch, msg.targetYaw) = sentTarget pre) es

/-- What one event does to the target. -/
theorem step_target (g : FletGui) (e : GuiEvent) :
    (∃ sent, e = .sendTarget (some sent) ∧ (machine.step g e).target = sent) ∨
    (DropsTarget g e ∧ (machine.step g e).target = (0, 0)) ∨
    (¬ Sends e ∧ ¬ DropsTarget g e ∧ (machine.step g e).target = g.target) := by
  cases e with
  | startJog | stopJog | resetError => exact .inr (.inl ⟨trivial, rfl⟩)
  | jogSpeedChange value =>
    by_cases hactive : g.activeJogPitch ≠ 0 ∨ g.activeJogYaw ≠ 0
    · refine .inr (.inl ⟨hactive, ?_⟩)
      simp [machine, handle, onJogSpeedChange, hactive, publishJog, ManagerGuiNode.publishTeleop,
        target]
    · refine .inr (.inr ⟨id, hactive, ?_⟩)
      simp [machine, handle, onJogSpeedChange, hactive, target]
  | sendTarget sent =>
    cases sent with
    | none => exact .inr (.inr ⟨id, id, rfl⟩)
    | some sent => exact .inl ⟨sent, rfl, rfl⟩
  | idle | synch | jog | follow | publishLoop => exact .inr (.inr ⟨id, id, rfl⟩)

theorem sentTarget_of_not_sends {es : List GuiEvent} {e : GuiEvent} (h : ¬ Sends e) :
    sentTarget (es ++ [e]) = sentTarget es := by
  unfold sentTarget
  cases e with
  | sendTarget sent =>
    cases sent with
    | none => simp
    | some sent => exact absurd trivial h
  | _ => simp

theorem targetKept_concat {es : List GuiEvent} {e : GuiEvent} : TargetKept (es ++ [e]) ↔
    (TargetKept es ∨ Sends e) ∧ ¬ DropsTarget (machine.state es) e := by
  constructor
  · intro h
    constructor
    · by_cases hsend : Sends e
      · exact .inr hsend
      · refine .inl fun pre x post heq hdrops => ?_
        obtain ⟨y, hy, hsend'⟩ := h pre x (post ++ [e]) (by simp [heq]) hdrops
        rcases List.mem_append.mp hy with hy | hy
        · exact ⟨y, hy, hsend'⟩
        · rw [List.mem_singleton.mp hy] at hsend'
          exact absurd hsend' hsend
    · intro hdrops
      obtain ⟨y, hy, -⟩ := h es e [] rfl hdrops
      exact absurd hy List.not_mem_nil
  · rintro ⟨h, hkeep⟩ pre x post heq hdrops
    obtain ⟨rfl, rfl, -⟩ | ⟨rest, rfl, rfl⟩ := concat_eq_append_cons.mp heq
    · exact absurd hdrops hkeep
    · rcases h with h | hsend
      · obtain ⟨y, hy, hsend⟩ := h pre x rest rfl hdrops
        exact ⟨y, List.mem_append_left _ hy, hsend⟩
      · exact ⟨e, by simp, hsend⟩

/-- What the GUI remembers after the events `es`. -/
structure Remembers (es : List GuiEvent) (g : FletGui) : Prop where
  kept : TargetKept es → g.target = sentTarget es
  dropped : ¬ TargetKept es → g.target = (0, 0)

theorem remembers (es : List GuiEvent) : Remembers es (machine.state es) := by
  apply machine.history_rule (P := Remembers)
  · exact ⟨fun _ => rfl, fun _ => rfl⟩
  · intro es e ih
    obtain ⟨sent, rfl, htarget⟩ | ⟨hdrops, htarget⟩ | ⟨hsend, hkeep, htarget⟩ :=
      step_target (machine.state es) e
    · have hsend : Sends (.sendTarget (some sent)) := trivial
      refine ⟨fun _ => by simp [htarget, sentTarget], fun hlost => ?_⟩
      exact absurd (targetKept_concat.mpr ⟨.inr hsend, id⟩) hlost
    · refine ⟨fun hkept => ?_, fun _ => htarget⟩
      exact absurd hdrops (targetKept_concat.mp hkept).2
    · constructor
      · intro hkept
        rw [htarget, sentTarget_of_not_sends hsend]
        exact ih.kept ((targetKept_concat.mp hkept).1.resolve_right hsend)
      · intro hlost
        rw [htarget]
        exact ih.dropped fun hkept => hlost (targetKept_concat.mpr ⟨.inl hkept, hkeep⟩)

theorem target_eq_sentTarget_iff (es : List GuiEvent) :
    (machine.state es).target = sentTarget es ↔ TargetKept es ∨ sentTarget es = (0, 0) := by
  have h := remembers es
  by_cases hkept : TargetKept es
  · exact iff_of_true (h.kept hkept) (.inl hkept)
  · rw [h.dropped hkept, or_iff_right hkept, eq_comm]

theorem publishes_iff {g : FletGui} {e : GuiEvent} {msg : TeleopCommand} :
    (g.handle e).teleop = some msg ↔ e = .publishLoop ∧ g.node.publishLoop.2 = msg := by
  cases e <;> simp [handle, modeButton]

/-- The run keeps the target if and only if, whenever FOLLOW is about to be published, nothing has
dropped the target since it was sent, or the target is (0, 0) anyway. -/
theorem keepsTarget_iff (es : List GuiEvent) : KeepsTarget es ↔
    EachStep (fun pre e => e = .publishLoop → (machine.state pre).node.requestedMode = 3 →
      TargetKept pre ∨ sentTarget pre = (0, 0)) es := by
  apply eachStep_congr
  intro pre e
  rw [← target_eq_sentTarget_iff]
  constructor
  · intro h hloop hmode
    exact h _ (publishes_iff.mpr ⟨hloop, rfl⟩) hmode
  · intro h msg hmsg hmode
    obtain ⟨hloop, rfl⟩ := publishes_iff.mp hmsg
    exact h hloop hmode

/-- The user sends the target (1, 2), jogs and presses Follow. -/
theorem keepsTarget_jog_follow : ¬ KeepsTarget
    [.sendTarget (some (1, 2)), .publishLoop, .startJog 1 0, .stopJog, .follow, .publishLoop] := by
  intro h
  have hlast := h
    [.sendTarget (some (1, 2)), .publishLoop, .startJog 1 0, .stopJog, .follow] .publishLoop [] rfl
    { requestedMode := 3, executeAction := true } rfl rfl
  revert hlast
  decide +kernel

end ArgusGate.FletGui
