import ArgusGate.Gui.Node
import Mathlib.Tactic.Ring

/-!
# What the jog buttons leave in the message

`start_jog` and `stop_jog` remember the direction of the button that is held, and `publish_jog` stores
it, scaled by the slider. A target or a reset stores zero speeds past the button; the slider stores the
speeds again as long as the button is held. No event leaves a speed behind that is not the held one.
-/

namespace ArgusGate.FletGui

open Reactive

/-- The direction of the jog button that is held after the events `es`. -/
def heldJog (es : List GuiEvent) : ℚ × ℚ :=
  (latest (fun | .startJog pitch yaw => some (pitch, yaw) | .stopJog => some (0, 0) | _ => none)
    es).getD (0, 0)

/-- The speed the slider stands at. -/
def slider (es : List GuiEvent) : ℚ :=
  (latest (fun | .jogSpeedChange value => some value | _ => none) es).getD (4 / 5)

/-- A direction is held only after its button has been pushed. -/
theorem startJog_mem_of_heldJog {es : List GuiEvent} (h : heldJog es ≠ (0, 0)) :
    .startJog (heldJog es).1 (heldJog es).2 ∈ es := by
  induction es using List.reverseRecOn with
  | nil => exact absurd rfl h
  | append_singleton es e ih =>
    cases e with
    | startJog pitch yaw => simp [heldJog]
    | stopJog => exact absurd (by simp [heldJog]) h
    | _ =>
      have hbefore := ih (by simpa [heldJog] using h)
      simpa [heldJog] using hbefore

/-- The speeds of the next message are 0 or those of the button that is held. -/
structure HoldsJog (es : List GuiEvent) (g : FletGui) : Prop where
  active : (g.activeJogPitch, g.activeJogYaw) = heldJog es
  jogSpeed : g.jogSpeed = slider es
  speeds : (g.node.pitchSpeed = 0 ∧ g.node.yawSpeed = 0) ∨
    (g.node.pitchSpeed = g.activeJogPitch * g.jogSpeed ∧
      g.node.yawSpeed = g.activeJogYaw * g.jogSpeed)

/-- The slider stores new speeds while a button is held; else there are none to store. -/
theorem holdsJog_jogSpeedChange {es : List GuiEvent} {g : FletGui} (h : HoldsJog es g) (value : ℚ) :
    HoldsJog (es ++ [.jogSpeedChange value]) (g.onJogSpeedChange value) := by
  have hactive : heldJog (es ++ [.jogSpeedChange value]) = heldJog es := by simp [heldJog]
  have hslider : slider (es ++ [.jogSpeedChange value]) = value := by simp [slider]
  simp only [onJogSpeedChange]
  split_ifs with hheld
  · refine ⟨?_, ?_, .inr ⟨rfl, rfl⟩⟩
    · rw [hactive]
      exact h.active
    · rw [hslider]
      rfl
  · obtain ⟨hpitch, hyaw⟩ : g.activeJogPitch = 0 ∧ g.activeJogYaw = 0 := by simpa using hheld
    refine ⟨?_, ?_, .inl ?_⟩
    · rw [hactive]
      exact h.active
    · exact hslider.symm
    · have hspeeds := h.speeds
      rw [hpitch, hyaw, zero_mul, or_self] at hspeeds
      exact hspeeds

theorem holdsJog (es : List GuiEvent) : HoldsJog es (machine.state es) := by
  apply machine.history_rule (P := HoldsJog)
  · exact ⟨rfl, rfl, .inl ⟨rfl, rfl⟩⟩
  · intro es e ih
    cases e with
    | startJog pitch yaw =>
      refine ⟨?_, ih.jogSpeed.trans (by simp [slider]), .inr ⟨rfl, rfl⟩⟩
      simp [machine, handle, startJog, publishJog, heldJog]
    | stopJog =>
      refine ⟨?_, ih.jogSpeed.trans (by simp [slider]), .inl ⟨rfl, rfl⟩⟩
      simp [machine, handle, stopJog, heldJog]
    | jogSpeedChange value => exact holdsJog_jogSpeedChange ih value
    | sendTarget target =>
      have hheld : heldJog es = heldJog (es ++ [.sendTarget target]) := by simp [heldJog]
      have hslider : slider es = slider (es ++ [.sendTarget target]) := by simp [slider]
      cases target with
      | none => exact ⟨ih.active.trans hheld, ih.jogSpeed.trans hslider, ih.speeds⟩
      | some target => exact ⟨ih.active.trans hheld, ih.jogSpeed.trans hslider, .inl ⟨rfl, rfl⟩⟩
    | resetError =>
      exact ⟨ih.active.trans (by simp [heldJog]), ih.jogSpeed.trans (by simp [slider]),
        .inl ⟨rfl, rfl⟩⟩
    | _ =>
      exact ⟨ih.active.trans (by simp [heldJog]), ih.jogSpeed.trans (by simp [slider]), ih.speeds⟩

end ArgusGate.FletGui
