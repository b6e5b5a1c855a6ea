import ArgusGate.PlcSim.Gate
import ArgusGate.System.Graph

/-!
# The abstract gate in the place of the simulator

A plant that refines another one can be replaced by it in the graph: nothing on the operator's side nor on
the topics depends on which of the two is there. So whatever the graph does with the simulator, it does
with the abstract gate.
-/

namespace ArgusGate

open Reactive PlcSimNode

variable {ρ τ ι : Type}

/-- The plant `P` does what `N` does, up to `R`. -/
structure Plant.Refines (P : Plant ρ ι) (N : Plant τ ι) (R : ρ → τ → Prop) : Prop where
  start : R P.start N.start
  command : ∀ s t msg, R s t → R (P.command s msg) (N.command t msg)
  run : ∀ s t i, R s t → R (P.run s i).1 (N.run t i).1 ∧ (P.run s i).2 = (N.run t i).2

/-- The abstract gate, whose timer ticks. -/
def gatePlant (q : PlcSimParams) : Plant Gate Unit where
  start := .construct q
  command := Gate.obey q
  run g _ := g.tick q

theorem simPlant_refines (q : PlcSimParams) :
    (simPlant q).Refines (gatePlant q) fun s g => s.gate q = g ∧ s.state ≠ .stop where
  start := ⟨rfl, by simp [PlcSimNode.construct]⟩
  command s g msg := by
    rintro ⟨rfl, -⟩
    exact ⟨gate_command q s msg, commandCallback_ne_stop s msg⟩
  run s g u := by
    rintro ⟨rfl, hne⟩
    obtain ⟨hgate, hstatus⟩ := gate_tick q hne
    refine ⟨⟨hgate, fun hstop => ?_⟩, hstatus⟩
    exact hne (tick_moving hstop (by simp))

namespace Graph

/-- Two graphs that only differ in what `R` relates. -/
structure Alike (R : ρ → τ → Prop) (σ : Graph ρ) (σ' : Graph τ) : Prop where
  console : σ.console = σ'.console
  plant : R σ.plant σ'.plant
  plcCommand : σ.plcCommand = σ'.plcCommand
  plcStatus : σ.plcStatus = σ'.plcStatus

variable {P : Plant ρ ι} {N : Plant τ ι} {R : ρ → τ → Prop} {σ : Graph ρ} {σ' : Graph τ}

theorem alike_handle (hrefines : P.Refines N R) (c : Setup) (h : Alike R σ σ')
    (e : Time × GraphEvent ι) : Alike R (σ.handle c P e) (σ'.handle c N e) := by
  obtain ⟨now, e⟩ := e
  cases e with
  | station e =>
    refine ⟨?_, h.plant, ?_, h.plcStatus⟩
    · simp only [handle, h.console]
    · simp only [handle, h.console, h.plcCommand]
  | deliverCommand =>
    simp only [handle, deliverCommand, ← h.plcCommand]
    cases σ.plcCommand.next? with
    | none => exact h
    | some m => exact ⟨h.console, hrefines.command _ _ _ h.plant, rfl, h.plcStatus⟩
  | loseCommand =>
    refine ⟨h.console, h.plant, ?_, h.plcStatus⟩
    simp only [handle, h.plcCommand]
  | run i =>
    obtain ⟨hplant, hout⟩ := hrefines.run _ _ i h.plant
    refine ⟨h.console, hplant, h.plcCommand, ?_⟩
    simp only [handle, hout, h.plcStatus]
  | deliverStatus =>
    simp only [handle, deliverStatus, ← h.plcStatus]
    cases σ.plcStatus.next? with
    | none => exact h
    | some m =>
      refine ⟨?_, h.plant, h.plcCommand, rfl⟩
      simp only [h.console]
  | loseStatus =>
    refine ⟨h.console, h.plant, h.plcCommand, ?_⟩
    simp only [handle, h.plcStatus]

/-- Refinement is a congruence for the graph. -/
theorem alike (hrefines : P.Refines N R) (c : Setup) (es : List (Time × GraphEvent ι)) :
    Alike R ((machine c P).state es) ((machine c N).state es) := by
  apply (machine c P).history_rule (P := fun es σ => Alike R σ ((machine c N).state es))
  · exact ⟨rfl, hrefines.start, rfl, rfl⟩
  · intro es e ih
    rw [Machine.state_concat]
    exact alike_handle hrefines c ih e

/-- Nobody can tell the simulator from the abstract gate. In every run of the graph, with whatever is
delivered or lost, the operator's side and both topics are the same with the one and with the other. -/
theorem gate_substitution (c : Setup) (es : List (Time × GraphEvent Unit)) :
    let σ := (simMachine c).state es
    let σ' := (machine c (gatePlant c.sim)).state es
    σ.console = σ'.console ∧ σ.plcCommand = σ'.plcCommand ∧ σ.plcStatus = σ'.plcStatus ∧
      σ.plant.gate c.sim = σ'.plant := by
  intro σ σ'
  have h := alike (simPlant_refines c.sim) c es
  exact ⟨h.console, h.plcCommand, h.plcStatus, h.plant.1⟩

end Graph

end ArgusGate
