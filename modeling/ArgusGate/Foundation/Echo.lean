import ArgusGate.Foundation.Reactive
import Mathlib.Data.List.Infix
import Mathlib.Data.Nat.Basic

/-!
# Echoed counters

Two parties exchange a counter over two channels that may lose messages but keep their order. One
of them answers with the number it has received last plus one; the other echoes the number it has
received last. Round the whole ring, from the answering party to the echoing one and back, the
numbers never decrease and never get ahead of the answering party by more than one; so each party
only ever sees its counter stand still or go up by one.
-/

namespace Echo

/-- The answering party holds `last`, the echoing one `echo`. Messages in flight, oldest first:
`down` to the answering party, `up` to the echoing one. -/
structure Ring where
  last : ℕ := 0
  down : List ℕ := []
  echo : ℕ := 0
  up : List ℕ := []

inductive Event where
  | sendDown
  | receiveDown
  | sendUp
  /-- The echoing party takes `n` messages at once and keeps the newest. -/
  | receiveUp (n : ℕ)
  | loseDown (i : ℕ)
  | loseUp (i : ℕ)

namespace Ring

def step (r : Ring) : Event → Ring
  | .sendDown => { r with down := r.down ++ [r.echo] }
  | .receiveDown =>
    match r.down with
    | [] => r
    | x :: down => { r with last := x, down := down }
  | .sendUp => { r with up := r.up ++ [r.last + 1] }
  | .receiveUp n => { r with echo := (r.up.take n).getLast?.getD r.echo, up := r.up.drop n }
  | .loseDown i => { r with down := r.down.eraseIdx i }
  | .loseUp i => { r with up := r.up.eraseIdx i }

/-- All numbers of the ring, in the order in which they follow each other. -/
def around (r : Ring) : List ℕ := r.last :: r.down ++ r.echo :: r.up

structure Inv (r : Ring) : Prop where
  sorted : r.around.Pairwise (· ≤ ·)
  bounded : ∀ v ∈ r.around, v ≤ r.last + 1

variable {r : Ring}

theorem inv_start : Inv {} where
  sorted := by simp [around]
  bounded := by simp [around]

/-- Losing numbers, or passing some over, keeps the order. -/
theorem Inv.of_sublist {r' : Ring} (h : Inv r) (hlast : r'.last = r.last)
    (hsub : r'.around.Sublist r.around) : Inv r' where
  sorted := h.sorted.sublist hsub
  bounded v hv := by
    rw [hlast]
    exact h.bounded v (hsub.subset hv)

theorem inv_sendDown (h : Inv r) : Inv (r.step .sendDown) := by
  have haround : (r.step .sendDown).around = (r.last :: r.down) ++ r.echo :: r.echo :: r.up := by
    simp [step, around]
  have hsorted := h.sorted
  rw [around, List.pairwise_append] at hsorted
  obtain ⟨hdown, hup, hcross⟩ := hsorted
  refine ⟨?_, ?_⟩
  · -- the echo is sent behind everything that is already on its way down
    rw [haround, List.pairwise_append]
    refine ⟨hdown, List.pairwise_cons.mpr ⟨?_, hup⟩, ?_⟩
    · intro v hv
      rcases List.mem_cons.mp hv with rfl | hv
      · exact le_rfl
      · exact List.rel_of_pairwise_cons hup hv
    · intro v hv w hw
      rcases List.mem_cons.mp hw with rfl | hw
      · exact hcross v hv r.echo (by simp)
      · exact hcross v hv w hw
  · intro v hv
    apply h.bounded v
    rw [haround] at hv
    simpa [around, or_assoc] using hv

theorem inv_receiveDown (h : Inv r) : Inv (r.step .receiveDown) := by
  cases hdown : r.down with
  | nil =>
    have hstay : r.step .receiveDown = r := by simp [step, hdown]
    rw [hstay]
    exact h
  | cons x down =>
    have hstep : r.step .receiveDown = { r with last := x, down := down } := by
      simp [step, hdown]
    have haround : r.around = r.last :: (r.step .receiveDown).around := by
      simp [around, hstep, hdown]
    have hsorted := h.sorted
    rw [haround, List.pairwise_cons] at hsorted
    refine ⟨hsorted.2, ?_⟩
    intro v hv
    have hle : r.last ≤ x := hsorted.1 x (by simp [around, hstep])
    have hv' : v ≤ r.last + 1 := h.bounded v (by simp [haround, hv])
    rw [hstep]
    exact hv'.trans (Nat.succ_le_succ hle)

theorem inv_sendUp (h : Inv r) : Inv (r.step .sendUp) := by
  have haround : (r.step .sendUp).around = r.around ++ [r.last + 1] := by
    simp [step, around]
  refine ⟨?_, ?_⟩
  · rw [haround, List.pairwise_append]
    refine ⟨h.sorted, List.pairwise_singleton _ _, ?_⟩
    intro v hv w hw
    rw [List.mem_singleton.mp hw]
    exact h.bounded v hv
  · intro v hv
    rw [haround, List.mem_append, List.mem_singleton] at hv
    rcases hv with hv | rfl
    · exact h.bounded v hv
    · exact le_rfl

theorem inv_receiveUp (h : Inv r) (n : ℕ) : Inv (r.step (.receiveUp n)) := by
  have hup : r.up = r.up.take n ++ r.up.drop n := (List.take_append_drop n r.up).symm
  have hkeep : [(r.up.take n).getLast?.getD r.echo].Sublist (r.echo :: r.up.take n) := by
    rw [List.singleton_sublist]
    cases hlast : (r.up.take n).getLast? with
    | none => simp
    | some v => exact List.mem_cons_of_mem _ (List.mem_of_getLast? hlast)
  have htail : ((r.up.take n).getLast?.getD r.echo :: r.up.drop n).Sublist (r.echo :: r.up) := by
    conv => rhs; rw [hup]
    exact hkeep.append (List.Sublist.refl (r.up.drop n))
  have hsub : (r.step (.receiveUp n)).around.Sublist r.around :=
    (List.Sublist.refl (r.last :: r.down)).append htail
  exact h.of_sublist rfl hsub

theorem inv_step (h : Inv r) (e : Event) : Inv (r.step e) := by
  cases e with
  | sendDown => exact inv_sendDown h
  | receiveDown => exact inv_receiveDown h
  | sendUp => exact inv_sendUp h
  | receiveUp n => exact inv_receiveUp h n
  | loseDown i =>
    exact h.of_sublist rfl (((List.eraseIdx_sublist r.down i).cons_cons r.last).append
      (List.Sublist.refl _))
  | loseUp i =>
    exact h.of_sublist rfl ((List.Sublist.refl (r.last :: r.down)).append
      ((List.eraseIdx_sublist r.up i).cons_cons r.echo))

/-- The echo is the number the answering party has received last, or one ahead. -/
theorem Inv.echo (h : Inv r) : r.echo = r.last ∨ r.echo = r.last + 1 := by
  have hle : r.last ≤ r.echo := by
    have hsorted := h.sorted
    rw [around, List.cons_append, List.pairwise_cons] at hsorted
    exact hsorted.1 r.echo (by simp)
  have hge : r.echo ≤ r.last + 1 := h.bounded r.echo (by simp [around])
  omega

/-- What is on its way up is the echo, or one ahead. -/
theorem Inv.up (h : Inv r) {v : ℕ} (hv : v ∈ r.up) : v = r.echo ∨ v = r.echo + 1 := by
  have hle : r.echo ≤ v := by
    have hsorted := h.sorted
    rw [around, List.pairwise_append] at hsorted
    exact List.rel_of_pairwise_cons hsorted.2.1 hv
  have hge : v ≤ r.last + 1 := h.bounded v (by simp [around, hv])
  rcases h.echo with hecho | hecho <;> omega

end Ring

/-- Both parties start at 0, with nothing in flight. -/
def machine : Reactive.Machine Ring Event where
  start := {}
  step := Ring.step

theorem inv (es : List Event) : (machine.state es).Inv := by
  apply machine.history_rule (P := fun _ r => r.Inv) Ring.inv_start
  intro es e ih
  exact Ring.inv_step ih e

end Echo
