import ArgusGate.PlcSim.Motion
import ArgusGate.System.Homing

/-!
# Homing left alone

One SYNCH command and no further one. The sequencer brings in the pitch axis, then the yaw axis, each
with one tick more than it needs to move, and reports with a last tick of its own.
-/

namespace ArgusGate.PlcSimNode

open Approach

variable {q : PlcSimParams} {s σ : PlcSimNode} {n : ℕ}

theorem arrivalCall_zero (x : ℚ) : arrivalCall q x 0 = axisTicks q x + 1 := by
  rw [arrivalCall_eq, sub_zero, axisTicks]

/-- Which step the sequencer is at after `n` ticks, if the two axes arrive with the ticks number `a`
and `a + b`. -/
inductive HomingPhase (a b n : ℕ) (σ : PlcSimNode) : Prop where
  | pitch (state : σ.state = .synch) (step : σ.syncStep = 0) (lt : n < a)
  | yaw (state : σ.state = .synch) (step : σ.syncStep = 1) (le : a ≤ n) (lt : n < a + b)
  | last (state : σ.state = .synch) (step : σ.syncStep = 2) (eq : n = a + b)
  | finished (state : σ.state = .ready) (lt : a + b < n)

/-- The simulator `n` ticks after the command that was processed in `s`. -/
structure Course (q : PlcSimParams) (s : PlcSimNode) (n : ℕ) (σ : PlcSimNode) : Prop where
  currentPitch : σ.currentPitch = moved q s.currentPitch 0 n
  currentYaw : σ.currentYaw = moved q s.currentYaw 0 (n - arrivalCall q s.currentPitch 0)
  phase : HomingPhase (arrivalCall q s.currentPitch 0) (arrivalCall q s.currentYaw 0) n σ

theorem course_start {msg : PlcCommand} (hmode : msg.mode = 1) (hexec : msg.exec = true)
    (hack : msg.ack = false) (hfire : msg.fire = false) :
    Course q s 0 (s.commandCallback msg) := by
  have hcmd : s.commandCallback msg = { s with lastCommand := msg }.beginSync := by
    simp [commandCallback, hmode, hexec, hack, hfire]
  rw [hcmd]
  exact ⟨rfl, by simp [beginSync], .pitch rfl rfl (Nat.succ_pos _)⟩

theorem arrivalCall_pos (x y : ℚ) : 0 < arrivalCall q x y := Nat.succ_pos _

section Ticks

variable (hstep : 0 < q.stepPerCycle) (htol : 0 ≤ q.targetTolerance)

include hstep htol

theorem course_tick_pitch (h : Course q s n σ) (hs : σ.state = .synch) (h0 : σ.syncStep = 0)
    (hlt : n < arrivalCall q s.currentPitch 0) : Course q s (n + 1) (σ.tick q) := by
  have hdone : (moveTowards q σ.currentPitch 0).2 = true ↔
      arrivalCall q s.currentPitch 0 ≤ n + 1 := by
    rw [h.currentPitch]
    exact moveTowards_done_iff hstep htol n
  have hyaw : n + 1 - arrivalCall q s.currentPitch 0 = n - arrivalCall q s.currentPitch 0 := by
    omega
  have hpos := arrivalCall_pos (q := q) s.currentYaw 0
  rw [tick_pitchStep q σ hs h0]
  refine ⟨?_, ?_, ?_⟩
  · rw [moved_succ, ← h.currentPitch]
  · rw [hyaw]
    exact h.currentYaw
  · by_cases harrived : arrivalCall q s.currentPitch 0 ≤ n + 1
    · exact .yaw hs (if_pos (hdone.mpr harrived)) harrived (by omega)
    · exact .pitch hs (if_neg (mt hdone.mp harrived)) (not_le.mp harrived)

theorem course_tick_yaw (h : Course q s n σ) (hs : σ.state = .synch) (h1 : σ.syncStep = 1)
    (hle : arrivalCall q s.currentPitch 0 ≤ n)
    (hlt : n < arrivalCall q s.currentPitch 0 + arrivalCall q s.currentYaw 0) :
    Course q s (n + 1) (σ.tick q) := by
  have hdone : (moveTowards q σ.currentYaw 0).2 = true ↔
      arrivalCall q s.currentYaw 0 ≤ n - arrivalCall q s.currentPitch 0 + 1 := by
    rw [h.currentYaw]
    exact moveTowards_done_iff hstep htol _
  have hyaw : n + 1 - arrivalCall q s.currentPitch 0 =
      n - arrivalCall q s.currentPitch 0 + 1 := by
    omega
  rw [tick_yawStep q σ hs h1]
  refine ⟨?_, ?_, ?_⟩
  · -- the pitch axis stays at 0
    rw [moved_eq_target hstep htol (hle.trans n.le_succ), ← moved_eq_target hstep htol hle]
    exact h.currentPitch
  · rw [hyaw, moved_succ, ← h.currentYaw]
  · by_cases harrived : arrivalCall q s.currentYaw 0 ≤ n - arrivalCall q s.currentPitch 0 + 1
    · exact .last hs (if_pos (hdone.mpr harrived)) (by omega)
    · exact .yaw hs (if_neg (mt hdone.mp harrived)) (by omega) (by omega)

/-- Once both axes have arrived, a tick moves nothing. -/
theorem course_tick_arrived (h : Course q s n σ)
    (hle : arrivalCall q s.currentPitch 0 + arrivalCall q s.currentYaw 0 ≤ n)
    (hpitch : (σ.tick q).currentPitch = σ.currentPitch)
    (hyaw : (σ.tick q).currentYaw = σ.currentYaw) (hready : (σ.tick q).state = .ready) :
    Course q s (n + 1) (σ.tick q) := by
  refine ⟨?_, ?_, .finished hready (by omega)⟩
  · rw [hpitch, h.currentPitch, moved_eq_target hstep htol (by omega),
      moved_eq_target hstep htol (by omega)]
  · rw [hyaw, h.currentYaw, moved_eq_target hstep htol (by omega),
      moved_eq_target hstep htol (by omega)]

theorem course_tick (h : Course q s n σ) : Course q s (n + 1) (σ.tick q) := by
  cases h.phase with
  | pitch hs h0 hlt => exact course_tick_pitch hstep htol h hs h0 hlt
  | yaw hs h1 hle hlt => exact course_tick_yaw hstep htol h hs h1 hle hlt
  | last hs h2 heq =>
    have htick := tick_lastStep q σ hs (by omega) (by omega)
    apply course_tick_arrived hstep htol h heq.ge <;> rw [htick]
  | finished hs hlt =>
    have htick := tick_of_ready q σ hs
    apply course_tick_arrived hstep htol h hlt.le <;> rw [htick]
    exact hs

theorem course {msg : PlcCommand} (hmode : msg.mode = 1) (hexec : msg.exec = true)
    (hack : msg.ack = false) (hfire : msg.fire = false) (n : ℕ) :
    Course q s n ((tick q)^[n] (s.commandCallback msg)) := by
  induction n with
  | zero => exact course_start hmode hexec hack hfire
  | succ n ih =>
    rw [Function.iterate_succ_apply']
    exact course_tick hstep htol ih

end Ticks

/-- A status of a homing that goes on. -/
structure Underway (st : PlcStatus) : Prop where
  busy : st.busy = true
  synch : st.synch = false
  done : st.done = false
  onTarget : st.onTarget = false

/-- The status of the next tick, which is tick number `n + 1`. -/
theorem course_status (h : Course q s n σ) : ∃ st, (σ.publishStatus q).2 = some st ∧
    (n < arrivalCall q s.currentPitch 0 + arrivalCall q s.currentYaw 0 → Underway st) ∧
    (st.synch = true ↔ n = arrivalCall q s.currentPitch 0 + arrivalCall q s.currentYaw 0) := by
  have hstart : σ.state ≠ .startup := by
    cases h.phase <;> simp [*]
  refine ⟨_, publishStatus_status q σ hstart, ?_⟩
  cases h.phase with
  | pitch hs h0 hlt =>
    rw [tick_pitchStep q σ hs h0]
    exact ⟨fun _ => ⟨rfl, rfl, rfl, rfl⟩, by simp [statusMsg]; omega⟩
  | yaw hs h1 hle hlt =>
    rw [tick_yawStep q σ hs h1]
    exact ⟨fun _ => ⟨rfl, rfl, rfl, rfl⟩, by simp [statusMsg]; omega⟩
  | last hs h2 heq =>
    rw [tick_lastStep q σ hs (by omega) (by omega)]
    exact ⟨fun hlt => absurd heq hlt.ne, fun _ => heq, fun _ => rfl⟩
  | finished hs hlt =>
    rw [tick_of_ready q σ hs]
    exact ⟨fun hlt' => absurd hlt' (by omega), by simp [statusMsg]; omega⟩

theorem abs_moved_le (hstep : 0 < q.stepPerCycle) (x : ℚ) (n : ℕ) :
    |moved q x 0 (n + 1)| ≤ |moved q x 0 n| := by
  have hle : |(moveTowards q (moved q x 0 n) 0).1 - 0| ≤ |moved q x 0 n - 0| :=
    abs_approach_sub_le hstep.le
  rw [sub_zero, sub_zero] at hle
  rw [moved_succ]
  exact hle

/-- Homing by one SYNCH command with no command after it. The pitch axis is home with tick
`k p + 1`, and only then the yaw axis starts, which is home with tick `k p + k y + 2`. The tick after
that one reports, and no other does. -/
theorem homing_alone (q : PlcSimParams) (hstep : 0 < q.stepPerCycle)
    (htol : 0 ≤ q.targetTolerance) (s : PlcSimNode) (msg : PlcCommand) (hmode : msg.mode = 1)
    (hexec : msg.exec = true) (hack : msg.ack = false) (hfire : msg.fire = false) (n : ℕ) :
    let σ n := (tick q)^[n] (s.commandCallback msg)
    let k d := ⌈max 0 (|d| - q.targetTolerance) / q.stepPerCycle⌉₊
    let p := s.currentPitch
    let y := s.currentYaw
    (n ≤ k p + 1 → (σ n).currentYaw = y) ∧
    |(σ (n + 1)).currentPitch| ≤ |(σ n).currentPitch| ∧
    (k p + 1 ≤ n → (σ n).currentPitch = 0) ∧
    |(σ (n + 1)).currentYaw| ≤ |(σ n).currentYaw| ∧
    (k p + k y + 2 ≤ n → (σ n).currentYaw = 0) ∧
    (∃ st, ((σ n).publishStatus q).2 = some st ∧
      (n + 1 < k p + k y + 3 → Underway st) ∧ (st.synch = true ↔ n + 1 = k p + k y + 3)) ∧
    (k p + k y + 3 ≤ n → (σ n).currentPitch = 0 ∧ (σ n).currentYaw = 0) := by
  intro σ k p y
  have hp : arrivalCall q s.currentPitch 0 = k p + 1 := arrivalCall_zero p
  have hy : arrivalCall q s.currentYaw 0 = k y + 1 := arrivalCall_zero y
  have hcourse : ∀ n, Course q s n (σ n) := course hstep htol hmode hexec hack hfire
  have hpitch : k p + 1 ≤ n → (σ n).currentPitch = 0 := by
    intro hle
    rw [(hcourse n).currentPitch]
    exact moved_eq_target hstep htol (hp.le.trans hle)
  have hyaw : k p + k y + 2 ≤ n → (σ n).currentYaw = 0 := by
    intro hle
    rw [(hcourse n).currentYaw]
    exact moved_eq_target hstep htol (by omega)
  refine ⟨?_, ?_, hpitch, ?_, hyaw, ?_, ?_⟩
  · intro hle
    have hzero : n - arrivalCall q s.currentPitch 0 = 0 := by omega
    rw [(hcourse n).currentYaw, hzero, moved_zero]
  · rw [(hcourse (n + 1)).currentPitch, (hcourse n).currentPitch]
    exact abs_moved_le hstep p n
  · rw [(hcourse (n + 1)).currentYaw, (hcourse n).currentYaw]
    rcases Nat.lt_or_ge n (arrivalCall q s.currentPitch 0) with hlt | hle
    · have hsame : n + 1 - arrivalCall q s.currentPitch 0 = n - arrivalCall q s.currentPitch 0 := by omega
      rw [hsame]
    · rw [Nat.succ_sub hle]
      exact abs_moved_le hstep y _
  · obtain ⟨st, hst, hunderway, hsynch⟩ := course_status (hcourse n)
    refine ⟨st, hst, fun hlt => hunderway (by omega), hsynch.trans ?_⟩
    omega
  · intro hle
    exact ⟨hpitch (by omega), hyaw (by omega)⟩

/-- From (1/50, 0), where the pitch axis takes two ticks and the yaw axis takes one, the fourth tick
reports. -/
theorem homing_alone_short :
    let s : PlcSimNode := { currentPitch := 1 / 50, currentYaw := 0 }
    ∃ st, (((tick {})^[3] (s.commandCallback synchCommand)).publishStatus {}).2 = some st ∧
      st.synch = true := by
  intro s
  obtain ⟨-, -, -, -, -, ⟨st, hst, -, hsynch⟩, -⟩ :=
    homing_alone {} (by decide +kernel) (by decide +kernel) s synchCommand rfl rfl rfl rfl 3
  have hticks : 3 + 1 = ⌈max (0 : ℚ) (|1 / 50| - 1 / 100) / (1 / 50)⌉₊ +
      ⌈max (0 : ℚ) (|0| - 1 / 100) / (1 / 50)⌉₊ + 3 := by
    decide +kernel
  exact ⟨st, hst, hsynch.mpr hticks⟩

end ArgusGate.PlcSimNode
