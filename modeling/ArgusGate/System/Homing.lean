import ArgusGate.Manager.Cycle
import ArgusGate.PlcSim.Rest
import Mathlib.Data.List.Infix
import Mathlib.Data.Rat.Floor

/-!
# Homing under the repeated SYNCH command

While the operator asks for SYNCH, every supervisor cycle publishes the same command, and every one
of them restarts the simulator's three-step sequencer. `remaining` counts the ticks the sequencer
still needs: a tick uses up one, a repeated command adds the number of steps already finished.
-/

namespace ArgusGate

open Reactive Approach

/-- The command of every SYNCH cycle. -/
def synchCommand : PlcCommand := { exec := true, mode := 1 }

/-- Every healthy cycle with SYNCH requested publishes it, the first one and the repeated ones. -/
theorem ArgusManagerNode.command_of_synch {p : ManagerParams} {m : ArgusManagerNode} {now : Time}
    (hplc : plcAlive p m now = true) (hteleop : teleopAlive p m now = true)
    (herr : m.lastStatus.error = 0) (hreq : m.lastTeleopCmd.requestedMode = 1) :
    (supervisorCycle p m now).command = synchCommand := by
  rw [command_of_healthy p m now hplc hteleop herr, modeCommand_of_synch hreq, synchCommand]

namespace PlcSimNode

/-! ## The sequencer -/

/-- The ticks that move an axis at distance `d` from 0 without arriving. -/
def axisTicks (q : PlcSimParams) (d : ℚ) : ℕ := calls q.stepPerCycle q.targetTolerance d

/-- The ticks until homing is reported, if no command arrives. -/
def remaining (q : PlcSimParams) (s : PlcSimNode) : ℕ :=
  if s.syncStep = 0 then axisTicks q s.currentPitch + axisTicks q s.currentYaw + 3
  else if s.syncStep = 1 then axisTicks q s.currentYaw + 2
  else 1

/-- The sequencer is running, and the steps it has finished have brought their axes to 0. -/
structure Homing (s : PlcSimNode) : Prop where
  state : s.state = .synch
  step : s.syncStep ≤ 2
  pitch : 0 < s.syncStep → s.currentPitch = 0
  yaw : 1 < s.syncStep → s.currentYaw = 0

/-- The status reports that homing has completed, at position (0, 0). -/
structure Homed (st : PlcStatus) : Prop where
  synch : st.synch = true
  done : st.done = true
  onTarget : st.onTarget = true
  pitch : st.posPitch = 0
  yaw : st.posYaw = 0

theorem axisTicks_zero {q : PlcSimParams} (htol : 0 ≤ q.targetTolerance) : axisTicks q 0 = 0 :=
  calls_of_le (by simpa using htol)

/-- One call of `move_towards` for homing: it arrives, or it uses up one of the axis's ticks. -/
theorem moveTowards_zero {q : PlcSimParams} (hstep : 0 < q.stepPerCycle)
    (htol : 0 ≤ q.targetTolerance) (x : ℚ) :
    (moveTowards q x 0 = (0, true) ∧ axisTicks q x = 0) ∨
    ((moveTowards q x 0).2 = false ∧ axisTicks q (moveTowards q x 0).1 + 1 = axisTicks q x) := by
  rw [moveTowards_eq]
  by_cases h : |x - 0| ≤ q.targetTolerance
  · exact .inl ⟨approach_of_le h, calls_of_le (by simpa using h)⟩
  · have hcalls := calls_approach hstep htol (not_le.mp h)
    rw [sub_zero, sub_zero] at hcalls
    refine .inr ⟨?_, hcalls⟩
    rw [← Bool.not_eq_true, approach_done_iff]
    exact h

/-- The command starts the sequencer, or starts it again. -/
theorem homing_command (s : PlcSimNode) : Homing (s.commandCallback synchCommand) ∧
    (s.commandCallback synchCommand).syncStep = 0 := by
  have hcmd : s.commandCallback synchCommand =
      { s with lastCommand := synchCommand }.beginSync := by
    simp [commandCallback, synchCommand]
  rw [hcmd]
  refine ⟨⟨rfl, Nat.zero_le 2, ?_, ?_⟩, rfl⟩ <;> simp [beginSync]

/-- A repeated command costs as many ticks as there are finished steps. -/
theorem remaining_command {q : PlcSimParams} (htol : 0 ≤ q.targetTolerance) {s : PlcSimNode}
    (h : Homing s) : remaining q (s.commandCallback synchCommand) = remaining q s + s.syncStep := by
  have hcases : s.syncStep = 0 ∨ s.syncStep = 1 ∨ s.syncStep = 2 := by
    have := h.step
    omega
  have hzero := axisTicks_zero htol
  simp only [remaining, (homing_command s).2, if_true, commandCallback_currentPitch,
    commandCallback_currentYaw]
  rcases hcases with hs | hs | hs
  · simp [hs]
  · simp only [hs, h.pitch (by omega), hzero]
    simp
  · simp only [hs, h.pitch (by omega), h.yaw (by omega), hzero]
    simp

/-- What a tick before the last one does to the sequencer. -/
structure Advances (q : PlcSimParams) (s s' : PlcSimNode) : Prop where
  homing : Homing s'
  remaining : remaining q s' + 1 = remaining q s
  yaw : axisTicks q s'.currentYaw ≤ axisTicks q s.currentYaw
  first : s'.syncStep = 0 → s.syncStep = 0 ∧ s'.currentYaw = s.currentYaw
  synch : s'.synch = false

theorem advances_tick {q : PlcSimParams} (hstep : 0 < q.stepPerCycle)
    (htol : 0 ≤ q.targetTolerance) {s : PlcSimNode} (h : Homing s) (hmore : 1 < remaining q s) :
    Advances q s (s.tick q) := by
  have hlt : s.syncStep = 0 ∨ s.syncStep = 1 := by
    by_contra hs
    rw [not_or] at hs
    simp [remaining, hs.1, hs.2] at hmore
  rcases hlt with hs | hs
  · rw [tick_pitchStep q s h.state hs]
    rcases moveTowards_zero hstep htol s.currentPitch with ⟨hmove, hk⟩ | ⟨hmove, hk⟩
    · -- the pitch axis arrives
      have hhoming : Homing { s with
          targetPitch := 0, currentPitch := 0, syncStep := 1
          busy := true, done := false, synch := false, onTarget := false } :=
        ⟨h.state, by simp, fun _ => rfl, fun hlt => absurd hlt (lt_irrefl 1)⟩
      simp only [hmove, if_true]
      refine ⟨hhoming, ?_, le_rfl, fun h0 => absurd h0 one_ne_zero, rfl⟩
      simp [remaining, hs, hk]
    · refine ⟨⟨h.state, ?_, ?_, ?_⟩, ?_, le_rfl, fun _ => ⟨hs, rfl⟩, rfl⟩
      · simp [hmove]
      · simp [hmove]
      · simp [hmove]
      · simp only [remaining, hmove, hs, Bool.false_eq_true, if_false, if_true]
        omega
  · rw [tick_yawStep q s h.state hs]
    have hpitch : s.currentPitch = 0 := h.pitch (by omega)
    rcases moveTowards_zero hstep htol s.currentYaw with ⟨hmove, hk⟩ | ⟨hmove, hk⟩
    · -- the yaw axis arrives
      have hhoming : Homing { s with
          targetYaw := 0, currentYaw := 0, syncStep := 2
          busy := true, done := false, synch := false, onTarget := false } :=
        ⟨h.state, le_rfl, fun _ => hpitch, fun _ => rfl⟩
      simp only [hmove, if_true]
      refine ⟨hhoming, ?_, ?_, fun h0 => absurd h0 two_ne_zero, rfl⟩
      · simp [remaining, hs, hk]
      · simp [axisTicks_zero htol]
    · refine ⟨⟨h.state, ?_, fun _ => hpitch, ?_⟩, ?_, ?_, ?_, rfl⟩
      · simp [hmove]
      · simp [hmove]
      · simp only [remaining, hmove, hs, Bool.false_eq_true, if_false, if_true, one_ne_zero]
        omega
      · show axisTicks q (moveTowards q s.currentYaw 0).1 ≤ axisTicks q s.currentYaw
        omega
      · simp [hmove]

/-- The last tick reports that homing has completed. -/
theorem homed_tick {q : PlcSimParams} {s : PlcSimNode} (h : Homing s) (hlast : remaining q s = 1) :
    ∃ st, (s.publishStatus q).2 = some st ∧ Homed st := by
  have hs : s.syncStep = 2 := by
    have := h.step
    unfold remaining at hlast
    split_ifs at hlast <;> omega
  refine ⟨_, publishStatus_status q s (by simp [h.state]), ?_⟩
  have hpitch := h.pitch (by omega)
  have hyaw := h.yaw (by omega)
  rw [tick_lastStep q s h.state (by omega) (by omega)]
  constructor <;> simp [statusMsg, hpitch, hyaw]

/-! ## Runs -/

/-- The simulator from `s` on, starting with one SYNCH command. -/
def homingRun (q : PlcSimParams) (s : PlcSimNode) : Machine PlcSimNode SimEvent :=
  { start := s.commandCallback synchCommand, step := handle q }

/-- The number of ticks homing takes from `s` if it is left alone. -/
def homingTicks (q : PlcSimParams) (s : PlcSimNode) : ℕ :=
  axisTicks q s.currentPitch + axisTicks q s.currentYaw + 3

/-- One of the first `n` ticks of the run `es` publishes that homing has completed. -/
def HomedBy (q : PlcSimParams) (s : PlcSimNode) (es : List SimEvent) (n : ℕ) : Prop :=
  ∃ pre post st, es = pre ++ .tick :: post ∧ pre.count .tick < n ∧
    (((homingRun q s).state pre).publishStatus q).2 = some st ∧ Homed st

/-- Repeated commands come only while the pitch axis is still on its way, or after the ticks that
homing takes. -/
def Undisturbed (q : PlcSimParams) (s : PlcSimNode) (es : List SimEvent) : Prop :=
  EachStep (fun pre e => e = .command synchCommand →
    pre.count .tick ≤ axisTicks q s.currentPitch ∨ homingTicks q s ≤ pre.count .tick) es

/-- Where the sequencer is after the events `es`, before the ticks that homing takes are over: it is
late exactly if it was disturbed. -/
structure Countdown (q : PlcSimParams) (s : PlcSimNode) (es : List SimEvent) (σ : PlcSimNode) :
    Prop where
  homing : Homing σ
  yaw : axisTicks q σ.currentYaw ≤ axisTicks q s.currentYaw
  first : σ.syncStep = 0 → remaining q σ + es.count .tick = homingTicks q s →
    axisTicks q σ.currentYaw = axisTicks q s.currentYaw
  le : homingTicks q s ≤ remaining q σ + es.count .tick
  onTime : remaining q σ + es.count .tick = homingTicks q s ↔ Undisturbed q s es

theorem countdown_start {q : PlcSimParams} {s : PlcSimNode} :
    Countdown q s [] (homingRun q s).start := by
  obtain ⟨hhoming, hs⟩ := homing_command s
  have hremaining : remaining q (s.commandCallback synchCommand) = homingTicks q s := by
    simp [remaining, hs, homingTicks]
  have hundisturbed : Undisturbed q s [] := EachStep.nil _
  refine ⟨hhoming, ?_, fun _ _ => ?_, ?_, ?_⟩
  · simp [homingRun]
  · simp [homingRun]
  · simp [homingRun, hremaining]
  · simp [homingRun, hremaining, hundisturbed]

theorem countdown_tick {q : PlcSimParams} {s σ : PlcSimNode} {es : List SimEvent}
    (hstep : 0 < q.stepPerCycle) (htol : 0 ≤ q.targetTolerance) (h : Countdown q s es σ)
    (hlt : es.count .tick + 1 < homingTicks q s) : Countdown q s (es ++ [.tick]) (σ.tick q) := by
  have hle := h.le
  have hadv := advances_tick hstep htol h.homing (by omega)
  have hremaining := hadv.remaining
  have hundisturbed : Undisturbed q s (es ++ [.tick]) ↔ Undisturbed q s es := by
    rw [Undisturbed, eachStep_concat]
    exact and_iff_left (fun h => (by cases h))
  refine ⟨hadv.homing, hadv.yaw.trans h.yaw, fun h0 heq => ?_, ?_, ?_⟩
  · obtain ⟨hs, hyaw⟩ := hadv.first h0
    rw [hyaw]
    apply h.first hs
    simp only [List.count_append, List.count_singleton_self] at heq
    omega
  · simp only [List.count_append, List.count_singleton_self]
    omega
  · rw [hundisturbed, ← h.onTime]
    simp only [List.count_append, List.count_singleton_self]
    omega

theorem countdown_command {q : PlcSimParams} {s σ : PlcSimNode} {es : List SimEvent}
    (htol : 0 ≤ q.targetTolerance) (h : Countdown q s es σ)
    (hlt : es.count .tick < homingTicks q s) :
    Countdown q s (es ++ [.command synchCommand]) (σ.commandCallback synchCommand) := by
  have hle := h.le
  have hyaw := h.yaw
  have hremaining := remaining_command htol h.homing
  have hcount : (es ++ [SimEvent.command synchCommand]).count .tick = es.count .tick := by
    simp
  have hundisturbed : Undisturbed q s (es ++ [.command synchCommand]) ↔
      Undisturbed q s es ∧ es.count .tick ≤ axisTicks q s.currentPitch := by
    rw [Undisturbed, eachStep_concat]
    refine and_congr_right fun _ => ?_
    simp [not_le.mpr hlt]
  -- on time so far, the pitch axis is still on its way exactly if nothing is finished yet
  have hfirst : remaining q σ + es.count .tick = homingTicks q s →
      (σ.syncStep = 0 ↔ es.count .tick ≤ axisTicks q s.currentPitch) := by
    intro heq
    constructor
    · intro hs
      have hfar := h.first hs heq
      simp only [remaining, hs, if_true, homingTicks] at heq
      omega
    · intro hearly
      by_contra hs
      unfold homingTicks at heq
      unfold remaining at heq
      split_ifs at heq <;> omega
  refine ⟨(homing_command σ).1, by simpa using hyaw, fun _ heq => ?_, ?_, ?_⟩
  · rw [hcount, hremaining] at heq
    rw [commandCallback_currentYaw]
    exact h.first (by omega) (by omega)
  · omega
  · rw [hcount, hremaining, hundisturbed, ← h.onTime]
    constructor
    · intro heq
      have heq' : remaining q σ + es.count .tick = homingTicks q s := by omega
      exact ⟨heq', (hfirst heq').mp (by omega)⟩
    · intro h
      obtain ⟨heq, hearly⟩ := h
      have hs := (hfirst heq).mpr hearly
      omega

theorem countdown {q : PlcSimParams} (hstep : 0 < q.stepPerCycle) (htol : 0 ≤ q.targetTolerance)
    (s : PlcSimNode) (es : List SimEvent) (hes : ∀ e ∈ es, e = .tick ∨ e = .command synchCommand)
    (hlt : es.count .tick < homingTicks q s) : Countdown q s es ((homingRun q s).state es) := by
  induction es using List.reverseRecOn with
  | nil => exact countdown_start
  | append_singleton es e ih =>
    have hcount : es.count .tick ≤ (es ++ [e]).count .tick := by simp
    have hes' := ih (fun e he => hes e (by simp [he])) (by omega)
    rw [Machine.state_concat]
    rcases hes e (by simp) with rfl | rfl
    · exact countdown_tick hstep htol hes' (by simpa using hlt)
    · exact countdown_command htol hes' (by omega)

/-- A list with more than `n` occurrences splits at the one that has `n` before it. -/
theorem exists_split_at_count {α : Type*} [DecidableEq α] (a : α) {es : List α} {n : ℕ}
    (h : n < es.count a) : ∃ pre post, es = pre ++ a :: post ∧ pre.count a = n := by
  induction es generalizing n with
  | nil => simp at h
  | cons x es ih =>
    by_cases hx : x = a
    · subst hx
      cases n with
      | zero => exact ⟨[], es, rfl, rfl⟩
      | succ n =>
        obtain ⟨pre, post, rfl, hn⟩ := ih (by simpa using h)
        exact ⟨x :: pre, post, rfl, by simp [hn]⟩
    · obtain ⟨pre, post, rfl, hn⟩ := ih (by simpa [hx] using h)
      exact ⟨x :: pre, post, rfl, by simp [hn, hx]⟩

/-- What comes after the last of the ticks that homing takes does not disturb it. -/
theorem undisturbed_split {q : PlcSimParams} {s : PlcSimNode} {pre post : List SimEvent}
    (h : pre.count .tick + 1 = homingTicks q s) :
    Undisturbed q s (pre ++ .tick :: post) ↔ Undisturbed q s pre := by
  rw [show pre ++ .tick :: post = (pre ++ [SimEvent.tick]) ++ post by simp, Undisturbed,
    eachStep_append, eachStep_concat, and_assoc]
  refine and_iff_left ⟨fun h => (by cases h), fun mid e rest _ _ => .inr ?_⟩
  simp only [List.count_append, List.count_singleton_self]
  omega

/-- Homing completes within the ticks it takes from `s` exactly if it is left undisturbed. -/
theorem homedBy_iff (q : PlcSimParams) (hstep : 0 < q.stepPerCycle) (htol : 0 ≤ q.targetTolerance)
    (s : PlcSimNode) (es : List SimEvent) (hes : ∀ e ∈ es, e = .tick ∨ e = .command synchCommand)
    (hlong : homingTicks q s ≤ es.count .tick) :
    HomedBy q s es (homingTicks q s) ↔ Undisturbed q s es := by
  have hpos : 0 < homingTicks q s := Nat.succ_pos _
  constructor
  · intro hhomedBy
    obtain ⟨pre, post, st, rfl, hlt, hst, hhomed⟩ := hhomedBy
    have hcount := countdown hstep htol s pre (fun e he => hes e (by simp [he])) hlt
    have hle := hcount.le
    -- only the last tick of the countdown reports, and the countdown cannot be early
    have hlast : remaining q ((homingRun q s).state pre) ≤ 1 := by
      by_contra hmore
      have hadv := advances_tick hstep htol hcount.homing (not_le.mp hmore)
      rw [publishStatus_status q _ (by simp [hcount.homing.state])] at hst
      obtain rfl := Option.some.inj hst
      have hsynch := hhomed.synch
      rw [show (statusMsg _).synch = _ from hadv.synch] at hsynch
      cases hsynch
    rw [undisturbed_split (by omega), ← hcount.onTime]
    omega
  · intro hundisturbed
    have hmany : homingTicks q s - 1 < es.count .tick := by omega
    obtain ⟨pre, post, rfl, hn⟩ := exists_split_at_count SimEvent.tick hmany
    have hlast : pre.count .tick + 1 = homingTicks q s := by omega
    have hlt : pre.count .tick < homingTicks q s := by omega
    have hcount := countdown hstep htol s pre (fun e he => hes e (by simp [he])) hlt
    rw [undisturbed_split hlast, ← hcount.onTime] at hundisturbed
    obtain ⟨st, hst, hhomed⟩ := homed_tick (q := q) hcount.homing (by omega)
    exact ⟨pre, post, st, rfl, hlt, hst, hhomed⟩

/-- With two steps to go for the pitch axis and one for the yaw axis, the command is repeated before each of
the first two ticks that follow the first one: homing still completes with the sixth tick. -/
theorem homedBy_early :
    let s := construct { initialPitch := 1 / 25, initialYaw := -1 / 50 }
    HomedBy {} s [.tick, .command synchCommand, .tick, .command synchCommand, .tick, .tick, .tick, .tick]
      6 := by
  intro s
  have hticks : homingTicks {} s = 6 := by decide +kernel
  rw [← hticks]
  apply (homedBy_iff {} (by decide +kernel) (by decide +kernel) s _ (by decide +kernel)
    (by decide +kernel)).mpr
  unfold Undisturbed
  decide +kernel

/-- With a repeated command before every further tick, as at equal rates of the two nodes, the
sequencer never gets past its second step. -/
theorem homedBy_repeated :
    let es : List SimEvent := [.tick, .command synchCommand, .tick, .command synchCommand, .tick]
    homingTicks {} (construct {}) = 3 ∧ es.count .tick = 3 ∧ ¬ HomedBy {} (construct {}) es 3 := by
  intro es
  refine ⟨by decide +kernel, by decide, ?_⟩
  rintro ⟨pre, post, st, heq, -, hst, hhomed⟩
  have hnone : ∀ pre ∈ es.inits,
      ∀ st ∈ (((homingRun {} (construct {})).state pre).publishStatus {}).2, st.synch = false := by
    decide +kernel
  have hpre : pre ∈ es.inits := (List.mem_inits _ _).mpr ⟨_, heq.symm⟩
  have hsynch := hnone pre hpre st hst
  rw [hhomed.synch] at hsynch
  cases hsynch

end PlcSimNode

end ArgusGate
