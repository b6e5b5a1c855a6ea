import ArgusGate.Manager.Cycle
import ArgusGate.PlcSim.Motion

/-!
# Following under the repeated FOLLOW command

While the operator asks for FOLLOW with one target, every supervisor cycle publishes the same
command. Each copy resets the flags of the simulator, and one that comes after the arrival takes it
back from READY to FOLLOW, but where the axes are depends on the number of ticks alone.
-/

namespace ArgusGate

open Reactive Approach

/-- The command of every FOLLOW cycle with this target. -/
def followCommand (pitch yaw : ℚ) : PlcCommand :=
  { exec := true, mode := 3, targetPitch := pitch, targetYaw := yaw }

/-- Every healthy cycle with FOLLOW requested publishes it, the first one and the repeated ones. -/
theorem ArgusManagerNode.command_of_follow {p : ManagerParams} {m : ArgusManagerNode} {now : Time}
    (hplc : plcAlive p m now = true) (hteleop : teleopAlive p m now = true)
    (herr : m.lastStatus.error = 0) (hreq : m.lastTeleopCmd.requestedMode = 3) :
    (supervisorCycle p m now).command =
      followCommand m.lastTeleopCmd.targetPitch m.lastTeleopCmd.targetYaw := by
  rw [command_of_healthy p m now hplc hteleop herr, modeCommand_of_follow hreq, followCommand]

namespace PlcSimNode

/-- The simulator from `s` on, starting with one FOLLOW command. -/
def followRun (q : PlcSimParams) (s : PlcSimNode) (pitch yaw : ℚ) : Machine PlcSimNode SimEvent :=
  { start := s.commandCallback (followCommand pitch yaw), step := handle q }

/-- Where the simulator is `n` ticks after it was sent from `s` to (`pitch`, `yaw`): on its way, or
in READY at the target. -/
structure Following (q : PlcSimParams) (s : PlcSimNode) (pitch yaw : ℚ) (n : ℕ) (σ : PlcSimNode) :
    Prop where
  currentPitch : σ.currentPitch = moved q s.currentPitch pitch n
  currentYaw : σ.currentYaw = moved q s.currentYaw yaw n
  state : (σ.state = .follow ∧ σ.targetPitch = pitch ∧ σ.targetYaw = yaw) ∨
    (σ.state = .ready ∧ σ.currentPitch = pitch ∧ σ.currentYaw = yaw)

variable {q : PlcSimParams} {s σ : PlcSimNode} {pitch yaw : ℚ} {n : ℕ}

theorem moveTowards_self (htol : 0 ≤ q.targetTolerance) (x : ℚ) : moveTowards q x x = (x, true) := by
  rw [moveTowards_eq]
  apply approach_of_le
  rwa [sub_self, abs_zero]

/-- The command leads to FOLLOW from every state, ERROR included, and moves nothing. -/
theorem commandCallback_follow (s : PlcSimNode) (pitch yaw : ℚ) :
    (s.commandCallback (followCommand pitch yaw)).state = .follow ∧
    (s.commandCallback (followCommand pitch yaw)).targetPitch = pitch ∧
    (s.commandCallback (followCommand pitch yaw)).targetYaw = yaw := by
  simp [commandCallback, followCommand]

theorem following_start : Following q s pitch yaw 0 (followRun q s pitch yaw).start :=
  ⟨commandCallback_currentPitch _ _, commandCallback_currentYaw _ _,
    .inl (commandCallback_follow s pitch yaw)⟩

theorem following_command (h : Following q s pitch yaw n σ) :
    Following q s pitch yaw n (σ.commandCallback (followCommand pitch yaw)) := by
  refine ⟨?_, ?_, .inl (commandCallback_follow σ pitch yaw)⟩
  · rw [commandCallback_currentPitch]
    exact h.currentPitch
  · rw [commandCallback_currentYaw]
    exact h.currentYaw

/-- A tick in FOLLOW that ends in READY has brought both axes to their targets. -/
theorem arrived_of_ready (hs : σ.state = .follow) (hready : (σ.tick q).state = .ready) :
    (σ.tick q).currentPitch = σ.targetPitch ∧ (σ.tick q).currentYaw = σ.targetYaw := by
  rw [tick_eq_tickFollow q σ hs] at hready ⊢
  simp only [tickFollow, hs] at hready ⊢
  split_ifs at hready with hdone
  rw [Bool.and_eq_true] at hdone
  exact ⟨approach_eq_of_done hdone.1, approach_eq_of_done hdone.2⟩

theorem following_tick (htol : 0 ≤ q.targetTolerance) (h : Following q s pitch yaw n σ) :
    Following q s pitch yaw (n + 1) (σ.tick q) := by
  rcases h.state with ⟨hs, hpitch, hyaw⟩ | ⟨hs, hpitch, hyaw⟩
  · obtain ⟨hp, hy, htp, hty, hstate⟩ := tick_of_follow (q := q) hs
    refine ⟨?_, ?_, ?_⟩
    · rw [hp, moved_succ, ← h.currentPitch, hpitch]
    · rw [hy, moved_succ, ← h.currentYaw, hyaw]
    · rcases hstate with hfollow | hready
      · exact .inl ⟨hfollow, htp.trans hpitch, hty.trans hyaw⟩
      · obtain ⟨hp', hy'⟩ := arrived_of_ready hs hready
        exact .inr ⟨hready, hp'.trans hpitch, hy'.trans hyaw⟩
  · -- at the target already, where a further call of `move_towards` stays
    rw [tick_of_ready q σ hs]
    refine ⟨?_, ?_, .inr ⟨hs, hpitch, hyaw⟩⟩
    · rw [moved_succ, ← h.currentPitch, hpitch, moveTowards_self htol]
    · rw [moved_succ, ← h.currentYaw, hyaw, moveTowards_self htol]

theorem following (htol : 0 ≤ q.targetTolerance) (es : List SimEvent)
    (hes : ∀ e ∈ es, e = .tick ∨ e = .command (followCommand pitch yaw)) :
    Following q s pitch yaw (es.count .tick) ((followRun q s pitch yaw).state es) := by
  induction es using List.reverseRecOn with
  | nil => exact following_start
  | append_singleton es e ih =>
    have hinv := ih fun e he => hes e (by simp [he])
    rw [Machine.state_concat, List.count_append]
    rcases hes e (by simp) with rfl | rfl
    · exact following_tick htol hinv
    · exact following_command hinv

/-- Following is insensitive to repeated commands. After the FOLLOW command, however often it is
repeated, each axis is where as many calls of `move_towards` take it as there were ticks; so it only
depends on their number, and from the later of the two arrival calls on it is the target. -/
theorem following_insensitive (q : PlcSimParams) (hstep : 0 < q.stepPerCycle)
    (htol : 0 ≤ q.targetTolerance) (s : PlcSimNode) (pitch yaw : ℚ) (es : List SimEvent)
    (hes : ∀ e ∈ es, e = .tick ∨ e = .command (followCommand pitch yaw)) :
    let σ := (followRun q s pitch yaw).state es
    (σ.currentPitch = moved q s.currentPitch pitch (es.count .tick) ∧
      σ.currentYaw = moved q s.currentYaw yaw (es.count .tick)) ∧
    (∀ es' : List SimEvent, (∀ e ∈ es', e = .tick ∨ e = .command (followCommand pitch yaw)) →
      es'.count .tick = es.count .tick →
      ((followRun q s pitch yaw).state es').currentPitch = σ.currentPitch ∧
      ((followRun q s pitch yaw).state es').currentYaw = σ.currentYaw) ∧
    (max (arrivalCall q s.currentPitch pitch) (arrivalCall q s.currentYaw yaw) ≤ es.count .tick →
      σ.currentPitch = pitch ∧ σ.currentYaw = yaw) := by
  intro σ
  have hσ : Following q s pitch yaw (es.count .tick) σ := following htol es hes
  refine ⟨⟨hσ.currentPitch, hσ.currentYaw⟩, ?_, ?_⟩
  · intro es' hes' hcount
    have hσ' := following (q := q) (s := s) htol es' hes'
    rw [hcount] at hσ'
    exact ⟨hσ'.currentPitch.trans hσ.currentPitch.symm, hσ'.currentYaw.trans hσ.currentYaw.symm⟩
  · intro hmax
    refine ⟨hσ.currentPitch.trans ?_, hσ.currentYaw.trans ?_⟩
    · exact moved_eq_target hstep htol ((le_max_left _ _).trans hmax)
    · exact moved_eq_target hstep htol ((le_max_right _ _).trans hmax)

/-- With the command repeated before every further tick, two ticks take the axes from (0, 0) to
(1/50, 0), and from there to (1/25, 0). -/
theorem following_insensitive_repeated :
    let cmd := SimEvent.command (followCommand 1 0)
    let es : List SimEvent := [.tick, cmd, cmd, .tick]
    let σ := (followRun {} (construct {}) 1 0).state es
    σ.currentPitch = 1 / 25 ∧ σ.currentYaw = 0 ∧
      ((followRun {} (construct {}) 1 0).state [.tick, .tick]).currentPitch = σ.currentPitch := by
  intro cmd es σ
  obtain ⟨⟨hpitch, hyaw⟩, hsame, -⟩ := following_insensitive {} (by decide +kernel)
    (by decide +kernel) (construct {}) 1 0 es (by simp [es, cmd])
  refine ⟨hpitch.trans (by decide +kernel), hyaw.trans (by decide +kernel), ?_⟩
  exact (hsame [.tick, .tick] (by simp) (by decide +kernel)).1

end PlcSimNode

end ArgusGate
