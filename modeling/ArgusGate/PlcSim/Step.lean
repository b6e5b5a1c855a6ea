import ArgusGate.Foundation.Reactive
import ArgusGate.PlcSim.Node

/-!
# Commands and ticks of the simulator

What `command_callback` and `publish_status` do to each part of the state, one lemma for each part
that later modules follow, and the runs of the node.
-/

namespace ArgusGate

open Reactive

/-- The callbacks of the simulator. -/
inductive SimEvent where
  | command (msg : PlcCommand)
  | tick
  deriving DecidableEq

namespace PlcSimNode

def handle (q : PlcSimParams) (s : PlcSimNode) : SimEvent → PlcSimNode
  | .command msg => s.commandCallback msg
  | .tick => s.tick q

def machine (q : PlcSimParams) : Machine PlcSimNode SimEvent :=
  { start := construct q, step := handle q }

@[simp] theorem machine_start (q : PlcSimParams) : (machine q).start = construct q := rfl
@[simp] theorem machine_step_command (q : PlcSimParams) (s : PlcSimNode) (msg : PlcCommand) :
    (machine q).step s (.command msg) = s.commandCallback msg := rfl
@[simp] theorem machine_step_tick (q : PlcSimParams) (s : PlcSimNode) :
    (machine q).step s .tick = s.tick q := rfl

/-! ## Commands -/

/-- The command makes the simulator raise its error. -/
def Raises (s : PlcSimNode) (msg : PlcCommand) : Prop :=
  msg.fire = true ∧ (s.state = .jog ∨ s.state = .follow)

instance (s : PlcSimNode) (msg : PlcCommand) : Decidable (Raises s msg) :=
  inferInstanceAs (Decidable (_ ∧ _))

/-- The branches of `command_callback`: when each of them is taken, and what it leaves behind. -/
inductive Handles (s : PlcSimNode) (msg : PlcCommand) : PlcSimNode → Prop where
  | raise (h : Raises s msg) : Handles s msg ({ s with lastCommand := msg }.enterError 100)
  | clear (h : ¬ Raises s msg) (hack : msg.ack = true ∧ s.state = .error) :
      Handles s msg { { s with lastCommand := msg }.clearError with state := .ready }
  | synch (h : ¬ Raises s msg) (hack : ¬ (msg.ack = true ∧ s.state = .error))
      (hmode : msg.mode = 1) (hexec : msg.exec = true) :
      Handles s msg { s with lastCommand := msg }.beginSync
  | jog (h : ¬ Raises s msg) (hack : ¬ (msg.ack = true ∧ s.state = .error))
      (hmode : msg.mode = 2) :
      Handles s msg
        { s with
          lastCommand := msg
          state := .jog
          busy := false
          done := false
          synch := false
          onTarget := false
          pitchDirection := if msg.pitchJogP then 1 else if msg.pitchJogN then -1 else 0
          yawDirection := if msg.yawJogP then 1 else if msg.yawJogN then -1 else 0 }
  | follow (h : ¬ Raises s msg) (hack : ¬ (msg.ack = true ∧ s.state = .error))
      (hmode : msg.mode = 3) (hexec : msg.exec = true ∨ s.state = .follow) :
      Handles s msg
        { s with
          lastCommand := msg
          state := .follow
          targetPitch := msg.targetPitch
          targetYaw := msg.targetYaw
          busy := true
          done := false
          synch := false
          onTarget := false }
  | wait (h : ¬ Raises s msg) (hack : ¬ (msg.ack = true ∧ s.state = .error))
      (hmode : msg.mode = 3) : Handles s msg { s with lastCommand := msg, state := .ready }
  | idle (h : ¬ Raises s msg) (hack : ¬ (msg.ack = true ∧ s.state = .error)) :
      Handles s msg
        { s with
          lastCommand := msg
          state := .ready
          busy := false
          done := false
          synch := false
          onTarget := false
          pitchDirection := 0
          yawDirection := 0 }

theorem handles (s : PlcSimNode) (msg : PlcCommand) : Handles s msg (s.commandCallback msg) := by
  simp only [commandCallback]
  split
  · exact .raise ‹_›
  · rename_i hraise
    split
    · exact .clear hraise ‹_›
    · rename_i hack
      split
      · rename_i hsynch
        exact .synch hraise hack hsynch.1 hsynch.2
      · split
        · exact .jog hraise hack ‹_›
        · split
          · rename_i hmode
            split
            · exact .follow hraise hack hmode ‹_›
            · exact .wait hraise hack hmode
          · exact .idle hraise hack

namespace Handles

variable {s s' : PlcSimNode} {msg : PlcCommand}

theorem currentPitch (h : Handles s msg s') : s'.currentPitch = s.currentPitch := by
  cases h <;> rfl

theorem currentYaw (h : Handles s msg s') : s'.currentYaw = s.currentYaw := by
  cases h <;> rfl

theorem lastCommand (h : Handles s msg s') : s'.lastCommand = msg := by
  cases h <;> rfl

theorem ne_startup (h : Handles s msg s') : s'.state ≠ .startup := by
  cases h <;> simp [enterError, beginSync]

theorem error_iff (h : Handles s msg s') : s'.state = .error ↔ Raises s msg := by
  cases h with
  | raise hraise => exact ⟨fun _ => hraise, fun _ => rfl⟩
  | _ hraise => simp [hraise, beginSync]

theorem errorCode (h : Handles s msg s') : s'.errorCode =
    if Raises s msg then 100
    else if msg.ack = true ∧ s.state = .error then 0
    else s.errorCode := by
  cases h with
  | raise hraise => rw [if_pos hraise, enterError]
  | clear hraise hack => rw [if_neg hraise, if_pos hack, clearError]
  | synch hraise hack => rw [if_neg hraise, if_neg hack, beginSync]
  | _ hraise hack => rw [if_neg hraise, if_neg hack]

end Handles

section Command

variable (s : PlcSimNode) (msg : PlcCommand)

/-- Commands never move the axes. -/
@[simp] theorem commandCallback_currentPitch :
    (s.commandCallback msg).currentPitch = s.currentPitch := (handles s msg).currentPitch

@[simp] theorem commandCallback_currentYaw :
    (s.commandCallback msg).currentYaw = s.currentYaw := (handles s msg).currentYaw

@[simp] theorem commandCallback_lastCommand : (s.commandCallback msg).lastCommand = msg :=
  (handles s msg).lastCommand

/-- The command handler always leaves start-up. -/
theorem commandCallback_ne_startup : (s.commandCallback msg).state ≠ .startup :=
  (handles s msg).ne_startup

/-- A command ends in state ERROR exactly if it raises the error itself: whatever else arrives in
ERROR leaves it. -/
theorem commandCallback_error_iff : (s.commandCallback msg).state = .error ↔ Raises s msg :=
  (handles s msg).error_iff

theorem commandCallback_errorCode : (s.commandCallback msg).errorCode =
    if Raises s msg then 100
    else if msg.ack = true ∧ s.state = .error then 0
    else s.errorCode :=
  (handles s msg).errorCode

/-- The idle command, from any state. -/
theorem commandCallback_idle : s.commandCallback {} =
    { s with
      lastCommand := {}
      state := .ready
      busy := false
      done := false
      synch := false
      onTarget := false
      pitchDirection := 0
      yawDirection := 0 } := by
  simp [commandCallback]

end Command

/-! ## Ticks -/

section Tick

variable (q : PlcSimParams) (s : PlcSimNode)

theorem tick_of_startup (h : s.state = .startup) : s.tick q =
    { s with
      state := .ready, busy := false, done := false, synch := false, onTarget := false
      errorCode := 0 } := by
  simp [tick, publishStatus, h]

theorem tick_of_ne_startup (h : s.state ≠ .startup) : s.tick q = s.advance q := by
  simp [tick, publishStatus, h]

theorem publishStatus_status (h : s.state ≠ .startup) :
    (s.publishStatus q).2 = some (s.tick q).statusMsg := by
  simp [tick, publishStatus, h]

/-- The motion of a tick ends a homing or a follow at most; it changes no other state. -/
theorem advance_state : (s.advance q).state = s.state ∨
    ((s.state = .synch ∨ s.state = .follow) ∧ (s.advance q).state = .ready) := by
  unfold advance
  split <;> rename_i hs
  · exact .inl rfl
  · unfold tickSync
    split_ifs
    · exact .inl rfl
    · exact .inl rfl
    · exact .inr ⟨.inl hs, rfl⟩
  · exact .inl rfl
  · simp only [tickFollow]
    split_ifs
    · exact .inr ⟨.inr hs, rfl⟩
    · exact .inl rfl
  · exact .inl rfl
  · exact .inl rfl
  · exact .inl rfl

theorem advance_errorCode : (s.advance q).errorCode = s.errorCode := by
  unfold advance tickSync
  split_ifs <;> split <;> rfl

theorem advance_lastCommand : (s.advance q).lastCommand = s.lastCommand := by
  unfold advance tickSync
  split_ifs <;> split <;> rfl

/-- Ticks touch the error code only by leaving start-up. -/
theorem tick_errorCode :
    (s.tick q).errorCode = if s.state = .startup then 0 else s.errorCode := by
  by_cases hstart : s.state = .startup
  · rw [tick_of_startup q s hstart, if_pos hstart]
  · rw [tick_of_ne_startup q s hstart, if_neg hstart, advance_errorCode]

theorem tick_ne_startup : (s.tick q).state ≠ .startup := by
  by_cases hstart : s.state = .startup
  · simp [tick_of_startup q s hstart]
  · rw [tick_of_ne_startup q s hstart]
    rcases advance_state q s with hkeep | ⟨-, hready⟩
    · rwa [hkeep]
    · simp [hready]

/-- Ticks neither enter nor leave state ERROR. -/
theorem tick_error_iff : (s.tick q).state = .error ↔ s.state = .error := by
  by_cases hstart : s.state = .startup
  · simp [tick_of_startup q s hstart, hstart]
  · rw [tick_of_ne_startup q s hstart]
    rcases advance_state q s with hkeep | ⟨hmoving, hready⟩
    · rw [hkeep]
    · rcases hmoving with hs | hs <;> simp [hready, hs]

/-- Ticks keep the last command. -/
@[simp] theorem tick_lastCommand : (s.tick q).lastCommand = s.lastCommand := by
  by_cases hstart : s.state = .startup
  · rw [tick_of_startup q s hstart]
  · rw [tick_of_ne_startup q s hstart, advance_lastCommand]

/-- A published status carries the life word of the last command plus one. -/
theorem publishStatus_lifeWord {st : PlcStatus} (h : (s.publishStatus q).2 = some st) :
    st.lifeWord = s.lastCommand.lifeWord + 1 := by
  by_cases hstart : s.state = .startup
  · simp [publishStatus, hstart] at h
  · rw [publishStatus_status q s hstart] at h
    obtain rfl := Option.some.inj h
    rw [statusMsg, tick_lastCommand]

/-- A tick in a state without motion. -/
theorem tick_of_ready (h : s.state = .ready) : s.tick q =
    { s with busy := false, done := false, onTarget := false, synch := false } := by
  rw [tick_of_ne_startup q s (by simp [h])]
  simp [advance, h]

theorem tick_of_error (h : s.state = .error) : s.tick q =
    { s with busy := false, done := false, synch := false, onTarget := false } := by
  rw [tick_of_ne_startup q s (by simp [h])]
  simp [advance, h]

/-- A tick of the homing sequencer's first step. -/
theorem tick_pitchStep (h : s.state = .synch) (hs : s.syncStep = 0) : s.tick q =
    { s with
      targetPitch := 0
      currentPitch := (moveTowards q s.currentPitch 0).1
      syncStep := if (moveTowards q s.currentPitch 0).2 then 1 else 0
      busy := true, done := false, synch := false, onTarget := false } := by
  rw [tick_of_ne_startup q s (by simp [h])]
  simp [advance, h, tickSync, hs]

/-- A tick of its second step. -/
theorem tick_yawStep (h : s.state = .synch) (hs : s.syncStep = 1) : s.tick q =
    { s with
      targetYaw := 0
      currentYaw := (moveTowards q s.currentYaw 0).1
      syncStep := if (moveTowards q s.currentYaw 0).2 then 2 else 1
      busy := true, done := false, synch := false, onTarget := false } := by
  rw [tick_of_ne_startup q s (by simp [h])]
  simp [advance, h, tickSync, hs]

/-- A tick of its last step, which moves nothing and reports. -/
theorem tick_lastStep (h : s.state = .synch) (h0 : s.syncStep ≠ 0) (h1 : s.syncStep ≠ 1) :
    s.tick q =
      { s with busy := false, done := true, synch := true, onTarget := true, state := .ready } := by
  rw [tick_of_ne_startup q s (by simp [h])]
  simp [advance, h, tickSync, h0, h1]

theorem tick_of_jog (h : s.state = .jog) : s.tick q = s.tickJog q := by
  rw [tick_of_ne_startup q s (by simp [h])]
  simp [advance, h]

theorem tick_eq_tickFollow (h : s.state = .follow) : s.tick q = s.tickFollow q := by
  rw [tick_of_ne_startup q s (by simp [h])]
  simp [advance, h]

end Tick

end PlcSimNode

end ArgusGate
