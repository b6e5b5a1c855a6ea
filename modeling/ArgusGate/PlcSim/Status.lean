import ArgusGate.PlcSim.Rest

/-!
# What a published status says

The flags, the state and the positions that a tick publishes are consistent with each other. For
the homing flags this rests on what the sequencer has already done: from its second step on the
pitch axis is homed, from its third step on the yaw axis too, whatever commands have come before.
-/

namespace ArgusGate.PlcSimNode

open Reactive Approach

/-- What every run preserves about the states and the homing sequencer. -/
structure SyncInv (s : PlcSimNode) : Prop where
  ne_stop : s.state ≠ .stop
  pitch : s.state = .synch → 1 ≤ s.syncStep → s.currentPitch = 0 ∧ s.targetPitch = 0
  yaw : s.state = .synch → 2 ≤ s.syncStep → s.currentYaw = 0 ∧ s.targetYaw = 0

theorem commandCallback_ne_stop (s : PlcSimNode) (msg : PlcCommand) :
    (s.commandCallback msg).state ≠ .stop := by
  have hcases := handles s msg
  generalize s.commandCallback msg = s' at hcases ⊢
  cases hcases <;> simp [enterError, beginSync]

/-- A command that leads to SYNCH restarts the sequencer. -/
theorem commandCallback_syncStep {s : PlcSimNode} {msg : PlcCommand}
    (h : (s.commandCallback msg).state = .synch) : (s.commandCallback msg).syncStep = 0 := by
  have hcases := handles s msg
  generalize s.commandCallback msg = s' at hcases h ⊢
  cases hcases with
  | synch => rfl
  | _ => cases h

theorem syncInv_command (s : PlcSimNode) (msg : PlcCommand) : SyncInv (s.commandCallback msg) := by
  refine ⟨commandCallback_ne_stop s msg, fun h hstep => ?_, fun h hstep => ?_⟩
  · rw [commandCallback_syncStep h] at hstep
    omega
  · rw [commandCallback_syncStep h] at hstep
    omega

/-- The sequencer moves on from an axis only when the axis stands at zero. -/
theorem syncInv_tick_synch {s : PlcSimNode} (h : SyncInv s) (hs : s.state = .synch)
    (q : PlcSimParams) : SyncInv (s.tick q) := by
  by_cases h0 : s.syncStep = 0
  · rw [tick_pitchStep q s hs h0]
    refine ⟨by simp [hs], fun _ hstep => ⟨?_, rfl⟩, fun _ hstep => ?_⟩
    · cases hdone : (moveTowards q s.currentPitch 0).2 with
      | false => simp [hdone] at hstep
      | true => exact approach_eq_of_done hdone
    · simp only at hstep
      split_ifs at hstep <;> omega
  · by_cases h1 : s.syncStep = 1
    · rw [tick_yawStep q s hs h1]
      refine ⟨by simp [hs], fun _ _ => h.pitch hs (by omega), fun _ hstep => ⟨?_, rfl⟩⟩
      cases hdone : (moveTowards q s.currentYaw 0).2 with
      | false => simp [hdone] at hstep
      | true => exact approach_eq_of_done hdone
    · rw [tick_lastStep q s hs h0 h1]
      exact ⟨by simp, fun h => (by cases h), fun h => (by cases h)⟩

theorem syncInv_tick {s : PlcSimNode} (h : SyncInv s) (q : PlcSimParams) : SyncInv (s.tick q) := by
  by_cases hs : s.state = .synch
  · exact syncInv_tick_synch h hs q
  · have hne : (s.tick q).state ≠ .synch ∧ (s.tick q).state ≠ .stop := by
      by_cases hstart : s.state = .startup
      · simp [tick_of_startup q s hstart]
      · rw [tick_of_ne_startup q s hstart]
        rcases advance_state q s with hkeep | ⟨-, hready⟩
        · rw [hkeep]
          exact ⟨hs, h.ne_stop⟩
        · simp [hready]
    exact ⟨hne.2, fun h => absurd h hne.1, fun h => absurd h hne.1⟩

theorem syncInv (q : PlcSimParams) (es : List SimEvent) : SyncInv ((machine q).state es) := by
  apply (machine q).history_rule (P := fun _ s => SyncInv s)
  · exact ⟨by simp [construct], fun h => (by cases h), fun h => (by cases h)⟩
  · intro es e ih
    cases e with
    | command msg => exact syncInv_command _ msg
    | tick => exact syncInv_tick ih q

/-- A status that is consistent in itself and with the targets stored in `s`. -/
structure StatusSound (s : PlcSimNode) (st : PlcStatus) : Prop where
  busy : st.busy = true ↔ st.status = 3 ∨ st.status = 5
  done : st.done = st.onTarget
  arrived : st.done = true → st.busy = false ∧ st.status = 2 ∧
    st.posPitch = s.targetPitch ∧ st.posYaw = s.targetYaw
  homed : st.synch = true → st.done = true ∧ st.posPitch = 0 ∧ st.posYaw = 0

/-- No flag is set and no motion goes on. -/
theorem statusSound_idle {s : PlcSimNode} (hbusy : s.busy = false) (hdone : s.done = false)
    (hsynch : s.synch = false) (htarget : s.onTarget = false) (h : s.state ≠ .synch)
    (h' : s.state ≠ .follow) : StatusSound s s.statusMsg := by
  refine ⟨?_, ?_, ?_, ?_⟩
  · cases hs : s.state <;> simp_all [statusMsg, stateToStatusCode]
  · simp [statusMsg, hdone, htarget]
  · simp [statusMsg, hdone]
  · simp [statusMsg, hsynch]

/-- A motion goes on, and no other flag is set. -/
theorem statusSound_moving {s : PlcSimNode} (hstate : s.state = .synch ∨ s.state = .follow)
    (hbusy : s.busy = true) (hdone : s.done = false) (hsynch : s.synch = false)
    (htarget : s.onTarget = false) : StatusSound s s.statusMsg := by
  refine ⟨?_, ?_, ?_, ?_⟩
  · rcases hstate with hs | hs <;> simp [statusMsg, hbusy, hs, stateToStatusCode]
  · simp [statusMsg, hdone, htarget]
  · simp [statusMsg, hdone]
  · simp [statusMsg, hsynch]

/-- A motion is over; `synch` may be set if it has ended at (0, 0). -/
theorem statusSound_arrived {s : PlcSimNode} (hstate : s.state = .ready) (hbusy : s.busy = false)
    (hdone : s.done = true) (htarget : s.onTarget = true) (hpitch : s.currentPitch = s.targetPitch)
    (hyaw : s.currentYaw = s.targetYaw)
    (hhomed : s.synch = true → s.currentPitch = 0 ∧ s.currentYaw = 0) :
    StatusSound s s.statusMsg := by
  refine ⟨?_, ?_, ?_, ?_⟩
  · simp [statusMsg, hbusy, hstate, stateToStatusCode]
  · simp [statusMsg, hdone, htarget]
  · intro _
    exact ⟨hbusy, by simp [statusMsg, hstate, stateToStatusCode], hpitch, hyaw⟩
  · intro hsynch
    exact ⟨hdone, hhomed hsynch⟩

theorem statusSound_synch {q : PlcSimParams} {s : PlcSimNode} (h : SyncInv s)
    (hs : s.state = .synch) : StatusSound (s.tick q) (s.tick q).statusMsg := by
  by_cases h0 : s.syncStep = 0
  · rw [tick_pitchStep q s hs h0]
    exact statusSound_moving (.inl hs) rfl rfl rfl rfl
  · by_cases h1 : s.syncStep = 1
    · rw [tick_yawStep q s hs h1]
      exact statusSound_moving (.inl hs) rfl rfl rfl rfl
    · -- the sequencer is through: both axes are homed
      obtain ⟨hpitch, hpitch'⟩ := h.pitch hs (by omega)
      obtain ⟨hyaw, hyaw'⟩ := h.yaw hs (by omega)
      rw [tick_lastStep q s hs h0 h1]
      exact statusSound_arrived rfl rfl rfl rfl (hpitch.trans hpitch'.symm)
        (hyaw.trans hyaw'.symm) (fun _ => ⟨hpitch, hyaw⟩)

theorem statusSound_follow {q : PlcSimParams} {s : PlcSimNode} (hs : s.state = .follow) :
    StatusSound (s.tick q) (s.tick q).statusMsg := by
  rw [tick_eq_tickFollow q s hs]
  cases hp : (moveTowards q s.currentPitch s.targetPitch).2 with
  | false => apply statusSound_moving <;> simp [tickFollow, hp, hs]
  | true =>
    cases hy : (moveTowards q s.currentYaw s.targetYaw).2 with
    | false => apply statusSound_moving <;> simp [tickFollow, hp, hy, hs]
    | true =>
      have hpitch : (moveTowards q s.currentPitch s.targetPitch).1 = s.targetPitch :=
        approach_eq_of_done hp
      have hyaw : (moveTowards q s.currentYaw s.targetYaw).1 = s.targetYaw :=
        approach_eq_of_done hy
      apply statusSound_arrived <;> simp [tickFollow, hp, hy, hpitch, hyaw]

/-- Every published status is sound, in every run. -/
theorem publishStatus_sound (q : PlcSimParams) (es : List SimEvent) (st : PlcStatus)
    (h : (((machine q).state es).publishStatus q).2 = some st) :
    StatusSound (((machine q).state es).tick q) st := by
  have hinv := syncInv q es
  generalize (machine q).state es = s at h hinv ⊢
  by_cases hstart : s.state = .startup
  · simp [publishStatus, hstart] at h
  · rw [publishStatus_status q s hstart] at h
    obtain rfl := Option.some.inj h
    cases hs : s.state with
    | startup => exact absurd hs hstart
    | stop => exact absurd hs hinv.ne_stop
    | ready =>
      rw [tick_of_ready q s hs]
      exact statusSound_idle rfl rfl rfl rfl (by simp [hs]) (by simp [hs])
    | error =>
      rw [tick_of_error q s hs]
      exact statusSound_idle rfl rfl rfl rfl (by simp [hs]) (by simp [hs])
    | synch => exact statusSound_synch hinv hs
    | jog =>
      rw [tick_of_jog q s hs]
      exact statusSound_idle rfl rfl rfl rfl (by simp [tickJog, hs]) (by simp [tickJog, hs])
    | follow => exact statusSound_follow hs

/-- The status that reports a completed homing. -/
theorem publishStatus_sound_homed :
    let es : List SimEvent := [.command { mode := 1, exec := true }, .tick, .tick]
    let st : PlcStatus :=
      { lifeWord := 1, done := true, synch := true, onTarget := true, status := 2 }
    (((machine {}).state es).publishStatus {}).2 = some st ∧
      StatusSound (((machine {}).state es).tick {}) st := by
  intro es st
  have hst : (((machine {}).state es).publishStatus {}).2 = some st := by decide +kernel
  exact ⟨hst, publishStatus_sound {} es st hst⟩

end ArgusGate.PlcSimNode
