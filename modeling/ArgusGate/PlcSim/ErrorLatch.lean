import ArgusGate.PlcSim.Step

/-!
# How long the simulator's error state lasts

The error lives in two members, `state_` and `error_code_`. `clear_error` resets the code and runs
only for an `ack` received in state ERROR; but any other command received in ERROR moves the
state on and leaves the code behind. `errorLatch_iff` says for which runs the latch holds.
-/

namespace ArgusGate.PlcSimNode

open Reactive

/-- What every run preserves, acknowledged properly or not. -/
structure ErrorInv (s : PlcSimNode) : Prop where
  code : s.errorCode = 0 ∨ s.errorCode = 100
  error : s.state = .error → s.errorCode = 100
  startup : s.state = .startup → s.errorCode = 0

theorem errorInv_command {s : PlcSimNode} (h : ErrorInv s) (msg : PlcCommand) :
    ErrorInv (s.commandCallback msg) := by
  have hcode := commandCallback_errorCode s msg
  have herr := commandCallback_error_iff s msg
  refine ⟨?_, fun hs => ?_, fun hs => absurd hs (commandCallback_ne_startup s msg)⟩
  · rw [hcode]
    split_ifs
    · exact .inr rfl
    · exact .inl rfl
    · exact h.code
  · rw [hcode, if_pos (herr.mp hs)]

theorem errorInv_tick {s : PlcSimNode} (h : ErrorInv s) (q : PlcSimParams) :
    ErrorInv (s.tick q) := by
  have hcode := tick_errorCode q s
  refine ⟨?_, fun hs => ?_, fun hs => absurd hs (tick_ne_startup q s)⟩
  · rw [hcode]
    split_ifs
    · exact .inl rfl
    · exact h.code
  · have herr := (tick_error_iff q s).mp hs
    rw [hcode, if_neg (by simp [herr])]
    exact h.error herr

theorem errorInv (q : PlcSimParams) (es : List SimEvent) : ErrorInv ((machine q).state es) := by
  apply (machine q).history_rule (P := fun _ s => ErrorInv s)
  · exact ⟨.inl rfl, fun h => (by cases h), fun _ => rfl⟩
  · intro es e ih
    cases e with
    | command msg => exact errorInv_command ih msg
    | tick => exact errorInv_tick ih q

/-- The last error of the run was dropped: a command without `ack` was processed in ERROR, and no
error has been raised since. -/
def Dropped (q : PlcSimParams) (es : List SimEvent) : Prop :=
  ∃ pre msg post, es = pre ++ .command msg :: post ∧ ((machine q).state pre).state = .error ∧
    msg.ack = false ∧ EachStep (fun mid e => ∀ c, e = .command c →
      ¬ Raises ((machine q).state (pre ++ .command msg :: mid)) c) post

theorem dropped_concat {q : PlcSimParams} {es : List SimEvent} {e : SimEvent} :
    Dropped q (es ++ [e]) ↔
      (∃ msg, e = .command msg ∧ ((machine q).state es).state = .error ∧ msg.ack = false) ∨
      (Dropped q es ∧ ∀ c, e = .command c → ¬ Raises ((machine q).state es) c) := by
  constructor
  · intro hdropped
    obtain ⟨pre, msg, post, heq, herr, hack, hsince⟩ := hdropped
    obtain ⟨rfl, rfl, -⟩ | ⟨rest, rfl, rfl⟩ := concat_eq_append_cons.mp heq
    · exact .inl ⟨msg, rfl, herr, hack⟩
    · rw [eachStep_concat] at hsince
      exact .inr ⟨⟨pre, msg, rest, rfl, herr, hack, hsince.1⟩, hsince.2⟩
  · intro h
    rcases h with ⟨msg, rfl, herr, hack⟩ | ⟨hdropped, hnone⟩
    · exact ⟨es, msg, [], rfl, herr, hack, EachStep.nil _⟩
    · obtain ⟨pre, msg, post, rfl, herr, hack, hsince⟩ := hdropped
      refine ⟨pre, msg, post ++ [e], by simp, herr, hack, ?_⟩
      rw [eachStep_concat]
      exact ⟨hsince, hnone⟩

/-- A dropped error is one whose code is left over outside ERROR. -/
theorem dropped_iff (q : PlcSimParams) (es : List SimEvent) : Dropped q es ↔
    ((machine q).state es).state ≠ .error ∧ ((machine q).state es).errorCode ≠ 0 := by
  induction es using List.reverseRecOn with
  | nil =>
    constructor
    · intro hdropped
      obtain ⟨pre, msg, post, heq, -⟩ := hdropped
      simp at heq
    · intro h
      exact absurd rfl h.2
  | append_singleton es e ih =>
    have hinv := errorInv q es
    rw [dropped_concat, ih, Machine.state_concat]
    cases e with
    | command msg =>
      simp only [machine_step_command, ne_eq, commandCallback_error_iff, commandCallback_errorCode]
      by_cases herr : ((machine q).state es).state = .error
      · have hnone : ¬ Raises ((machine q).state es) msg := by simp [Raises, herr]
        have hcode := hinv.error herr
        cases hack : msg.ack <;> simp [herr, hnone, hack, hcode]
      · by_cases hraise : Raises ((machine q).state es) msg <;> simp [herr, hraise]
    | tick =>
      simp only [machine_step_tick, ne_eq, tick_error_iff, tick_errorCode]
      by_cases hstart : ((machine q).state es).state = .startup
      · simp [hstart, hinv.startup hstart]
      · simp [hstart]

/-- In state ERROR a tick stands still and publishes the error with status code -1. -/
structure Frozen (q : PlcSimParams) (s : PlcSimNode) : Prop where
  state : s.state = .error
  code : s.errorCode ≠ 0
  pitch : (s.tick q).currentPitch = s.currentPitch
  yaw : (s.tick q).currentYaw = s.currentYaw
  status : ∃ st, (s.publishStatus q).2 = some st ∧ st.error ≠ 0 ∧ st.status = -1

theorem frozen_of_error {q : PlcSimParams} {s : PlcSimNode} (hinv : ErrorInv s)
    (h : s.state = .error) : Frozen q s := by
  have hcode : s.errorCode = 100 := hinv.error h
  have htick := tick_of_error q s h
  refine ⟨h, by simp [hcode], by rw [htick], by rw [htick], (s.tick q).statusMsg, ?_, ?_, ?_⟩
  · exact publishStatus_status q s (by simp [h])
  · simp only [statusMsg, htick, hcode]
    decide
  · simp only [statusMsg, htick, h, stateToStatusCode]
    decide

/-- Every command processed in state ERROR carries `ack`. -/
def AckedInError (q : PlcSimParams) (es : List SimEvent) : Prop :=
  EachStep (fun pre e => ∀ msg, e = .command msg → ((machine q).state pre).state = .error →
    msg.ack = true) es

/-- The error is latched until acknowledged, all along the run `es`: from the command that raises
it, and as long as no `ack` is processed, the simulator is frozen; and ERROR goes with a non-zero
error code in every state of the run. -/
structure Latched (q : PlcSimParams) (es : List SimEvent) : Prop where
  frozen : ∀ pre msg mid post, es = pre ++ .command msg :: mid ++ post →
    Raises ((machine q).state pre) msg → (∀ c, SimEvent.command c ∈ mid → c.ack = false) →
    Frozen q ((machine q).state (pre ++ .command msg :: mid))
  error_iff : ∀ pre post, es = pre ++ post →
    (((machine q).state pre).state = .error ↔ ((machine q).state pre).errorCode ≠ 0)

theorem AckedInError.of_append {q : PlcSimParams} {pre post : List SimEvent}
    (h : AckedInError q (pre ++ post)) : AckedInError q pre := EachStep.of_append h

/-- Along a run that only acknowledges in ERROR, a non-zero code keeps the state in ERROR. -/
theorem error_of_code {q : PlcSimParams} {es : List SimEvent} (h : AckedInError q es)
    (hcode : ((machine q).state es).errorCode ≠ 0) : ((machine q).state es).state = .error := by
  by_contra hstate
  obtain ⟨pre, msg, post, heq, herr, hack, -⟩ := (dropped_iff q es).mpr ⟨hstate, hcode⟩
  rw [h pre (.command msg) post heq msg rfl herr] at hack
  cases hack

/-- From a raised error on, an ack-free stretch of a properly acknowledged run stays in ERROR. -/
theorem error_along {q : PlcSimParams} {pre mid : List SimEvent} {msg : PlcCommand}
    (h : AckedInError q (pre ++ .command msg :: mid)) (hraise : Raises ((machine q).state pre) msg)
    (hfree : ∀ c, SimEvent.command c ∈ mid → c.ack = false) :
    ((machine q).state (pre ++ .command msg :: mid)).state = .error := by
  induction mid using List.reverseRecOn with
  | nil =>
    rw [Machine.state_concat, machine_step_command, commandCallback_error_iff]
    exact hraise
  | append_singleton mid e ih =>
    rw [← List.cons_append, ← List.append_assoc] at h ⊢
    have hmid := ih h.of_append (fun c hc => hfree c (by simp [hc]))
    rw [Machine.state_concat]
    cases e with
    | command c =>
      -- an ack-free command in ERROR is what the run excludes
      have hack := (eachStep_concat.mp h).2 c rfl hmid
      rw [hfree c (by simp)] at hack
      cases hack
    | tick => rwa [machine_step_tick, tick_error_iff]

/-- The error is latched along a run exactly if every command processed in ERROR is an `ack`. -/
theorem errorLatch_iff (q : PlcSimParams) (es : List SimEvent) :
    Latched q es ↔ AckedInError q es := by
  constructor
  · intro hlatch pre e post heq msg he herr
    subst he
    by_contra hack
    -- the next state has left ERROR, but its error code is still there
    have hnext := hlatch.error_iff (pre ++ [.command msg]) post (by simp [heq])
    have hcode := (hlatch.error_iff pre (.command msg :: post) heq).mp herr
    have hraise : ¬ Raises ((machine q).state pre) msg := by
      rintro ⟨-, h | h⟩ <;> simp [herr] at h
    rw [Machine.state_concat, machine_step_command, commandCallback_error_iff,
      commandCallback_errorCode, if_neg hraise, if_neg (fun h => hack h.1)] at hnext
    exact hraise (hnext.mpr hcode)
  · intro hack
    refine ⟨?_, ?_⟩
    · intro pre msg mid post heq hraise hfree
      subst heq
      exact frozen_of_error (errorInv q _) (error_along hack.of_append hraise hfree)
    · intro pre post heq
      subst heq
      refine ⟨?_, error_of_code hack.of_append⟩
      intro herr
      rw [(errorInv q pre).error herr]
      decide

/-- A JOG command, a fire command and then an idle command, none of them an `ack`: the simulator is
back in READY with the error code still set. -/
theorem idle_unlatches_error :
    let es : List SimEvent := [.command { mode := 2 }, .command { fire := true }, .command {}]
    ((machine {}).state es).state = .ready ∧ ((machine {}).state es).errorCode = 100 ∧
      ¬ Latched {} es := by
  intro es
  have hstate : ((machine {}).state es).state = .ready := by decide +kernel
  have hcode : ((machine {}).state es).errorCode = 100 := by decide +kernel
  refine ⟨hstate, hcode, fun hlatch => ?_⟩
  have hiff := hlatch.error_iff es [] (by simp)
  rw [hstate, hcode] at hiff
  exact absurd (hiff.mpr (by decide)) (by decide)

end ArgusGate.PlcSimNode
