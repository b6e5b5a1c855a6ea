import ArgusGate.Foundation.EdgeDetector
import ArgusGate.Manager.Run

/-!
# Acknowledgements and operator resets

The manager keeps the last teleop message and looks at its `reset_error` once a cycle: the flag is a
signal that the messages set and the cycles sample, and `detect_ack_edge` is edge detection on it.
-/

namespace ArgusGate.ArgusManagerNode

open Reactive EdgeDetector

/-- The `reset_error` flags of the teleop messages received. -/
def resets (es : List (Time × ManagerEvent)) : List Bool :=
  es.filterMap fun | (_, .teleop msg) => some msg.resetError | _ => none

/-- What a callback does to the signal. -/
def resetEvent : Time × ManagerEvent → Option EdgeDetector.Event
  | (_, .teleop msg) => some (.set msg.resetError)
  | (_, .cycle) => some .sample
  | (_, .status _) => none

theorem values_resetEvent (es : List (Time × ManagerEvent)) :
    values (es.filterMap resetEvent) = resets es := by
  unfold values resets
  rw [List.filterMap_filterMap]
  congr 1
  funext ⟨t, e⟩
  cases e <;> rfl

/-- The two members the edge detection works on follow the signal. -/
theorem reset_state (p : ManagerParams) (t₀ : Time) (es : List (Time × ManagerEvent)) :
    (⟨((machine p t₀).state es).lastTeleopCmd.resetError,
      ((machine p t₀).state es).lastResetError⟩ : Detector) =
      EdgeDetector.machine.state (es.filterMap resetEvent) := by
  apply (machine p t₀).view_state_filterMap EdgeDetector.machine
    (fun m => (⟨m.lastTeleopCmd.resetError, m.lastResetError⟩ : Detector))
  · rfl
  · rintro m ⟨t, e⟩
    cases e <;> rfl

theorem detectAckEdge_eq (p : ManagerParams) (t₀ : Time) (es : List (Time × ManagerEvent)) :
    ((machine p t₀).state es).detectAckEdge =
      (EdgeDetector.machine.state (es.filterMap resetEvent)).edge := by
  rw [← reset_state p t₀ es]
  rfl

theorem resetEvent_sample {t : Time} {e : ManagerEvent} (h : resetEvent (t, e) = some .sample) :
    e = .cycle := by
  cases e <;> simp [resetEvent] at h ⊢

/-- What `last_reset_error_` remembers: the flag that the last cycle saw. -/
theorem lastResetError_eq_false_iff (p : ManagerParams) (t₀ : Time)
    (es : List (Time × ManagerEvent)) : ((machine p t₀).state es).lastResetError = false ↔
      ∀ pre u mid, es = pre ++ (u, .cycle) :: mid → (∀ v, (v, ManagerEvent.cycle) ∉ mid) →
        level (resets pre) = false := by
  have hstate := congrArg Detector.sampled (reset_state p t₀ es)
  simp only at hstate
  rw [hstate, sampled_eq_false_iff]
  constructor
  · intro h pre u mid heq hmid
    rw [← values_resetEvent]
    apply h _ (mid.filterMap resetEvent)
    · have hcycle : resetEvent (u, .cycle) = some .sample := rfl
      rw [heq, List.filterMap_append, List.filterMap_cons_some hcycle]
    · intro hmem
      obtain ⟨⟨v, e⟩, hv, he⟩ := List.mem_filterMap.mp hmem
      exact hmid v (resetEvent_sample he ▸ hv)
  · intro h pre mid heq hmid
    obtain ⟨es₁, es₂, rfl, rfl, hrest⟩ := List.filterMap_eq_append_iff.mp heq
    obtain ⟨skip, ⟨u, e⟩, es₃, rfl, hskip, hcycle, rfl⟩ := List.filterMap_eq_cons_iff.mp hrest
    obtain rfl := resetEvent_sample hcycle
    -- what stands between the last reset event and the cycle does not touch the signal
    have hskip' : skip.filterMap resetEvent = [] := List.filterMap_eq_nil_iff.mpr hskip
    have hlevel := h (es₁ ++ skip) u es₃ (by simp)
      (fun v hv => hmid (List.mem_filterMap.mpr ⟨_, hv, rfl⟩))
    rwa [← values_resetEvent, List.filterMap_append, hskip', List.append_nil] at hlevel

/-- The command a step publishes acknowledges. -/
def acknowledges (p : ManagerParams) (m : ArgusManagerNode) : Time × ManagerEvent → Bool
  | (now, .cycle) => (supervisorCycle p m now).command.ack
  | _ => false

/-- The number of commands with `ack` published so far. -/
def acks (p : ManagerParams) (t₀ : Time) (es : List (Time × ManagerEvent)) : ℕ :=
  (machine p t₀).count (acknowledges p) es

/-- Acknowledging cycles are among the samples that detect an edge. -/
theorem acks_le_detections (p : ManagerParams) (t₀ : Time) (es : List (Time × ManagerEvent)) :
    acks p t₀ es ≤ detections (es.filterMap resetEvent) := by
  induction es using List.reverseRecOn with
  | nil => exact Nat.le_refl 0
  | append_singleton es e ih =>
    obtain ⟨now, e⟩ := e
    unfold acks detections at *
    rw [Machine.count_concat, List.filterMap_append]
    cases e with
    | teleop msg => simpa [acknowledges, resetEvent] using ih
    | status msg =>
      have hnone : [(now, ManagerEvent.status msg)].filterMap resetEvent = [] := rfl
      simpa [acknowledges, hnone] using ih
    | cycle =>
      have hack : acknowledges p ((machine p t₀).state es) (now, .cycle) ≤
          (EdgeDetector.machine.state (es.filterMap resetEvent)).edge := by
        rw [← detectAckEdge_eq p t₀, Bool.le_iff_imp]
        intro h
        exact ((command_ack_iff p _ now).mp h).2.2.2
      have hle := Bool.toNat_le_toNat hack
      simp [resetEvent]
      omega

/-- The acknowledgements of the manager, in every run: no more than there were rising edges of
`reset_error`, with a message that drops the flag between any two of them, and each published in
a cycle that finds both links alive and an error in the last status. -/
theorem acks_sound (p : ManagerParams) (t₀ : Time) (es : List (Time × ManagerEvent)) :
    acks p t₀ es ≤ risingEdges (resets es) ∧
    (∀ pre now mid now' post, es = pre ++ (now, .cycle) :: mid ++ (now', .cycle) :: post →
      (supervisorCycle p ((machine p t₀).state pre) now).command.ack = true →
      (supervisorCycle p ((machine p t₀).state (pre ++ (now, .cycle) :: mid)) now').command.ack =
        true → ∃ t msg, (t, ManagerEvent.teleop msg) ∈ mid ∧ msg.resetError = false) ∧
    (∀ pre now post, es = pre ++ (now, .cycle) :: post →
      (supervisorCycle p ((machine p t₀).state pre) now).command.ack = true →
      plcAlive p ((machine p t₀).state pre) now = true ∧
      teleopAlive p ((machine p t₀).state pre) now = true ∧
      ∃ t st, latestStatus pre = some (t, st) ∧ st.error ≠ 0) := by
  refine ⟨?_, ?_, ?_⟩
  · have hdetect := detections_le (es.filterMap resetEvent)
    have hacks := acks_le_detections p t₀ es
    rw [values_resetEvent] at hdetect
    omega
  · intro pre now mid now' post _ hack hack'
    have hedge := ((command_ack_iff p _ now).mp hack).2.2.2
    have hedge' := ((command_ack_iff p _ now').mp hack').2.2.2
    rw [detectAckEdge_eq] at hedge hedge'
    rw [List.filterMap_append, List.filterMap_cons] at hedge'
    obtain ⟨⟨t, e⟩, hmem, he⟩ := List.mem_filterMap.mp (down_between hedge hedge')
    cases e with
    | teleop msg => exact ⟨t, msg, hmem, by simpa [resetEvent] using he⟩
    | status msg => simp [resetEvent] at he
    | cycle => simp [resetEvent] at he
  · intro pre now post _ hack
    obtain ⟨hplc, hteleop, herr, -⟩ := (command_ack_iff p _ now).mp hack
    refine ⟨hplc, hteleop, ?_⟩
    rw [(tracks p t₀ pre).status] at herr
    cases hlast : latestStatus pre with
    | none => simp [hlast] at herr
    | some last => exact ⟨last.1, last.2, rfl, by simpa [hlast] using herr⟩

/-- Two resets, released in between, are acknowledged one by one. -/
theorem acks_sound_twice :
    let before : List (Time × ManagerEvent) :=
      [(0, .status { error := 1 }), (1000000, .teleop { resetError := true })]
    let between : List (Time × ManagerEvent) :=
      [(30000000, .teleop {}), (40000000, .cycle), (50000000, .teleop { resetError := true })]
    let es := before ++ (20000000, .cycle) :: between ++ [(60000000, .cycle)]
    acks {} 0 es = 2 ∧ 2 ≤ risingEdges (resets es) ∧
      (∃ t msg, (t, ManagerEvent.teleop msg) ∈ between ∧ msg.resetError = false) ∧
      plcAlive {} ((machine {} 0).state before) 20000000 = true := by
  intro before between es
  have hacks : acks {} 0 es = 2 := by decide +kernel
  obtain ⟨hle, hbetween, hgate⟩ := acks_sound {} 0 es
  refine ⟨hacks, hacks ▸ hle, ?_, ?_⟩
  · exact hbetween before 20000000 between 60000000 [] rfl (by decide +kernel) (by decide +kernel)
  · exact (hgate before 20000000 (between ++ [(60000000, .cycle)]) rfl (by decide +kernel)).1

end ArgusGate.ArgusManagerNode
