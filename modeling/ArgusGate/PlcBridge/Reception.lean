import ArgusGate.Foundation.Reactive
import ArgusGate.PlcBridge.Node

/-!
# What the bridge accepts

`network_loop` checks the size that the socket reports, and the socket reports no more than the size
of the buffer. A datagram longer than a status therefore passes as one, cut to its first 20 bytes.
-/

namespace ArgusGate

open Reactive

/-- A command callback, or one of the two halves of an iteration of the network loop. -/
inductive BridgeEvent where
  | command (msg : PlcCommand)
  | transmit
  | receive (inRaw : RxBuffer) (pending : List (List UInt8))

namespace PlcBridgeNode

def handle (b : PlcBridgeNode) : BridgeEvent → PlcBridgeNode
  | .command msg => b.commandCallback msg
  | .transmit => b.transmit.1
  | .receive inRaw pending => (b.receive inRaw pending).1

def machine : Machine PlcBridgeNode BridgeEvent := { start := {}, step := handle }

/-- The status in the last datagram that is a status frame. -/
def lastFrame (pending : List (List UInt8)) : Option PlcStatus :=
  (pending.filter fun d => decide (StatusFrame d)).getLast?.map datagramStatus

/-- A datagram longer than a status, with the id of one, is followed by another one that the loop
lets pass, or repeats the status of the last frame before it. -/
def Harmless (pending : List (List UInt8)) : Prop :=
  ∀ pre d post, pending = pre ++ d :: post → 20 < d.length → packetId d = 201 →
    (∀ d' ∈ post, accepts d' = false) → lastFrame pre = some (datagramStatus d)

@[simp] theorem received_concat (pending : List (List UInt8)) (d : List UInt8) :
    received (pending ++ [d]) = if accepts d then some (datagramStatus d) else received pending := by
  cases h : accepts d <;> simp [received, h]

@[simp] theorem lastFrame_concat (pending : List (List UInt8)) (d : List UInt8) :
    lastFrame (pending ++ [d]) =
      if StatusFrame d then some (datagramStatus d) else lastFrame pending := by
  by_cases h : StatusFrame d <;> simp [lastFrame, h]

/-- What the loop lets pass is a status frame or too long. -/
theorem accepts_iff (d : List UInt8) :
    accepts d = true ↔ StatusFrame d ∨ (20 < d.length ∧ packetId d = 201) := by
  simp only [accepts, Bool.and_eq_true, decide_eq_true_eq]
  constructor
  · intro h
    obtain ⟨hlen, hid⟩ := h
    rcases Nat.lt_or_eq_of_le hlen with hlt | heq
    · exact .inr ⟨hlt, hid⟩
    · exact .inl ⟨heq.symm, hid⟩
  · intro h
    rcases h with hframe | ⟨hlen, hid⟩
    · exact ⟨hframe.size.ge, hframe.id⟩
    · exact ⟨hlen.le, hid⟩

/-- A datagram that passes decides alone whether the list is harmless. -/
theorem harmless_concat_of_accepts {pending : List (List UInt8)} {d : List UInt8}
    (h : accepts d = true) : Harmless (pending ++ [d]) ↔
      (20 < d.length → packetId d = 201 → lastFrame pending = some (datagramStatus d)) := by
  constructor
  · intro hharmless hlen hid
    exact hharmless pending d [] rfl hlen hid (by simp)
  · intro hd pre x post heq hlen hid hpost
    obtain ⟨rfl, rfl, -⟩ | ⟨rest, rfl, -⟩ := concat_eq_append_cons.mp heq
    · exact hd hlen hid
    · have hreject := hpost d (by simp)
      rw [h] at hreject
      cases hreject

theorem harmless_concat_of_rejects {pending : List (List UInt8)} {d : List UInt8}
    (h : accepts d = false) : Harmless (pending ++ [d]) ↔ Harmless pending := by
  constructor
  · intro hharmless pre x post heq hlen hid hpost
    apply hharmless pre x (post ++ [d]) (by simp [heq]) hlen hid
    intro d' hd'
    rcases List.mem_append.mp hd' with hmem | hmem
    · exact hpost d' hmem
    · rwa [List.mem_singleton.mp hmem]
  · intro hharmless pre x post heq hlen hid hpost
    obtain ⟨-, rfl, -⟩ | ⟨rest, rfl, rfl⟩ := concat_eq_append_cons.mp heq
    · have haccept := (accepts_iff d).mpr (.inr ⟨hlen, hid⟩)
      rw [h] at haccept
      cases haccept
    · exact hharmless pre x rest rfl hlen hid (fun d' hd' => hpost d' (by simp [hd']))

/-- The loop keeps the status of the last frame exactly if the list is harmless. -/
theorem received_eq_lastFrame_iff (pending : List (List UInt8)) :
    received pending = lastFrame pending ↔ Harmless pending := by
  induction pending using List.reverseRecOn with
  | nil =>
    refine ⟨fun _ pre d post heq => ?_, fun _ => rfl⟩
    simp at heq
  | append_singleton pending d ih =>
    rw [received_concat, lastFrame_concat]
    by_cases hframe : StatusFrame d
    · have haccept := (accepts_iff d).mpr (.inl hframe)
      rw [harmless_concat_of_accepts haccept, if_pos haccept, if_pos hframe]
      have hlen := hframe.size
      exact ⟨fun _ hlong => absurd hlong (by omega), fun _ => rfl⟩
    · rw [if_neg hframe]
      cases haccept : accepts d with
      | false =>
        rw [harmless_concat_of_rejects haccept]
        simpa using ih
      | true =>
        -- the datagram is too long, and the loop keeps it
        have hlong := ((accepts_iff d).mp haccept).resolve_left hframe
        rw [harmless_concat_of_accepts haccept, if_pos rfl]
        exact ⟨fun h _ _ => h.symm, fun h => (h hlong.1 hlong.2).symm⟩

/-- The status of the last frame received in a run. -/
def latestFrame (es : List BridgeEvent) : Option PlcStatus :=
  latest (fun | .receive _ pending => lastFrame pending | _ => none) es

/-- A step keeps to the frames: an iteration publishes the status of the last frame pending, if there
is one, and each packet echoes the life word of the last frame received before. -/
def KeepsToFrames (pre : List BridgeEvent) : BridgeEvent → Prop
  | .receive inRaw pending =>
    ((machine.state pre).receive inRaw pending).2 = lastFrame pending
  | .transmit => packetLifeWord (machine.state pre).transmit.2.bytes =
      ((latestFrame pre).getD {}).lifeWord
  | .command _ => True

/-- While only harmless lists have been received, the bridge holds the last frame. -/
theorem rxData_eq {es : List BridgeEvent}
    (h : ∀ inRaw pending, BridgeEvent.receive inRaw pending ∈ es → Harmless pending) :
    (machine.state es).rxData = (latestFrame es).getD {} := by
  induction es using List.reverseRecOn with
  | nil => rfl
  | append_singleton es e ih =>
    have hbefore := ih (fun inRaw pending hmem => h inRaw pending (by simp [hmem]))
    unfold latestFrame at hbefore ⊢
    rw [Machine.state_concat, latest_concat]
    cases e with
    | command msg => exact hbefore
    | transmit => exact hbefore
    | receive inRaw pending =>
      have hkeep := (received_eq_lastFrame_iff pending).mpr (h inRaw pending (by simp))
      simp only [machine, handle, receive_eq] at hbefore ⊢
      rw [hkeep]
      cases lastFrame pending <;> simp [hbefore]

/-- Reception accepts exactly the status frames, in every iteration of a run and in what the packets
echo, if and only if every list of pending datagrams is harmless. -/
theorem keepsToFrames_iff (es : List BridgeEvent) : EachStep KeepsToFrames es ↔
    ∀ inRaw pending, BridgeEvent.receive inRaw pending ∈ es → Harmless pending := by
  constructor
  · intro h inRaw pending hmem
    obtain ⟨pre, post, rfl⟩ := List.append_of_mem hmem
    have hkeep := h pre _ post rfl
    rw [KeepsToFrames, receive_eq] at hkeep
    exact (received_eq_lastFrame_iff pending).mp hkeep
  · intro h pre e post heq
    cases e with
    | command msg => trivial
    | transmit =>
      have hpre : (machine.state pre).rxData = (latestFrame pre).getD {} := by
        apply rxData_eq
        intro inRaw pending hmem
        exact h inRaw pending (by simp [heq, hmem])
      rw [KeepsToFrames, transmit_packetLifeWord, hpre]
    | receive inRaw pending =>
      rw [KeepsToFrames, receive_eq]
      exact (received_eq_lastFrame_iff pending).mpr (h inRaw pending (by simp [heq]))

/-- One datagram of 21 bytes with the id of a status: no status frame is pending, and yet the bridge
publishes a status. -/
theorem overlong_accepted :
    let pending : List (List UInt8) := [0 :: 201 :: List.replicate 19 7]
    let es : List BridgeEvent := [.receive (.replicate 20 0) pending]
    lastFrame pending = none ∧
    ((machine.state []).receive (.replicate 20 0) pending).2.isSome = true ∧
    ¬ EachStep KeepsToFrames es := by
  intro pending es
  have hnone : lastFrame pending = none := by decide +kernel
  have hsome : ((machine.state []).receive (.replicate 20 0) pending).2.isSome = true := by
    decide +kernel
  refine ⟨hnone, hsome, fun h => ?_⟩
  have hkeep := h [] (.receive (.replicate 20 0) pending) [] rfl
  rw [KeepsToFrames, hnone] at hkeep
  rw [hkeep] at hsome
  cases hsome

end PlcBridgeNode

end ArgusGate
