import ArgusGate.PlcBridge.Reception

/-!
# What the bridge sends

The command callback overwrites the whole of `tx_data_`, its life word included, and the network loop
puts the life word of `rx_data_` back in before it sends. So a packet is the last command with the
life word of the last status, in whatever order the critical sections come.
-/

namespace ArgusGate.PlcBridgeNode

open Reactive

/-- The last command received in a run. -/
def latestCommand (es : List BridgeEvent) : Option PlcCommand :=
  latest (fun | .command msg => some msg | _ => none) es

/-- The last status that the reception loop has accepted in a run. -/
def latestAccepted (es : List BridgeEvent) : Option PlcStatus :=
  latest (fun | .receive _ pending => received pending | _ => none) es

@[simp] theorem latestCommand_concat (es : List BridgeEvent) (e : BridgeEvent) :
    latestCommand (es ++ [e]) =
      match e with | .command msg => some msg | _ => latestCommand es := by
  cases e <;> simp [latestCommand]

@[simp] theorem latestAccepted_concat (es : List BridgeEvent) (e : BridgeEvent) :
    latestAccepted (es ++ [e]) =
      match e with
      | .receive _ pending => (received pending).or (latestAccepted es)
      | _ => latestAccepted es := by
  cases e <;> simp [latestAccepted]

theorem latestAccepted_append {es fs : List BridgeEvent}
    (h : ∀ inRaw pending, BridgeEvent.receive inRaw pending ∈ fs → received pending = none) :
    latestAccepted (es ++ fs) = latestAccepted es := by
  have hnone : latestAccepted fs = none := by
    rw [latestAccepted, latest_eq_none_iff]
    intro e he
    cases e with
    | command | transmit => rfl
    | receive inRaw pending => exact h inRaw pending he
  unfold latestAccepted at hnone ⊢
  rw [latest_append, hnone, Option.none_or]

/-- A bridge whose next packet is `cmd` with the life word of `st`. The life word that the buffer
holds is stale. -/
structure Sends (cmd : PlcCommand) (st : PlcStatus) (b : PlcBridgeNode) : Prop where
  command : ∀ lifeWord, { b.txData with lifeWord } = { cmd with lifeWord }
  status : b.rxData = st

theorem sends (es : List BridgeEvent) :
    Sends ((latestCommand es).getD {}) ((latestAccepted es).getD {}) (machine.state es) := by
  apply machine.history_rule
    (P := fun es => Sends ((latestCommand es).getD {}) ((latestAccepted es).getD {}))
  · exact ⟨fun _ => rfl, rfl⟩
  · intro es e ih
    cases e with
    | command msg =>
      rw [latestCommand_concat, latestAccepted_concat]
      exact ⟨fun _ => rfl, ih.status⟩
    | transmit =>
      rw [latestCommand_concat, latestAccepted_concat]
      -- the patched life word is overwritten again by the next transmission
      exact ⟨ih.command, ih.status⟩
    | receive inRaw pending =>
      rw [latestCommand_concat, latestAccepted_concat]
      refine ⟨?_, ?_⟩
      · simp only [machine, handle, receive_txData]
        exact ih.command
      · have hstatus := ih.status
        simp only [machine, handle, receive_eq] at hstatus ⊢
        rw [hstatus]
        cases received pending <;> rfl

theorem transmit_eq (es : List BridgeEvent) : (machine.state es).transmit.2 = encodePacket
    { (latestCommand es).getD {} with lifeWord := ((latestAccepted es).getD {}).lifeWord } := by
  have h := sends es
  rw [transmit, h.status]
  exact congrArg encodePacket (h.command _)

theorem length_bytes (p : RawTxData) : p.bytes.length = 26 := by
  simp [RawTxData.bytes]

/-- Whatever the interleaving, the next packet is the encoding of the last command with the life word
of the last accepted status, and its life word is the old one if nothing has been accepted since. -/
theorem transmit_latest (es : List BridgeEvent) :
    (machine.state es).transmit.2.bytes.length = 26 ∧
    (machine.state es).transmit.2.bytes = (encodePacket
      { (latestCommand es).getD {} with
        lifeWord := ((latestAccepted es).map (·.lifeWord)).getD 0 }).bytes ∧
    ∀ fs, (∀ inRaw pending, BridgeEvent.receive inRaw pending ∈ fs → received pending = none) →
      packetLifeWord (machine.state (es ++ fs)).transmit.2.bytes =
        packetLifeWord (machine.state es).transmit.2.bytes := by
  refine ⟨length_bytes _, ?_, fun fs hfs => ?_⟩
  · rw [transmit_eq]
    cases latestAccepted es <;> rfl
  · rw [transmit_packetLifeWord, transmit_packetLifeWord, (sends (es ++ fs)).status,
      (sends es).status, latestAccepted_append hfs]

end ArgusGate.PlcBridgeNode
