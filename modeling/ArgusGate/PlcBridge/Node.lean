import ArgusGate.PlcBridge.Packet

/-!
# The PLC bridge

`PlcBridgeNode` of `argus_plc_bridge/src/plc_bridge_node.cpp`. An iteration of `network_loop` encodes
and sends one packet (`transmit`) and then drains the socket (`receive`), each at one instant; a
command callback can come between the two. The watchdog of the loop only decides about a warning, and is
the business of `NetworkLoop`.
-/

namespace ArgusGate

/-- The two buffers that `mtx_` guards. -/
structure PlcBridgeNode where
  txData : PlcCommand := {}
  rxData : PlcStatus := {}

namespace PlcBridgeNode

def commandCallback (b : PlcBridgeNode) (msg : PlcCommand) : PlcBridgeNode :=
  { b with txData := msg }

/-- The transmission of `network_loop`: the node, and the packet it sends. -/
def transmit (b : PlcBridgeNode) : PlcBridgeNode × RawTxData :=
  let txData := { b.txData with lifeWord := b.rxData.lifeWord }
  ({ b with txData := txData }, encodePacket txData)

/-- `socket_.receive` into a `RawRxData`: the bytes of the datagram that fit, over what the buffer
held before, and their number. -/
def socketReceive (inRaw : RxBuffer) (datagram : List UInt8) : RxBuffer × ℕ :=
  (Vector.ofFn fun i => datagram.getD i inRaw[i], min datagram.length 20)

/-- The reception loop over the pending datagrams. `tempStatus` is `none` as long as
`data_received` is false. -/
def drain (inRaw : RxBuffer) : List (List UInt8) → Option PlcStatus → Option PlcStatus
  | [], tempStatus => tempStatus
  | datagram :: pending, tempStatus =>
    let (inRaw, received) := socketReceive inRaw datagram
    let raw := RawRxData.ofBytes inRaw
    if received = 20 ∧ ntohs raw.id = 201 then drain inRaw pending (some (decodePacket raw))
    else drain inRaw pending tempStatus

/-- The reception of `network_loop`, with the pending datagrams and what the uninitialised buffer
happens to hold: the node, and the status it publishes, if any. -/
def receive (b : PlcBridgeNode) (inRaw : RxBuffer) (pending : List (List UInt8)) :
    PlcBridgeNode × Option PlcStatus :=
  match drain inRaw pending none with
  | some status => ({ b with rxData := status }, some status)
  | none => (b, none)

/-- Transmission only changes the life word of the stored command. -/
@[simp] theorem transmit_drives (b : PlcBridgeNode) :
    b.transmit.1.txData.drives = b.txData.drives := rfl

@[simp] theorem receive_txData (b : PlcBridgeNode) (inRaw : RxBuffer)
    (pending : List (List UInt8)) : (b.receive inRaw pending).1.txData = b.txData := by
  unfold receive
  split <;> rfl

/-- What a sent packet asks for is what the stored command asks for. -/
theorem transmit_packetDrives (b : PlcBridgeNode) :
    (packetExec b.transmit.2.bytes || packetJogs b.transmit.2.bytes) = b.txData.drives := by
  rw [transmit, packetExec_encode, packetJogs_encode]
  rfl

theorem transmit_packetLifeWord (b : PlcBridgeNode) :
    packetLifeWord b.transmit.2.bytes = b.rxData.lifeWord := by
  rw [transmit, packetLifeWord_encode]

/-! ## Reception -/

/-- What the reception loop lets pass: a datagram that fills the buffer, with the id of a status. -/
def accepts (datagram : List UInt8) : Bool :=
  decide (20 ≤ datagram.length) && decide (packetId datagram = 201)

/-- The status in the first 20 bytes of a datagram. -/
def datagramStatus (datagram : List UInt8) : PlcStatus :=
  decodePacket (RawRxData.ofBytes (Vector.ofFn fun i => datagram.getD i 0))

/-- The status that the loop keeps of the pending datagrams. -/
def received (pending : List (List UInt8)) : Option PlcStatus :=
  (pending.filter accepts).getLast?.map datagramStatus

/-- A datagram of 20 bytes or more overwrites the whole buffer. -/
theorem socketReceive_of_le (inRaw : RxBuffer) {datagram : List UInt8}
    (h : 20 ≤ datagram.length) :
    socketReceive inRaw datagram = (Vector.ofFn fun i => datagram.getD i 0, 20) := by
  have hbuffer : (Vector.ofFn fun i : Fin 20 => datagram.getD i inRaw[i]) =
      Vector.ofFn fun i : Fin 20 => datagram.getD i 0 := by
    apply Vector.ext
    intro i hi
    simp [List.getElem?_eq_getElem (show i < datagram.length by omega)]
  rw [socketReceive, hbuffer, Nat.min_eq_right h]

theorem toList_ofFn_getD {datagram : List UInt8} (h : 20 ≤ datagram.length) :
    (Vector.ofFn fun i : Fin 20 => datagram.getD i 0).toList = datagram.take 20 := by
  apply List.ext_getElem
  · simp [h]
  · intro i hi hi'
    have hlt : i < datagram.length := by
      simp only [List.length_take] at hi'
      omega
    simp [List.getElem?_eq_getElem hlt]

theorem ntohs_datagramId {datagram : List UInt8} (h : 20 ≤ datagram.length) :
    ntohs (RawRxData.ofBytes (Vector.ofFn fun i => datagram.getD i 0)).id = packetId datagram := by
  rw [ntohs_id, toList_ofFn_getD h]
  exact packetWord_take datagram (by omega)

theorem datagramStatus_lifeWord {datagram : List UInt8} (h : 20 ≤ datagram.length) :
    (datagramStatus datagram).lifeWord = packetLifeWord datagram := by
  rw [datagramStatus, decodePacket_lifeWord, toList_ofFn_getD h]
  exact packetWord_take datagram (by omega)

/-- One datagram in the loop. -/
theorem drain_cons (inRaw : RxBuffer) (datagram : List UInt8) (pending : List (List UInt8))
    (tempStatus : Option PlcStatus) :
    ∃ inRaw', drain inRaw (datagram :: pending) tempStatus = drain inRaw' pending
      (if accepts datagram then some (datagramStatus datagram) else tempStatus) := by
  refine ⟨(socketReceive inRaw datagram).1, ?_⟩
  rw [drain]
  by_cases hlen : 20 ≤ datagram.length
  · rw [socketReceive_of_le inRaw hlen]
    simp only [ntohs_datagramId hlen]
    by_cases hid : packetId datagram = 201 <;> simp [accepts, hlen, hid, datagramStatus]
  · have hshort : (socketReceive inRaw datagram).2 ≠ 20 := by
      simp only [socketReceive]
      omega
    simp [accepts, hlen, hshort]

/-- The loop keeps the last datagram it lets pass, whatever the buffer held. -/
theorem drain_eq (inRaw : RxBuffer) (pending : List (List UInt8)) (tempStatus : Option PlcStatus) :
    drain inRaw pending tempStatus = (received pending).or tempStatus := by
  induction pending generalizing inRaw tempStatus with
  | nil => rfl
  | cons datagram pending ih =>
    obtain ⟨inRaw', hdrain⟩ := drain_cons inRaw datagram pending tempStatus
    rw [hdrain, ih]
    unfold received
    cases haccept : accepts datagram with
    | false => simp [haccept]
    | true =>
      rw [List.filter_cons_of_pos haccept, List.getLast?_cons]
      cases (pending.filter accepts).getLast? <;> rfl

theorem receive_eq (b : PlcBridgeNode) (inRaw : RxBuffer) (pending : List (List UInt8)) :
    b.receive inRaw pending =
      ({ b with rxData := (received pending).getD b.rxData }, received pending) := by
  rw [receive, drain_eq]
  cases received pending <;> rfl

theorem accepts_of_statusFrame {datagram : List UInt8} (h : StatusFrame datagram) :
    accepts datagram = true := by
  simp [accepts, h.size, h.id]

/-- The life word the bridge holds after draining status frames. -/
theorem receive_lifeWord (b : PlcBridgeNode) (inRaw : RxBuffer) {pending : List (List UInt8)}
    (h : ∀ d ∈ pending, StatusFrame d) : (b.receive inRaw pending).1.rxData.lifeWord =
      (pending.getLast?.map packetLifeWord).getD b.rxData.lifeWord := by
  have hall : pending.filter accepts = pending :=
    List.filter_eq_self.mpr fun d hd => accepts_of_statusFrame (h d hd)
  rw [receive_eq, received, hall]
  cases hlast : pending.getLast? with
  | none => rfl
  | some d =>
    have hframe := h d (List.mem_of_getLast? hlast)
    exact datagramStatus_lifeWord hframe.size.ge

/-- The status the bridge publishes is the one it holds from then on. -/
theorem receive_status {b : PlcBridgeNode} {inRaw : RxBuffer} {pending : List (List UInt8)}
    {st : PlcStatus} (h : (b.receive inRaw pending).2 = some st) :
    (b.receive inRaw pending).1.rxData = st := by
  rw [receive_eq] at h ⊢
  simp only at h
  simp [h]

end PlcBridgeNode

end ArgusGate
