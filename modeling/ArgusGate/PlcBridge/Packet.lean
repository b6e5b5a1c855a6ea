import ArgusGate.Foundation.ByteOrder
import ArgusGate.Foundation.Truncate
import ArgusGate.Interfaces

/-!
# The packets between the bridge and the PLC

`RawTxData` and `RawRxData` of `plc_bridge_node.hpp`, their packed layout in the memory of a host
that stores the least significant byte first, and the functions of `packet_utils.cpp`.
-/

namespace ArgusGate

open ByteOrder Truncate

/-! ## Network byte order -/

def htons (x : UInt16) : UInt16 := UInt16.ofNat (swap 2 x.toNat)

def ntohs (x : UInt16) : UInt16 := htons x

def htonl (x : UInt32) : UInt32 := UInt32.ofNat (swap 4 x.toNat)

def ntohl (x : UInt32) : UInt32 := htonl x

theorem htons_toNat (x : UInt16) : (htons x).toNat = swap 2 x.toNat := by
  have hlt : swap 2 x.toNat < 2 ^ 16 := swap_lt 2 x.toNat
  rw [htons, UInt16.toNat_ofNat', Nat.mod_eq_of_lt hlt]

theorem le_htons (x : UInt16) : le 2 (htons x).toNat = be 2 x.toNat := by
  rw [htons_toNat, le_swap]

theorem le_htonl (x : UInt32) : le 4 (htonl x).toNat = be 4 x.toNat := by
  have hlt : swap 4 x.toNat < 2 ^ 32 := swap_lt 4 x.toNat
  rw [htonl, UInt32.toNat_ofNat', Nat.mod_eq_of_lt hlt, le_swap]

/-- A word that is written most significant byte first reads back as it was. -/
theorem ofNat_ofBE_word (x : UInt16) : UInt16.ofNat (ofBE (be 2 x.toNat)) = x := by
  have hlt : x.toNat < 256 ^ 2 := x.toNat_lt
  rw [ofBE_be, Nat.mod_eq_of_lt hlt, UInt16.ofNat_toNat]

theorem ofNat_ofBE_dword (x : UInt32) : UInt32.ofNat (ofBE (be 4 x.toNat)) = x := by
  have hlt : x.toNat < 256 ^ 4 := x.toNat_lt
  rw [ofBE_be, Nat.mod_eq_of_lt hlt, UInt32.ofNat_toNat]

/-- `static_cast<int32_t>` of a floating-point value: truncation toward zero. Outside the range of
`int32_t`, where C++ leaves the result undefined, the value here is the truncation modulo 2^32. -/
def toInt32 (x : ℚ) : Int32 := Int32.ofInt (x.num.tdiv x.den)

/-- The cast keeps the truncated value exactly if that is a value of `int32_t`. -/
theorem toInt32_toInt_iff (x : ℚ) : (toInt32 x).toInt = trunc x ↔
    (-2147483649 : ℚ) < x ∧ x < (2147483648 : ℚ) := by
  have hlo := lt_trunc_iff (x := x) (n := -2147483649) (by decide)
  have hhi := trunc_lt_iff (x := x) (n := 2147483648) (by decide)
  push_cast at hlo hhi
  rw [← hlo, ← hhi, toInt32, ← trunc_rat]
  constructor
  · intro h
    have hmin := Int32.le_toInt (Int32.ofInt (trunc x))
    have hmax := Int32.toInt_lt (Int32.ofInt (trunc x))
    omega
  · intro h
    exact Int32.toInt_ofInt_of_le (by omega) (by omega)

/-! ## The packet to the PLC -/

/-- `RawTxData`, with the member values the host computes. -/
structure RawTxData where
  id : UInt16
  lifeWord : UInt16
  flags : UInt8
  jogs : UInt8
  mode : Int16
  pitchOverride : Int32
  yawOverride : Int32
  targetPitch : Int32
  targetYaw : Int32
  checksum : UInt16
  deriving DecidableEq

def encodePacket (d : PlcCommand) : RawTxData where
  id := htons 200
  lifeWord := htons d.lifeWord
  flags := UInt8.ofNat (d.ack.toNat <<< 0 ||| d.exec.toNat <<< 1 ||| d.fire.toNat <<< 2)
  jogs := UInt8.ofNat (d.pitchJogP.toNat <<< 0 ||| d.pitchJogN.toNat <<< 1 |||
    d.yawJogP.toNat <<< 2 ||| d.yawJogN.toNat <<< 3)
  mode := (htons d.mode.toUInt16).toInt16
  pitchOverride := (htonl (toInt32 (d.pitchOverride * 100)).toUInt32).toInt32
  yawOverride := (htonl (toInt32 (d.yawOverride * 100)).toUInt32).toInt32
  targetPitch := (htonl (toInt32 (d.targetPitch * 100)).toUInt32).toInt32
  targetYaw := (htonl (toInt32 (d.targetYaw * 100)).toUInt32).toInt32
  checksum := htons d.checksum

/-- The 26 bytes of the struct in memory, which `socket_.send` puts on the wire. -/
def RawTxData.bytes (p : RawTxData) : List UInt8 :=
  le 2 p.id.toNat ++ le 2 p.lifeWord.toNat ++ [p.flags, p.jogs] ++
  le 2 p.mode.toUInt16.toNat ++ le 4 p.pitchOverride.toUInt32.toNat ++
  le 4 p.yawOverride.toUInt32.toNat ++ le 4 p.targetPitch.toUInt32.toNat ++
  le 4 p.targetYaw.toUInt32.toNat ++ le 2 p.checksum.toNat

/-- Bit `i` of byte `k` of a packet. -/
def packetBit (packet : List UInt8) (k i : ℕ) : Bool := (packet.getD k 0).toNat.testBit i

/-- The ack flag of a packet: bit 0 of the byte at offset 4. -/
def packetAck (packet : List UInt8) : Bool := packetBit packet 4 0

/-- The exec flag of a packet: bit 1 of the byte at offset 4. -/
def packetExec (packet : List UInt8) : Bool := packetBit packet 4 1

/-- One of the four jog bits of a packet: bits 0 to 3 of the byte at offset 5. -/
def packetJogs (packet : List UInt8) : Bool :=
  packetBit packet 5 0 || packetBit packet 5 1 || packetBit packet 5 2 || packetBit packet 5 3

/-- The word of a packet at offset `k`, most significant byte first. -/
def packetWord (packet : List UInt8) (k : ℕ) : UInt16 :=
  UInt16.ofNat (ofBE ((packet.drop k).take 2))

def packetId (packet : List UInt8) : UInt16 := packetWord packet 0

def packetLifeWord (packet : List UInt8) : UInt16 := packetWord packet 2

theorem packetWord_of_be {packet : List UInt8} {k : ℕ} {x : UInt16}
    (h : (packet.drop k).take 2 = be 2 x.toNat) : packetWord packet k = x := by
  rw [packetWord, h, ofNat_ofBE_word]

/-- A packet that is cut behind a word still has the word. -/
theorem packetWord_take (packet : List UInt8) {n k : ℕ} (h : k + 2 ≤ n) :
    packetWord (packet.take n) k = packetWord packet k := by
  have hshort : min 2 (n - k) = 2 := by omega
  rw [packetWord, List.drop_take, List.take_take, hshort, packetWord]

/-- Bit `i` of a byte that is put together from single bits. -/
theorem testBit_bits (a b c d : Bool) (i : ℕ) :
    (UInt8.ofNat (a.toNat <<< 0 ||| b.toNat <<< 1 ||| c.toNat <<< 2 ||| d.toNat <<< 3)).toNat.testBit
      i = [a, b, c, d].getD i false := by
  rw [UInt8.toNat_ofNat', Nat.testBit_mod_two_pow]
  simp only [Nat.testBit_or, Nat.testBit_shiftLeft, Nat.testBit_bool_toNat]
  rcases i with _ | _ | _ | _ | i <;> simp

/-- The flags byte of a packet holds the flags of the command and nothing else. -/
theorem packetBit_flags (d : PlcCommand) (i : ℕ) :
    packetBit (encodePacket d).bytes 4 i = [d.ack, d.exec, d.fire].getD i false := by
  have hflags : (encodePacket d).bytes.getD 4 0 = UInt8.ofNat (d.ack.toNat <<< 0 |||
      d.exec.toNat <<< 1 ||| d.fire.toNat <<< 2 ||| false.toNat <<< 3) := by
    simp [encodePacket, RawTxData.bytes, le]
  rw [packetBit, hflags, testBit_bits]
  rcases i with _ | _ | _ | _ | i <;> rfl

theorem packetBit_jogs (d : PlcCommand) (i : ℕ) : packetBit (encodePacket d).bytes 5 i =
    [d.pitchJogP, d.pitchJogN, d.yawJogP, d.yawJogN].getD i false :=
  testBit_bits d.pitchJogP d.pitchJogN d.yawJogP d.yawJogN i

theorem packetAck_encode (d : PlcCommand) : packetAck (encodePacket d).bytes = d.ack :=
  packetBit_flags d 0

theorem packetExec_encode (d : PlcCommand) : packetExec (encodePacket d).bytes = d.exec :=
  packetBit_flags d 1

theorem packetJogs_encode (d : PlcCommand) : packetJogs (encodePacket d).bytes = d.jogs := by
  simp only [packetJogs, packetBit_jogs]
  rfl

theorem packetLifeWord_encode (d : PlcCommand) :
    packetLifeWord (encodePacket d).bytes = d.lifeWord :=
  packetWord_of_be (le_htons d.lifeWord)

/-- The DINT of a packet at offset `k`, most significant byte first, in two's complement. -/
def packetDint (packet : List UInt8) (k : ℕ) : Int32 :=
  (UInt32.ofNat (ofBE ((packet.drop k).take 4))).toInt32

theorem packetDint_of_be {packet : List UInt8} {k : ℕ} {x : Int32}
    (h : (packet.drop k).take 4 = be 4 x.toUInt32.toNat) : packetDint packet k = x := by
  rw [packetDint, h, ofNat_ofBE_dword, Int32.toInt32_toUInt32]

/-- A DINT in network order reads back as it was. -/
theorem packetDint_of_bytes {packet : List UInt8} {k : ℕ} {x : Int32}
    (h : (packet.drop k).take 4 = le 4 (htonl x.toUInt32).toInt32.toUInt32.toNat) :
    packetDint packet k = x := by
  apply packetDint_of_be
  rw [h, UInt32.toUInt32_toInt32, le_htonl]

/-- The targets of a packet, at the offsets 16 and 20. -/
theorem packetTargets_encode (d : PlcCommand) :
    packetDint (encodePacket d).bytes 16 = toInt32 (d.targetPitch * 100) ∧
    packetDint (encodePacket d).bytes 20 = toInt32 (d.targetYaw * 100) :=
  ⟨packetDint_of_bytes rfl, packetDint_of_bytes rfl⟩

example : ((encodePacket { exec := true, mode := 3, targetPitch := -1 }).bytes.take 8,
    (encodePacket { exec := true, mode := 3, targetPitch := -1 }).bytes.drop 16) =
    ([0, 200, 0, 0, 2, 0, 0, 3], [255, 255, 255, 156, 0, 0, 0, 0, 0, 0]) := by
  decide +kernel

/-! ## The packet from the PLC -/

/-- The memory of a `RawRxData`. -/
abbrev RxBuffer := Vector UInt8 20

/-- `RawRxData`, with the member values the host loads. -/
structure RawRxData where
  id : UInt16
  lifeWord : UInt16
  flags : UInt8
  reserved : UInt8
  status : Int16
  error : Int16
  posPitch : Int32
  posYaw : Int32
  checksum : UInt16

def RawRxData.ofBytes (b : RxBuffer) : RawRxData where
  id := UInt16.ofNat (ofLE [b[0], b[1]])
  lifeWord := UInt16.ofNat (ofLE [b[2], b[3]])
  flags := b[4]
  reserved := b[5]
  status := (UInt16.ofNat (ofLE [b[6], b[7]])).toInt16
  error := (UInt16.ofNat (ofLE [b[8], b[9]])).toInt16
  posPitch := (UInt32.ofNat (ofLE [b[10], b[11], b[12], b[13]])).toInt32
  posYaw := (UInt32.ofNat (ofLE [b[14], b[15], b[16], b[17]])).toInt32
  checksum := UInt16.ofNat (ofLE [b[18], b[19]])

def decodePacket (raw : RawRxData) : PlcStatus where
  lifeWord := ntohs raw.lifeWord
  done := raw.flags >>> 0 &&& 1 ≠ 0
  busy := raw.flags >>> 1 &&& 1 ≠ 0
  synch := raw.flags >>> 2 &&& 1 ≠ 0
  onTarget := raw.flags >>> 3 &&& 1 ≠ 0
  status := (ntohs raw.status.toUInt16).toInt16
  error := (ntohs raw.error.toUInt16).toInt16
  posPitch := ((ntohl raw.posPitch.toUInt32).toInt32.toInt : ℚ) / 100
  posYaw := ((ntohl raw.posYaw.toUInt32).toInt32.toInt : ℚ) / 100
  checksum := ntohs raw.checksum

/-- A word loaded from two bytes and swapped is the number they write most significant first. -/
theorem ntohs_ofLE (b₀ b₁ : UInt8) :
    ntohs (UInt16.ofNat (ofLE [b₀, b₁])) = UInt16.ofNat (ofBE [b₀, b₁]) := by
  have hlt : ofLE [b₀, b₁] < 2 ^ 16 := (ofLE_lt [b₀, b₁]).trans_eq (by simp)
  have hload : (UInt16.ofNat (ofLE [b₀, b₁])).toNat = ofLE [b₀, b₁] := by
    rw [UInt16.toNat_ofNat', Nat.mod_eq_of_lt hlt]
  rw [ntohs, htons, hload]
  exact congrArg UInt16.ofNat (swap_ofLE [b₀, b₁])

theorem ntohl_ofLE (b₀ b₁ b₂ b₃ : UInt8) :
    ntohl (UInt32.ofNat (ofLE [b₀, b₁, b₂, b₃])) = UInt32.ofNat (ofBE [b₀, b₁, b₂, b₃]) := by
  have hlt : ofLE [b₀, b₁, b₂, b₃] < 2 ^ 32 := (ofLE_lt [b₀, b₁, b₂, b₃]).trans_eq (by simp)
  have hload : (UInt32.ofNat (ofLE [b₀, b₁, b₂, b₃])).toNat = ofLE [b₀, b₁, b₂, b₃] := by
    rw [UInt32.toNat_ofNat', Nat.mod_eq_of_lt hlt]
  rw [ntohl, htonl, hload]
  exact congrArg UInt32.ofNat (swap_ofLE [b₀, b₁, b₂, b₃])

/-- Two neighbouring bytes of the buffer. -/
theorem take_drop_toList (b : RxBuffer) {k : ℕ} (hk : k + 1 < 20) :
    (b.toList.drop k).take 2 = [b[k], b[k + 1]] := by
  have hlen : b.toList.length = 20 := b.length_toList
  rw [List.drop_eq_getElem_cons (by omega), List.drop_eq_getElem_cons (by omega)]
  simp

/-- Four neighbouring bytes of the buffer. -/
theorem take_drop_toList_four (b : RxBuffer) {k : ℕ} (hk : k + 3 < 20) :
    (b.toList.drop k).take 4 = [b[k], b[k + 1], b[k + 2], b[k + 3]] := by
  have hlen : b.toList.length = 20 := b.length_toList
  rw [List.drop_eq_getElem_cons (by omega), List.drop_eq_getElem_cons (by omega),
    List.drop_eq_getElem_cons (by omega), List.drop_eq_getElem_cons (by omega)]
  simp

theorem packetWord_toList (b : RxBuffer) (k : ℕ) (hk : k + 1 < 20) :
    packetWord b.toList k = ntohs (UInt16.ofNat (ofLE [b[k], b[k + 1]])) := by
  rw [packetWord, take_drop_toList b hk, ntohs_ofLE]

theorem packetDint_toList (b : RxBuffer) (k : ℕ) (hk : k + 3 < 20) : packetDint b.toList k =
    (ntohl (UInt32.ofNat (ofLE [b[k], b[k + 1], b[k + 2], b[k + 3]]))).toInt32 := by
  rw [packetDint, take_drop_toList_four b hk, ntohl_ofLE]

/-- The mask that `decode_packet` applies to a flag. -/
theorem flag_eq (flags : UInt8) {k : ℕ} (hk : k < 8) :
    decide (flags >>> UInt8.ofNat k &&& 1 ≠ 0) = flags.toNat.testBit k := by
  have hmask : (flags >>> UInt8.ofNat k &&& 1).toNat = (flags.toNat.testBit k).toNat := by
    rw [UInt8.toNat_and, UInt8.toNat_shiftRight, UInt8.toNat_ofNat', Nat.toNat_testBit,
      Nat.shiftRight_eq_div_pow, Nat.mod_eq_of_lt (by omega : k < 2 ^ 8), Nat.mod_eq_of_lt hk]
    exact Nat.and_one_is_mod _
  simp only [ne_eq, ← UInt8.toNat_inj, hmask]
  cases flags.toNat.testBit k <;> rfl

theorem packetBit_toList (b : RxBuffer) (i : ℕ) (hi : i < 8) :
    packetBit b.toList 4 i = decide (b[4] >>> UInt8.ofNat i &&& 1 ≠ 0) := by
  have hbyte : b.toList.getD 4 0 = b[4] := by simp
  rw [flag_eq b[4] hi, packetBit, hbyte]

/-- What `decode_packet` reads off the buffer. -/
theorem decodePacket_eq (b : RxBuffer) : decodePacket (RawRxData.ofBytes b) =
    { lifeWord := packetWord b.toList 2
      done := packetBit b.toList 4 0
      busy := packetBit b.toList 4 1
      synch := packetBit b.toList 4 2
      onTarget := packetBit b.toList 4 3
      status := (packetWord b.toList 6).toInt16
      error := (packetWord b.toList 8).toInt16
      posPitch := ((packetDint b.toList 10).toInt : ℚ) / 100
      posYaw := ((packetDint b.toList 14).toInt : ℚ) / 100
      checksum := packetWord b.toList 18 } := by
  rw [packetWord_toList b 2 (by omega), packetWord_toList b 6 (by omega),
    packetWord_toList b 8 (by omega), packetWord_toList b 18 (by omega),
    packetDint_toList b 10 (by omega), packetDint_toList b 14 (by omega),
    packetBit_toList b 0 (by omega), packetBit_toList b 1 (by omega),
    packetBit_toList b 2 (by omega), packetBit_toList b 3 (by omega)]
  simp only [decodePacket, RawRxData.ofBytes, UInt16.toUInt16_toInt16, UInt32.toUInt32_toInt32]
  rfl

theorem ntohs_id (b : RxBuffer) : ntohs (RawRxData.ofBytes b).id = packetId b.toList :=
  (packetWord_toList b 0 (by omega)).symm

theorem decodePacket_lifeWord (b : RxBuffer) :
    (decodePacket (RawRxData.ofBytes b)).lifeWord = packetLifeWord b.toList := by
  rw [decodePacket_eq]
  rfl

/-! ## The datagrams of a PLC -/

/-- A status datagram: the id and the life word of the status, most significant byte first, and
whatever the PLC writes into the other 16 bytes. -/
def statusDatagram (st : PlcStatus) (rest : Vector UInt8 16) : List UInt8 :=
  be 2 201 ++ be 2 st.lifeWord.toNat ++ rest.toList

/-- A datagram of the size and with the id that the bridge looks for. -/
structure StatusFrame (datagram : List UInt8) : Prop where
  size : datagram.length = 20
  id : packetId datagram = 201

instance (datagram : List UInt8) : Decidable (StatusFrame datagram) :=
  decidable_of_iff (datagram.length = 20 ∧ packetId datagram = 201)
    ⟨fun h => ⟨h.1, h.2⟩, fun h => ⟨h.size, h.id⟩⟩

theorem statusFrame_statusDatagram (st : PlcStatus) (rest : Vector UInt8 16) :
    StatusFrame (statusDatagram st rest) where
  size := by simp [statusDatagram]
  id := packetWord_of_be (x := 201) rfl

theorem packetLifeWord_statusDatagram (st : PlcStatus) (rest : Vector UInt8 16) :
    packetLifeWord (statusDatagram st rest) = st.lifeWord := by
  have hbytes : ((statusDatagram st rest).drop 2).take 2 = be 2 st.lifeWord.toNat := rfl
  exact packetWord_of_be hbytes

end ArgusGate
