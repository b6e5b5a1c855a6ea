import ArgusGate.PlcBridge.Packet

/-!
# The wire format

What the bytes of a packet say when they are read most significant byte first at the offsets that
`plc_bridge_node.hpp` documents, and what a pair of packets has in common that say the same.
-/

namespace ArgusGate

open ByteOrder Truncate

/-! ## The packet to the PLC -/

/-- The DINT `q` holds `x` in hundredths, truncated toward zero. -/
structure Hundredths (x : ℚ) (q : Int32) : Prop where
  eq_trunc : q.toInt = trunc (100 * x)
  near : |(q.toInt : ℚ) / 100 - x| < 1 / 100
  nonneg : 0 ≤ x → 0 ≤ q.toInt
  nonpos : x ≤ 0 → q.toInt ≤ 0

/-- The scaled fields of the command fit into a DINT. -/
structure Fits (d : PlcCommand) : Prop where
  pitchOverride : |100 * d.pitchOverride| < 2 ^ 31
  yawOverride : |100 * d.yawOverride| < 2 ^ 31
  targetPitch : |100 * d.targetPitch| < 2 ^ 31
  targetYaw : |100 * d.targetYaw| < 2 ^ 31

/-- The packet says what the command says, and nothing else. -/
structure Carries (packet : List UInt8) (d : PlcCommand) : Prop where
  length : packet.length = 26
  id : packetWord packet 0 = 200
  lifeWord : packetWord packet 2 = d.lifeWord
  flags (i : ℕ) : packetBit packet 4 i = [d.ack, d.exec, d.fire].getD i false
  jogs (i : ℕ) : packetBit packet 5 i =
    [d.pitchJogP, d.pitchJogN, d.yawJogP, d.yawJogN].getD i false
  mode : (packetWord packet 6).toInt16 = d.mode
  pitchOverride : Hundredths d.pitchOverride (packetDint packet 8)
  yawOverride : Hundredths d.yawOverride (packetDint packet 12)
  targetPitch : Hundredths d.targetPitch (packetDint packet 16)
  targetYaw : Hundredths d.targetYaw (packetDint packet 20)
  checksum : packetWord packet 24 = d.checksum

/-- The two commands differ at most in what truncation drops. -/
structure SameOnWire (d d' : PlcCommand) : Prop where
  lifeWord : d.lifeWord = d'.lifeWord
  ack : d.ack = d'.ack
  exec : d.exec = d'.exec
  fire : d.fire = d'.fire
  pitchJogP : d.pitchJogP = d'.pitchJogP
  pitchJogN : d.pitchJogN = d'.pitchJogN
  yawJogP : d.yawJogP = d'.yawJogP
  yawJogN : d.yawJogN = d'.yawJogN
  mode : d.mode = d'.mode
  pitchOverride : trunc (100 * d.pitchOverride) = trunc (100 * d'.pitchOverride)
  yawOverride : trunc (100 * d.yawOverride) = trunc (100 * d'.yawOverride)
  targetPitch : trunc (100 * d.targetPitch) = trunc (100 * d'.targetPitch)
  targetYaw : trunc (100 * d.targetYaw) = trunc (100 * d'.targetYaw)
  checksum : d.checksum = d'.checksum

theorem hundredths_toInt32 {x : ℚ} (h : |100 * x| < 2 ^ 31) : Hundredths x (toInt32 (x * 100)) := by
  obtain ⟨hlo, hhi⟩ := abs_lt.mp h
  have heq : (toInt32 (x * 100)).toInt = trunc (100 * x) := by
    rw [mul_comm x]
    exact (toInt32_toInt_iff (100 * x)).mpr ⟨by linarith, by linarith⟩
  refine ⟨heq, ?_, fun hx => ?_, fun hx => ?_⟩
  · have hdrop : |(trunc (100 * x) : ℚ) - 100 * x| < 1 := abs_trunc_sub_lt _
    have hscale : (trunc (100 * x) : ℚ) / 100 - x = ((trunc (100 * x) : ℚ) - 100 * x) / 100 := by
      ring
    rw [heq, hscale, abs_div, abs_of_pos (by norm_num : (0 : ℚ) < 100)]
    exact div_lt_div_of_pos_right hdrop (by norm_num)
  · rw [heq]
    exact trunc_nonneg (by linarith)
  · rw [heq]
    exact trunc_nonpos (by linarith)

/-- A scaled field, where the packet has its bytes. -/
theorem hundredths_of_bytes {packet : List UInt8} {k : ℕ} {x : ℚ}
    (h : (packet.drop k).take 4 =
      le 4 (htonl (toInt32 (x * 100)).toUInt32).toInt32.toUInt32.toNat)
    (hx : |100 * x| < 2 ^ 31) : Hundredths x (packetDint packet k) := by
  rw [packetDint_of_bytes h]
  exact hundredths_toInt32 hx

theorem carries_encode {d : PlcCommand} (h : Fits d) : Carries (encodePacket d).bytes d where
  length := by simp [RawTxData.bytes]
  id := packetWord_of_be (x := 200) (le_htons 200)
  lifeWord := packetWord_of_be (le_htons d.lifeWord)
  flags := packetBit_flags d
  jogs := packetBit_jogs d
  mode := by
    have hword : packetWord (encodePacket d).bytes 6 = d.mode.toUInt16 := by
      apply packetWord_of_be
      rw [← le_htons]
      rfl
    rw [hword, Int16.toInt16_toUInt16]
  pitchOverride := hundredths_of_bytes rfl h.pitchOverride
  yawOverride := hundredths_of_bytes rfl h.yawOverride
  targetPitch := hundredths_of_bytes rfl h.targetPitch
  targetYaw := hundredths_of_bytes rfl h.targetYaw
  checksum := packetWord_of_be (le_htons d.checksum)

/-- A packet leaves only the digits open that truncation drops. -/
theorem sameOnWire_of_carries {packet : List UInt8} {d d' : PlcCommand} (h : Carries packet d)
    (h' : Carries packet d') : SameOnWire d d' where
  lifeWord := h.lifeWord.symm.trans h'.lifeWord
  ack := (h.flags 0).symm.trans (h'.flags 0)
  exec := (h.flags 1).symm.trans (h'.flags 1)
  fire := (h.flags 2).symm.trans (h'.flags 2)
  pitchJogP := (h.jogs 0).symm.trans (h'.jogs 0)
  pitchJogN := (h.jogs 1).symm.trans (h'.jogs 1)
  yawJogP := (h.jogs 2).symm.trans (h'.jogs 2)
  yawJogN := (h.jogs 3).symm.trans (h'.jogs 3)
  mode := h.mode.symm.trans h'.mode
  pitchOverride := h.pitchOverride.eq_trunc.symm.trans h'.pitchOverride.eq_trunc
  yawOverride := h.yawOverride.eq_trunc.symm.trans h'.yawOverride.eq_trunc
  targetPitch := h.targetPitch.eq_trunc.symm.trans h'.targetPitch.eq_trunc
  targetYaw := h.targetYaw.eq_trunc.symm.trans h'.targetYaw.eq_trunc
  checksum := h.checksum.symm.trans h'.checksum

theorem encodePacket_eq {d d' : PlcCommand} (h : SameOnWire d d') :
    encodePacket d = encodePacket d' := by
  have hcast : ∀ {x y : ℚ}, trunc (100 * x) = trunc (100 * y) →
      toInt32 (x * 100) = toInt32 (y * 100) := by
    intro x y hxy
    rw [toInt32, toInt32, ← trunc_rat, ← trunc_rat, mul_comm x, mul_comm y, hxy]
  simp only [encodePacket, h.lifeWord, h.ack, h.exec, h.fire, h.pitchJogP, h.pitchJogN, h.yawJogP,
    h.yawJogN, h.mode, hcast h.pitchOverride, hcast h.yawOverride, hcast h.targetPitch,
    hcast h.targetYaw, h.checksum]

/-- The wire format of a command: its packet says what it says, and two commands have one packet
exactly if they are the same up to truncation. -/
theorem encodePacket_format (d d' : PlcCommand) (h : Fits d) (h' : Fits d') :
    Carries (encodePacket d).bytes d ∧
    ((encodePacket d).bytes = (encodePacket d').bytes ↔ SameOnWire d d') := by
  refine ⟨carries_encode h, fun heq => ?_, fun hsame => congrArg _ (encodePacket_eq hsame)⟩
  have hcarries := carries_encode h
  rw [heq] at hcarries
  exact sameOnWire_of_carries hcarries (carries_encode h')

/-- A target of -1/3 has the packet of -33/100, and reads back so. -/
theorem encodePacket_format_third :
    let d : PlcCommand := { mode := -1, targetPitch := -1 / 3 }
    let d' : PlcCommand := { mode := -1, targetPitch := -33 / 100 }
    Hundredths d.targetPitch (packetDint (encodePacket d).bytes 16) ∧
    (packetWord (encodePacket d).bytes 6).toInt16 = -1 ∧
    (encodePacket d).bytes = (encodePacket d').bytes := by
  intro d d'
  have hfits : Fits d := by constructor <;> decide +kernel
  have hfits' : Fits d' := by constructor <;> decide +kernel
  obtain ⟨hcarries, hsame⟩ := encodePacket_format d d' hfits hfits'
  refine ⟨hcarries.targetPitch, hcarries.mode, hsame.mpr ?_⟩
  constructor <;> decide +kernel

/-! ## The packet from the PLC -/

/-- A status as a PLC holds it: the positions are in hundredths. -/
structure WireStatus where
  lifeWord : UInt16
  done : Bool
  busy : Bool
  synch : Bool
  onTarget : Bool
  status : Int16
  error : Int16
  posPitch : Int32
  posYaw : Int32
  checksum : UInt16

def WireStatus.toStatus (w : WireStatus) : PlcStatus where
  lifeWord := w.lifeWord
  done := w.done
  busy := w.busy
  synch := w.synch
  onTarget := w.onTarget
  status := w.status
  error := w.error
  posPitch := (w.posPitch.toInt : ℚ) / 100
  posYaw := (w.posYaw.toInt : ℚ) / 100
  checksum := w.checksum

/-- The flags byte of a status, with the bits 4 to 7 in `spare`. -/
def WireStatus.flags (w : WireStatus) (spare : Fin 16) : UInt8 :=
  UInt8.ofNat (w.done.toNat <<< 0 ||| w.busy.toNat <<< 1 ||| w.synch.toNat <<< 2 |||
    w.onTarget.toNat <<< 3 ||| spare.val <<< 4)

/-- The image of a status on the wire: each field at its offset, most significant byte first. The id
and what no field uses may be anything. -/
def WireStatus.image (w : WireStatus) (id : UInt16) (spare : Fin 16) (reserved : UInt8) :
    RxBuffer :=
  ⟨(be 2 id.toNat ++ be 2 w.lifeWord.toNat ++ [w.flags spare, reserved] ++
    be 2 w.status.toUInt16.toNat ++ be 2 w.error.toUInt16.toNat ++
    be 4 w.posPitch.toUInt32.toNat ++ be 4 w.posYaw.toUInt32.toNat ++
    be 2 w.checksum.toNat).toArray, by simp⟩

theorem testBit_flags (w : WireStatus) (spare : Fin 16) {i : ℕ} (hi : i < 4) :
    (w.flags spare).toNat.testBit i = [w.done, w.busy, w.synch, w.onTarget].getD i false := by
  rw [WireStatus.flags, UInt8.toNat_ofNat', Nat.testBit_mod_two_pow]
  simp only [Nat.testBit_or, Nat.testBit_shiftLeft, Nat.testBit_bool_toNat]
  rcases i with _ | _ | _ | _ | i
  · simp
  · simp
  · simp
  · simp
  · omega

/-- A field of a packet, byte by byte. -/
theorem take_drop_eq_map {packet : List UInt8} {k w : ℕ} (h : k + w ≤ packet.length) :
    (packet.drop k).take w = (List.range' k w).map fun i => packet.getD i 0 := by
  apply List.ext_getElem
  · rw [List.length_take, List.length_drop, List.length_map, List.length_range']
    omega
  · intro i hi hi'
    rw [List.length_map, List.length_range'] at hi'
    simp [List.getElem?_eq_getElem (show k + i < packet.length by omega)]

/-- Decoding undoes the image, whatever the other bits hold. -/
theorem decodePacket_image (w : WireStatus) (id : UInt16) (spare : Fin 16) (reserved : UInt8) :
    decodePacket (RawRxData.ofBytes (w.image id spare reserved)) = w.toStatus := by
  have hlifeWord : packetWord (w.image id spare reserved).toList 2 = w.lifeWord :=
    packetWord_of_be rfl
  have hstatus : packetWord (w.image id spare reserved).toList 6 = w.status.toUInt16 :=
    packetWord_of_be rfl
  have herror : packetWord (w.image id spare reserved).toList 8 = w.error.toUInt16 :=
    packetWord_of_be rfl
  have hpitch : packetDint (w.image id spare reserved).toList 10 = w.posPitch :=
    packetDint_of_be rfl
  have hyaw : packetDint (w.image id spare reserved).toList 14 = w.posYaw :=
    packetDint_of_be rfl
  have hchecksum : packetWord (w.image id spare reserved).toList 18 = w.checksum :=
    packetWord_of_be rfl
  have hflags : ∀ i < 4, packetBit (w.image id spare reserved).toList 4 i =
      [w.done, w.busy, w.synch, w.onTarget].getD i false :=
    fun i hi => testBit_flags w spare hi
  rw [decodePacket_eq, hlifeWord, hstatus, herror, hpitch, hyaw, hchecksum, hflags 0 (by omega),
    hflags 1 (by omega), hflags 2 (by omega), hflags 3 (by omega), Int16.toInt16_toUInt16,
    Int16.toInt16_toUInt16]
  rfl

/-- The two packets have the same bytes from offset `k` on, `w` of them. -/
def AgreeOn (packet packet' : List UInt8) (k w : ℕ) : Prop :=
  ∀ i, k ≤ i → i < k + w → packet.getD i 0 = packet'.getD i 0

/-- Two fields of one width stand for the same number exactly if they agree byte by byte. -/
theorem ofBE_field_inj {packet packet' : List UInt8} {k w : ℕ} (h : k + w ≤ packet.length)
    (h' : k + w ≤ packet'.length) :
    ofBE ((packet.drop k).take w) = ofBE ((packet'.drop k).take w) ↔
      AgreeOn packet packet' k w := by
  rw [take_drop_eq_map h, take_drop_eq_map h', ofBE_inj (by simp)]
  simp [AgreeOn, List.mem_range'_1]

theorem ofBE_field_lt (packet : List UInt8) (k w : ℕ) :
    ofBE ((packet.drop k).take w) < 256 ^ w :=
  (ofBE_lt _).trans_le (Nat.pow_le_pow_right (by omega) (List.length_take_le w _))

theorem packetWord_inj {packet packet' : List UInt8} {k : ℕ} (h : k + 2 ≤ packet.length)
    (h' : k + 2 ≤ packet'.length) :
    packetWord packet k = packetWord packet' k ↔ AgreeOn packet packet' k 2 := by
  have hload : ∀ p, (packetWord p k).toNat = ofBE ((p.drop k).take 2) :=
    fun p => Nat.mod_eq_of_lt (ofBE_field_lt p k 2)
  rw [← UInt16.toNat_inj, hload, hload, ofBE_field_inj h h']

theorem packetDint_inj {packet packet' : List UInt8} {k : ℕ} (h : k + 4 ≤ packet.length)
    (h' : k + 4 ≤ packet'.length) :
    packetDint packet k = packetDint packet' k ↔ AgreeOn packet packet' k 4 := by
  have hload : ∀ p, (packetDint p k).toUInt32.toNat = ofBE ((p.drop k).take 4) :=
    fun p => Nat.mod_eq_of_lt (ofBE_field_lt p k 4)
  have hinj : Function.Injective Int32.toUInt32 :=
    Function.LeftInverse.injective Int32.toInt32_toUInt32
  rw [← hinj.eq_iff, ← UInt32.toNat_inj, hload, hload, ofBE_field_inj h h']

/-- The two images agree on every bit that a field of the status uses: all but the id, the bits 4 to 7
of the flags and the reserved byte. -/
structure SameStatusBits (image image' : List UInt8) : Prop where
  bytes (i : ℕ) : i < 20 → i ∉ [0, 1, 4, 5] → image.getD i 0 = image'.getD i 0
  flags (i : ℕ) : i < 4 → packetBit image 4 i = packetBit image' 4 i

/-- The status agrees field by field. -/
structure SameFields (image image' : List UInt8) : Prop where
  lifeWord : AgreeOn image image' 2 2
  done : packetBit image 4 0 = packetBit image' 4 0
  busy : packetBit image 4 1 = packetBit image' 4 1
  synch : packetBit image 4 2 = packetBit image' 4 2
  onTarget : packetBit image 4 3 = packetBit image' 4 3
  status : AgreeOn image image' 6 2
  error : AgreeOn image image' 8 2
  posPitch : AgreeOn image image' 10 4
  posYaw : AgreeOn image image' 14 4
  checksum : AgreeOn image image' 18 2

/-- Every significant byte of an image lies in one of the fields. -/
theorem SameFields.bytes {image image' : List UInt8} (h : SameFields image image') {i : ℕ}
    (hi : i < 20) (hother : i ∉ [0, 1, 4, 5]) : image.getD i 0 = image'.getD i 0 := by
  have hfield : (2 ≤ i ∧ i < 4) ∨ (6 ≤ i ∧ i < 8) ∨ (8 ≤ i ∧ i < 10) ∨ (10 ≤ i ∧ i < 14) ∨
      (14 ≤ i ∧ i < 18) ∨ (18 ≤ i ∧ i < 20) := by
    simp only [List.mem_cons, List.not_mem_nil, or_false, not_or] at hother
    omega
  rcases hfield with ⟨hle, hlt⟩ | ⟨hle, hlt⟩ | ⟨hle, hlt⟩ | ⟨hle, hlt⟩ | ⟨hle, hlt⟩ | ⟨hle, hlt⟩
  · exact h.lifeWord i hle hlt
  · exact h.status i hle hlt
  · exact h.error i hle hlt
  · exact h.posPitch i hle hlt
  · exact h.posYaw i hle hlt
  · exact h.checksum i hle hlt

/-- No field of the status reaches into the bytes that do not count. -/
theorem SameStatusBits.agreeOn {image image' : List UInt8} (h : SameStatusBits image image')
    {k w : ℕ} (hk : k + w ≤ 20) (hother : ∀ i ∈ [0, 1, 4, 5], i < k ∨ k + w ≤ i) :
    AgreeOn image image' k w := by
  intro i hle hlt
  apply h.bytes i (by omega)
  intro hmem
  have := hother i hmem
  omega

theorem sameFields_iff {image image' : List UInt8} :
    SameFields image image' ↔ SameStatusBits image image' := by
  constructor
  · intro h
    refine ⟨fun i hi hother => h.bytes hi hother, fun i hi => ?_⟩
    rcases i with _ | _ | _ | _ | i
    · exact h.done
    · exact h.busy
    · exact h.synch
    · exact h.onTarget
    · omega
  · intro h
    exact
      { lifeWord := h.agreeOn (by omega) (by simp)
        done := h.flags 0 (by omega)
        busy := h.flags 1 (by omega)
        synch := h.flags 2 (by omega)
        onTarget := h.flags 3 (by omega)
        status := h.agreeOn (by omega) (by simp)
        error := h.agreeOn (by omega) (by simp)
        posPitch := h.agreeOn (by omega) (by simp)
        posYaw := h.agreeOn (by omega) (by simp)
        checksum := h.agreeOn (by omega) (by simp) }

/-- Every bit that a field uses counts, and no other. -/
theorem decodePacket_eq_iff (b b' : RxBuffer) :
    decodePacket (RawRxData.ofBytes b) = decodePacket (RawRxData.ofBytes b') ↔
      SameStatusBits b.toList b'.toList := by
  have hscale : ∀ x y : Int32, (x.toInt : ℚ) / 100 = (y.toInt : ℚ) / 100 ↔ x = y := by
    intro x y
    rw [div_left_inj' (by norm_num), Int.cast_inj, Int32.toInt_inj]
  have hinj : Function.Injective UInt16.toInt16 :=
    Function.LeftInverse.injective UInt16.toUInt16_toInt16
  have hlen : b.toList.length = 20 := b.length_toList
  have hlen' : b'.toList.length = 20 := b'.length_toList
  have hword : ∀ k ≤ 18, packetWord b.toList k = packetWord b'.toList k ↔
      AgreeOn b.toList b'.toList k 2 := fun k hk => packetWord_inj (by omega) (by omega)
  have hdint : ∀ k ≤ 16, packetDint b.toList k = packetDint b'.toList k ↔
      AgreeOn b.toList b'.toList k 4 := fun k hk => packetDint_inj (by omega) (by omega)
  rw [decodePacket_eq, decodePacket_eq, PlcStatus.mk.injEq, hscale, hscale, hinj.eq_iff,
    hinj.eq_iff, hword 2 (by omega), hword 6 (by omega), hword 8 (by omega), hword 18 (by omega),
    hdint 10 (by omega), hdint 14 (by omega), ← sameFields_iff]
  constructor
  · rintro ⟨hlifeWord, hdone, hbusy, hsynch, htarget, hstatus, herror, hpitch, hyaw, hchecksum⟩
    exact ⟨hlifeWord, hdone, hbusy, hsynch, htarget, hstatus, herror, hpitch, hyaw, hchecksum⟩
  · intro h
    exact ⟨h.lifeWord, h.done, h.busy, h.synch, h.onTarget, h.status, h.error, h.posPitch,
      h.posYaw, h.checksum⟩

/-- The wire format of a status: decoding is a left inverse of the serializer, and two images decode
to one status exactly if they agree on every bit that a field uses. -/
theorem decodePacket_format (w : WireStatus) (id : UInt16) (spare : Fin 16) (reserved : UInt8)
    (b b' : RxBuffer) :
    decodePacket (RawRxData.ofBytes (w.image id spare reserved)) = w.toStatus ∧
    (decodePacket (RawRxData.ofBytes b) = decodePacket (RawRxData.ofBytes b') ↔
      SameStatusBits b.toList b'.toList) :=
  ⟨decodePacket_image w id spare reserved, decodePacket_eq_iff b b'⟩

example : (decodePacket (RawRxData.ofBytes #v[0, 201, 1, 2, 0xF9, 7, 0, 2, 0xFF, 0xFE,
    0xFF, 0xFF, 0xFF, 0x9C, 0, 0, 0, 50, 3, 4])) =
    { lifeWord := 258, done := true, onTarget := true, status := 2, error := -2, posPitch := -1,
      posYaw := 1 / 2, checksum := 772 } := by
  decide +kernel

end ArgusGate
