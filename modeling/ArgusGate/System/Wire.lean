import ArgusGate.System.HeldMotion
import ArgusGate.System.Telemetry

/-!
# The two ends of the wire

The graph with the bridge. All that the graph learns of the gate are the datagrams that the bridge accepts,
and all that the PLC learns of the operator are the packets that the bridge sends, again and again and
without a timeout. Both directions are bounded in age all the same: what a packet asks for is what the
operator still asks for, and it rests on a datagram that has come in not long before.
-/

namespace ArgusGate

open Reactive ArgusManagerNode PlcBridgeNode

/-- The two jog bits of an axis in a packet. -/
def Axis.packetJogs : Axis → List UInt8 → Bool
  | .pitch, packet => packetBit packet 5 0 || packetBit packet 5 1
  | .yaw, packet => packetBit packet 5 2 || packetBit packet 5 3

/-- The packet asks for motion of the axis, by its mode SYNCH or FOLLOW or by its jog bits. -/
def Axis.PacketDrives (a : Axis) (packet : List UInt8) : Prop :=
  packetWord packet 6 = 1 ∨ packetWord packet 6 = 3 ∨ a.packetJogs packet = true

instance (a : Axis) (packet : List UInt8) : Decidable (a.PacketDrives packet) :=
  inferInstanceAs (Decidable (_ ∨ _ ∨ _))

theorem packetWord_mode (d : PlcCommand) : packetWord (encodePacket d).bytes 6 = d.mode.toUInt16 := by
  apply packetWord_of_be
  rw [← le_htons]
  rfl

theorem axis_packetJogs_encode (a : Axis) (d : PlcCommand) :
    a.packetJogs (encodePacket d).bytes = true ↔ a.jogged d ≠ 0 := by
  cases a
  · simp only [Axis.packetJogs, packetBit_jogs, Axis.jogged]
    cases d.pitchJogP <;> cases d.pitchJogN <;> simp
  · simp only [Axis.packetJogs, packetBit_jogs, Axis.jogged]
    cases d.yawJogP <;> cases d.yawJogN <;> simp

theorem packetDrives_encode (a : Axis) (d : PlcCommand) :
    a.PacketDrives (encodePacket d).bytes ↔ d.mode = 1 ∨ d.mode = 3 ∨ a.jogged d ≠ 0 := by
  have hmode : ∀ m : Int16, d.mode.toUInt16 = m.toUInt16 ↔ d.mode = m := fun m =>
    (Function.LeftInverse.injective Int16.toInt16_toUInt16).eq_iff
  rw [Axis.PacketDrives, packetWord_mode, axis_packetJogs_encode]
  exact or_congr (hmode 1) (or_congr_left (hmode 3))

/-- For a command with jog bits only in JOG, the packet asks for what the command asks for. -/
theorem drivenBy_of_packetDrives {a : Axis} {d : PlcCommand} (hjogs : d.jogs = true → d.mode = 2)
    (h : a.PacketDrives (encodePacket d).bytes) : a.DrivenBy d := by
  rcases (packetDrives_encode a d).mp h with hmode | hmode | hjogged
  · exact .inl hmode
  · exact .inr (.inl hmode)
  · exact .inr (.inr ⟨hjogs (Axis.jogs_of_jogged hjogged), hjogged⟩)

theorem drivenBy_lifeWord (a : Axis) (d : PlcCommand) (lifeWord : UInt16) :
    a.DrivenBy { d with lifeWord } ↔ a.DrivenBy d := by
  cases a <;> rfl

namespace Graph

/-- The graph with the bridge. -/
abbrev bridgeMachine (c : Setup) : Machine (Graph PlcBridgeNode) (Time × GraphEvent NetworkStep) :=
  machine c bridgePlant

/-- The packet that the bridge sends next. -/
def packet (σ : Graph PlcBridgeNode) : List UInt8 := σ.plant.transmit.2.bytes

/-- The bridge has received a datagram later than `t` and accepted it, and its status is `st`. -/
structure Reported (es : List (Time × GraphEvent NetworkStep)) (t : Time) (st : PlcStatus) : Prop where
  datagram : ∃ s inRaw pending d, (s, GraphEvent.run (.receive inRaw pending)) ∈ es ∧ t < s ∧
    d ∈ pending ∧ accepts d = true ∧ datagramStatus d = st

variable {c : Setup} {gap delay late now t : Time} {es : List (Time × GraphEvent NetworkStep)}
variable {a : Axis}

theorem Reported.mono {es' : List (Time × GraphEvent NetworkStep)} {t' : Time} {st : PlcStatus}
    (h : Reported es t st) (hbegins : es <+: es') (ht : t' ≤ t) : Reported es' t' st := by
  obtain ⟨s, inRaw, pending, d, hmem, hs, hd⟩ := h.datagram
  exact ⟨s, inRaw, pending, d, hbegins.subset hmem, ht.trans_lt hs, hd⟩

/-- A status on `plc_status` is that of an accepted datagram. -/
theorem reported_of_mem {s : Time} {st : PlcStatus}
    (h : (s, st) ∈ ((bridgeMachine c).state es).plcStatus.log) (ht : t < s) : Reported es t st := by
  obtain ⟨pre, i, post, rfl, hout⟩ := mem_plcStatus h
  cases i with
  | transmit => cases hout
  | receive inRaw pending =>
    have hreceived : received pending = some st := by
      rw [bridgePlant_receive, receive_eq] at hout
      exact hout
    obtain ⟨d, hlast, rfl⟩ := Option.map_eq_some_iff.mp hreceived
    obtain ⟨hd, haccept⟩ := List.mem_filter.mp (List.mem_of_getLast? hlast)
    exact ⟨s, inRaw, pending, d, by simp, ht, hd, haccept, rfl⟩

/-- While the PLC counts as alive, the manager holds the status of a recent datagram, or it has not received
any and is young. -/
theorem reported_of_alive (hrun : PromptStatus c bridgePlant late es)
    (h : plcAlive c.manager ((bridgeMachine c).state es).console.manager now = true) :
    (((bridgeMachine c).state es).console.manager.lastStatus = {} ∧
      now - c.manager.timeoutThreshold < c.start) ∨
    Reported es (now - (c.manager.timeoutThreshold + late))
      ((bridgeMachine c).state es).console.manager.lastStatus := by
  rw [plcAlive, checkWatchdog_iff] at h
  rcases holdsStatus hrun with ⟨-, hdefault, hstart⟩ | ⟨s, hmem, hs⟩
  · rw [hstart] at h
    exact .inl ⟨hdefault, by linarith⟩
  · exact .inr (reported_of_mem hmem (by linarith))

/-! ## Towards the PLC -/

/-- What a packet asks for is held. In every timely run of the graph with the bridge, whatever datagrams come
in: a packet sent at `now` asks the PLC to move an axis only if the operator still asks for it. -/
theorem packet_held (c : Setup) (gap delay now : Time) (es : List (Time × GraphEvent NetworkStep))
    (a : Axis) (hrun : Timely c bridgePlant gap delay (es ++ [(now, .run .transmit)]))
    (hpacket : a.PacketDrives ((bridgeMachine c).state es).packet) :
    Held c bridgePlant gap delay es a now := by
  apply held_of_worksOn bridgePlant_worksOn hrun
  rintro cmd hjogs ⟨lifeWord, hcmd⟩
  have hdriven : a.DrivenBy ((bridgeMachine c).state es).plant.txData := by
    apply (drivenBy_lifeWord a _ _).mp
    refine drivenBy_of_packetDrives ?_ hpacket
    rw [hcmd]
    exact hjogs
  rwa [hcmd, drivenBy_lifeWord] at hdriven

/-- The jog button of the GUI, and the packet that goes out for it. -/
theorem packet_held_jog :
    let c : Setup := { reading := ⟨fun _ => false, fun _ _ => 0, fun _ _ => false⟩ }
    let es : List (Time × GraphEvent NetworkStep) :=
      [(0, .station (.gui (.startJog 1 0))), (0, .station (.gui .publishLoop)),
        (1000000, .station .deliverTeleop), (2000000, .station .cycle), (3000000, .deliverCommand)]
    Held c bridgePlant 2000000 1000000 es .pitch 4000000 := by
  intro c es
  refine packet_held c 2000000 1000000 4000000 es .pitch ?_ (by decide +kernel)
  unfold Timely
  decide +kernel

theorem packet_drives (σ : Graph PlcBridgeNode) :
    (packetExec σ.packet || packetJogs σ.packet) = σ.plant.txData.drives :=
  transmit_packetDrives σ.plant

theorem packet_ack (σ : Graph PlcBridgeNode) : packetAck σ.packet = σ.plant.txData.ack :=
  packetAck_encode _

/-- The command in a packet is that of a recent cycle or of a GUI button, if there is any. -/
theorem packet_command (hrun : Timely c bridgePlant gap delay (es ++ [(now, .run .transmit)]))
    (hset : ((bridgeMachine c).state es).plant.txData.drives = true ∨
      ((bridgeMachine c).state es).plant.txData.ack = true) :
    ∃ s cmd, (s, cmd) ∈ ((bridgeMachine c).state es).plcCommand.log ∧ now - (gap + delay) ≤ s ∧
      cmd.drives = ((bridgeMachine c).state es).plant.txData.drives ∧
      cmd.ack = ((bridgeMachine c).state es).plant.txData.ack := by
  rcases recent_of_worksOn bridgePlant_worksOn hrun with ⟨w, hnone⟩ | ⟨s, cmd, hmem, hs, w, hcmd⟩
  · rw [hnone] at hset
    rcases hset with h | h <;> cases h
  · rw [hcmd]
    exact ⟨s, cmd, hmem, hs, rfl, rfl⟩

/-- The feedback behind a packet. In every timely run of the graph with the bridge whose statuses are
delivered promptly, a packet sent at `now` drives the PLC only if a mode button of the GUI was pressed at
most `gap + delay` ago, or the manager has only just been started, or a datagram without an error has come
in not long ago. It acknowledges only if a datagram with an error has. -/
theorem packet_feedback (c : Setup) (gap delay late now : Time)
    (es : List (Time × GraphEvent NetworkStep))
    (hrun : Timely c bridgePlant gap delay (es ++ [(now, .run .transmit)]))
    (hstatus : PromptStatus c bridgePlant late es) :
    let σ := (bridgeMachine c).state es
    let since := now - (gap + delay) - (c.manager.timeoutThreshold + late)
    ((packetExec σ.packet || packetJogs σ.packet) = true →
      (∃ s g, (s, GraphEvent.station (.gui g)) ∈ es ∧ (g = .synch ∨ g = .follow) ∧
        now - (gap + delay) ≤ s) ∨
      now - (gap + delay) - c.manager.timeoutThreshold < c.start ∨
      ∃ st, Reported es since st ∧ st.error = 0) ∧
    (packetAck σ.packet = true → ∃ st, Reported es since st ∧ st.error ≠ 0) := by
  intro σ since
  constructor
  · intro hdrives
    rw [packet_drives] at hdrives
    obtain ⟨s, cmd, hmem, hs, hcmd, -⟩ := packet_command hrun (.inl hdrives)
    rw [hdrives] at hcmd
    obtain ⟨pre, e, post, rfl, hout⟩ := mem_plcCommand hmem
    obtain ⟨rfl, rfl⟩ | ⟨g, rfl, hg⟩ := commandOut_cases hout
    · obtain ⟨halive, -, herror, -⟩ := healthy_of_drives _ _ _ hcmd
      rcases reported_of_alive hstatus.of_append halive with ⟨-, hyoung⟩ | hreported
      · exact .inr (.inl (by linarith))
      · exact .inr (.inr ⟨_, hreported.mono (List.prefix_append _ _) (by linarith), herror⟩)
    · refine .inl ⟨s, g, by simp, ?_, hs⟩
      rcases hg with ⟨-, rfl⟩ | ⟨hg, -⟩ | ⟨-, rfl⟩ | ⟨hg, -⟩
      · cases hcmd
      · exact .inl hg
      · cases hcmd
      · exact .inr hg
  · intro hack
    rw [packet_ack] at hack
    obtain ⟨s, cmd, hmem, hs, -, hcmd⟩ := packet_command hrun (.inr hack)
    rw [hack] at hcmd
    obtain ⟨pre, e, post, rfl, hout⟩ := mem_plcCommand hmem
    obtain ⟨-, rfl⟩ | ⟨g, -, ⟨-, rfl⟩ | ⟨-, rfl⟩ | ⟨-, rfl⟩ | ⟨-, rfl⟩⟩ := commandOut_cases hout
    · obtain ⟨halive, -, herror, -⟩ := (command_ack_iff _ _ _).mp hcmd
      rcases reported_of_alive hstatus.of_append halive with ⟨hdefault, -⟩ | hreported
      · exact absurd (by rw [hdefault]) herror
      · exact ⟨_, hreported.mono (List.prefix_append _ _) (by linarith), herror⟩
    all_goals cases hcmd

/-- A status without an error comes in, and is delivered before the cycle that jogs. The manager has been
running for a second. -/
theorem packet_feedback_jog :
    let c : Setup :=
      { reading := ⟨fun _ => false, fun _ _ => 0, fun _ _ => false⟩, start := -1000000000 }
    let es : List (Time × GraphEvent NetworkStep) :=
      [(0, .run (.receive (.replicate 20 0) [statusDatagram {} (.replicate 16 0)])),
        (0, .station (.gui (.startJog 1 0))), (0, .station (.gui .publishLoop)),
        (1000000, .deliverStatus), (1000000, .station .deliverTeleop), (2000000, .station .cycle),
        (3000000, .deliverCommand)]
    ∃ st, Reported es (4000000 - (2000000 + 1000000) - (c.manager.timeoutThreshold + 1000000)) st ∧
      st.error = 0 := by
  intro c es
  have hrun : Timely c bridgePlant 2000000 1000000 (es ++ [(4000000, .run .transmit)]) := by
    unfold Timely
    decide +kernel
  have hstatus : PromptStatus c bridgePlant 1000000 es := by
    unfold PromptStatus
    decide +kernel
  have hfeedback := (packet_feedback c 2000000 1000000 1000000 4000000 es hrun hstatus).1
    (by decide +kernel)
  rcases hfeedback with ⟨s, g, hmem, hg, -⟩ | hyoung | hreported
  · rcases hg with rfl | rfl <;> simp [es] at hmem
  · exact absurd hyoung (by decide)
  · exact hreported

/-! ## From the PLC -/

/-- The manager's status repeats the PLC status `st`. -/
structure Repeats (msg : ManagerStatus) (st : PlcStatus) : Prop where
  busy : msg.busy = st.busy
  done : msg.done = st.done
  synch : msg.synch = st.synch
  onTarget : msg.onTarget = st.onTarget
  pitchPosition : msg.pitchPosition = st.posPitch
  yawPosition : msg.yawPosition = st.posYaw
  error : st.error ≠ 0 → msg.errorActive = true

theorem repeats_lastStatus (p : ManagerParams) (m : ArgusManagerNode) (now : Time) :
    Repeats (supervisorCycle p m now).status m.lastStatus where
  busy := rfl
  done := rfl
  synch := rfl
  onTarget := rfl
  pitchPosition := rfl
  yawPosition := rfl
  error h := by simp [supervisorCycle, h]

/-- What the manager reports of the PLC comes from the PLC. In every run of the graph with the bridge whose
statuses are delivered promptly: once the manager has received a status and while it reports the PLC online,
its report repeats a datagram that came in later than `now - (watchdog_timeout + delay)`, whatever else came
in on the socket. -/
theorem report_received (c : Setup) (late now : Time) (es : List (Time × GraphEvent NetworkStep))
    (hstatus : PromptStatus c bridgePlant late es) (hinformed : Informed c bridgePlant es)
    (honline :
      (supervisorCycle c.manager ((bridgeMachine c).state es).console.manager now).status.plcOnline) :
    ∃ st, Reported es (now - (c.manager.timeoutThreshold + late)) st ∧
      Repeats (supervisorCycle c.manager ((bridgeMachine c).state es).console.manager now).status
        st := by
  refine ⟨_, ?_, repeats_lastStatus _ _ _⟩
  have hfresh := (checkWatchdog_iff c.manager).mp honline
  obtain ⟨s, hmem, hs⟩ := (holdsStatus hstatus).resolve_left fun h => h.1 hinformed
  exact reported_of_mem hmem (by linarith)

/-- Of two datagrams the first one has the id of a command. -/
theorem report_received_second :
    let c : Setup := { reading := ⟨fun _ => false, fun _ _ => 0, fun _ _ => false⟩ }
    let es : List (Time × GraphEvent NetworkStep) :=
      [(0, .run (.receive (.replicate 20 0)
        [0 :: 200 :: .replicate 18 7, statusDatagram {} (.replicate 16 0)])), (1, .deliverStatus)]
    ∃ st, Reported es (2 - (c.manager.timeoutThreshold + 1)) st ∧
      Repeats (supervisorCycle c.manager ((bridgeMachine c).state es).console.manager 2).status st := by
  intro c es
  refine report_received c 1 2 es ?_ ⟨_, .head _, _, rfl⟩ (by decide +kernel)
  unfold PromptStatus
  decide +kernel

end Graph

end ArgusGate
