import ArgusGate.Foundation.Echo
import ArgusGate.PlcBridge.Node
import ArgusGate.PlcSim.Step
import Mathlib.Data.List.InsertIdx

/-!
# The heartbeat between the bridge and the PLC

The life word goes round between the bridge, which echoes the word of the last status it has
accepted, and the PLC, which answers like the simulator with the word of the last command plus one.
Datagrams may get lost on either way but keep their order. The link refines the ring of
`Foundation.Echo`: its 16-bit words are the ring's numbers modulo 2^16.
-/

namespace ArgusGate

open Reactive

/-- The bridge, the PLC and the datagrams on their way between them, oldest first. -/
structure Link where
  bridge : PlcBridgeNode := {}
  plc : PlcSimNode
  down : List (List UInt8) := []
  up : List (List UInt8) := []

inductive LinkEvent where
  /-- The bridge receives a command from ROS, with any life word in it. -/
  | command (msg : PlcCommand)
  | transmit
  /-- The next `n` datagrams have arrived when the bridge drains its socket. -/
  | receive (inRaw : RxBuffer) (n : ℕ)
  /-- The PLC takes the next packet; `body` is what it reads besides the life word. -/
  | plcReceive (body : PlcCommand)
  /-- The PLC's timer; `rest` is what a status holds besides the id and the life word. -/
  | plcTick (rest : Vector UInt8 16)
  | loseDown (i : ℕ)
  | loseUp (i : ℕ)

namespace Link

def plcReceive (σ : Link) (body : PlcCommand) : Link :=
  match σ.down with
  | [] => σ
  | packet :: down =>
    { σ with
      plc := σ.plc.commandCallback { body with lifeWord := packetLifeWord packet }
      down := down }

def plcTick (q : PlcSimParams) (σ : Link) (rest : Vector UInt8 16) : Link :=
  { σ with
    plc := σ.plc.tick q
    up := σ.up ++ ((σ.plc.publishStatus q).2.map fun st => statusDatagram st rest).toList }

def handle (q : PlcSimParams) (σ : Link) : LinkEvent → Link
  | .command msg => { σ with bridge := σ.bridge.commandCallback msg }
  | .transmit =>
    { σ with bridge := σ.bridge.transmit.1, down := σ.down ++ [σ.bridge.transmit.2.bytes] }
  | .receive inRaw n =>
    { σ with bridge := (σ.bridge.receive inRaw (σ.up.take n)).1, up := σ.up.drop n }
  | .plcReceive body => σ.plcReceive body
  | .plcTick rest => σ.plcTick q rest
  | .loseDown i => { σ with down := σ.down.eraseIdx i }
  | .loseUp i => { σ with up := σ.up.eraseIdx i }

def machine (q : PlcSimParams) : Machine Link LinkEvent where
  start := { plc := PlcSimNode.construct q }
  step := handle q

/-- The words on the link are the numbers of the ring. -/
structure Carries (σ : Link) (r : Echo.Ring) : Prop where
  last : σ.plc.lastCommand.lifeWord = UInt16.ofNat r.last
  down : σ.down.map packetLifeWord = r.down.map UInt16.ofNat
  echo : σ.bridge.rxData.lifeWord = UInt16.ofNat r.echo
  up : σ.up.map packetLifeWord = r.up.map UInt16.ofNat
  frames : ∀ d ∈ σ.up, StatusFrame d

variable {q : PlcSimParams} {σ : Link} {r : Echo.Ring}

theorem carries_start (q : PlcSimParams) : Carries (machine q).start Echo.machine.start where
  last := rfl
  down := rfl
  echo := rfl
  up := rfl
  frames d hd := by cases hd

theorem carries_transmit (h : Carries σ r) :
    Carries (handle q σ .transmit) (r.step .sendDown) := by
  refine ⟨h.last, ?_, h.echo, h.up, h.frames⟩
  simp only [handle, Echo.Ring.step, List.map_append, List.map_cons, List.map_nil, h.down]
  rw [PlcBridgeNode.transmit_packetLifeWord, h.echo]

/-- What the bridge echoes after draining `n` datagrams. -/
theorem receive_echo (h : Carries σ r) (inRaw : RxBuffer) (n : ℕ) :
    (σ.bridge.receive inRaw (σ.up.take n)).1.rxData.lifeWord =
      UInt16.ofNat ((r.up.take n).getLast?.getD r.echo) := by
  have hframes : ∀ d ∈ σ.up.take n, StatusFrame d :=
    fun d hd => h.frames d (List.mem_of_mem_take hd)
  have hwords : (σ.up.take n).getLast?.map packetLifeWord =
      (r.up.take n).getLast?.map UInt16.ofNat := by
    rw [← List.getLast?_map, ← List.getLast?_map, List.map_take, List.map_take, h.up]
  rw [PlcBridgeNode.receive_lifeWord _ _ hframes, hwords, h.echo]
  cases (r.up.take n).getLast? <;> rfl

theorem carries_receive (h : Carries σ r) (inRaw : RxBuffer) (n : ℕ) :
    Carries (handle q σ (.receive inRaw n)) (r.step (.receiveUp n)) := by
  refine ⟨h.last, h.down, receive_echo h inRaw n, ?_, ?_⟩
  · simp only [handle, Echo.Ring.step]
    rw [List.map_drop, List.map_drop, h.up]
  · exact fun d hd => h.frames d (List.mem_of_mem_drop hd)

theorem carries_plcReceive (h : Carries σ r) (body : PlcCommand) :
    Carries (σ.plcReceive body) (r.step .receiveDown) := by
  have hdown := h.down
  cases hσ : σ.down with
  | nil =>
    rw [hσ, List.map_nil, eq_comm, List.map_eq_nil_iff] at hdown
    have hstay : σ.plcReceive body = σ := by simp [plcReceive, hσ]
    have hstay' : r.step .receiveDown = r := by simp [Echo.Ring.step, hdown]
    rw [hstay, hstay']
    exact h
  | cons packet down =>
    rw [hσ, List.map_cons, eq_comm, List.map_eq_cons_iff] at hdown
    obtain ⟨x, xs, hr, hx, hxs⟩ := hdown
    have hstep : σ.plcReceive body =
        { σ with
          plc := σ.plc.commandCallback { body with lifeWord := packetLifeWord packet }
          down := down } := by
      simp [plcReceive, hσ]
    have hstep' : r.step .receiveDown = { r with last := x, down := xs } := by
      simp [Echo.Ring.step, hr]
    rw [hstep, hstep']
    refine ⟨?_, hxs.symm, h.echo, h.up, h.frames⟩
    rw [PlcSimNode.commandCallback_lastCommand]
    exact hx.symm

/-- A tick of the PLC sends a status, except the one that leaves start-up. -/
theorem carries_plcTick (h : Carries σ r) (rest : Vector UInt8 16) :
    ∃ is : List Echo.Event, Carries (σ.plcTick q rest) (is.foldl Echo.Ring.step r) := by
  have hlast : (σ.plc.tick q).lastCommand.lifeWord = UInt16.ofNat r.last := by
    rw [PlcSimNode.tick_lastCommand, h.last]
  cases hst : (σ.plc.publishStatus q).2 with
  | none =>
    refine ⟨[], hlast, h.down, h.echo, ?_, ?_⟩ <;> simp only [plcTick, hst]
    · simpa using h.up
    · simpa using h.frames
  | some st =>
    have hword : st.lifeWord = UInt16.ofNat (r.last + 1) := by
      rw [PlcSimNode.publishStatus_lifeWord q σ.plc hst, h.last, UInt16.ofNat_add]
      rfl
    refine ⟨[.sendUp], hlast, h.down, h.echo, ?_, ?_⟩ <;> simp only [plcTick, hst]
    · simp [Echo.Ring.step, h.up, packetLifeWord_statusDatagram, hword]
    · intro d hd
      simp only [Option.map_some, Option.toList_some, List.mem_append, List.mem_singleton] at hd
      rcases hd with hd | rfl
      · exact h.frames d hd
      · exact statusFrame_statusDatagram st rest

theorem carries_handle (h : Carries σ r) (e : LinkEvent) :
    ∃ is : List Echo.Event, Carries (handle q σ e) (is.foldl Echo.Ring.step r) := by
  cases e with
  | command msg => exact ⟨[], h.last, h.down, h.echo, h.up, h.frames⟩
  | transmit => exact ⟨[.sendDown], carries_transmit h⟩
  | receive inRaw n => exact ⟨[.receiveUp n], carries_receive h inRaw n⟩
  | plcReceive body => exact ⟨[.receiveDown], carries_plcReceive h body⟩
  | plcTick rest => exact carries_plcTick h rest
  | loseDown i =>
    refine ⟨[.loseDown i], h.last, ?_, h.echo, h.up, h.frames⟩
    simp only [handle, List.foldl_cons, List.foldl_nil, Echo.Ring.step]
    rw [← List.eraseIdx_map, ← List.eraseIdx_map, h.down]
  | loseUp i =>
    refine ⟨[.loseUp i], h.last, h.down, h.echo, ?_, ?_⟩
    · simp only [handle, List.foldl_cons, List.foldl_nil, Echo.Ring.step]
      rw [← List.eraseIdx_map, ← List.eraseIdx_map, h.up]
    · exact fun d hd => h.frames d (List.eraseIdx_subset hd)

/-- The link refines the ring. -/
theorem carries (q : PlcSimParams) (es : List LinkEvent) :
    ∃ is, Carries ((machine q).state es) (Echo.machine.state is) := by
  apply (machine q).refinement_rule Echo.machine (carries_start q)
  intro σ r e h
  exact carries_handle h e

/-- The heartbeat in every run: the bridge holds the PLC's last life word or the next one, and a
status it accepts carries the word of the one accepted before or the next one. -/
theorem heartbeat (q : PlcSimParams) (es : List LinkEvent) :
    let σ := (machine q).state es
    (σ.bridge.rxData.lifeWord = σ.plc.lastCommand.lifeWord ∨
      σ.bridge.rxData.lifeWord = σ.plc.lastCommand.lifeWord + 1) ∧
    ∀ inRaw n st, (σ.bridge.receive inRaw (σ.up.take n)).2 = some st →
      st.lifeWord = σ.bridge.rxData.lifeWord ∨
      st.lifeWord = σ.bridge.rxData.lifeWord + 1 := by
  intro σ
  obtain ⟨is, h⟩ := carries q es
  have hinv := Echo.inv is
  have hsucc : ∀ n : ℕ, UInt16.ofNat (n + 1) = UInt16.ofNat n + 1 := fun n => UInt16.ofNat_add n 1
  constructor
  · rw [h.echo, h.last, ← hsucc]
    rcases hinv.echo with hecho | hecho
    · exact .inl (by rw [hecho])
    · exact .inr (by rw [hecho])
  · intro inRaw n st hst
    rw [← PlcBridgeNode.receive_status hst, receive_echo h, h.echo, ← hsucc]
    cases hlast : ((Echo.machine.state is).up.take n).getLast? with
    | none => exact .inl rfl
    | some v =>
      have hv : v ∈ (Echo.machine.state is).up :=
        List.mem_of_mem_take (List.mem_of_getLast? hlast)
      rcases hinv.up hv with hword | hword
      · exact .inl (by rw [hword]; rfl)
      · exact .inr (by rw [hword]; rfl)

end Link

end ArgusGate
