import ArgusGate.Interfaces

/-!
# The PLC simulator

`PlcSimNode` of `argus_plc_sim/src/plc_sim_node.cpp`. The two callbacks hold `mutex_` for their
whole body, so each is one step on the node's state. `double` arithmetic is exact.
-/

namespace ArgusGate

/-- `PlcState`. -/
inductive PlcState where
  | startup
  | stop
  | ready
  | synch
  | jog
  | follow
  | error
  deriving DecidableEq, Repr

/-- The parameters the constructor reads, with their declared defaults. -/
structure PlcSimParams where
  stepPerCycle : ℚ := 1 / 50
  targetTolerance : ℚ := 1 / 100
  initialPitch : ℚ := 0
  initialYaw : ℚ := 0

/-- The data members of `PlcSimNode`. -/
structure PlcSimNode where
  lastCommand : PlcCommand := {}
  state : PlcState := .startup
  currentPitch : ℚ
  currentYaw : ℚ
  targetPitch : ℚ := 0
  targetYaw : ℚ := 0
  pitchDirection : Int := 0
  yawDirection : Int := 0
  errorCode : Int := 0
  syncStep : Nat := 0
  busy : Bool := false
  done : Bool := false
  synch : Bool := false
  onTarget : Bool := false
  deriving DecidableEq

namespace PlcSimNode

/-- The constructor. -/
def construct (q : PlcSimParams) : PlcSimNode :=
  { currentPitch := q.initialPitch, currentYaw := q.initialYaw }

def enterError (s : PlcSimNode) (error : Int) : PlcSimNode :=
  { s with
    errorCode := error
    state := .error
    busy := false
    done := false
    synch := false
    onTarget := false }

def clearError (s : PlcSimNode) : PlcSimNode := { s with errorCode := 0 }

def beginSync (s : PlcSimNode) : PlcSimNode :=
  { s with
    state := .synch
    syncStep := 0
    busy := true
    done := false
    synch := false
    onTarget := false }

def commandCallback (s : PlcSimNode) (msg : PlcCommand) : PlcSimNode :=
  let s := { s with lastCommand := msg }
  if msg.fire ∧ (s.state = .jog ∨ s.state = .follow) then s.enterError 100
  else if msg.ack ∧ s.state = .error then { s.clearError with state := .ready }
  else if msg.mode = 1 ∧ msg.exec then s.beginSync
  else if msg.mode = 2 then
    { s with
      state := .jog
      busy := false
      done := false
      synch := false
      onTarget := false
      pitchDirection := if msg.pitchJogP then 1 else if msg.pitchJogN then -1 else 0
      yawDirection := if msg.yawJogP then 1 else if msg.yawJogN then -1 else 0 }
  else if msg.mode = 3 then
    if msg.exec ∨ s.state = .follow then
      { s with
        state := .follow
        targetPitch := msg.targetPitch
        targetYaw := msg.targetYaw
        busy := true
        done := false
        synch := false
        onTarget := false }
    else { s with state := .ready }
  else
    { s with
      state := .ready
      busy := false
      done := false
      synch := false
      onTarget := false
      pitchDirection := 0
      yawDirection := 0 }

/-- `move_towards`: the new `current`, and the returned flag. -/
def moveTowards (q : PlcSimParams) (current target : ℚ) : ℚ × Bool :=
  if |current - target| ≤ q.targetTolerance then (target, true)
  else if current < target then (min (current + q.stepPerCycle) target, false)
  else (max (current - q.stepPerCycle) target, false)

/-- `tick_sync`, with the target each step writes before it moves. -/
def tickSync (q : PlcSimParams) (s : PlcSimNode) : PlcSimNode :=
  if s.syncStep = 0 then
    let (pitch, pitchDone) := moveTowards q s.currentPitch 0
    { s with
      targetPitch := 0
      currentPitch := pitch
      syncStep := if pitchDone then s.syncStep + 1 else s.syncStep
      busy := true
      done := false
      synch := false
      onTarget := false }
  else if s.syncStep = 1 then
    let (yaw, yawDone) := moveTowards q s.currentYaw 0
    { s with
      targetYaw := 0
      currentYaw := yaw
      syncStep := if yawDone then s.syncStep + 1 else s.syncStep
      busy := true
      done := false
      synch := false
      onTarget := false }
  else
    { s with
      busy := false
      done := true
      synch := true
      onTarget := true
      state := .ready }

/-- The factor `tick_jog` applies: an override of (almost) zero counts as full speed. -/
def jogScale (override : ℚ) : ℚ := if |override| > 1 / 1000000 then override else 1

def tickJog (q : PlcSimParams) (s : PlcSimNode) : PlcSimNode :=
  let pitchScale := jogScale s.lastCommand.pitchOverride
  let yawScale := jogScale s.lastCommand.yawOverride
  { s with
    currentPitch := s.currentPitch + s.pitchDirection * q.stepPerCycle * pitchScale
    currentYaw := s.currentYaw + s.yawDirection * q.stepPerCycle * yawScale
    busy := false
    done := false
    synch := false
    onTarget := false }

def tickFollow (q : PlcSimParams) (s : PlcSimNode) : PlcSimNode :=
  let (pitch, pitchDone) := moveTowards q s.currentPitch s.targetPitch
  let (yaw, yawDone) := moveTowards q s.currentYaw s.targetYaw
  { s with
    currentPitch := pitch
    currentYaw := yaw
    busy := !(pitchDone && yawDone)
    done := pitchDone && yawDone
    synch := false
    onTarget := pitchDone && yawDone
    state := if pitchDone && yawDone then .ready else s.state }

def stateToStatusCode : PlcState → Int
  | .startup => 0
  | .stop => 1
  | .ready => 2
  | .synch => 3
  | .jog => 4
  | .follow => 5
  | .error => -1

/-- The branch of `publish_status` that advances the motion and the flags. -/
def advance (q : PlcSimParams) (s : PlcSimNode) : PlcSimNode :=
  match s.state with
  | .error => { s with busy := false, done := false, synch := false, onTarget := false }
  | .synch => s.tickSync q
  | .jog => s.tickJog q
  | .follow => s.tickFollow q
  | .ready => { s with busy := false, done := false, onTarget := false, synch := false }
  | .startup | .stop => { s with busy := false, done := false, onTarget := false }

/-- The `PlcStatus` that `publish_status` fills in, without the casts of the positions to `float`. -/
def statusMsg (s : PlcSimNode) : PlcStatus :=
  { lifeWord := s.lastCommand.lifeWord + 1
    done := s.done
    busy := s.busy
    synch := s.synch
    onTarget := s.onTarget
    status := Int16.ofInt (stateToStatusCode s.state)
    error := Int16.ofInt s.errorCode
    posPitch := s.currentPitch
    posYaw := s.currentYaw
    checksum := 0 }

/-- `publish_status`: the node after the timer callback, and the status it published, if any. -/
def publishStatus (q : PlcSimParams) (s : PlcSimNode) : PlcSimNode × Option PlcStatus :=
  if s.state = .startup then
    ({ s with
       state := .ready
       busy := false
       done := false
       synch := false
       onTarget := false
       errorCode := 0 }, none)
  else
    let s := s.advance q
    (s, some s.statusMsg)

/-- One timer tick. -/
def tick (q : PlcSimParams) (s : PlcSimNode) : PlcSimNode := (s.publishStatus q).1

end PlcSimNode

end ArgusGate
