import ArgusGate.Foundation.Expiry
import ArgusGate.Manager.Node

/-!
# The keyboard teleop

`TeleopKeyboardNode` of `argus_teleop_keyboard/src/teleop_keyboard_node.cpp`. A run of `publish_loop`
reads the keys that are waiting on the terminal, each of them with its own reading of the clock, and
publishes one `TeleopCommand`. A key is the character with the code of the byte that is read.
-/

namespace ArgusGate

/-- The parameters the constructor reads, with their declared defaults. -/
structure KeyboardParams where
  releaseTimeoutMs : Int := 500
  targetStep : ℚ := 1 / 10

/-- `release_timeout_ms_` on the clock's scale. -/
def KeyboardParams.releaseTimeout (q : KeyboardParams) : Time := q.releaseTimeoutMs * 1000000

/-- The data members of `TeleopKeyboardNode` that its callback reads or writes. -/
structure TeleopKeyboardNode where
  pressedKeys : AList fun _ : Char => Bool := ∅
  keyTimestamps : AList fun _ : Char => Time := ∅
  pitchSpeed : ℚ := 0
  yawSpeed : ℚ := 0
  targetPitch : ℚ := 0
  targetYaw : ℚ := 0
  requestedMode : Int16 := 0
  executeAction : Bool := false
  resetError : Bool := false
  sendTarget : Bool := false

namespace TeleopKeyboardNode

def handleKey (q : KeyboardParams) (n : TeleopKeyboardNode) (c : Char) (now : Time) :
    TeleopKeyboardNode :=
  match c with
  | 'w' | 'W' | 's' | 'S' | 'a' | 'A' | 'd' | 'D' =>
    { n with
      pressedKeys := n.pressedKeys.insert c true
      keyTimestamps := n.keyTimestamps.insert c now }
  | 'i' | 'I' => { n with targetPitch := n.targetPitch + q.targetStep }
  | 'k' | 'K' => { n with targetPitch := n.targetPitch - q.targetStep }
  | 'j' | 'J' => { n with targetYaw := n.targetYaw - q.targetStep }
  | 'l' | 'L' => { n with targetYaw := n.targetYaw + q.targetStep }
  | '0' => { n with requestedMode := 0 }
  | '1' => { n with requestedMode := 1 }
  | '2' => { n with requestedMode := 2 }
  | '3' => { n with requestedMode := 3 }
  | ' ' => { n with executeAction := true }
  | 't' | 'T' => { n with sendTarget := true }
  | 'r' | 'R' => { n with resetError := true }
  | _ => n

/-- The loop of `publish_loop` that reads the waiting keys. -/
def readKeys (q : KeyboardParams) (n : TeleopKeyboardNode) (keys : List (Char × Time)) :
    TeleopKeyboardNode :=
  keys.foldl (fun n key => n.handleKey q key.1 key.2) n

/-- `refresh_pressed_keys`: the loop over the entries of `key_timestamps_`, which erases an expired
key from both maps. -/
def refreshPressedKeys (q : KeyboardParams) (n : TeleopKeyboardNode) (now : Time) :
    TeleopKeyboardNode :=
  n.keyTimestamps.entries.foldl (fun n entry =>
    if now - entry.2 > q.releaseTimeout then
      { n with
        pressedKeys := n.pressedKeys.erase entry.1
        keyTimestamps := n.keyTimestamps.erase entry.1 }
    else n) n

/-- `publish_loop` with the keys it reads and the clock reading of its refresh: the node, and the
message it publishes. -/
def publishLoop (q : KeyboardParams) (n : TeleopKeyboardNode) (keys : List (Char × Time))
    (now : Time) : TeleopKeyboardNode × TeleopCommand :=
  let n := (n.readKeys q keys).refreshPressedKeys q now
  let n :=
    { n with
      pitchSpeed :=
        if 'w' ∈ n.pressedKeys ∨ 'W' ∈ n.pressedKeys then 1
        else if 's' ∈ n.pressedKeys ∨ 'S' ∈ n.pressedKeys then -1
        else 0
      yawSpeed :=
        if 'd' ∈ n.pressedKeys ∨ 'D' ∈ n.pressedKeys then 1
        else if 'a' ∈ n.pressedKeys ∨ 'A' ∈ n.pressedKeys then -1
        else 0 }
  ({ n with executeAction := false, resetError := false, sendTarget := false },
    { pitchSpeed := n.pitchSpeed
      yawSpeed := n.yawSpeed
      targetPitch := n.targetPitch
      targetYaw := n.targetYaw
      requestedMode := n.requestedMode
      executeAction := n.executeAction
      resetError := n.resetError
      sendTarget := n.sendTarget })

/-! ## What a key does -/

/-- The keys that are held to jog. -/
def jogKeys : List Char := ['w', 'W', 's', 'S', 'a', 'A', 'd', 'D']

/-- The mode a key asks for. -/
def modeOfKey (c : Char) : Option Int16 :=
  if c = '0' then some 0
  else if c = '1' then some 1
  else if c = '2' then some 2
  else if c = '3' then some 3
  else none

/-- What a key adds to one of the targets, in steps: the keys of `up` count up, those of `down` count
down. -/
def steps (up down : List Char) (c : Char) : ℤ :=
  if c ∈ up then 1 else if c ∈ down then -1 else 0

theorem handleKey_eq (q : KeyboardParams) (n : TeleopKeyboardNode) (c : Char) (now : Time) :
    n.handleKey q c now =
      { n with
        pressedKeys := if c ∈ jogKeys then n.pressedKeys.insert c true else n.pressedKeys
        keyTimestamps := if c ∈ jogKeys then n.keyTimestamps.insert c now else n.keyTimestamps
        targetPitch := n.targetPitch + steps ['i', 'I'] ['k', 'K'] c * q.targetStep
        targetYaw := n.targetYaw + steps ['l', 'L'] ['j', 'J'] c * q.targetStep
        requestedMode := (modeOfKey c).getD n.requestedMode
        executeAction := n.executeAction || decide (c = ' ')
        sendTarget := n.sendTarget || decide (c ∈ ['t', 'T'])
        resetError := n.resetError || decide (c ∈ ['r', 'R']) } := by
  unfold handleKey
  split <;> simp_all [jogKeys, modeOfKey, steps, sub_eq_add_neg]

theorem readKeys_cons (q : KeyboardParams) (n : TeleopKeyboardNode) (key : Char × Time)
    (keys : List (Char × Time)) :
    n.readKeys q (key :: keys) = (n.handleKey q key.1 key.2).readKeys q keys := rfl

/-- The effect of the waiting keys on the targets, the mode and the one-shot flags. -/
structure KeysRead (q : KeyboardParams) (keys : List (Char × Time)) (n n' : TeleopKeyboardNode) :
    Prop where
  targetPitch : n'.targetPitch =
    n.targetPitch + (keys.map fun key => steps ['i', 'I'] ['k', 'K'] key.1).sum * q.targetStep
  targetYaw : n'.targetYaw =
    n.targetYaw + (keys.map fun key => steps ['l', 'L'] ['j', 'J'] key.1).sum * q.targetStep
  requestedMode : n'.requestedMode =
    (Reactive.latest (fun key => modeOfKey key.1) keys).getD n.requestedMode
  executeAction : n'.executeAction = (n.executeAction || keys.any fun key => decide (key.1 = ' '))
  sendTarget : n'.sendTarget =
    (n.sendTarget || keys.any fun key => decide (key.1 ∈ ['t', 'T']))
  resetError : n'.resetError =
    (n.resetError || keys.any fun key => decide (key.1 ∈ ['r', 'R']))

theorem keysRead (q : KeyboardParams) (n : TeleopKeyboardNode) (keys : List (Char × Time)) :
    KeysRead q keys n (n.readKeys q keys) := by
  induction keys using List.reverseRecOn with
  | nil => constructor <;> simp [readKeys]
  | append_singleton keys key ih =>
    have hlast : n.readKeys q (keys ++ [key]) =
        (n.readKeys q keys).handleKey q key.1 key.2 := by
      simp [readKeys]
    rw [hlast, handleKey_eq]
    constructor
    · simp [ih.targetPitch, add_mul, add_assoc]
    · simp [ih.targetYaw, add_mul, add_assoc]
    · cases hmode : modeOfKey key.1 <;> simp [ih.requestedMode, hmode]
    · simp [ih.executeAction, Bool.or_assoc]
    · simp [ih.sendTarget, Bool.or_assoc]
    · simp [ih.resetError, Bool.or_assoc]

/-- The two maps have the same keys. -/
def InStep (n : TeleopKeyboardNode) : Prop := ∀ k, k ∈ n.pressedKeys ↔ k ∈ n.keyTimestamps

theorem inStep_readKeys (q : KeyboardParams) {n : TeleopKeyboardNode} (h : InStep n)
    (keys : List (Char × Time)) : InStep (n.readKeys q keys) := by
  induction keys generalizing n with
  | nil => exact h
  | cons key keys ih =>
    rw [readKeys_cons]
    apply ih
    intro k
    rw [handleKey_eq]
    by_cases hjog : key.1 ∈ jogKeys
    · simp [hjog, AList.mem_insert, h k]
    · simp [hjog, h k]

/-! ## What the refresh does -/

/-- The loop of the refresh is one loop on each of the two maps. -/
theorem foldl_refresh (q : KeyboardParams) (now : Time) (entries : List (Sigma fun _ : Char => Time))
    (n : TeleopKeyboardNode) :
    entries.foldl (fun n entry =>
      if now - entry.2 > q.releaseTimeout then
        { n with
          pressedKeys := n.pressedKeys.erase entry.1
          keyTimestamps := n.keyTimestamps.erase entry.1 }
      else n) n =
    { n with
      pressedKeys := entries.foldl (fun s entry =>
        if now - entry.2 > q.releaseTimeout then s.erase entry.1 else s) n.pressedKeys
      keyTimestamps := entries.foldl (fun s entry =>
        if now - entry.2 > q.releaseTimeout then s.erase entry.1 else s) n.keyTimestamps } := by
  induction entries generalizing n with
  | nil => rfl
  | cons entry entries ih =>
    rw [List.foldl_cons, ih]
    by_cases hold : now - entry.2 > q.releaseTimeout <;> simp [hold]

theorem refreshPressedKeys_eq (q : KeyboardParams) (n : TeleopKeyboardNode) (now : Time) :
    n.refreshPressedKeys q now =
    { n with
      pressedKeys := n.keyTimestamps.entries.foldl (fun s entry =>
        if now - entry.2 > q.releaseTimeout then s.erase entry.1 else s) n.pressedKeys
      keyTimestamps := Expiry.sweep q.releaseTimeout now n.keyTimestamps } :=
  foldl_refresh q now n.keyTimestamps.entries n

/-- The refresh erases the same keys from both maps. -/
theorem inStep_refreshPressedKeys (q : KeyboardParams) {n : TeleopKeyboardNode} (h : InStep n)
    (now : Time) : InStep (n.refreshPressedKeys q now) := by
  intro k
  have hpressed := Expiry.lookup_foldl_erase (fun entry => now - entry.2 > q.releaseTimeout)
    Sigma.fst n.keyTimestamps.entries n.pressedKeys k
  have htimestamps := Expiry.lookup_foldl_erase (fun entry => now - entry.2 > q.releaseTimeout)
    Sigma.fst n.keyTimestamps.entries n.keyTimestamps k
  rw [refreshPressedKeys_eq, ← AList.lookup_isSome, ← AList.lookup_isSome]
  simp only [Expiry.sweep]
  rw [hpressed, htimestamps]
  split
  · rfl
  · rw [AList.lookup_isSome, AList.lookup_isSome]
    exact h k

end TeleopKeyboardNode

end ArgusGate
