import ArgusGate.Teleop.Keyboard
import Mathlib.Algebra.Order.Group.Int
import Mathlib.Tactic.Ring

/-!
# The keyboard's message as a function of the key history

`specCommand` says what a run of `publish_loop` should publish, in terms of all the keys that have been
read and when. The node does not keep that history: it counts the targets along, remembers the last
mode, and keeps two maps of the jog keys that have not expired.
-/

namespace ArgusGate.TeleopKeyboardNode

open Reactive

/-- One run of `publish_loop`: the keys it reads, each with its reading of the clock, and the reading
of the refresh. -/
structure LoopRun where
  keys : List (Char × Time)
  now : Time

/-- The clock readings of a run, in order. -/
def LoopRun.readings (r : LoopRun) : List Time := r.keys.map Prod.snd ++ [r.now]

/-- The node from its construction. -/
def machine (q : KeyboardParams) : Machine TeleopKeyboardNode LoopRun :=
  { start := {}, step := fun n r => (n.publishLoop q r.keys r.now).1 }

/-! ## The history -/

/-- All the keys that the runs have read. -/
def keysOf (es : List LoopRun) : List (Char × Time) := es.flatMap LoopRun.keys

/-- One of the keys `cs` was read at most the release timeout before `now`. -/
def heldWithin (q : KeyboardParams) (keys : List (Char × Time)) (now : Time) (cs : List Char) :
    Bool :=
  keys.any fun key => decide (key.1 ∈ cs ∧ now - key.2 ≤ q.releaseTimeout)

/-- The steps of a target: the keys of `up` less those of `down`. -/
def netSteps (keys : List (Char × Time)) (up down : List Char) : ℤ :=
  keys.countP (fun key => decide (key.1 ∈ up)) - keys.countP (fun key => decide (key.1 ∈ down))

/-- What the run `r` after the runs `es` is to publish. -/
def specCommand (q : KeyboardParams) (es : List LoopRun) (r : LoopRun) : TeleopCommand :=
  let keys := keysOf (es ++ [r])
  { pitchSpeed :=
      if heldWithin q keys r.now ['w', 'W'] then 1
      else if heldWithin q keys r.now ['s', 'S'] then -1
      else 0
    yawSpeed :=
      if heldWithin q keys r.now ['d', 'D'] then 1
      else if heldWithin q keys r.now ['a', 'A'] then -1
      else 0
    targetPitch := q.targetStep * netSteps keys ['i', 'I'] ['k', 'K']
    targetYaw := q.targetStep * netSteps keys ['l', 'L'] ['j', 'J']
    requestedMode := (latest (fun key => modeOfKey key.1) keys).getD 0
    executeAction := r.keys.any fun key => decide (key.1 = ' ')
    sendTarget := r.keys.any fun key => decide (key.1 ∈ ['t', 'T'])
    resetError := r.keys.any fun key => decide (key.1 ∈ ['r', 'R']) }

/-! ## The timestamps as a table with expiry -/

/-- What the waiting keys do to the table of the timestamps. -/
def touches (keys : List (Char × Time)) : List (Expiry.Event Char Time) :=
  (keys.filter fun key => decide (key.1 ∈ jogKeys)).map fun key => .touch key.1 key.2

/-- What the runs do to the table of the timestamps. -/
def tableEvents (es : List LoopRun) : List (Expiry.Event Char Time) :=
  es.flatMap fun r => touches r.keys ++ [.sweep r.now]

theorem tableEvents_concat (es : List LoopRun) (r : LoopRun) :
    tableEvents (es ++ [r]) = (tableEvents es ++ touches r.keys) ++ [.sweep r.now] := by
  simp [tableEvents]

theorem lookup_readKeys (q : KeyboardParams) (n : TeleopKeyboardNode) (keys : List (Char × Time)) :
    (fun k => (n.readKeys q keys).keyTimestamps.lookup k) =
      (touches keys).foldl (Expiry.step q.releaseTimeout) fun k => n.keyTimestamps.lookup k := by
  induction keys generalizing n with
  | nil => rfl
  | cons key keys ih =>
    rw [readKeys_cons, ih, handleKey_eq]
    by_cases hjog : key.1 ∈ jogKeys
    · have hinsert : (fun k => (n.keyTimestamps.insert key.1 key.2).lookup k) =
          Expiry.step q.releaseTimeout (fun k => n.keyTimestamps.lookup k)
            (.touch key.1 key.2) := by
        funext k
        by_cases hk : k = key.1
        · subst hk
          simp [Expiry.step]
        · simp [Expiry.step, hk]
      simp [touches, hjog, hinsert]
    · simp [touches, hjog]

theorem mem_touches {keys : List (Char × Time)} {k : Char} {t : Time} (hk : k ∈ jogKeys) :
    .touch k t ∈ touches keys ↔ (k, t) ∈ keys := by
  simp [touches, hk]

theorem touch_mem_tableEvents {es : List LoopRun} {k : Char} {t : Time} (hk : k ∈ jogKeys) :
    .touch k t ∈ tableEvents es ↔ (k, t) ∈ keysOf es := by
  simp [tableEvents, keysOf, mem_touches hk]

theorem time_tableEvents (es : List LoopRun) :
    ((tableEvents es).map Expiry.Event.time).Sublist (es.flatMap LoopRun.readings) := by
  induction es with
  | nil => exact List.Sublist.refl _
  | cons r es ih =>
    have htouches : ((touches r.keys).map Expiry.Event.time).Sublist (r.keys.map Prod.snd) := by
      rw [touches, List.map_map]
      exact List.filter_sublist.map Prod.snd
    have hrun : ((touches r.keys ++ [Expiry.Event.sweep r.now]).map
        Expiry.Event.time).Sublist r.readings := by
      rw [List.map_append]
      exact htouches.append (List.Sublist.refl _)
    simp only [tableEvents, List.flatMap_cons, List.map_append] at hrun ih ⊢
    exact hrun.append ih

/-! ## What the node knows -/

/-- The node after the refresh of the last run of `es`. -/
structure Knows (q : KeyboardParams) (es : List LoopRun) (n : TeleopKeyboardNode) : Prop where
  timestamps : (fun k => n.keyTimestamps.lookup k) =
    (Expiry.machine q.releaseTimeout).state (tableEvents es)
  inStep : InStep n
  targetPitch : n.targetPitch = q.targetStep * netSteps (keysOf es) ['i', 'I'] ['k', 'K']
  targetYaw : n.targetYaw = q.targetStep * netSteps (keysOf es) ['l', 'L'] ['j', 'J']
  requestedMode : n.requestedMode = (latest (fun key => modeOfKey key.1) (keysOf es)).getD 0

theorem sum_steps {up down : List Char} (h : ∀ c ∈ up, c ∉ down) (keys : List (Char × Time)) :
    (keys.map fun key => steps up down key.1).sum = netSteps keys up down := by
  unfold netSteps
  induction keys with
  | nil => rfl
  | cons key keys ih =>
    rw [List.map_cons, List.sum_cons, ih]
    by_cases hup : key.1 ∈ up
    · have hdown : key.1 ∉ down := h key.1 hup
      simp [steps, hup, hdown]
      omega
    · by_cases hdown : key.1 ∈ down <;> simp [steps, hup, hdown]
      omega

/-- A target that has been counted along goes on with the keys that are read next. -/
theorem target_append {target target' step : ℚ} {keys keys' : List (Char × Time)}
    {up down : List Char} (hkeys : ∀ c ∈ up, c ∉ down)
    (h : target = step * netSteps keys up down)
    (h' : target' = target + (keys'.map fun key => steps up down key.1).sum * step) :
    target' = step * netSteps (keys ++ keys') up down := by
  have happend : netSteps (keys ++ keys') up down =
      netSteps keys up down + netSteps keys' up down := by
    simp only [netSteps, List.countP_append]
    omega
  rw [h', h, happend, sum_steps hkeys]
  push_cast
  ring

theorem keysOf_concat (es : List LoopRun) (r : LoopRun) :
    keysOf (es ++ [r]) = keysOf es ++ r.keys := by
  simp [keysOf]

theorem knows_refresh {q : KeyboardParams} {es : List LoopRun} {n : TeleopKeyboardNode}
    (h : Knows q es n) (r : LoopRun) :
    Knows q (es ++ [r]) ((n.readKeys q r.keys).refreshPressedKeys q r.now) := by
  have hread := keysRead q n r.keys
  refine ⟨?_, inStep_refreshPressedKeys q (inStep_readKeys q h.inStep r.keys) r.now, ?_, ?_, ?_⟩
  · rw [tableEvents_concat, Machine.state_concat, Machine.state_append, ← h.timestamps,
      Expiry.machine_step, ← lookup_readKeys, refreshPressedKeys_eq]
    funext k
    exact Expiry.lookup_sweep
  · rw [refreshPressedKeys_eq, keysOf_concat]
    exact target_append (by simp) h.targetPitch hread.targetPitch
  · rw [refreshPressedKeys_eq, keysOf_concat]
    exact target_append (by simp) h.targetYaw hread.targetYaw
  · rw [refreshPressedKeys_eq, keysOf_concat, latest_append]
    simp only [hread.requestedMode, h.requestedMode]
    cases latest (fun key => modeOfKey key.1) r.keys <;> rfl

/-- The node between two runs: the one-shot flags have been taken back. -/
structure Idle (q : KeyboardParams) (es : List LoopRun) (n : TeleopKeyboardNode) : Prop where
  knows : Knows q es n
  executeAction : n.executeAction = false
  sendTarget : n.sendTarget = false
  resetError : n.resetError = false

theorem idle (q : KeyboardParams) (es : List LoopRun) : Idle q es ((machine q).state es) := by
  apply (machine q).history_rule (P := Idle q)
  · refine ⟨⟨?_, ?_, ?_, ?_, rfl⟩, rfl, rfl, rfl⟩
    · funext k
      exact AList.lookup_empty k
    · intro k
      exact iff_of_false (AList.notMem_empty k) (AList.notMem_empty k)
    · simp [machine, netSteps, keysOf]
    · simp [machine, netSteps, keysOf]
  · intro es r ih
    have hknows := knows_refresh ih.knows r
    refine ⟨⟨hknows.timestamps, hknows.inStep, hknows.targetPitch, hknows.targetYaw,
      hknows.requestedMode⟩, rfl, rfl, rfl⟩

/-- Which jog keys count as pressed after the refresh: those read within the release timeout. -/
theorem mem_pressedKeys {q : KeyboardParams} {es : List LoopRun} {r : LoopRun}
    {n : TeleopKeyboardNode} (h : Knows q (es ++ [r]) n)
    (hclock : ((es ++ [r]).flatMap LoopRun.readings).Pairwise (· ≤ ·)) {k : Char}
    (hk : k ∈ jogKeys) :
    k ∈ n.pressedKeys ↔ ∃ t, (k, t) ∈ keysOf (es ++ [r]) ∧ r.now - t ≤ q.releaseTimeout := by
  have htimes := hclock.sublist (time_tableEvents (es ++ [r]))
  rw [tableEvents_concat] at htimes
  have hlookup := congrFun h.timestamps k
  rw [tableEvents_concat] at hlookup
  rw [h.inStep k, ← AList.lookup_isSome, hlookup, Expiry.isSome_state_sweep htimes]
  simp [touch_mem_tableEvents hk, mem_touches hk, keysOf_concat]

/-- A jog key counts as pressed only if it was read within the release timeout, whatever the clock has
done before. -/
theorem read_of_pressed {q : KeyboardParams} {es : List LoopRun} {r : LoopRun}
    {n : TeleopKeyboardNode} (h : Knows q (es ++ [r]) n) {k : Char} (hk : k ∈ jogKeys)
    (hpressed : k ∈ n.pressedKeys) :
    ∃ t, (k, t) ∈ keysOf (es ++ [r]) ∧ r.now - t ≤ q.releaseTimeout := by
  have hlookup := congrFun h.timestamps k
  rw [tableEvents_concat, Machine.state_concat] at hlookup
  rw [h.inStep k, ← AList.lookup_isSome, hlookup] at hpressed
  obtain ⟨t, ht⟩ := Option.isSome_iff_exists.mp hpressed
  obtain ⟨hentry, hfresh⟩ := Option.filter_eq_some_iff.mp ht
  refine ⟨t, ?_, of_decide_eq_true hfresh⟩
  rw [← touch_mem_tableEvents hk, tableEvents_concat]
  exact List.mem_append_left _ (Expiry.touch_of_entry hentry)

theorem pressed_iff_heldWithin {q : KeyboardParams} {es : List LoopRun} {r : LoopRun}
    {n : TeleopKeyboardNode} (h : Knows q (es ++ [r]) n)
    (hclock : ((es ++ [r]).flatMap LoopRun.readings).Pairwise (· ≤ ·)) {c d : Char}
    (hc : c ∈ jogKeys) (hd : d ∈ jogKeys) : (c ∈ n.pressedKeys ∨ d ∈ n.pressedKeys) ↔
      heldWithin q (keysOf (es ++ [r])) r.now [c, d] = true := by
  rw [mem_pressedKeys h hclock hc, mem_pressedKeys h hclock hd]
  simp only [heldWithin, List.any_eq_true, decide_eq_true_eq, List.mem_cons, List.not_mem_nil,
    or_false]
  constructor
  · rintro (⟨t, hmem, hheld⟩ | ⟨t, hmem, hheld⟩)
    · exact ⟨(c, t), hmem, .inl rfl, hheld⟩
    · exact ⟨(d, t), hmem, .inr rfl, hheld⟩
  · rintro ⟨⟨k, t⟩, hmem, rfl | rfl, hheld⟩
    · exact .inl ⟨t, hmem, hheld⟩
    · exact .inr ⟨t, hmem, hheld⟩

/-- Whatever keys have been read before, and however often keys have expired and been pressed again,
a run publishes what the key history says. -/
theorem publishLoop_history (q : KeyboardParams) (es : List LoopRun) (r : LoopRun)
    (hclock : ((es ++ [r]).flatMap LoopRun.readings).Pairwise (· ≤ ·)) :
    (((machine q).state es).publishLoop q r.keys r.now).2 = specCommand q es r := by
  have hidle := idle q es
  generalize (machine q).state es = n at hidle ⊢
  have hknows := knows_refresh hidle.knows r
  have hread := keysRead q n r.keys
  have hflags : ((n.readKeys q r.keys).refreshPressedKeys q r.now).executeAction =
        (n.readKeys q r.keys).executeAction ∧
      ((n.readKeys q r.keys).refreshPressedKeys q r.now).sendTarget =
        (n.readKeys q r.keys).sendTarget ∧
      ((n.readKeys q r.keys).refreshPressedKeys q r.now).resetError =
        (n.readKeys q r.keys).resetError := by
    rw [refreshPressedKeys_eq]
    exact ⟨rfl, rfl, rfl⟩
  simp only [publishLoop, specCommand, hknows.targetPitch, hknows.targetYaw, hknows.requestedMode,
    hflags.1, hflags.2.1, hflags.2.2, hread.executeAction, hread.sendTarget, hread.resetError,
    hidle.executeAction, hidle.sendTarget, hidle.resetError, Bool.false_or,
    pressed_iff_heldWithin hknows hclock (by decide : 'w' ∈ jogKeys) (by decide : 'W' ∈ jogKeys),
    pressed_iff_heldWithin hknows hclock (by decide : 's' ∈ jogKeys) (by decide : 'S' ∈ jogKeys),
    pressed_iff_heldWithin hknows hclock (by decide : 'd' ∈ jogKeys) (by decide : 'D' ∈ jogKeys),
    pressed_iff_heldWithin hknows hclock (by decide : 'a' ∈ jogKeys) (by decide : 'A' ∈ jogKeys)]

/-- 'w' has been pressed twice and has expired just now, 's' has not. -/
theorem publishLoop_history_repress :
    let es : List LoopRun :=
      [⟨[('w', 0), ('i', 1)], 2⟩, ⟨[('w', 400000000), ('3', 400000001)], 400000002⟩]
    let r : LoopRun := ⟨[('s', 800000000), ('t', 800000001)], 900000001⟩
    (((machine {}).state es).publishLoop {} r.keys r.now).2 =
      { pitchSpeed := -1, targetPitch := 1 / 10, requestedMode := 3, sendTarget := true } := by
  intro es r
  have hclock : ((es ++ [r]).flatMap LoopRun.readings).Pairwise (· ≤ ·) := by decide
  rw [publishLoop_history {} es r hclock]
  decide +kernel

end ArgusGate.TeleopKeyboardNode
