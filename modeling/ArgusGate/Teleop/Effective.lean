import ArgusGate.Manager.Influence
import ArgusGate.Teleop.Joystick
import ArgusGate.Teleop.Keyboard

/-!
# What of the operator's input counts

The keyboard reads every key and the joystick driver every axis and button, and yet little of that comes
out of the teleop nodes. What does not is erased here: the keys without a meaning and those of the two
flags that the manager ignores, all axes but U and V, and all buttons but three.
-/

namespace ArgusGate

/-- The message without `execute_action` and `send_target`. -/
def TeleopCommand.plain (msg : TeleopCommand) : TeleopCommand :=
  { msg with executeAction := false, sendTarget := false }

theorem TeleopCommand.alike_iff {msg msg' : TeleopCommand} :
    msg.Alike msg' ↔ msg.plain = msg'.plain := by
  cases msg
  cases msg'
  simp [TeleopCommand.Alike, TeleopCommand.plain]

/-! ## The keyboard -/

namespace TeleopKeyboardNode

/-- The keys that do something. -/
def effective (c : Char) : Bool :=
  c ∈ jogKeys ++ ['i', 'I', 'k', 'K', 'j', 'J', 'l', 'L', '0', '1', '2', '3', 'r', 'R']

/-- The node without the two flags. -/
def plain (n : TeleopKeyboardNode) : TeleopKeyboardNode :=
  { n with executeAction := false, sendTarget := false }

variable (q : KeyboardParams) {n n' : TeleopKeyboardNode}

theorem handleKey_congr (h : n.plain = n'.plain) (c : Char) (now : Time) :
    (n.handleKey q c now).plain = (n'.handleKey q c now).plain := by
  have hplain : ∀ n : TeleopKeyboardNode,
      (n.handleKey q c now).plain = (n.plain.handleKey q c now).plain := by
    intro n
    rw [handleKey_eq, handleKey_eq]
    rfl
  rw [hplain n, hplain n', h]

theorem readKeys_congr (h : n.plain = n'.plain) (keys : List (Char × Time)) :
    (n.readKeys q keys).plain = (n'.readKeys q keys).plain := by
  induction keys generalizing n n' with
  | nil => exact h
  | cons key keys ih =>
    rw [readKeys_cons, readKeys_cons]
    exact ih (handleKey_congr q h key.1 key.2)

theorem handleKey_of_not_effective {c : Char} (h : effective c = false) (now : Time) :
    (n.handleKey q c now).plain = n.plain := by
  have hnot : c ∉ jogKeys ++
      ['i', 'I', 'k', 'K', 'j', 'J', 'l', 'L', '0', '1', '2', '3', 'r', 'R'] := by
    simpa [effective] using h
  simp only [List.mem_append, not_or] at hnot
  obtain ⟨hjog, hother⟩ := hnot
  simp only [List.mem_cons, List.not_mem_nil, or_false, not_or] at hother
  rw [handleKey_eq]
  simp [plain, hjog, hother, modeOfKey, steps]

/-- The keys without an effect can be left out. -/
theorem readKeys_filter (n : TeleopKeyboardNode) (keys : List (Char × Time)) :
    (n.readKeys q keys).plain = (n.readKeys q (keys.filter fun key => effective key.1)).plain := by
  induction keys generalizing n with
  | nil => rfl
  | cons key keys ih =>
    rw [readKeys_cons, ih]
    by_cases heffective : effective key.1 = true
    · rw [List.filter_cons, if_pos heffective, readKeys_cons]
    · rw [List.filter_cons, if_neg heffective]
      exact readKeys_congr q (handleKey_of_not_effective q (by simpa using heffective) key.2) _

/-- What a run of the loop leaves and publishes, up to the two flags. -/
theorem publishLoop_congr (h : n.plain = n'.plain) {keys keys' : List (Char × Time)}
    (hkeys : (keys.filter fun key => effective key.1) = keys'.filter fun key => effective key.1)
    (now : Time) : (n.publishLoop q keys now).1.plain = (n'.publishLoop q keys' now).1.plain ∧
      (n.publishLoop q keys now).2.plain = (n'.publishLoop q keys' now).2.plain := by
  have hread : (n.readKeys q keys).plain = (n'.readKeys q keys').plain := by
    rw [readKeys_filter, readKeys_filter q n' keys', hkeys]
    exact readKeys_congr q h _
  simp only [publishLoop, refreshPressedKeys_eq]
  generalize n.readKeys q keys = m, n'.readKeys q keys' = m' at hread ⊢
  simp only [plain, mk.injEq] at hread
  obtain ⟨hpressed, htimestamps, -, -, hpitch, hyaw, hmode, -, hreset, -⟩ := hread
  simp only [hpressed, htimestamps, hpitch, hyaw, hmode, hreset]
  exact ⟨trivial, rfl⟩

end TeleopKeyboardNode

/-! ## The joystick -/

/-- The reading without what nobody looks at: the joysticks other than that of the driver, the axes other
than U and V, which the teleop takes for the right stick, the buttons other than Circle, Square and
Triangle. -/
def JoystickReading.plain (id : Option ℕ) (r : JoystickReading) : JoystickReading where
  isConnected i := decide (id = some i) && r.isConnected i
  getAxisPosition i
    | .u => if id = some i then r.getAxisPosition i .u else 0
    | .v => if id = some i then r.getAxisPosition i .v else 0
    | _ => 0
  isButtonPressed i b := decide (id = some i ∧ b ∈ [1, 2, 3]) && r.isButtonPressed i b

/-- The message without what the teleop does not read. -/
def Joy.plain (msg : Joy) : Joy where
  axes := msg.axes.mapIdx fun i x => if i = 4 ∨ i = 5 then x else 0
  buttons := msg.buttons.mapIdx fun i b => if i = 1 ∨ i = 2 ∨ i = 3 then b else 0

namespace JoystickNode

theorem readAndPublish_plain (n : JoystickNode) (r : JoystickReading) :
    (n.readAndPublish r).plain = n.readAndPublish (r.plain n.joystickId) := by
  obtain ⟨_ | id⟩ := n
  · rfl
  · cases hconnected : r.isConnected id with
    | false => simp [readAndPublish, JoystickReading.plain, hconnected, Joy.plain]
    | true =>
      simp only [readAndPublish, JoystickReading.plain, hconnected, Joy.plain, decide_true,
        Bool.and_true, if_true, Joy.mk.injEq]
      refine ⟨by simp, ?_⟩
      apply List.ext_getElem (by simp)
      intro i hi hi'
      simp [ite_and]

end JoystickNode

namespace Joy

variable (msg : Joy)

theorem plain_axes_getD {i : ℕ} (h : i = 4 ∨ i = 5) :
    msg.plain.axes.getD i 0 = msg.axes.getD i 0 := by
  simp [plain, h]

theorem plain_buttons_getD {i : ℕ} (h : i = 1 ∨ i = 2 ∨ i = 3) :
    msg.plain.buttons.getD i 0 = msg.buttons.getD i 0 := by
  simp [plain, h]

@[simp] theorem length_plain_axes : msg.plain.axes.length = msg.axes.length := by simp [plain]

@[simp] theorem length_plain_buttons : msg.plain.buttons.length = msg.buttons.length := by
  simp [plain]

end Joy

namespace ArgusTeleopJoyNode

def plain (n : ArgusTeleopJoyNode) : ArgusTeleopJoyNode := { cmd := n.cmd.plain }

theorem onJoyReceived_plain (n : ArgusTeleopJoyNode) (msg : Joy) :
    ((n.onJoyReceived msg).1.plain, (n.onJoyReceived msg).2.map TeleopCommand.plain) =
      ((n.plain.onJoyReceived msg.plain).1.plain,
        (n.plain.onJoyReceived msg.plain).2.map TeleopCommand.plain) := by
  unfold onJoyReceived
  simp only [Joy.length_plain_axes, Joy.length_plain_buttons]
  by_cases hshort : msg.axes.length < 8 ∨ msg.buttons.length < 4
  · rw [if_pos hshort, if_pos hshort]
    rfl
  · rw [if_neg hshort, if_neg hshort]
    simp only [msg.plain_axes_getD (.inl rfl), msg.plain_axes_getD (.inr rfl),
      msg.plain_buttons_getD (.inl rfl), msg.plain_buttons_getD (.inr (.inl rfl)),
      msg.plain_buttons_getD (.inr (.inr rfl))]
    split_ifs <;> rfl

theorem onJoyReceived_congr {n n' : ArgusTeleopJoyNode} (h : n.plain = n'.plain) {msg msg' : Joy}
    (hmsg : msg.plain = msg'.plain) :
    (n.onJoyReceived msg).1.plain = (n'.onJoyReceived msg').1.plain ∧
      (n.onJoyReceived msg).2.map TeleopCommand.plain =
        (n'.onJoyReceived msg').2.map TeleopCommand.plain := by
  have heq := onJoyReceived_plain n msg
  rw [h, hmsg, ← onJoyReceived_plain] at heq
  exact Prod.mk.inj heq

end ArgusTeleopJoyNode

end ArgusGate
