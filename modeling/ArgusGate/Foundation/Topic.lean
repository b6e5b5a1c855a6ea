import Mathlib.Algebra.Order.Group.Defs
import Mathlib.Data.List.Chain

/-!
# In-order topics

A topic with one subscriber that delivers every message in publication order: the log of what was
published, and how much of it the subscriber has taken. The log only grows, so the index at which
a message was published names it for good.
-/

/-- What was published, and how many of these messages have been taken. -/
structure Topic (α : Type*) where
  log : List α
  taken : Nat
  taken_le : taken ≤ log.length

namespace Topic

variable {α : Type*}

def empty : Topic α := ⟨[], 0, Nat.le_refl 0⟩

def publish (t : Topic α) (a : α) : Topic α :=
  ⟨t.log ++ [a], t.taken, by
    have := t.taken_le
    simp only [List.length_append]
    omega⟩

/-- Publish what a callback publishes, if anything. -/
def publishSome (t : Topic α) : Option α → Topic α
  | none => t
  | some a => t.publish a

/-- The message the subscriber takes next, if one is waiting. -/
def next? (t : Topic α) : Option α := t.log[t.taken]?

/-- The message the subscriber has taken last. -/
def last? (t : Topic α) : Option α :=
  match t.taken with
  | 0 => none
  | n + 1 => t.log[n]?

/-- The messages the subscriber has taken. -/
def received (t : Topic α) : List α := t.log.take t.taken

/-- The messages that are still to be taken. -/
def waiting (t : Topic α) : List α := t.log.drop t.taken

/-- Take the next message; nothing happens if none is waiting. -/
def take (t : Topic α) : Topic α :=
  if h : t.taken < t.log.length then ⟨t.log, t.taken + 1, h⟩ else t

@[simp] theorem empty_log : (empty : Topic α).log = [] := rfl
@[simp] theorem publish_log (t : Topic α) (a : α) : (t.publish a).log = t.log ++ [a] := rfl
@[simp] theorem publish_taken (t : Topic α) (a : α) : (t.publish a).taken = t.taken := rfl

@[simp] theorem publishSome_log (t : Topic α) (a : Option α) :
    (t.publishSome a).log = t.log ++ a.toList := by
  cases a <;> simp [publishSome]

theorem mem_publish {t : Topic α} {a b : α} : b ∈ (t.publish a).log ↔ b ∈ t.log ∨ b = a := by
  rw [publish_log, List.mem_append, List.mem_singleton]

/-- A relation between consecutive messages, when one more is published. -/
theorem isChain_publish {R : α → α → Prop} {t : Topic α} {a : α} (h : t.log.IsChain R)
    (hlast : ∀ b ∈ t.log.getLast?, R b a) : (t.publish a).log.IsChain R := by
  rw [publish_log]
  apply h.append (.singleton a)
  intro b hb a' ha'
  obtain rfl : a = a' := by simpa using ha'
  exact hlast b hb

@[simp] theorem take_log (t : Topic α) : t.take.log = t.log := by
  unfold take
  split_ifs <;> rfl

theorem lt_of_next? {t : Topic α} {a : α} (h : t.next? = some a) : t.taken < t.log.length :=
  (List.getElem?_eq_some_iff.mp h).1

theorem mem_of_next? {t : Topic α} {a : α} (h : t.next? = some a) : a ∈ t.log :=
  List.mem_of_getElem? h

theorem mem_drop_of_next? {t : Topic α} {a : α} (h : t.next? = some a) :
    a ∈ t.log.drop t.taken := by
  apply List.mem_of_getElem? (i := 0)
  rw [List.getElem?_drop]
  exact h

@[simp] theorem waiting_empty : (empty : Topic α).waiting = [] := rfl

@[simp] theorem publish_waiting (t : Topic α) (a : α) : (t.publish a).waiting = t.waiting ++ [a] := by
  rw [waiting, publish_log, publish_taken, List.drop_append_of_le_length t.taken_le, waiting]

@[simp] theorem publishSome_waiting (t : Topic α) (a : Option α) :
    (t.publishSome a).waiting = t.waiting ++ a.toList := by
  cases a <;> simp [publishSome]

@[simp] theorem take_waiting (t : Topic α) : t.take.waiting = t.waiting.tail := by
  unfold take
  split_ifs with h
  · simp [waiting]
  · simp [waiting, List.drop_eq_nil_of_le (not_lt.mp h)]

theorem waiting_of_next? {t : Topic α} {a : α} (h : t.next? = some a) :
    t.waiting = a :: t.waiting.tail := by
  have hhead : t.waiting.head? = some a := by rw [waiting, List.head?_drop, ← h, next?]
  exact (List.cons_head?_tail hhead).symm

theorem take_taken {t : Topic α} {a : α} (h : t.next? = some a) :
    t.take.taken = t.taken + 1 := by
  unfold take
  rw [dif_pos (lt_of_next? h)]

theorem take_last? {t : Topic α} {a : α} (h : t.next? = some a) : t.take.last? = some a := by
  unfold last?
  rw [take_taken h, take_log]
  exact h

theorem last?_eq {t : Topic α} {n : Nat} (h : t.taken = n + 1) : t.last? = t.log[n]? := by
  simp [last?, h]

/-- Publishing does not change what was taken last. -/
@[simp] theorem publish_last? (t : Topic α) (a : α) : (t.publish a).last? = t.last? := by
  have hle := t.taken_le
  cases h : t.taken with
  | zero => simp [last?, h]
  | succ n =>
    rw [last?_eq h, last?_eq (t := t.publish a) h, publish_log,
      List.getElem?_append_left (by omega)]

theorem mem_of_last? {t : Topic α} {a : α} (h : t.last? = some a) : a ∈ t.log := by
  unfold last? at h
  split at h
  · cases h
  · exact List.mem_of_getElem? h

theorem last?_eq_received (t : Topic α) : t.last? = t.received.getLast? := by
  have hle := t.taken_le
  unfold last? received
  split
  · rename_i hzero
    simp [hzero]
  · rename_i n hn
    rw [hn, List.getLast?_eq_getElem?, List.length_take_of_le (by omega)]
    exact (List.getElem?_take_of_lt n.lt_succ_self).symm

/-- If each message with `C` repeats the value `f` of the message before it, then a message's value
lasts as long as only messages with `C` are taken after it. -/
theorem last?_of_sticky {β : Type*} {f : α → β} {C : α → Prop} {t : Topic α} {pre post : List α}
    {a : α} (hchain : t.log.IsChain fun b c => C c → f c = f b)
    (hreceived : t.received = pre ++ a :: post) (hpost : ∀ b ∈ post, C b) :
    t.last?.map f = some (f a) := by
  have hsuffix : (a :: post).IsChain fun b c => C c → f c = f b := by
    have htake : (pre ++ a :: post).IsChain fun b c => C c → f c = f b :=
      hreceived ▸ hchain.take t.taken
    exact htake.right_of_append
  rw [last?_eq_received, hreceived, List.getLast?_append_cons]
  clear hreceived
  induction post generalizing a with
  | nil => rfl
  | cons b post ih =>
    obtain ⟨hstep, hrest⟩ := List.isChain_cons_cons.mp hsuffix
    have hb : f b = f a := hstep (hpost b (by simp))
    rw [List.getLast?_cons_cons, ← hb]
    exact ih (fun c hc => hpost c (List.mem_cons_of_mem b hc)) hrest

/-- Before what is waiting stands the message that was taken last. -/
theorem log_of_last? {t : Topic α} {a : α} (h : t.last? = some a) :
    ∃ pre, t.log = pre ++ a :: t.waiting := by
  have hle := t.taken_le
  cases htaken : t.taken with
  | zero => simp [last?, htaken] at h
  | succ n =>
    rw [last?_eq htaken] at h
    obtain ⟨hlt, rfl⟩ := List.getElem?_eq_some_iff.mp h
    refine ⟨t.log.take n, ?_⟩
    rw [waiting, htaken, List.getElem_cons_drop, List.take_append_drop]

/-- The topic as if the subscriber had begun with the message `a`. -/
def precede (a : α) (t : Topic α) : Topic α :=
  ⟨a :: t.log, t.taken + 1, Nat.succ_le_succ t.taken_le⟩

@[simp] theorem precede_log (a : α) (t : Topic α) : (t.precede a).log = a :: t.log := rfl

@[simp] theorem precede_waiting (a : α) (t : Topic α) : (t.precede a).waiting = t.waiting := rfl

@[simp] theorem precede_publish (a b : α) (t : Topic α) :
    (t.publish b).precede a = (t.precede a).publish b := rfl

theorem precede_take_last? {t : Topic α} {a b : α} (h : t.next? = some b) :
    (t.take.precede a).last? = some b := by
  have htaken : (t.take.precede a).taken = (t.taken + 1) + 1 := congrArg (· + 1) (take_taken h)
  rw [last?_eq htaken, precede_log, take_log]
  exact h

/-- The topic whose messages are those of `t` under `f`. -/
def map {β : Type*} (f : α → β) (t : Topic α) : Topic β :=
  ⟨t.log.map f, t.taken, by simpa using t.taken_le⟩

section Map

variable {β : Type*} (f : α → β) (t : Topic α)

@[simp] theorem map_next? : (t.map f).next? = t.next?.map f := by simp [map, next?]

@[simp] theorem map_publish (a : α) : (t.publish a).map f = (t.map f).publish (f a) := by
  simp [map, publish]

@[simp] theorem map_publishSome (a : Option α) :
    (t.publishSome a).map f = (t.map f).publishSome (a.map f) := by
  cases a <;> simp [publishSome]

@[simp] theorem map_take : t.take.map f = (t.map f).take := by
  unfold take map
  simp only [List.length_map]
  split_ifs <;> rfl

end Map

/-! ## Stamped messages -/

section Subscriber

variable {T : Type*} [LinearOrder T] {t : Topic (T × α)} {first m : T × α} {a : α} {received now : T}

/-- A subscriber that began with `first` has the message it has taken last, and has received it at
`received`. -/
def Holds (first : T × α) (t : Topic (T × α)) (a : α) (received : T) : Prop :=
  ∃ s ≤ received, (t.precede first).last? = some (s, a)

theorem holds_empty (s : T) (a : α) : Holds (s, a) (empty : Topic (T × α)) a s := ⟨s, le_rfl, rfl⟩

theorem holds_publish (h : t.Holds first a received) (m : T × α) :
    (t.publish m).Holds first a received := by
  obtain ⟨s, hs, hlast⟩ := h
  refine ⟨s, hs, ?_⟩
  rw [precede_publish, publish_last?, hlast]

theorem holds_publishSome (h : t.Holds first a received) (m : Option (T × α)) :
    (t.publishSome m).Holds first a received := by
  cases m with
  | none => exact h
  | some m => exact holds_publish h m

theorem holds_take (h : t.next? = some m) (hnow : m.1 ≤ now) : t.take.Holds first m.2 now :=
  ⟨m.1, hnow, precede_take_last? h⟩

end Subscriber

section Age

variable {T : Type*} [AddCommGroup T] [LinearOrder T] [IsOrderedAddMonoid T]
variable {t : Topic (T × α)} {period delay now : T} {m : T × α}

/-- How old the last message taken can be, when messages are stamped with their publication time:
at most `period` passes between publications, and no message waits longer than `delay`. -/
theorem last?_age (hchain : t.log.IsChain fun m m' => m'.1 ≤ m.1 + period)
    (hlast : ∀ m ∈ t.log.getLast?, now ≤ m.1 + period)
    (hwaiting : ∀ m ∈ t.log.drop t.taken, now ≤ m.1 + delay) (hdelay : 0 ≤ delay)
    (h : t.last? = some m) : now ≤ m.1 + period + delay := by
  obtain ⟨n, hn⟩ : ∃ n, t.taken = n + 1 := by
    cases htaken : t.taken with
    | zero => simp [last?, htaken] at h
    | succ n => exact ⟨n, rfl⟩
  rw [last?_eq hn] at h
  obtain ⟨hlt, rfl⟩ := List.getElem?_eq_some_iff.mp h
  by_cases hnext : n + 1 < t.log.length
  · -- the message after it is still waiting, and was published at most `period` later
    have hstep := List.isChain_iff_getElem.mp hchain n hnext
    have hwait : now ≤ t.log[n + 1].1 + delay := by
      apply hwaiting
      rw [hn]
      exact List.mem_drop_iff_getElem.mpr ⟨0, by omega, rfl⟩
    calc now ≤ t.log[n + 1].1 + delay := hwait
      _ ≤ t.log[n].1 + period + delay := add_le_add_left hstep delay
  · -- it is the last message published
    have hend : t.log[n] ∈ t.log.getLast? := by
      rw [List.getLast?_eq_getElem?, show t.log.length - 1 = n by omega]
      exact List.getElem?_eq_getElem hlt
    calc now ≤ t.log[n].1 + period := hlast _ hend
      _ ≤ t.log[n].1 + period + delay := le_add_of_nonneg_right hdelay

/-- The topic is fed: at most `period` has passed between two messages and since the last one, and none has
been waiting for more than `delay`. -/
structure Fed (t : Topic (T × α)) (period delay now : T) : Prop where
  spaced : t.log.IsChain fun m m' => m'.1 ≤ m.1 + period
  recent : ∀ m ∈ t.log.getLast?, now ≤ m.1 + period
  prompt : ∀ m ∈ t.waiting, now ≤ m.1 + delay

variable {first : T × α} {a : α} {received : T}

/-- What the subscriber has of a topic that is fed has come in not long ago. -/
theorem Holds.fresh (h : t.Holds first a received) (hfed : (t.precede first).Fed period delay now)
    (hdelay : 0 ≤ delay) : now ≤ received + period + delay := by
  obtain ⟨s, hs, hlast⟩ := h
  calc now ≤ s + period + delay := last?_age hfed.spaced hfed.recent hfed.prompt hdelay hlast
    _ ≤ received + period + delay := by gcongr

end Age

end Topic
