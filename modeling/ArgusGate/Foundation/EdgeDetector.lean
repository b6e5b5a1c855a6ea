import ArgusGate.Foundation.Reactive

/-!
# Edge detection on a sampled signal

A Boolean signal is set from time to time and sampled from time to time, in any order. A sample
detects an edge if the signal is up now and was down at the sample before. What it misses are the
changes between two samples; what it detects are edges of the signal, each at most once.
-/

namespace EdgeDetector

open Reactive

inductive Event where
  | set (b : Bool)
  | sample
  deriving DecidableEq

/-- The signal, and what it was at the last sample. -/
structure Detector where
  value : Bool := false
  sampled : Bool := false

def step (d : Detector) : Event → Detector
  | .set b => { d with value := b }
  | .sample => { d with sampled := d.value }

def machine : Machine Detector Event := { start := {}, step }

/-- A sample taken now detects an edge. -/
def Detector.edge (d : Detector) : Bool := d.value && !d.sampled

/-- The values the signal has been set to. -/
def values (es : List Event) : List Bool :=
  es.filterMap fun | .set b => some b | .sample => none

@[simp] theorem values_nil : values [] = [] := rfl
@[simp] theorem values_append (es fs : List Event) :
    values (es ++ fs) = values es ++ values fs := List.filterMap_append
@[simp] theorem values_set (b : Bool) (es : List Event) :
    values (.set b :: es) = b :: values es := rfl
@[simp] theorem values_sample (es : List Event) : values (.sample :: es) = values es := rfl

/-- The level of a signal after the given values; it is down before the first one. -/
def level (bs : List Bool) : Bool := bs.getLast?.getD false

@[simp] theorem level_concat (bs : List Bool) (b : Bool) : level (bs ++ [b]) = b := by
  simp [level]

theorem state_value (es : List Event) : (machine.state es).value = level (values es) := by
  induction es using List.reverseRecOn with
  | nil => rfl
  | append_singleton es e ih =>
    rw [Machine.state_concat]
    cases e with
    | set b => simp [machine, step]
    | sample => simpa [machine, step] using ih

/-- The rising edges of a list of values, coming from `prev`. -/
def risingFrom (prev : Bool) : List Bool → ℕ
  | [] => 0
  | b :: bs => (b && !prev).toNat + risingFrom b bs

/-- The rising edges of a signal that starts down. -/
def risingEdges (bs : List Bool) : ℕ := risingFrom false bs

theorem risingFrom_concat (prev : Bool) (bs : List Bool) (b : Bool) :
    risingFrom prev (bs ++ [b]) = risingFrom prev bs + (b && !(bs.getLast?.getD prev)).toNat := by
  induction bs generalizing prev with
  | nil => simp [risingFrom]
  | cons c bs ih =>
    rw [List.cons_append, risingFrom, risingFrom, ih, Nat.add_assoc, List.getLast?_cons,
      Option.getD_some]

@[simp] theorem risingEdges_concat (bs : List Bool) (b : Bool) :
    risingEdges (bs ++ [b]) = risingEdges bs + (b && !level bs).toNat :=
  risingFrom_concat false bs b

/-- The samples of a run that detect an edge. -/
def detections (es : List Event) : ℕ :=
  machine.count (fun d e => decide (e = .sample) && d.edge) es

/-- Setting the signal keeps a waiting edge, drops it, or makes a new one. -/
theorem edge_set (d : Detector) (b : Bool) :
    (step d (.set b)).edge.toNat ≤ d.edge.toNat + (b && !d.value).toNat := by
  obtain ⟨value, sampled⟩ := d
  cases b <;> cases value <;> cases sampled <;> decide

@[simp] theorem edge_sample (d : Detector) : (step d .sample).edge = false := by
  simp [Detector.edge, step]

/-- No more edges are detected than there are; one that waits for its sample is not counted yet. -/
theorem detections_le (es : List Event) :
    detections es + (machine.state es).edge.toNat ≤ risingEdges (values es) := by
  induction es using List.reverseRecOn with
  | nil => exact Nat.le_refl 0
  | append_singleton es e ih =>
    have hcount : detections (es ++ [e]) = detections es +
        (decide (e = .sample) && (machine.state es).edge).toNat := machine.count_concat _ es e
    rw [Machine.state_concat, hcount]
    cases e with
    | set b =>
      have hedge := edge_set (machine.state es) b
      rw [state_value] at hedge
      simp only [machine, values_append, values_set, values_nil, risingEdges_concat] at *
      simp only [reduceCtorEq, decide_false, Bool.false_and, Bool.toNat_false]
      omega
    | sample =>
      simpa [machine] using ih

/-- Once an edge has been detected, the signal and its sample are up until it is set down. -/
theorem up_along {es : List Event} {d : Detector} (h : Event.set false ∉ es)
    (hd : d.value = true ∧ d.sampled = true) :
    (es.foldl step d).value = true ∧ (es.foldl step d).sampled = true := by
  induction es generalizing d with
  | nil => exact hd
  | cons e es ih =>
    apply ih (fun hmem => h (List.mem_cons_of_mem e hmem))
    cases e with
    | set b =>
      cases b with
      | false => exact absurd List.mem_cons_self h
      | true => exact ⟨rfl, hd.2⟩
    | sample => exact ⟨hd.1, hd.1⟩

/-- Between two detections the signal is set down. -/
theorem down_between {pre mid : List Event} (h : (machine.state pre).edge = true)
    (h' : (machine.state (pre ++ .sample :: mid)).edge = true) : Event.set false ∈ mid := by
  by_contra hup
  have hvalue : (machine.state pre).value = true := by
    simp only [Detector.edge, Bool.and_eq_true] at h
    exact h.1
  rw [Machine.state_append, List.foldl_cons] at h'
  obtain ⟨-, hsampled⟩ := up_along (d := step (machine.state pre) .sample) hup ⟨hvalue, hvalue⟩
  simp only [Detector.edge, Bool.and_eq_true, Bool.not_eq_true'] at h'
  exact absurd (hsampled.symm.trans h'.2) (by decide)

/-- What the last sample saw, read off the run. -/
theorem sampled_eq_false_iff (es : List Event) : (machine.state es).sampled = false ↔
    ∀ pre mid, es = pre ++ .sample :: mid → Event.sample ∉ mid → level (values pre) = false := by
  induction es using List.reverseRecOn with
  | nil => simp [machine]
  | append_singleton es e ih =>
    rw [Machine.state_concat]
    cases e with
    | set b =>
      rw [show (machine.step (machine.state es) (.set b)).sampled = (machine.state es).sampled
        from rfl, ih]
      constructor
      · intro h pre mid heq hmid
        obtain ⟨-, hset, -⟩ | ⟨rest, rfl, rfl⟩ := concat_eq_append_cons.mp heq
        · cases hset
        · exact h pre rest rfl (fun hmem => hmid (by simp [hmem]))
      · intro h pre mid heq hmid
        exact h pre (mid ++ [.set b]) (by simp [heq]) (by simpa using hmid)
    | sample =>
      rw [show (machine.step (machine.state es) .sample).sampled = (machine.state es).value
        from rfl, state_value]
      constructor
      · intro h pre mid heq hmid
        obtain ⟨rfl, -, -⟩ | ⟨rest, rfl, -⟩ := concat_eq_append_cons.mp heq
        · exact h
        · exact absurd (by simp) hmid
      · intro h
        exact h es [] rfl (by simp)

end EdgeDetector
