import Mathlib.Algebra.GroupWithZero.Nat
import Mathlib.Algebra.Order.Group.Abs
import Mathlib.Data.List.Forall2
import Mathlib.Data.List.Induction

/-!
# Reactive machines and their runs

A reactive machine is a start state and a total step function over events. A run is the list of
the events it has handled, oldest first, and `state` folds the steps over it. The rules here
prove a fact of every run from the fact about one step: `history_rule` for facts that relate the
state to the events so far, `eachStep_rule` for runs whose steps are all known to meet a
condition, `log_eq_trace` for what a run leaves in a log, `count_add_potential_le` for how often
something can happen, `abs_sub_le_sum` for how far something can go, `view_state` for a component of
a larger machine, `refinement_rule` for a machine that follows another one and `two_run_rule` for two
runs that are compared step by step. `latest` is the last piece of data of one kind in a history.
-/

namespace Reactive

variable {σ ε α : Type*}

/-- A machine that starts in `start` and goes from `s` to `step s e` on event `e`. -/
structure Machine (σ ε : Type*) where
  start : σ
  step : σ → ε → σ

/-- Where a list can be cut that ends in `e`: at its end, or before. -/
theorem concat_eq_append_cons {es pre post : List ε} {e x : ε} : es ++ [e] = pre ++ x :: post ↔
    (es = pre ∧ e = x ∧ post = []) ∨ ∃ rest, post = rest ++ [e] ∧ es = pre ++ x :: rest := by
  constructor
  · intro heq
    rcases post.eq_nil_or_concat with rfl | ⟨rest, y, rfl⟩
    · obtain ⟨rfl, hx⟩ := List.append_inj' heq rfl
      exact .inl ⟨rfl, List.singleton_inj.mp hx, rfl⟩
    · rw [List.concat_eq_append, ← List.cons_append, ← List.append_assoc] at heq
      obtain ⟨rfl, hy⟩ := List.append_inj' heq rfl
      exact .inr ⟨rest, by simp [List.singleton_inj.mp hy], rfl⟩
  · intro h
    obtain ⟨rfl, rfl, rfl⟩ | ⟨rest, rfl, rfl⟩ := h
    · rfl
    · simp

/-- Every event of the history `es` meets `C` with respect to the events before it. -/
def EachStep (C : List ε → ε → Prop) (es : List ε) : Prop :=
  ∀ pre e post, es = pre ++ e :: post → C pre e

theorem EachStep.nil (C : List ε → ε → Prop) : EachStep C [] := by
  intro pre e post h
  simp at h

theorem eachStep_concat {C : List ε → ε → Prop} {es : List ε} {e : ε} :
    EachStep C (es ++ [e]) ↔ EachStep C es ∧ C es e := by
  constructor
  · intro h
    refine ⟨fun pre x post heq => h pre x (post ++ [e]) (by simp [heq]), h es e [] rfl⟩
  · rintro ⟨h, he⟩ pre x post heq
    obtain ⟨rfl, rfl, -⟩ | ⟨rest, -, rfl⟩ := concat_eq_append_cons.mp heq
    · exact he
    · exact h pre x rest rfl

theorem eachStep_singleton {C : List ε → ε → Prop} {e : ε} : EachStep C [e] ↔ C [] e := by
  rw [← List.nil_append [e], eachStep_concat]
  exact and_iff_right (EachStep.nil C)

theorem eachStep_congr {C D : List ε → ε → Prop} {es : List ε} (h : ∀ pre e, C pre e ↔ D pre e) :
    EachStep C es ↔ EachStep D es :=
  forall₃_congr fun pre e _ => imp_congr_right fun _ => h pre e

theorem EachStep.of_append {C : List ε → ε → Prop} {es fs : List ε}
    (h : EachStep C (es ++ fs)) : EachStep C es :=
  fun pre e post heq => h pre e (post ++ fs) (by simp [heq])

theorem eachStep_append {C : List ε → ε → Prop} {es fs : List ε} :
    EachStep C (es ++ fs) ↔ EachStep C es ∧ EachStep (fun pre => C (es ++ pre)) fs := by
  constructor
  · intro h
    refine ⟨h.of_append, fun pre e post heq => h (es ++ pre) e post (by simp [heq])⟩
  · intro h
    induction fs using List.reverseRecOn with
    | nil => simpa using h.1
    | append_singleton fs e ih =>
      have hlast := eachStep_concat.mp h.2
      rw [← List.append_assoc, eachStep_concat]
      exact ⟨ih ⟨h.1, hlast.1⟩, hlast.2⟩

theorem eachStep_iff_getElem {C : List ε → ε → Prop} {es : List ε} :
    EachStep C es ↔ ∀ i (h : i < es.length), C (es.take i) es[i] := by
  constructor
  · intro hes i hi
    apply hes (es.take i) es[i] (es.drop (i + 1))
    rw [List.getElem_cons_drop, List.take_append_drop]
  · rintro hes pre e post rfl
    simpa using hes pre.length (by simp)

instance {C : List ε → ε → Prop} [∀ pre e, Decidable (C pre e)] (es : List ε) :
    Decidable (EachStep C es) :=
  decidable_of_iff _ eachStep_iff_getElem.symm

namespace Machine

variable (M : Machine σ ε)

/-- The state the run `es` ends in. -/
def state (es : List ε) : σ := es.foldl M.step M.start

@[simp] theorem state_nil : M.state [] = M.start := rfl

@[simp] theorem state_concat (es : List ε) (e : ε) :
    M.state (es ++ [e]) = M.step (M.state es) e := by
  simp [state]

theorem state_append (es fs : List ε) : M.state (es ++ fs) = fs.foldl M.step (M.state es) := by
  simp [state]

/-- What holds of the start and the empty history, and survives each step, holds of every run. -/
theorem history_rule {P : List ε → σ → Prop} (start : P [] M.start)
    (step : ∀ es e, P es (M.state es) → P (es ++ [e]) (M.step (M.state es) e)) (es : List ε) :
    P es (M.state es) := by
  induction es using List.reverseRecOn with
  | nil => exact start
  | append_singleton es e ih =>
    rw [state_concat]
    exact step es e ih

/-- The rule for runs whose steps all meet `C`. -/
theorem eachStep_rule {C : List ε → ε → Prop} {P : List ε → σ → Prop} (start : P [] M.start)
    (step : ∀ es e, C es e → P es (M.state es) → P (es ++ [e]) (M.step (M.state es) e))
    {es : List ε} (h : EachStep C es) : P es (M.state es) := by
  induction es using List.reverseRecOn with
  | nil => exact start
  | append_singleton es e ih =>
    rw [eachStep_concat] at h
    rw [state_concat]
    exact step es e h.2 (ih h.1)

/-- What `out` reads off the steps of a run, in order. -/
def trace (out : σ → ε → List α) (es : List ε) : List α :=
  (es.foldl (fun r e => (M.step r.1 e, r.2 ++ out r.1 e)) (M.start, [])).2

theorem trace_concat (out : σ → ε → List α) (es : List ε) (e : ε) :
    M.trace out (es ++ [e]) = M.trace out es ++ out (M.state es) e := by
  have hstate : ∀ es : List ε, (es.foldl (fun r e => (M.step r.1 e, r.2 ++ out r.1 e))
      (M.start, [])).1 = M.state es := by
    intro es
    induction es using List.reverseRecOn with
    | nil => rfl
    | append_singleton es e ih => simp [ih]
  simp [trace, hstate]

/-- Two machines that show the same at every step of every run have the same traces. -/
theorem trace_congr {τ : Type*} {N : Machine τ ε} {out : σ → ε → List α} {out' : τ → ε → List α}
    (same : ∀ es e, out (M.state es) e = out' (N.state es) e) (es : List ε) :
    M.trace out es = N.trace out' es := by
  induction es using List.reverseRecOn with
  | nil => rfl
  | append_singleton es e ih => rw [trace_concat, trace_concat, ih, same]

theorem trace_extends (out : σ → ε → List α) (es fs : List ε) :
    M.trace out es <+: M.trace out (es ++ fs) := by
  induction fs using List.reverseRecOn with
  | nil => simp
  | append_singleton fs e ih =>
    rw [← List.append_assoc, trace_concat]
    exact ih.trans (List.prefix_append _ _)

/-- A trace meets a condition at every entry if each step meets it with what it adds. -/
theorem eachStep_trace {out : σ → ε → List α} {C : List α → α → Prop} {es : List ε}
    (h : EachStep (fun pre e =>
      EachStep (fun ys => C (M.trace out pre ++ ys)) (out (M.state pre) e)) es) :
    EachStep C (M.trace out es) := by
  induction es using List.reverseRecOn with
  | nil => exact .nil C
  | append_singleton es e ih =>
    rw [eachStep_concat] at h
    rw [trace_concat, eachStep_append]
    exact ⟨ih h.1, h.2⟩

theorem mem_trace_iff {out : σ → ε → List α} {es : List ε} {a : α} : a ∈ M.trace out es ↔
    ∃ pre e post, es = pre ++ e :: post ∧ a ∈ out (M.state pre) e := by
  induction es using List.reverseRecOn with
  | nil => simp [trace]
  | append_singleton es e ih =>
    rw [trace_concat, List.mem_append, ih]
    constructor
    · rintro (⟨pre, x, post, rfl, ha⟩ | ha)
      · exact ⟨pre, x, post ++ [e], by simp, ha⟩
      · exact ⟨es, e, [], rfl, ha⟩
    · rintro ⟨pre, x, post, heq, ha⟩
      obtain ⟨rfl, rfl, -⟩ | ⟨rest, -, rfl⟩ := concat_eq_append_cons.mp heq
      · exact .inr ha
      · exact .inl ⟨pre, x, rest, rfl, ha⟩

/-- The number of steps of a run that `f` picks out. -/
def count (f : σ → ε → Bool) (es : List ε) : ℕ :=
  (M.trace (fun s e => if f s e then [()] else []) es).length

@[simp] theorem count_concat (f : σ → ε → Bool) (es : List ε) (e : ε) :
    M.count f (es ++ [e]) = M.count f es + (f (M.state es) e).toNat := by
  cases h : f (M.state es) e <;> simp [count, trace_concat, h]

/-- A log that each step extends by what `out` reads off it is the trace of `out`. -/
theorem log_eq_trace (log : σ → List α) (out : σ → ε → List α) (start : log M.start = [])
    (step : ∀ s e, log (M.step s e) = log s ++ out s e) (es : List ε) :
    log (M.state es) = M.trace out es := by
  induction es using List.reverseRecOn with
  | nil => exact start
  | append_singleton es e ih => rw [state_concat, step, trace_concat, ih]

/-- The potential rule: if every step that `f` picks out pays for itself out of the potential `Φ`, and
a step raises the potential by no more than its event costs, then a run has no more of these steps
than its events cost together. -/
theorem count_add_potential_le {f : σ → ε → Bool} {Φ : σ → ℕ} {cost : ε → ℕ} (start : Φ M.start = 0)
    (step : ∀ es e, (f (M.state es) e).toNat + Φ (M.step (M.state es) e) ≤
      Φ (M.state es) + cost e) (es : List ε) :
    M.count f es + Φ (M.state es) ≤ (es.map cost).sum := by
  induction es using List.reverseRecOn with
  | nil => simp [count, trace, start]
  | append_singleton es e ih =>
    have hstep := step es e
    rw [count_concat, state_concat, List.map_append, List.sum_append, List.map_singleton,
      List.sum_singleton]
    omega

/-- The variation rule: a quantity that a step changes by no more than its event costs is changed by a
run by no more than its events cost together. -/
theorem abs_sub_le_sum {G : Type*} [AddCommGroup G] [LinearOrder G] [IsOrderedAddMonoid G]
    {f : σ → G} {cost : ε → G}
    (step : ∀ es e, |f (M.step (M.state es) e) - f (M.state es)| ≤ cost e) (es fs : List ε) :
    |f (M.state (es ++ fs)) - f (M.state es)| ≤ (fs.map cost).sum := by
  induction fs using List.reverseRecOn with
  | nil => simp
  | append_singleton fs e ih =>
    rw [← List.append_assoc, state_concat, List.map_append, List.sum_append, List.map_singleton,
      List.sum_singleton]
    calc |f (M.step (M.state (es ++ fs)) e) - f (M.state es)|
        ≤ |f (M.step (M.state (es ++ fs)) e) - f (M.state (es ++ fs))| +
          |f (M.state (es ++ fs)) - f (M.state es)| := abs_sub_le _ _ _
      _ ≤ cost e + (fs.map cost).sum := add_le_add (step (es ++ fs) e) ih
      _ = (fs.map cost).sum + cost e := add_comm _ _

/-- A component of a machine is a machine of its own: if each step does to `view` what the events
`out` do to the component, then `view` runs through the states of the component's run. -/
theorem view_state {τ ι : Type*} (N : Machine τ ι) (view : σ → τ) (out : σ → ε → List ι)
    (start : view M.start = N.start)
    (step : ∀ s e, view (M.step s e) = (out s e).foldl N.step (view s)) (es : List ε) :
    view (M.state es) = N.state (M.trace out es) := by
  induction es using List.reverseRecOn with
  | nil => exact start
  | append_singleton es e ih => rw [state_concat, step, trace_concat, state_append, ih]

/-- The rule for a component that handles at most one event a step, read off the event alone. -/
theorem view_state_filterMap {τ ι : Type*} (N : Machine τ ι) (view : σ → τ) (f : ε → Option ι)
    (start : view M.start = N.start)
    (step : ∀ s e, view (M.step s e) = (f e).elim (view s) (N.step (view s))) (es : List ε) :
    view (M.state es) = N.state (es.filterMap f) := by
  induction es using List.reverseRecOn with
  | nil => exact start
  | append_singleton es e ih =>
    rw [state_concat, step, List.filterMap_append, ih]
    cases h : f e with
    | none => simp [h]
    | some i => simp [h]

/-- The refinement rule: if `N` can follow each step of `M` by some steps of its own and keep the
states related, then every run of `M` ends in a state related to one that `N` reaches. -/
theorem refinement_rule {τ ι : Type*} (N : Machine τ ι) {R : σ → τ → Prop}
    (start : R M.start N.start)
    (step : ∀ s t e, R s t → ∃ is : List ι, R (M.step s e) (is.foldl N.step t)) (es : List ε) :
    ∃ is, R (M.state es) (N.state is) := by
  induction es using List.reverseRecOn with
  | nil => exact ⟨[], start⟩
  | append_singleton es e ih =>
    obtain ⟨is, hrel⟩ := ih
    obtain ⟨js, hrel'⟩ := step _ _ e hrel
    refine ⟨is ++ js, ?_⟩
    rw [state_concat, state_append]
    exact hrel'

/-- The machine that goes on from `s`. -/
def resume (s : σ) : Machine σ ε := { M with start := s }

theorem resume_state (es fs : List ε) : (M.resume (M.state es)).state fs = M.state (es ++ fs) :=
  (M.state_append es fs).symm

/-- Two runs with pairwise related events end in related states if related steps keep them related. -/
theorem two_run_state {τ ι : Type*} {N : Machine τ ι} {R : σ → τ → Prop} {E : ε → ι → Prop}
    (start : R M.start N.start)
    (step : ∀ ⦃s t⦄, R s t → ∀ ⦃e i⦄, E e i → R (M.step s e) (N.step t i)) {es : List ε} {is : List ι}
    (h : List.Forall₂ E es is) : R (M.state es) (N.state is) :=
  List.rel_foldl (P := R) (R := E) step start h

/-- The two-run rule: if related steps keep the states related and show the same, then two runs with
pairwise related events show the same. -/
theorem two_run_rule {τ ι : Type*} {N : Machine τ ι} {R : σ → τ → Prop} {E : ε → ι → Prop}
    {out : σ → ε → List α} {out' : τ → ι → List α} (start : R M.start N.start)
    (step : ∀ ⦃s t⦄, R s t → ∀ ⦃e i⦄, E e i → R (M.step s e) (N.step t i))
    (same : ∀ ⦃s t⦄, R s t → ∀ ⦃e i⦄, E e i → out s e = out' t i) {es : List ε} {is : List ι}
    (h : List.Forall₂ E es is) : M.trace out es = N.trace out' is := by
  -- the states reached stay related, and so do the traces read off so far
  let Q : σ × List α → τ × List α → Prop := fun r r' => R r.1 r'.1 ∧ r.2 = r'.2
  have hfold : Q (es.foldl (fun r e => (M.step r.1 e, r.2 ++ out r.1 e)) (M.start, []))
      (is.foldl (fun r i => (N.step r.1 i, r.2 ++ out' r.1 i)) (N.start, [])) := by
    apply List.rel_foldl (P := Q) (R := E) ?_ ⟨start, rfl⟩ h
    rintro r r' ⟨hrel, htrace⟩ e i he
    exact ⟨step hrel he, congrArg₂ (· ++ ·) htrace (same hrel he)⟩
  exact hfold.2

end Machine

/-- The last datum that `f` reads off an event of the history. -/
def latest (f : ε → Option α) (es : List ε) : Option α := es.reverse.findSome? f

@[simp] theorem latest_nil (f : ε → Option α) : latest f [] = none := rfl

@[simp] theorem latest_concat (f : ε → Option α) (es : List ε) (e : ε) :
    latest f (es ++ [e]) = (f e).or (latest f es) := by
  cases h : f e <;> simp [latest, h]

theorem latest_append (f : ε → Option α) (es fs : List ε) :
    latest f (es ++ fs) = (latest f fs).or (latest f es) := by
  simp [latest, List.findSome?_append]

theorem latest_eq_none_iff {f : ε → Option α} {es : List ε} :
    latest f es = none ↔ ∀ e ∈ es, f e = none := by
  simp [latest]

theorem exists_of_latest {f : ε → Option α} {es : List ε} {a : α} (h : latest f es = some a) :
    ∃ e ∈ es, f e = some a := by
  obtain ⟨e, he, hf⟩ := List.exists_of_findSome?_eq_some h
  exact ⟨e, List.mem_reverse.mp he, hf⟩

end Reactive
