import ArgusGate.Foundation.Reactive
import Mathlib.Algebra.Order.Group.Defs
import Mathlib.Data.List.AList

/-!
# Tables of times with expiry

A table holds for each key the time of its last touch, and a sweep drops the entries older than a
timeout. With a clock that does not run backwards, a key is in the table after a sweep exactly if it
was touched within the timeout before it (`isSome_state_sweep`): what earlier sweeps have dropped,
and what later touches have overwritten, does not matter. `sweep` is the pass over an association
list that drops such entries.
-/

namespace Expiry

open Reactive

variable {κ τ : Type*}

inductive Event (κ τ : Type*) where
  | touch (k : κ) (t : τ)
  | sweep (now : τ)

def Event.time : Event κ τ → τ
  | .touch _ t => t
  | .sweep now => now

section Table

variable [DecidableEq κ] [AddCommGroup τ] [LinearOrder τ]

def step (timeout : τ) (table : κ → Option τ) : Event κ τ → κ → Option τ
  | .touch k t => Function.update table k (some t)
  | .sweep now => fun k => (table k).filter fun t => decide (now - t ≤ timeout)

theorem filter_some_fresh (timeout now t : τ) :
    (some t).filter (fun t => decide (now - t ≤ timeout)) =
      if now - t ≤ timeout then some t else none := by
  by_cases h : now - t ≤ timeout
  · rw [if_pos h, Option.filter_some, decide_eq_true h, if_pos rfl]
  · rw [if_neg h, Option.filter_some, decide_eq_false h, if_neg Bool.false_ne_true]

theorem step_sweep (timeout now : τ) (table : κ → Option τ) (k : κ) :
    step timeout table (.sweep now) k = (table k).filter fun t => decide (now - t ≤ timeout) := rfl

/-- The table from its start, when it is empty. -/
def machine (timeout : τ) : Machine (κ → Option τ) (Event κ τ) :=
  { start := fun _ => none, step := step timeout }

@[simp] theorem machine_step (timeout : τ) :
    (machine timeout : Machine (κ → Option τ) (Event κ τ)).step = step timeout := rfl

/-- An entry of the table was touched, whatever the clock has done. -/
theorem touch_of_entry {timeout : τ} {es : List (Event κ τ)} {k : κ} {t : τ}
    (h : (machine timeout).state es k = some t) : .touch k t ∈ es := by
  induction es using List.reverseRecOn with
  | nil => cases h
  | append_singleton es e ih =>
    rw [Machine.state_concat, machine_step] at h
    rw [List.mem_append]
    cases e with
    | touch k' t' =>
      by_cases hk : k = k'
      · subst hk
        obtain rfl : t' = t := by simpa [step] using h
        exact .inr (List.mem_singleton_self _)
      · rw [step, Function.update_of_ne hk] at h
        exact .inl (ih h)
    | sweep now => exact .inl (ih (Option.filter_eq_some_iff.mp h).1)

/-- What a table says about the events `es` that led to it. -/
structure Tracks (timeout : τ) (es : List (Event κ τ)) (table : κ → Option τ) : Prop where
  entry : ∀ k t, table k = some t → .touch k t ∈ es ∧ ∀ t', .touch k t' ∈ es → t' ≤ t
  gone : ∀ k t, table k = none → .touch k t ∈ es → ∃ now, .sweep now ∈ es ∧ timeout < now - t

variable {timeout : τ}

theorem tracks_touch {es : List (Event κ τ)} {table : κ → Option τ} {k : κ} {t : τ}
    (h : Tracks timeout es table) (hclock : ∀ e ∈ es, e.time ≤ t) :
    Tracks timeout (es ++ [.touch k t]) (step timeout table (.touch k t)) := by
  constructor
  · intro k' t' htable
    by_cases hk : k' = k
    · subst hk
      obtain rfl : t = t' := by simpa [step] using htable
      refine ⟨by simp, fun t' htouch => ?_⟩
      rcases List.mem_append.mp htouch with hmem | hmem
      · exact hclock _ hmem
      · obtain rfl : t' = t := by simpa using hmem
        exact le_rfl
    · rw [step, Function.update_of_ne hk] at htable
      obtain ⟨hmem, hlast⟩ := h.entry k' t' htable
      refine ⟨List.mem_append_left _ hmem, fun t'' htouch => ?_⟩
      exact hlast t'' (by simpa [hk] using htouch)
  · intro k' t' htable htouch
    have hk : k' ≠ k := by
      rintro rfl
      simp [step] at htable
    rw [step, Function.update_of_ne hk] at htable
    obtain ⟨now, hsweep, hold⟩ := h.gone k' t' htable (by simpa [hk] using htouch)
    exact ⟨now, List.mem_append_left _ hsweep, hold⟩

variable [IsOrderedAddMonoid τ]

theorem tracks_sweep {es : List (Event κ τ)} {table : κ → Option τ} (h : Tracks timeout es table)
    (now : τ) : Tracks timeout (es ++ [.sweep now]) (step timeout table (.sweep now)) := by
  constructor
  · intro k t htable
    obtain ⟨hmem, hlast⟩ := h.entry k t (Option.filter_eq_some_iff.mp htable).1
    exact ⟨List.mem_append_left _ hmem, fun t' htouch => hlast t' (by simpa using htouch)⟩
  · intro k t htable htouch
    have hmem : Event.touch k t ∈ es := by simpa using htouch
    cases hk : table k with
    | none =>
      obtain ⟨now', hsweep, hold⟩ := h.gone k t hk hmem
      exact ⟨now', List.mem_append_left _ hsweep, hold⟩
    | some last =>
      -- this sweep has dropped the last touch, and so every touch before it
      have hold : timeout < now - last := by
        rw [step_sweep, hk, filter_some_fresh, ite_eq_right_iff] at htable
        exact not_le.mp fun hfresh => Option.some_ne_none last (htable hfresh)
      have hle : t ≤ last := (h.entry k last hk).2 t hmem
      exact ⟨now, by simp, hold.trans_le (sub_le_sub_left hle now)⟩

theorem tracks {es : List (Event κ τ)} (hclock : (es.map Event.time).Pairwise (· ≤ ·)) :
    Tracks timeout es ((machine timeout).state es) := by
  induction es using List.reverseRecOn with
  | nil => exact ⟨fun k t h => (by cases h), fun k t _ h => (by cases h)⟩
  | append_singleton es e ih =>
    rw [List.map_append, List.pairwise_append] at hclock
    obtain ⟨hes, -, hlast⟩ := hclock
    rw [Machine.state_concat]
    cases e with
    | touch k t =>
      apply tracks_touch (ih hes)
      intro x hx
      exact hlast x.time (List.mem_map_of_mem hx) t (by simp [Event.time])
    | sweep now => exact tracks_sweep (ih hes) now

/-- A key is in the table after a sweep exactly if it was touched within the timeout. -/
theorem isSome_state_sweep {es : List (Event κ τ)} {now : τ}
    (hclock : ((es ++ [Event.sweep now]).map Event.time).Pairwise (· ≤ ·)) (k : κ) :
    ((machine timeout).state (es ++ [.sweep now]) k).isSome = true ↔
      ∃ t, .touch k t ∈ es ∧ now - t ≤ timeout := by
  rw [List.map_append, List.pairwise_append] at hclock
  obtain ⟨hes, -, hlast⟩ := hclock
  have h : Tracks timeout es ((machine timeout).state es) := tracks hes
  rw [Machine.state_concat]
  generalize (machine timeout).state es = table at h ⊢
  constructor
  · intro hsome
    obtain ⟨t, ht⟩ := Option.isSome_iff_exists.mp hsome
    obtain ⟨hk, hfresh⟩ := Option.filter_eq_some_iff.mp ht
    exact ⟨t, (h.entry k t hk).1, of_decide_eq_true hfresh⟩
  · rintro ⟨t, hmem, hfresh⟩
    cases hk : table k with
    | none =>
      obtain ⟨now', hsweep, hold⟩ := h.gone k t hk hmem
      have hle : now' ≤ now := hlast now' (List.mem_map_of_mem (f := Event.time) hsweep) now
        (by simp [Event.time])
      exact absurd hfresh (not_le.mpr (hold.trans_le (sub_le_sub_right hle t)))
    | some last =>
      have hle : t ≤ last := (h.entry k last hk).2 t hmem
      have hfresh' : now - last ≤ timeout := (sub_le_sub_left hle now).trans hfresh
      have hkeep : step timeout table (.sweep now) k = some last := by
        rw [step_sweep, hk, filter_some_fresh, if_pos hfresh']
      exact Option.isSome_iff_exists.mpr ⟨last, hkeep⟩

end Table

/-! ## Association lists -/

section Lookup

variable [DecidableEq κ] {β : κ → Type*} {ι : Type*}

/-- A loop that erases the keys of some elements of a list. -/
theorem lookup_foldl_erase (p : ι → Prop) [DecidablePred p] (key : ι → κ) (l : List ι)
    (s : AList β) (k : κ) : (l.foldl (fun s e => if p e then s.erase (key e) else s) s).lookup k =
      if ∃ e ∈ l, p e ∧ key e = k then none else s.lookup k := by
  induction l generalizing s with
  | nil => simp
  | cons e l ih =>
    rw [List.foldl_cons, ih]
    by_cases hp : p e
    · by_cases hk : key e = k
      · simp [hp, hk]
      · simp [hp, hk, AList.lookup_erase_ne (Ne.symm hk)]
    · simp [hp]

/-- The pass over the table that drops the entries older than `timeout`. -/
def sweep [AddCommGroup τ] [LinearOrder τ] (timeout now : τ) (s : AList fun _ : κ => τ) :
    AList fun _ : κ => τ :=
  s.entries.foldl (fun s e => if now - e.2 > timeout then s.erase e.1 else s) s

variable [AddCommGroup τ] [LinearOrder τ] {timeout now : τ} {s : AList fun _ : κ => τ} {k : κ}

/-- An expired entry of the table is the entry of its key. -/
theorem exists_expired_iff : (∃ e ∈ s.entries, now - e.2 > timeout ∧ e.1 = k) ↔
    ∃ t, s.lookup k = some t ∧ now - t > timeout := by
  constructor
  · rintro ⟨⟨k', t⟩, hmem, hold, rfl⟩
    exact ⟨t, AList.mem_lookup_iff.mpr hmem, hold⟩
  · rintro ⟨t, hk, hold⟩
    exact ⟨⟨k, t⟩, AList.mem_lookup_iff.mp hk, hold, rfl⟩

theorem lookup_sweep : (sweep timeout now s).lookup k =
    (s.lookup k).filter fun t => decide (now - t ≤ timeout) := by
  refine (lookup_foldl_erase (fun e => now - e.2 > timeout) Sigma.fst s.entries s k).trans ?_
  simp only [exists_expired_iff]
  cases hk : s.lookup k with
  | none => simp
  | some t =>
    rw [filter_some_fresh]
    by_cases hold : now - t > timeout
    · simp [hold, not_le.mpr hold]
    · simp [not_lt.mp hold]

end Lookup

end Expiry
