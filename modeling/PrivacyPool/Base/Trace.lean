import Mathlib.Algebra.BigOperators.Group.List.Basic
import Mathlib.Data.List.Nodup

/-!
# Labelled traces

`Trace step s labels t` says that following `labels` from `s` leads to `t`. It is
the target of refinements: a loop of a program is shown to be a trace of the
abstract steps it performs.

## Main results

* `Trace.append`, `Trace.split` — traces compose
* `Trace.invariant` — what every step preserves holds at the end
* `Trace.climb` — a preorder that every step climbs is climbed by the trace
* `Trace.sum` — a measure that every step changes by a fixed amount changes by
  the sum of the amounts
* `Trace.marks` — when steps mark things for the first time and marks stay, no
  thing is marked twice
-/

variable {State Label : Type*}

/-! ### Marks that stay -/

/-- Between two states the things `xs` are marked, each for the first time, and
what was marked stays marked. -/
structure Marks {α : Type*} (marked : State → α → Prop) (s : State) (xs : List α) (t : State) :
    Prop where
  nodup : xs.Nodup
  fresh : ∀ a ∈ xs, ¬ marked s a
  after : ∀ a ∈ xs, marked t a
  kept : ∀ a, marked s a → marked t a

namespace Marks

variable {α : Type*} {marked : State → α → Prop} {s t u : State} {xs ys : List α}

theorem nil (h : ∀ a, marked s a → marked t a) : Marks marked s [] t :=
  ⟨List.nodup_nil, by simp, by simp, h⟩

theorem singleton {a : α} (hfresh : ¬ marked s a) (hmarked : marked t a)
    (hkept : ∀ b, marked s b → marked t b) : Marks marked s [a] t :=
  ⟨List.nodup_singleton a, by simpa using hfresh, by simpa using hmarked, hkept⟩

theorem append (h : Marks marked s xs t) (h' : Marks marked t ys u) :
    Marks marked s (xs ++ ys) u where
  nodup := List.nodup_append'.mpr ⟨h.nodup, h'.nodup, fun a ha hb => h'.fresh a hb (h.after a ha)⟩
  fresh a ha := by
    rcases List.mem_append.mp ha with ha | ha
    · exact h.fresh a ha
    · exact fun hs => h'.fresh a ha (h.kept a hs)
  after a ha := by
    rcases List.mem_append.mp ha with ha | ha
    · exact h'.kept a (h.after a ha)
    · exact h'.after a ha
  kept a ha := h'.kept a (h.kept a ha)

end Marks

/-! ### Traces -/

/-- The steps labelled `labels`, in order, lead from one state to another. -/
inductive Trace (step : Label → State → State → Prop) : State → List Label → State → Prop
  | nil (s : State) : Trace step s [] s
  | cons {l : Label} {labels : List Label} {s t u : State} :
      step l s t → Trace step t labels u → Trace step s (l :: labels) u

namespace Trace

variable {step : Label → State → State → Prop} {labels labels' : List Label} {s t u : State}

theorem single {l : Label} (h : step l s t) : Trace step s [l] t :=
  .cons h (.nil t)

theorem append (first : Trace step s labels t) (second : Trace step t labels' u) :
    Trace step s (labels ++ labels') u := by
  induction first with
  | nil _ => exact second
  | cons hstep _ ih => exact .cons hstep (ih second)

/-- A trace over a concatenation passes through a state between the parts. -/
theorem split (trace : Trace step s (labels ++ labels') u) :
    ∃ t, Trace step s labels t ∧ Trace step t labels' u := by
  induction labels generalizing s with
  | nil => exact ⟨s, .nil s, trace⟩
  | cons l labels ih =>
    cases trace with
    | cons hstep hrest =>
      obtain ⟨t, hfirst, hsecond⟩ := ih hrest
      exact ⟨t, .cons hstep hfirst, hsecond⟩

/-- Every label of a trace is that of some step. -/
theorem exists_of_mem (trace : Trace step s labels t) {l : Label} (hl : l ∈ labels) :
    ∃ s' t', step l s' t' := by
  induction trace with
  | nil _ => exact absurd hl List.not_mem_nil
  | cons h _ ih =>
    rcases List.mem_cons.mp hl with rfl | hl
    · exact ⟨_, _, h⟩
    · exact ih hl

/-- What every step preserves holds at the end of a trace. -/
theorem invariant (I : State → Prop) (hstep : ∀ l s t, I s → step l s t → I t)
    (trace : Trace step s labels t) (hs : I s) : I t := by
  induction trace with
  | nil _ => exact hs
  | cons h _ ih => exact ih (hstep _ _ _ hs h)

/-- A preorder that every step from a good state climbs is climbed by a trace. -/
theorem climb (I : State → Prop) (R : State → State → Prop) (hrefl : ∀ s, R s s)
    (htrans : ∀ {a b c}, R a b → R b c → R a c)
    (hstep : ∀ l s t, I s → step l s t → I t ∧ R s t)
    (trace : Trace step s labels t) (hs : I s) : R s t := by
  induction trace with
  | nil _ => exact hrefl _
  | cons h _ ih =>
    obtain ⟨hkept, hclimb⟩ := hstep _ _ _ hs h
    exact htrans hclimb (ih hkept)

/-- A measure that every step from a good state changes by a weight of its label
changes by the sum of the weights. -/
theorem sum {M : Type*} [AddMonoid M] (I : State → Prop) (f : State → M) (w : Label → M)
    (hstep : ∀ l s t, I s → step l s t → I t ∧ f t = f s + w l)
    (trace : Trace step s labels t) (hs : I s) : f t = f s + (labels.map w).sum := by
  induction trace with
  | nil _ => rw [List.map_nil, List.sum_nil, add_zero]
  | cons h _ ih =>
    obtain ⟨hkept, hchange⟩ := hstep _ _ _ hs h
    rw [ih hkept, hchange, List.map_cons, List.sum_cons, add_assoc]

/-- When every step from a good state marks the things of its label, each for the
first time, so does the trace. -/
theorem marks {α : Type*} (I : State → Prop) (marked : State → α → Prop) (f : Label → List α)
    (hstep : ∀ l s t, I s → step l s t → I t ∧ Marks marked s (f l) t)
    (trace : Trace step s labels t) (hs : I s) : Marks marked s (labels.flatMap f) t := by
  induction trace with
  | nil _ => exact Marks.nil fun _ h => h
  | cons h _ ih =>
    obtain ⟨hkept, hmarks⟩ := hstep _ _ _ hs h
    rw [List.flatMap_cons]
    exact hmarks.append (ih hkept)

end Trace
