import PrivacyPool.Base.Trace

/-!
# Runs that remember their past

A step of the systems considered here may depend on any earlier state of the
same run, not only on the current one: an answer computed against an old state
is submitted later. A run is therefore indexed by the list of states it has
visited, newest first, beside the list of its labels.

## Main definitions

* `System` — initial states, and steps that see the visited states
* `System.Run` — the runs of a system

## Main results

* `System.Run.ordered` — for an invariant together with a preorder that
  every step climbs: all visited states lie below the current one
* `System.Run.marks` — when steps mark things for the first time and marks stay,
  no thing is marked twice
-/

/-- A labelled transition system whose steps see every state visited so far. -/
structure System (State Label : Type*) where
  init : State → Prop
  step : List State → Label → State → State → Prop

namespace System

variable {State Label : Type*}

/-- `Run sys visited labels s`: a run that has visited `visited` (newest first)
through the steps `labels` (newest first) and is now in `s`. -/
inductive Run (sys : System State Label) : List State → List Label → State → Prop
  | start {s : State} : sys.init s → Run sys [s] [] s
  | step {visited : List State} {labels : List Label} {l : Label} {s s' : State} :
      Run sys visited labels s → sys.step visited l s s' →
      Run sys (s' :: visited) (l :: labels) s'

variable {sys : System State Label} {visited : List State} {labels : List Label} {s : State}

/-- The current state is the one visited last. -/
theorem Run.visited_eq_cons (run : Run sys visited labels s) :
    ∃ earlier, visited = s :: earlier := by
  cases run with
  | start _ => exact ⟨[], rfl⟩
  | step _ _ => exact ⟨_, rfl⟩

theorem Run.mem_visited (run : Run sys visited labels s) : s ∈ visited := by
  obtain ⟨earlier, rfl⟩ := run.visited_eq_cons
  exact List.mem_cons_self

/-- **Ordered runs.** When every step keeps the invariant and climbs in a
preorder, all visited states satisfy the invariant and lie below the current
state. -/
theorem Run.ordered (I : State → Prop) (R : State → State → Prop)
    (hrefl : ∀ s, R s s) (htrans : ∀ {a b c}, R a b → R b c → R a c)
    (hinit : ∀ s, sys.init s → I s)
    (hstep : ∀ visited l s s', (∀ p ∈ visited, I p ∧ R p s) → s ∈ visited →
      sys.step visited l s s' → I s' ∧ R s s')
    (run : Run sys visited labels s) : ∀ p ∈ visited, I p ∧ R p s := by
  induction run with
  | start h =>
    intro p hp
    obtain rfl := List.mem_singleton.mp hp
    exact ⟨hinit _ h, hrefl _⟩
  | step run h ih =>
    obtain ⟨hkept, hclimb⟩ := hstep _ _ _ _ ih run.mem_visited h
    intro p hp
    rcases List.mem_cons.mp hp with rfl | hp
    · exact ⟨hkept, hrefl _⟩
    · exact ⟨(ih p hp).1, htrans (ih p hp).2 hclimb⟩

/-- **Marks.** When every step marks the things of its label, each for the first
time, a run marks nothing twice. -/
theorem Run.marks {α : Type*} (marked : State → α → Prop) (f : Label → List α)
    (hstep : ∀ visited labels l s s', Run sys visited labels s → sys.step visited l s s' →
      Marks marked s (f l) s')
    (run : Run sys visited labels s) :
    (labels.flatMap f).Nodup ∧ ∀ a ∈ labels.flatMap f, marked s a := by
  induction run with
  | start _ => exact ⟨List.nodup_nil, by simp⟩
  | step run h ih =>
    rename_i visited labels l s s'
    have hmarks := hstep _ _ _ _ _ run h
    rw [List.flatMap_cons]
    refine ⟨List.nodup_append'.mpr ⟨hmarks.nodup, ih.1, fun a ha hb => ?_⟩, fun a ha => ?_⟩
    · exact hmarks.fresh a ha (ih.2 a hb)
    · rcases List.mem_append.mp ha with ha | ha
      · exact hmarks.after a ha
      · exact hmarks.kept a (ih.2 a ha)

end System
