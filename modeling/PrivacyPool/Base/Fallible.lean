import Mathlib.Data.List.Basic

/-!
# Computations that may panic

A panicking program is a function into `Except ε`: an error discards every
effect of the computation, so a failed call leaves no state behind. This file
has the guards such programs are written with and the inversion rules that take
a successful run apart, one bind at a time.

## Main results

* `bind_eq_ok` — a sequence succeeds exactly when both parts do
* `require_eq_ok`, `expect_eq_ok` — what a passed guard says
* `foldlM_invariant` — an invariant of every step holds after a whole loop
* `failsOnly_bind`, `failsOnly_foldlM` — the errors of a sequence are those of its parts
-/

namespace Fallible

universe u v

variable {ε : Type u} {α β σ : Type v}

/-- Continue when the condition holds, panic otherwise. -/
def require (condition : Prop) [Decidable condition] (e : ε) : Except ε Unit :=
  if condition then .ok () else .error e

/-- Unwrap an optional value, panicking when it is absent. -/
def expect (value : Option α) (e : ε) : Except ε α :=
  match value with
  | some a => .ok a
  | none => .error e

/-- The value of a run that does not panic. -/
def valueOr (default : α) : Except ε α → α
  | .ok a => a
  | .error _ => default

theorem eq_ok_valueOr {x : Except ε α} (default : α) (h : x.isOk = true) :
    x = .ok (valueOr default x) := by
  cases x with
  | ok a => rfl
  | error e => cases h

@[simp] theorem bind_eq_ok {x : Except ε α} {f : α → Except ε β} {b : β} :
    (x >>= f) = .ok b ↔ ∃ a, x = .ok a ∧ f a = .ok b := by
  cases x with
  | error e => simp [bind, Except.bind]
  | ok a => simp [bind, Except.bind]

@[simp] theorem require_eq_ok {condition : Prop} [Decidable condition] {e : ε} {u : Unit} :
    require condition e = .ok u ↔ condition := by
  unfold require
  split_ifs with h <;> simp [h]

@[simp] theorem expect_eq_ok {value : Option α} {e : ε} {a : α} :
    expect value e = .ok a ↔ value = some a := by
  cases value <;> simp [expect]

@[simp] theorem pure_eq_ok {a b : α} : (pure a : Except ε α) = .ok b ↔ a = b := by
  simp [pure, Except.pure]

@[simp] theorem mapError_eq_ok {ε' : Type*} {g : ε → ε'} {x : Except ε α} {a : α} :
    x.mapError g = .ok a ↔ x = .ok a := by
  cases x with
  | error e => exact ⟨nofun, nofun⟩
  | ok b => exact ⟨fun h => congrArg _ (Except.ok.inj h), fun h => congrArg _ (Except.ok.inj h)⟩

theorem require_of {condition : Prop} [Decidable condition] (e : ε) (h : condition) :
    require condition e = .ok () :=
  require_eq_ok.mpr h

/-- A loop over a list succeeds exactly when its first step does and the loop
over the rest succeeds from there. -/
theorem foldlM_cons_eq_ok {f : σ → α → Except ε σ} {a : α} {as : List α} {s s' : σ} :
    (a :: as).foldlM f s = .ok s' ↔ ∃ t, f s a = .ok t ∧ as.foldlM f t = .ok s' := by
  rw [List.foldlM_cons, bind_eq_ok]

/-- A loop over a concatenation passes through the state between the parts. -/
theorem foldlM_append_eq_ok {f : σ → α → Except ε σ} {as bs : List α} {s s' : σ} :
    (as ++ bs).foldlM f s = .ok s' ↔
      ∃ t, as.foldlM f s = .ok t ∧ bs.foldlM f t = .ok s' := by
  rw [List.foldlM_append, bind_eq_ok]

@[simp] theorem foldlM_nil_eq_ok {f : σ → α → Except ε σ} {s s' : σ} :
    ([] : List α).foldlM f s = .ok s' ↔ s = s' := by
  rw [List.foldlM_nil, pure_eq_ok]

/-- A loop of checks succeeds exactly when every check does. -/
theorem forM_eq_ok {f : α → Except ε PUnit} {as : List α} :
    forM as f = .ok () ↔ ∀ a ∈ as, f a = .ok () := by
  induction as with
  | nil => exact iff_of_true rfl (by simp)
  | cons a as ih =>
    rw [List.forM_cons, bind_eq_ok, List.forall_mem_cons, ← ih]
    exact ⟨fun ⟨_, hfirst, hrest⟩ => ⟨hfirst, hrest⟩, fun ⟨hfirst, hrest⟩ => ⟨_, hfirst, hrest⟩⟩

/-- What every successful step of a loop preserves holds after the loop. -/
theorem foldlM_invariant {f : σ → α → Except ε σ} (I : σ → Prop) {as : List α}
    (hstep : ∀ a ∈ as, ∀ s s', I s → f s a = .ok s' → I s') {s s' : σ}
    (hs : I s) (hrun : as.foldlM f s = .ok s') : I s' := by
  induction as generalizing s with
  | nil =>
    rw [foldlM_nil_eq_ok] at hrun
    exact hrun ▸ hs
  | cons a as ih =>
    obtain ⟨t, hfirst, hrest⟩ := foldlM_cons_eq_ok.mp hrun
    have ht := hstep a List.mem_cons_self s t hs hfirst
    exact ih (fun b hb => hstep b (List.mem_cons_of_mem a hb)) ht hrest

/-! ### The errors of a computation -/

/-- Every error of the computation satisfies `P`. -/
def FailsOnly (P : ε → Prop) (x : Except ε α) : Prop := ∀ e, x = .error e → P e

section FailsOnly

variable {P : ε → Prop} {x : Except ε α} {f : α → Except ε β}

@[simp] theorem failsOnly_true : FailsOnly (fun _ => True) x := fun _ _ => trivial

@[simp] theorem failsOnly_pure (a : α) : FailsOnly P (pure a : Except ε α) :=
  fun _ h => nomatch h

@[simp] theorem failsOnly_bind :
    FailsOnly P (x >>= f) ↔ FailsOnly P x ∧ ∀ a, x = .ok a → FailsOnly P (f a) := by
  cases x with
  | error e =>
    constructor
    · intro h
      exact ⟨fun e' he' => h e' (congrArg Except.error (Except.error.inj he')), fun _ ha => nomatch ha⟩
    · intro h e' he'
      exact Except.error.inj he' ▸ h.1 e rfl
  | ok a =>
    constructor
    · intro h
      refine ⟨fun _ he => (nomatch he), fun b hb => ?_⟩
      rw [← Except.ok.inj hb]
      exact h
    · intro h
      exact h.2 a rfl

@[simp] theorem failsOnly_require {condition : Prop} [Decidable condition] {e : ε} :
    FailsOnly P (require condition e) ↔ (¬condition → P e) := by
  unfold FailsOnly require
  split_ifs with h <;> simp [h]

@[simp] theorem failsOnly_expect {value : Option α} {e : ε} :
    FailsOnly P (expect value e) ↔ (value = none → P e) := by
  cases value <;> simp [FailsOnly, expect]

@[simp] theorem failsOnly_map {g : α → β} : FailsOnly P (g <$> x) ↔ FailsOnly P x := by
  cases x <;> simp [FailsOnly]

@[simp] theorem failsOnly_mapError {γ : Type v} {g : γ → ε} {y : Except γ α} :
    FailsOnly P (y.mapError g) ↔ FailsOnly (fun e => P (g e)) y := by
  cases y <;> simp [FailsOnly, Except.mapError]

/-- A loop fails as its steps do. -/
theorem failsOnly_foldlM {step : σ → α → Except ε σ} (hstep : ∀ s a, FailsOnly P (step s a))
    (as : List α) (s : σ) : FailsOnly P (as.foldlM step s) := by
  induction as generalizing s with
  | nil => exact failsOnly_pure s
  | cons a as ih =>
    rw [List.foldlM_cons, failsOnly_bind]
    exact ⟨hstep s a, fun t _ => ih t⟩

/-- A loop of checks fails as its checks do. -/
theorem failsOnly_forM {check : α → Except ε PUnit} (hcheck : ∀ a, FailsOnly P (check a))
    (as : List α) : FailsOnly P (forM as check) := by
  induction as with
  | nil => exact failsOnly_pure PUnit.unit
  | cons a as ih =>
    rw [List.forM_cons, failsOnly_bind]
    exact ⟨hcheck a, fun _ _ => ih⟩

end FailsOnly

end Fallible
