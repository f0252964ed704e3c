import Mathlib.Algebra.Notation.Pi.Basic
import Mathlib.Data.List.Basic

/-!
# Write-once stores

A store is a function from cells to values in which zero means "never written".
Cells are filled by overlaying a partial assignment on blank cells, so a store
only grows: what is not zero stays, apart from the cells that may be *amended*
once, in a way fixed beforehand. Everything that was read as non-zero in an
older store can therefore be relied on in every later one.

## Main definitions

* `overlay` — a store with some cells reassigned
* `Grows` — the later store keeps, or amends, every written cell of the earlier
* `Final` — an amendment leaves a written cell that is never amended again

## Main results

* `Grows.refl`, `Grows.trans` — growth is a preorder
* `Blank.or` — cells that are filled one after the other were blank in the beginning
-/

namespace WriteOnce

variable {α β V : Type*}

/-- The store `f` with the cells that `cells` assigns reassigned. -/
def overlay (f : α → V) (cells : α → Option V) : α → V :=
  fun a => (cells a).getD (f a)

theorem overlay_of_none {f : α → V} {cells : α → Option V} {a : α} (h : cells a = none) :
    overlay f cells a = f a := by
  rw [overlay, h, Option.getD_none]

theorem overlay_of_some {f : α → V} {cells : α → Option V} {a : α} {v : V}
    (h : cells a = some v) : overlay f cells a = v := by
  rw [overlay, h, Option.getD_some]

/-- Overlaying twice is overlaying once, the second assignment first. -/
theorem overlay_overlay (f : α → V) (cells cells' : α → Option V) :
    overlay (overlay f cells) cells' = overlay f fun a => (cells' a).or (cells a) := by
  funext a
  cases hcell : cells' a with
  | none => simp only [overlay, hcell, Option.getD_none, Option.none_or]
  | some v => simp only [overlay, hcell, Option.getD_some, Option.some_or]

variable [Zero V]

/-- No cell that `cells` assigns has been written in `f`. -/
def Blank (f : α → V) (cells : α → Option V) : Prop :=
  ∀ a v, cells a = some v → f a = 0

/-- Every written cell of `f` is unchanged in `g`, or amended. -/
def Grows (amend : α → V → V → Prop) (f g : α → V) : Prop :=
  ∀ a, f a ≠ 0 → g a = f a ∨ amend a (f a) (g a)

/-- An amended cell is written, and is not amended again. -/
def Final (amend : α → V → V → Prop) : Prop :=
  ∀ a x y, amend a x y → y ≠ 0 ∧ ∀ z, ¬ amend a y z

variable {amend : α → V → V → Prop} {f g h : α → V} {cells : α → Option V} {a : α}

theorem Grows.refl (f : α → V) : Grows amend f f :=
  fun _ _ => Or.inl rfl

theorem Grows.trans (hfinal : Final amend) (hfg : Grows amend f g) (hgh : Grows amend g h) :
    Grows amend f h := by
  intro a ha
  rcases hfg a ha with hsame | hamend
  · rw [← hsame] at ha ⊢
    exact hgh a ha
  · obtain ⟨hwritten, hlast⟩ := hfinal a _ _ hamend
    rcases hgh a hwritten with hkept | hagain
    · rw [hkept]
      exact Or.inr hamend
    · exact absurd hagain (hlast _)

/-- A written cell that no amendment starts from keeps its value. -/
theorem Grows.eq_of_not_amend (hfg : Grows amend f g) (ha : f a ≠ 0)
    (hno : ∀ y, ¬ amend a (f a) y) : g a = f a :=
  (hfg a ha).resolve_right (hno _)

/-- A cell that is not blank is not reassigned. -/
theorem overlay_of_ne_zero (hblank : Blank f cells) (ha : f a ≠ 0) : overlay f cells a = f a := by
  cases hcell : cells a with
  | none => exact overlay_of_none hcell
  | some v => exact absurd (hblank a v hcell) ha

/-- Cells that are filled one after the other were blank in the beginning. -/
theorem Blank.or {cells' : α → Option V} (hblank : Blank f cells)
    (hblank' : Blank (overlay f cells) cells') : Blank f fun a => (cells' a).or (cells a) := by
  intro a v hv
  by_contra ha
  dsimp only at hv
  cases hcell : cells' a with
  | none =>
    rw [hcell, Option.none_or] at hv
    exact ha (hblank a v hv)
  | some w =>
    have hzero := hblank' a w hcell
    rw [overlay_of_ne_zero hblank ha] at hzero
    exact ha hzero

end WriteOnce
