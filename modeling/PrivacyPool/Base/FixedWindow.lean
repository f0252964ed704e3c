import Mathlib.Algebra.Order.Monoid.Unbundled.Basic
import Mathlib.Data.List.Count
import Mathlib.Data.Nat.Notation

/-!
# Counting in fixed windows

A counter admits events in windows of a fixed span: the first event opens a window, later
ones are counted in it as long as it is not full, and the first event past its span opens the
next. Windows do not overlap, so that a span of time meets at most two of them.

## Main definitions

* `FixedWindow` — the times that such a counter has admitted, with its current window

## Main results

* `FixedWindow.countP_le` — in any span of time at most two windows full of events are admitted
-/

/-- The admitted times, the last one first, with the start of the current window and the count
in it. -/
inductive FixedWindow (span limit : ℕ) : List ℕ → ℕ → ℕ → Prop
  | first (now : ℕ) : FixedWindow span limit [now] now 1
  | opened {times : List ℕ} {start count now : ℕ} : FixedWindow span limit times start count →
      start + span ≤ now → FixedWindow span limit (now :: times) now 1
  | counted {times : List ℕ} {start count now : ℕ} : FixedWindow span limit times start count →
      start ≤ now → now < start + span → count < limit →
      FixedWindow span limit (now :: times) start (count + 1)

namespace FixedWindow

variable {span limit start count : ℕ} {times : List ℕ}

theorem count_le (h : FixedWindow span limit times start count) : count ≤ max 1 limit := by
  cases h with
  | first | opened _ _ => exact le_max_left _ _
  | counted _ _ _ hfull => exact le_max_of_le_right hfull

/-- The admitted times are before the end of the current window. -/
theorem lt_end (hspan : 0 < span) (h : FixedWindow span limit times start count) :
    ∀ time ∈ times, time < start + span := by
  induction h with
  | first now => simpa using hspan
  | opened _ hend ih =>
    intro time hmem
    rcases List.mem_cons.mp hmem with rfl | hmem
    · omega
    · have := ih time hmem
      omega
  | counted _ _ hlt _ ih =>
    intro time hmem
    rcases List.mem_cons.mp hmem with rfl | hmem
    · exact hlt
    · exact ih time hmem

/-- The count is the number of times in the current window. -/
theorem countP_start (hspan : 0 < span) (h : FixedWindow span limit times start count) :
    times.countP (fun time => start ≤ time) = count := by
  induction h with
  | first now => simp
  | opened h hend _ =>
    -- The earlier times are before the window that opens.
    rw [List.countP_cons_of_pos (by simp), Nat.add_eq_right, List.countP_eq_zero]
    intro time hmem
    have := h.lt_end hspan time hmem
    simp only [decide_eq_true_eq]
    omega
  | counted _ hge _ _ ih => rw [List.countP_cons_of_pos (by simpa using hge), ih]

theorem countP_le_add {p q r : ℕ → Bool} (h : ∀ time ∈ times, p time → q time ∨ r time) :
    times.countP p ≤ times.countP q + times.countP r := by
  induction times with
  | nil => simp
  | cons time times ih =>
    rw [List.forall_mem_cons] at h
    have hrest := ih h.2
    have hfirst := h.1
    simp only [List.countP_cons]
    split_ifs at * <;> simp_all <;> omega

/-- Before the current window, a span of time that meets it meets one other window. -/
theorem countP_before_le (hspan : 0 < span) (h : FixedWindow span limit times start count) {t : ℕ}
    (ht : start < t + span) :
    times.countP (fun time => t ≤ time ∧ time < start) ≤ max 1 limit := by
  induction h with
  | first now => simp
  | @opened times start count now h hend _ =>
    rw [List.countP_cons_of_neg (by simp)]
    have hsub : times.countP (fun time => t ≤ time ∧ time < now) ≤
        times.countP (fun time => start ≤ time) := by
      refine List.countP_mono_left fun time _ hin => ?_
      simp only [decide_eq_true_eq] at hin ⊢
      omega
    exact hsub.trans ((h.countP_start hspan).trans_le h.count_le)
  | counted _ hge _ _ ih =>
    rw [List.countP_cons_of_neg (by simp; omega)]
    exact ih ht

/-- In any span of time at most two windows full of events are admitted. -/
theorem countP_le (hspan : 0 < span) (h : FixedWindow span limit times start count) (t : ℕ) :
    times.countP (fun time => t ≤ time ∧ time < t + span) ≤ 2 * max 1 limit := by
  -- A span of time that meets the current window meets one other.
  have hmeets : ∀ {times start count}, FixedWindow span limit times start count →
      start < t + span →
      times.countP (fun time => t ≤ time ∧ time < t + span) ≤ 2 * max 1 limit := by
    intro times start count h ht
    have hsplit : times.countP (fun time => t ≤ time ∧ time < t + span) ≤
        times.countP (fun time => t ≤ time ∧ time < start) +
          times.countP (fun time => start ≤ time) := by
      refine countP_le_add fun time _ hin => ?_
      simp only [decide_eq_true_eq] at hin ⊢
      omega
    have hbefore := h.countP_before_le hspan ht
    have hcurrent := (h.countP_start hspan).trans_le h.count_le
    omega
  induction h with
  | first now =>
    by_cases ht : now < t + span
    · exact hmeets (.first now) ht
    · rw [List.countP_cons_of_neg (by simp; omega)]
      exact Nat.zero_le _
  | @opened _ _ _ now h hend ih =>
    by_cases ht : now < t + span
    · exact hmeets (.opened h hend) ht
    · rw [List.countP_cons_of_neg (by simp; omega)]
      exact ih
  | @counted _ start _ now h hge hlt hfull ih =>
    by_cases ht : start < t + span
    · exact hmeets (.counted h hge hlt hfull) ht
    · rw [List.countP_cons_of_neg (by simp; omega)]
      exact ih

end FixedWindow
