import Mathlib.Algebra.BigOperators.Group.Finset.Basic
import Mathlib.Algebra.BigOperators.Intervals
import Mathlib.Algebra.Order.BigOperators.Group.Finset
import Mathlib.Tactic.SplitIfs

/-!
# Scanning for a boundary

`utils/scan.ts`: the items of a vector are visited while the first index without an item
is searched. The search probes at doubling distances and then by bisection; what lies
below an index that has an item is touched, without waiting for one another. A scan is a
set of probes in flight, each with what follows its answer.

## Main definitions

* `ScanTask`, `ScanTask.resume` — a probe in flight, and the probes after its answer
* `ScanTask.weight` — the items that a probe leads to

## Main results

* `ScanTask.weight_resume` — the probes after an answer lead to the other items
* `ScanTask.cost_resume` — and there are fewer of them
-/

namespace PrivacyPool.Sdk

/-- How far from the start the first probe is. -/
def INITIAL_OFFSET : ℕ := 8

/-- How far from that the next probe is. -/
def INITIAL_STEP : ℕ := 8

/-- A probe in flight, with the variables of the function that waits for it. -/
inductive ScanTask
  /-- `probe(i, true)`, which nothing waits for -/
  | touch (i : ℕ)
  /-- `probe(mid)` of `bisect(probe, start, end)` -/
  | bisect (start stop : ℕ)
  /-- `probe(index)` of the loop of `scan(probe, start)` -/
  | scan (start offset step : ℕ) (prev : ℤ)
  deriving DecidableEq, Repr

namespace ScanTask

/-- The index that is probed. -/
def index : ScanTask → ℕ
  | touch i => i
  | bisect start stop => (start + stop) / 2
  | scan start offset _ _ => start + offset

/-- The second argument of the probe. -/
def skipResult : ScanTask → Bool
  | touch _ => true
  | bisect .. | scan .. => false

end ScanTask

/-- `touch(probe, start, end)` -/
def touch (start stop : ℕ) (lengthOnly : Bool) : List ScanTask :=
  if lengthOnly then [] else (List.range' start (stop - start)).map .touch

/-- `bisect(probe, start, end)`, up to its first probe -/
def bisect (start stop : ℕ) : List ScanTask :=
  if start ≥ stop then [] else [.bisect start stop]

/-- `scan(probe, start)`, up to its first probe -/
def scan (start : ℕ) : List ScanTask := [.scan start INITIAL_OFFSET INITIAL_STEP (-1)]

/-- What follows the answer to a probe. -/
def ScanTask.resume (lengthOnly : Bool) : ScanTask → Bool → List ScanTask
  | touch _, _ => []
  -- A hit: everything up to the middle is there, and the boundary lies above it.
  | bisect start stop, true =>
    let mid := (start + stop) / 2
    Sdk.touch start mid lengthOnly ++ Sdk.bisect (mid + 1) stop
  | bisect start stop, false =>
    let mid := (start + stop) / 2
    Sdk.bisect start mid
  -- A hit of the exponential scan: touch what was jumped over, and jump twice as far.
  | scan start offset step prev, true =>
    let index := start + offset
    Sdk.touch (prev + 1).toNat index lengthOnly ++ [scan start (offset + step) (step * 2) index]
  | scan start offset _ prev, false =>
    let index := start + offset
    Sdk.bisect (prev + 1).toNat index

/-! ### What the probes lead to -/

namespace ScanTask

variable {M : Type*} [AddCommMonoid M]

/-- The probes of a scan of `n` items stay below a bound: those of the loop double their
index only below `n`. -/
def Valid (n bound : ℕ) : ScanTask → Prop
  | touch i => i < bound
  | bisect start stop => start < stop ∧ stop ≤ bound
  | scan start offset step prev =>
    step = offset ∧ 0 < offset ∧ start + offset < bound ∧ 2 * n ≤ bound ∧ -1 ≤ prev ∧
      prev < start + offset

/-- The items that a probe leads to, by itself and by those after it. -/
def weight (n : ℕ) (item : ℕ → M) : ScanTask → M
  | touch i => if i < n then item i else 0
  | bisect start stop => ∑ i ∈ Finset.Ico start (min n stop), item i
  | scan _ _ _ prev => ∑ i ∈ Finset.Ico (prev + 1).toNat n, item i

/-- A bound of the number of probes, when each leads to a number of other requests. -/
def cost (bound : ℕ) (item : ℕ → ℕ) : ScanTask → ℕ
  | touch i => item i
  | bisect start stop => ∑ i ∈ Finset.Ico start stop, item i
  | scan _ _ _ prev => 1 + ∑ i ∈ Finset.Ico (prev + 1).toNat bound, item i

variable {n bound : ℕ} {item : ℕ → M} {task : ScanTask}

theorem Valid.index_lt (h : task.Valid n bound) : task.index < bound := by
  cases task with
  | touch i => exact h
  | bisect start stop =>
    obtain ⟨hlt, hle⟩ := h
    dsimp only [index]
    omega
  | scan start offset step prev => exact h.2.2.1

theorem sum_touch (start stop : ℕ) (f : ScanTask → M) :
    ((Sdk.touch start stop false).map f).sum = ∑ i ∈ Finset.Ico start stop, f (.touch i) := by
  unfold Sdk.touch
  rw [if_neg Bool.false_ne_true, List.map_map, Finset.sum_eq_multiset_sum]
  rfl

theorem sum_touch_weight {start stop : ℕ} (h : stop ≤ n) :
    ((Sdk.touch start stop false).map (weight n item)).sum =
      ∑ i ∈ Finset.Ico start stop, item i := by
  rw [sum_touch]
  refine Finset.sum_congr rfl fun i hi => ?_
  exact if_pos ((Finset.mem_Ico.mp hi).2.trans_le h)

theorem sum_bisect_weight (start stop : ℕ) :
    ((Sdk.bisect start stop).map (weight n item)).sum =
      ∑ i ∈ Finset.Ico start (min n stop), item i := by
  unfold Sdk.bisect
  split_ifs with h
  · rw [Finset.Ico_eq_empty_of_le ((min_le_right n stop).trans h), Finset.sum_empty]
    rfl
  · exact List.sum_singleton

theorem sum_Ico_split {f : ℕ → M} {start mid stop : ℕ} (h : start ≤ mid) (h' : mid < stop) :
    ∑ i ∈ Finset.Ico start mid, f i + ∑ i ∈ Finset.Ico (mid + 1) stop, f i + f mid =
      ∑ i ∈ Finset.Ico start stop, f i := by
  rw [← Finset.sum_Ico_consecutive f h h'.le, Finset.sum_eq_sum_Ico_succ_bot h', add_assoc,
    add_comm (f mid)]

/-- The probes after an answer lead to the items that the probe itself does not. -/
theorem weight_resume (h : task.Valid n bound) :
    ((task.resume false (decide (task.index < n))).map (weight n item)).sum +
        (if task.index < n then item task.index else 0) = task.weight n item := by
  cases task with
  | touch i => exact zero_add _
  | bisect start stop =>
    obtain ⟨hlt, -⟩ := h
    have hmid : start ≤ (start + stop) / 2 ∧ (start + stop) / 2 < stop := by omega
    by_cases hfound : (bisect start stop).index < n
    -- A hit: the lower half is there, and the search goes on above.
    · have hlow : (start + stop) / 2 < n := hfound
      rw [decide_eq_true hfound, if_pos hfound, resume, List.map_append, List.sum_append,
        sum_touch_weight hlow.le, sum_bisect_weight]
      exact sum_Ico_split hmid.1 (lt_min hlow hmid.2)
    · have hmin : min n ((start + stop) / 2) = min n stop := by
        have hhigh : n ≤ (start + stop) / 2 := not_lt.mp hfound
        omega
      rw [decide_eq_false hfound, if_neg hfound, resume, sum_bisect_weight, add_zero, hmin]
      rfl
  | scan start offset step prev =>
    obtain ⟨-, -, -, -, hprev, hlt⟩ := h
    have hle : (prev + 1).toNat ≤ start + offset := by omega
    by_cases hfound : (scan start offset step prev).index < n
    -- A hit: what was jumped over is there, and the scan goes on.
    · have hlow : start + offset < n := hfound
      have hnext : (((start + offset : ℕ) : ℤ) + 1).toNat = start + offset + 1 := by omega
      rw [decide_eq_true hfound, if_pos hfound, resume, List.map_append, List.sum_append,
        sum_touch_weight hlow.le, List.map_singleton, List.sum_singleton, weight, hnext]
      exact sum_Ico_split hle hfound
    · have hhigh : n ≤ start + offset := not_lt.mp hfound
      rw [decide_eq_false hfound, if_neg hfound, resume, sum_bisect_weight, add_zero,
        min_eq_left hhigh]
      rfl

theorem weight_resume_true (item : ℕ → M) (h : task.Valid n bound) (hfound : task.index < n) :
    ((task.resume false true).map (weight n item)).sum + item task.index = task.weight n item := by
  rw [← weight_resume h, decide_eq_true hfound, if_pos hfound]

theorem weight_resume_false (item : ℕ → M) (h : task.Valid n bound) (hmissing : n ≤ task.index) :
    ((task.resume false false).map (weight n item)).sum = task.weight n item := by
  rw [← weight_resume h, decide_eq_false (not_lt.mpr hmissing), if_neg (not_lt.mpr hmissing), add_zero]

theorem forall_touch {start stop : ℕ} {lengthOnly : Bool} {P : ScanTask → Prop}
    (h : ∀ i < stop, P (.touch i)) : ∀ next ∈ Sdk.touch start stop lengthOnly, P next := by
  intro next hnext
  unfold Sdk.touch at hnext
  split_ifs at hnext
  · cases hnext
  · obtain ⟨i, hi, rfl⟩ := List.mem_map.mp hnext
    have hrange := List.mem_range'_1.mp hi
    exact h i (by omega)

theorem forall_bisect {start stop : ℕ} {P : ScanTask → Prop}
    (h : start < stop → P (.bisect start stop)) : ∀ next ∈ Sdk.bisect start stop, P next := by
  intro next hnext
  unfold Sdk.bisect at hnext
  split_ifs at hnext with hempty
  · cases hnext
  · obtain rfl := List.mem_singleton.mp hnext
    exact h (not_le.mp hempty)

/-- The probes after an answer stay below the bound. -/
theorem valid_resume {lengthOnly : Bool} (h : task.Valid n bound) :
    ∀ next ∈ task.resume lengthOnly (decide (task.index < n)), next.Valid n bound := by
  cases task with
  | touch i => exact fun _ hnext => absurd hnext List.not_mem_nil
  | bisect start stop =>
    obtain ⟨hlt, hle⟩ := h
    cases decide ((bisect start stop).index < n) with
    | true =>
      intro next hnext
      rcases List.mem_append.mp hnext with htouch | hrest
      · exact forall_touch (fun i hi => show i < bound by omega) next htouch
      · exact forall_bisect (fun hlow => ⟨hlow, hle⟩) next hrest
    | false => exact forall_bisect fun hlow => ⟨hlow, by omega⟩
  | scan start offset step prev =>
    obtain ⟨rfl, hpos, hlt, hdouble, hprev, hlow⟩ := h
    cases hfound : decide ((scan start step step prev).index < n) with
    | true =>
      have hindex : start + step < n := of_decide_eq_true hfound
      intro next hnext
      rcases List.mem_append.mp hnext with htouch | hrest
      · exact forall_touch (fun i hi => hi.trans hlt) next htouch
      · obtain rfl := List.mem_singleton.mp hrest
        exact ⟨by omega, by omega, by omega, hdouble, by omega, by push_cast; omega⟩
    | false => exact forall_bisect fun hlow => ⟨hlow, hlt.le⟩

theorem sum_touch_cost (start stop bound : ℕ) {item : ℕ → ℕ} :
    ((Sdk.touch start stop false).map (cost bound item)).sum =
      ∑ i ∈ Finset.Ico start stop, item i := sum_touch start stop _

theorem sum_bisect_cost (start stop bound : ℕ) {item : ℕ → ℕ} :
    ((Sdk.bisect start stop).map (cost bound item)).sum = ∑ i ∈ Finset.Ico start stop, item i := by
  unfold Sdk.bisect
  split_ifs with h
  · rw [Finset.Ico_eq_empty_of_le h, Finset.sum_empty]
    rfl
  · exact List.sum_singleton

/-- The probes after an answer cost less, by what the probe itself leads to. -/
theorem cost_resume {item : ℕ → ℕ} (h : task.Valid n bound) :
    ((task.resume false (decide (task.index < n))).map (cost bound item)).sum + item task.index ≤
      task.cost bound item := by
  -- A miss in the middle gives up everything above it.
  have hmono : ∀ {start mid stop : ℕ}, start ≤ mid → mid < stop →
      ∑ i ∈ Finset.Ico start mid, item i + item mid ≤ ∑ i ∈ Finset.Ico start stop, item i := by
    intro start mid stop hle hlt
    rw [← sum_Ico_split hle hlt]
    omega
  cases task with
  | touch i => exact (zero_add _).le
  | bisect start stop =>
    obtain ⟨hlt, -⟩ := h
    have hmid : start ≤ (start + stop) / 2 ∧ (start + stop) / 2 < stop := by omega
    cases decide ((bisect start stop).index < n) with
    | true =>
      rw [resume, List.map_append, List.sum_append, sum_touch_cost, sum_bisect_cost]
      exact (sum_Ico_split hmid.1 hmid.2).le
    | false =>
      rw [resume, sum_bisect_cost]
      exact hmono hmid.1 hmid.2
  | scan start offset step prev =>
    obtain ⟨-, -, hbound, -, hprev, hlt⟩ := h
    have hle : (prev + 1).toNat ≤ start + offset := by omega
    cases decide ((scan start offset step prev).index < n) with
    | true =>
      have hnext : (((start + offset : ℕ) : ℤ) + 1).toNat = start + offset + 1 := by omega
      have hsplit := sum_Ico_split (f := item) hle hbound
      rw [resume, List.map_append, List.sum_append, sum_touch_cost, List.map_singleton,
        List.sum_singleton, cost, hnext]
      dsimp only [index, cost]
      omega
    | false =>
      rw [resume, sum_bisect_cost]
      exact (hmono hle hbound).trans (Nat.le_add_left _ _)

/-- Without touches there are no more probes. -/
theorem cost_resume_lengthOnly {item : ℕ → ℕ} {lengthOnly found : Bool} :
    ((task.resume lengthOnly found).map (cost bound item)).sum ≤
      ((task.resume false found).map (cost bound item)).sum := by
  cases lengthOnly with
  | false => exact le_rfl
  | true =>
    have htouch : ∀ start stop : ℕ, Sdk.touch start stop true = [] := fun _ _ => rfl
    cases task with
    | touch i => exact le_rfl
    | bisect start stop =>
      cases found with
      | true =>
        rw [resume, resume, htouch, List.map_append, List.sum_append, List.map_append,
          List.sum_append]
        exact Nat.add_le_add_right (Nat.zero_le _) _
      | false => exact le_rfl
    | scan start offset step prev =>
      cases found with
      | true =>
        rw [resume, resume, htouch, List.map_append, List.sum_append, List.map_append,
          List.sum_append]
        exact Nat.add_le_add_right (Nat.zero_le _) _
      | false => exact le_rfl

end ScanTask

/-- The first probe of a scan is valid from a start among the items. -/
theorem valid_scan {n start : ℕ} (h : start ≤ n) :
    ∀ task ∈ scan start, task.Valid n (2 * n + INITIAL_OFFSET + 1) := by
  intro task htask
  obtain rfl := List.mem_singleton.mp htask
  unfold INITIAL_OFFSET INITIAL_STEP
  exact ⟨rfl, by omega, by omega, by omega, le_rfl, by omega⟩

/-- Wherever it starts, a scan leads to all items. -/
theorem weight_scan {M : Type*} [AddCommMonoid M] (n start : ℕ) (item : ℕ → M) :
    ((scan start).map (ScanTask.weight n item)).sum = ∑ i ∈ Finset.range n, item i := by
  unfold scan
  rw [List.map_singleton, List.sum_singleton, Finset.range_eq_Ico]
  rfl

end PrivacyPool.Sdk
