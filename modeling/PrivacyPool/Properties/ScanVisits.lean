import PrivacyPool.Base.Tracker
import PrivacyPool.Sdk.Scan

/-!
# The visits of a scan

A scan comes to an end in whatever order its probes are answered, and finds the last of the
items. It visits all of them: also those below its start, since the first touches and the
bisection begin after the probe before, which the scan takes to be `-1` and not
`start - 1`.

## Main definitions

* `Scans` — a scan ends after these probes
* `VisitsOnce` — a scan visits the items from its start on, each once

## Main results

* `visitsOnce_iff` — it does so just from index zero
-/

namespace PrivacyPool.Sdk

/-- A probe is answered, and noted with its answer. -/
def answerProbe (probe : ℕ → Bool) (lengthOnly : Bool) (task : ScanTask)
    (probed : List (ℕ × Bool)) : List (ℕ × Bool) × List ScanTask :=
  (probed ++ [(task.index, probe task.index)], task.resume lengthOnly (probe task.index))

/-- `scan(probe, start)` ends after these probes. -/
def Scans (probe : ℕ → Bool) (lengthOnly : Bool) (start : ℕ) (probed : List (ℕ × Bool)) : Prop :=
  Tracker.Run (answerProbe probe lengthOnly) ([], scan start) (probed, 0)

/-- However the probes are answered, `scan(probe, start)` comes to an end. -/
def Ends (probe : ℕ → Bool) (lengthOnly : Bool) (start : ℕ) : Prop :=
  Acc (fun next config => Tracker.Step (answerProbe probe lengthOnly) config next)
    ([], (scan start : Multiset ScanTask))

/-- A scan ends, and visits the items from its start on once each, and nothing else; where only
the length is asked for it visits the last item, if it is not below the start, and none
after it. -/
structure VisitsOnce (probe : ℕ → Bool) (n start : ℕ) : Prop where
  ends : ∀ lengthOnly, Ends probe lengthOnly start
  visits : ∀ probed, Scans probe false start probed → ∀ i,
    probed.count (i, true) = if start ≤ i ∧ i < n then 1 else 0
  last : start < n → ∀ probed, Scans probe true start probed →
    (n - 1, true) ∈ probed ∧ ∀ i, (i, true) ∈ probed → i ≤ n - 1

variable {probe : ℕ → Bool} {n start : ℕ} {probed : List (ℕ × Bool)}

/-- The items below a bound are those that the probe finds. -/
def Finds (probe : ℕ → Bool) (n : ℕ) : Prop := ∀ i, probe i = true ↔ i < n

theorem Finds.eq (h : Finds probe n) (i : ℕ) : probe i = decide (i < n) :=
  Bool.eq_iff_iff.mpr ((h i).trans decide_eq_true_iff.symm)

/-! ### Ends -/

theorem keeps_answerProbe (h : Finds probe n) (bound : ℕ) (lengthOnly : Bool)
    (probed : List (ℕ × Bool)) (task : ScanTask) (hvalid : task.Valid n bound) :
    Tracker.Keeps (answerProbe probe lengthOnly) (fun _ => True)
      (fun _ task => task.Valid n bound) probed task where
  inv := trivial
  others _ hother := hother
  started := by
    unfold answerProbe
    rw [h.eq]
    exact ScanTask.valid_resume hvalid

theorem shrinks_answerProbe (h : Finds probe n) (bound : ℕ) (lengthOnly : Bool) :
    Tracker.Shrinks (answerProbe probe lengthOnly) (fun _ => True)
      (fun _ task => task.Valid n bound) (ScanTask.cost bound fun _ => 1) := by
  intro probed task _ hvalid
  have hcost : ((task.resume false (decide (task.index < n))).map
      (ScanTask.cost bound fun _ => 1)).sum + 1 ≤ task.cost bound fun _ => 1 :=
    ScanTask.cost_resume hvalid
  unfold answerProbe
  rw [h.eq]
  exact (Nat.lt_succ_of_le ScanTask.cost_resume_lengthOnly).trans_le hcost

/-- A scan comes to an end. -/
theorem ends (h : Finds probe n) (hstart : start ≤ n) (lengthOnly : Bool) :
    Ends probe lengthOnly start :=
  Tracker.acc_of_shrinks (fun probed task _ => keeps_answerProbe h _ lengthOnly probed task)
    (shrinks_answerProbe h _ lengthOnly) trivial fun task htask =>
      valid_scan hstart task (Multiset.mem_coe.mp htask)

/-! ### Visits -/

/-- The items that have been visited. -/
def visited (probed : List (ℕ × Bool)) : Multiset ℕ :=
  ((probed.filter Prod.snd).map Prod.fst : List ℕ)

theorem count_visited (i : ℕ) : (visited probed).count i = probed.count (i, true) := by
  unfold visited
  rw [Multiset.coe_count]
  induction probed with
  | nil => rfl
  | cons entry probed ih =>
    obtain ⟨j, found⟩ := entry
    cases found with
    | true =>
      rw [List.filter_cons_of_pos rfl, List.map_cons, List.count_cons, List.count_cons, ih]
      simp
    | false =>
      rw [List.filter_cons_of_neg Bool.false_ne_true, List.count_cons, ih]
      simp

/-- Each answer visits the item of its probe. -/
theorem conserves_visited (h : Finds probe n) (bound : ℕ) (total : Multiset ℕ) :
    Tracker.Conserves (answerProbe probe false) (fun _ => True)
      (fun _ task => task.Valid n bound) visited (ScanTask.weight n fun i => {i}) total := by
  intro probed task _ hvalid _
  refine ⟨keeps_answerProbe h bound false probed task hvalid, ?_⟩
  rw [← ScanTask.weight_resume hvalid]
  unfold answerProbe visited
  rw [h.eq, List.filter_append, List.map_append, ← Multiset.coe_add]
  by_cases hfound : task.index < n
  · simp only [hfound, decide_true, if_true]
    rw [add_assoc, add_comm _ ({task.index} : Multiset ℕ)]
    rfl
  · simp only [hfound, decide_false, if_false, add_zero]
    exact congrArg (· + _) (add_zero _)

/-- Wherever it starts, a scan visits all items. -/
theorem visited_eq (h : Finds probe n) (hstart : start ≤ n) (hscans : Scans probe false start probed) :
    visited probed = Multiset.range n := by
  obtain ⟨-, -, htotal⟩ := (conserves_visited h _ _).run hscans trivial
    (fun task htask => valid_scan hstart task (Multiset.mem_coe.mp htask)) rfl
  rw [Multiset.map_zero, Multiset.sum_zero, add_zero, Multiset.map_coe, Multiset.sum_coe,
    weight_scan] at htotal
  rw [htotal]
  exact (zero_add _).trans (Finset.sum_multiset_singleton _)

/-- The probes of a scan can all be answered. -/
theorem exists_scans (h : Finds probe n) (hstart : start ≤ n) :
    ∃ probed, Scans probe false start probed :=
  Tracker.exists_settled (conserves_visited h _ _) (shrinks_answerProbe h _ false) trivial
    (fun task htask => valid_scan hstart task (Multiset.mem_coe.mp htask)) rfl

/-! ### The last item -/

/-- The items below a bound have been seen to the last. -/
def Reached (probed : List (ℕ × Bool)) (bound : ℕ) : Prop :=
  bound = 0 ∨ (bound - 1, true) ∈ probed

theorem Reached.append {bound : ℕ} (h : Reached probed bound) (entry : ℕ × Bool) :
    Reached (probed ++ [entry]) bound :=
  h.imp_right fun hmem => List.mem_append_left _ hmem

/-- The search for the last item: one probe is in flight, or the item has been found. -/
inductive Searching (n : ℕ) (probed : List (ℕ × Bool)) : Multiset ScanTask → Prop
  | scan {start offset step : ℕ} {prev : ℤ} (hreached : Reached probed (prev + 1).toNat)
      (hle : (prev + 1).toNat ≤ n) (hlt : prev < start + offset) (hstep : 0 < step) :
    Searching n probed {.scan start offset step prev}
  | bisect {start stop : ℕ} (hreached : Reached probed start) (hle : start ≤ n) (hstop : n ≤ stop)
      (hlt : start < stop) : Searching n probed {.bisect start stop}
  | found (hreached : Reached probed n) : Searching n probed 0

/-- A bisection of the right range is part of the search. -/
theorem searching_bisect {start stop : ℕ} (hreached : Reached probed start) (hle : start ≤ n)
    (hstop : n ≤ stop) : Searching n probed (bisect start stop) := by
  unfold Sdk.bisect
  split_ifs with hempty
  · obtain rfl : start = n := by omega
    exact .found hreached
  · exact .bisect hreached hle hstop (not_le.mp hempty)

/-- Each answer goes on with the search. -/
theorem Searching.step (h : Finds probe n) {config next : List (ℕ × Bool) × Multiset ScanTask}
    (hstep : Tracker.Step (answerProbe probe true) config next)
    (hsearch : Searching n config.1 config.2) : Searching n next.1 next.2 := by
  cases hstep with
  | answer probed task rest =>
    dsimp only at hsearch ⊢
    generalize hpending : task ::ₘ rest = pending at hsearch
    cases hsearch with
    | @scan start offset step prev hreached hle hlt hpos =>
      obtain ⟨rfl, rfl⟩ := Multiset.singleton_eq_cons_iff _ |>.mp hpending.symm
      rw [zero_add]
      unfold answerProbe
      rw [h.eq]
      by_cases hfound : (ScanTask.scan start offset step prev).index < n
      -- A hit: what was jumped over is touched.
      · have hlow : start + offset < n := hfound
        rw [decide_eq_true hfound]
        have hnext : (((start + offset : ℕ) : ℤ) + 1).toNat = start + offset + 1 := by omega
        refine .scan (.inr ?_) (by omega) (by push_cast; omega) (by omega)
        rw [hnext, Nat.add_sub_cancel]
        exact List.mem_append_right _ (List.mem_singleton_self _)
      · rw [decide_eq_false hfound]
        exact searching_bisect (hreached.append _) hle (not_lt.mp hfound)
    | @bisect start stop hreached hle hstop hlt =>
      obtain ⟨rfl, rfl⟩ := Multiset.singleton_eq_cons_iff _ |>.mp hpending.symm
      rw [zero_add]
      unfold answerProbe
      rw [h.eq]
      by_cases hfound : (ScanTask.bisect start stop).index < n
      -- A hit: the middle is the last index that is known to be there.
      · have hlow : (start + stop) / 2 < n := hfound
        rw [decide_eq_true hfound]
        refine searching_bisect (.inr ?_) (by omega) hstop
        rw [Nat.add_sub_cancel]
        exact List.mem_append_right _ (List.mem_singleton_self _)
      · rw [decide_eq_false hfound]
        exact searching_bisect (hreached.append _) hle (not_lt.mp hfound)
    | found hreached => exact absurd hpending (Multiset.cons_ne_zero)

/-- The answers that are noted are those of the probe. -/
theorem answers_of_run {lengthOnly : Bool} {config : List (ℕ × Bool) × Multiset ScanTask}
    (hrun : Tracker.Run (answerProbe probe lengthOnly) ([], scan start) config) :
    ∀ entry ∈ config.1, probe entry.1 = entry.2 := by
  induction hrun with
  | refl => exact fun _ hentry => absurd hentry List.not_mem_nil
  | tail _ hstep ih =>
    cases hstep with
    | answer probed task rest =>
      intro entry hentry
      rcases List.mem_append.mp hentry with hold | hnew
      · exact ih entry hold
      · rw [List.mem_singleton.mp hnew]

theorem searching_of_run (h : Finds probe n) {config : List (ℕ × Bool) × Multiset ScanTask}
    (hrun : Tracker.Run (answerProbe probe true) ([], scan start) config) :
    Searching n config.1 config.2 := by
  induction hrun with
  | refl => exact .scan (.inl rfl) (Nat.zero_le n) (by omega) (by decide)
  | tail _ hstep ih => exact ih.step h hstep

/-- **Visits of a scan.** A scan from a start among the items visits them from there on, once each
and no others, just when it starts at index zero. -/
theorem visitsOnce_iff (h : Finds probe n) (hstart : start ≤ n) :
    VisitsOnce probe n start ↔ start = 0 := by
  constructor
  · intro honce
    by_contra hpos
    -- The first item lies before the start, and it is visited.
    obtain ⟨probed, hscans⟩ := exists_scans h hstart
    have hvisits := honce.visits probed hscans 0
    rw [← count_visited, visited_eq h hstart hscans, if_neg (by omega)] at hvisits
    exact Multiset.count_ne_zero.mpr (Multiset.mem_range.mpr (by omega)) hvisits
  · rintro rfl
    refine ⟨ends h hstart, fun probed hscans i => ?_, fun hlt probed hscans => ⟨?_, fun i hi => ?_⟩⟩
    · rw [← count_visited, visited_eq h hstart hscans,
        Multiset.count_eq_of_nodup (Multiset.nodup_range n)]
      simp only [Multiset.mem_range, Nat.zero_le, true_and]
    · have hsearch : Searching n probed 0 := searching_of_run h hscans
      generalize hpending : (0 : Multiset ScanTask) = pending at hsearch
      cases hsearch with
      | scan => exact absurd hpending.symm (Multiset.singleton_ne_zero _)
      | bisect => exact absurd hpending.symm (Multiset.singleton_ne_zero _)
      | found hreached => exact hreached.resolve_left hlt.ne'
    · have hfound := (h i).mp (answers_of_run hscans (i, true) hi)
      omega

namespace Sample

theorem finds_ten : Finds (fun i => decide (i < 10)) 10 := fun _ => decide_eq_true_iff

end Sample

/-- Ten items are visited from the first. -/
theorem visitsOnce_iff_sample : VisitsOnce (fun i => decide (i < 10)) 10 0 :=
  (visitsOnce_iff Sample.finds_ten (Nat.zero_le 10)).mpr rfl

/-- A scan of ten items from the second half visits the first one. -/
theorem visits_below_start : ∃ probed, Scans (fun i => decide (i < 10)) false 5 probed ∧
    (0, true) ∈ probed ∧ ¬VisitsOnce (fun i => decide (i < 10)) 10 5 := by
  obtain ⟨probed, hscans⟩ := exists_scans Sample.finds_ten (by decide : 5 ≤ 10)
  have hcount : probed.count (0, true) = 1 := by
    rw [← count_visited, visited_eq Sample.finds_ten (by decide) hscans]
    rfl
  refine ⟨probed, hscans, List.count_pos_iff.mp (hcount ▸ Nat.one_pos), fun honce => ?_⟩
  have hnone := honce.visits probed hscans 0
  rw [hcount] at hnone
  cases hnone

end PrivacyPool.Sdk
