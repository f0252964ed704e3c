import PrivacyPool.Discovery.Account

/-!
# The boundary search

On notes that occupy the indices below a count the probe brackets the count between two
neighbouring probes, and the bisection of this gap takes at most as many steps as were drawn
for. When the first probe misses, the search takes the subchannel for empty, also when the
cursor starts right behind its last note.

## Main definitions

* `Occupied` — the notes of a subchannel are those below a count
* `BoundaryExact` — the search finds the count, at no more than its price

## Main results

* `boundary_exact_iff` — when the search is exact
-/

namespace PrivacyPool.Discovery

open Budget Budget.Task

variable {sn : Starknet} {backend : Backend} {channelKey token : Felt}
  {count startIndex maxNoteLogIndex : ℕ}

/-- The notes of a subchannel occupy the indices below the count, among those of a `u64`. -/
def Occupied (sn : Starknet) (backend : Backend) (channelKey token : Felt) (count : ℕ) : Prop :=
  ∀ index < 2 ^ 64,
    (backend.getNoteWithBlock sn (computeNoteId sn channelKey token index)).value ≠ 0 ↔
      index < count

/-- A cache entry is a note that exists, with its own id and what the storage has of it. -/
structure CachesNote (sn : Starknet) (backend : Backend) (channelKey token : Felt) (count : ℕ)
    (entry : ℕ × Felt × StorageResult) : Prop where
  lt_count : entry.1 < count
  noteId_eq : entry.2.1 = computeNoteId sn channelKey token entry.1
  result_eq : entry.2.2 = backend.getNoteWithBlock sn entry.2.1

/-! ### The probe -/

/-- Within a `u64` a probe hits when its offset is below the count. -/
theorem probeAt_hits_iff (hoccupied : Occupied sn backend channelKey token count)
    (hfits : startIndex + 2 ^ maxNoteLogIndex < 2 ^ 64) {k : ℕ} (hk : k ≤ maxNoteLogIndex) :
    probeOffset k = 2 ^ k - 1 ∧
      ((probeAt sn backend channelKey token startIndex k).2.2.value ≠ 0 ↔
        startIndex + (2 ^ k - 1) < count) := by
  have hle : 2 ^ k ≤ 2 ^ maxNoteLogIndex := Nat.pow_le_pow_right (by decide) hk
  have hpos := Nat.two_pow_pos k
  have hlt : k < 64 := (Nat.pow_lt_pow_iff_right (a := 2) (by decide)).mp (by omega)
  have hoffset := probeOffset_of_lt hlt
  refine ⟨hoffset, ?_⟩
  rw [← hoffset]
  exact hoccupied _ (by omega)

/-- What the probe finds from an index up to the count: that it is too short, nothing at the
index, or two neighbouring probes with the boundary between them. -/
inductive Probed (sn : Starknet) (backend : Backend) (channelKey token : Felt)
    (count startIndex maxNoteLogIndex : ℕ) :
    Except DiscoveryError (Option (ℕ × ℕ) × ProbeCache) → Prop
  | exceeded (hcount : startIndex + 2 ^ maxNoteLogIndex ≤ count) :
    Probed sn backend channelKey token count startIndex maxNoteLogIndex
      (.error (boundaryExceeded maxNoteLogIndex startIndex))
  | missed (hcount : count = startIndex) :
    Probed sn backend channelKey token count startIndex maxNoteLogIndex (.ok (none, []))
  | between {k : ℕ} {cache : ProbeCache} (hk : k < maxNoteLogIndex)
      (hlower : startIndex + (2 ^ k - 1) < count) (hupper : count ≤ startIndex + (2 ^ (k + 1) - 1))
      (hcache : ∀ entry ∈ cache, CachesNote sn backend channelKey token count entry) :
    Probed sn backend channelKey token count startIndex maxNoteLogIndex
      (.ok (some (startIndex + (2 ^ k - 1), startIndex + (2 ^ (k + 1) - 1)), cache))

theorem exponentialProbe_probed (hoccupied : Occupied sn backend channelKey token count)
    (hstart : startIndex ≤ count) (hfits : startIndex + 2 ^ maxNoteLogIndex < 2 ^ 64) :
    Probed sn backend channelKey token count startIndex maxNoteLogIndex
      (exponentialProbe sn backend channelKey token startIndex maxNoteLogIndex) := by
  have hhits := fun k hk => probeAt_hits_iff hoccupied hfits (k := k) hk
  change Probed _ _ _ _ _ _ _ (Fallible.expect (scanProbes ((List.range (maxNoteLogIndex + 1)).map
    (probeAt sn backend channelKey token startIndex)) none []) _)
  cases hscan : scanProbes _ none [] with
  | none =>
    rw [scanProbes_eq_none, List.forall_mem_map] at hscan
    have hlast := (hhits _ le_rfl).2.mp
      (hscan maxNoteLogIndex (List.mem_range.mpr (Nat.lt_succ_self _)))
    have hpos := Nat.two_pow_pos maxNoteLogIndex
    exact .exceeded (by omega)
  | some found =>
    obtain ⟨bounds, cache⟩ := found
    obtain ⟨hits, miss, rest, hprobes, hhit, hmiss, rfl, rfl⟩ := scanProbes_eq_some hscan
    obtain ⟨hlt, heq, rfl⟩ := range_map_eq_append hprobes
    have hupper := mt (hhits _ (Nat.lt_succ_iff.mp hlt)).2.mpr (not_not.mpr hmiss)
    generalize hits.length = k at *
    subst heq
    cases k with
    -- The first probe is at the start index itself.
    | zero =>
      rw [pow_zero] at hupper
      exact .missed (by omega)
    | succ k =>
      have hlast := (hhits k (by omega)).2.mp
        (hhit _ (List.mem_map.mpr ⟨k, List.mem_range.mpr (Nat.lt_succ_self k), rfl⟩))
      have hcache : ∀ entry ∈ ((List.range (k + 1)).map
          (probeAt sn backend channelKey token startIndex)).reverse ++ [],
          CachesNote sn backend channelKey token count entry := by
        intro entry hentry
        rw [List.append_nil, List.mem_reverse] at hentry
        obtain ⟨j, hj, rfl⟩ := List.mem_map.mp hentry
        rw [List.mem_range] at hj
        obtain ⟨hoffset, hiff⟩ := hhits j (by omega)
        refine ⟨?_, rfl, rfl⟩
        change startIndex + probeOffset j < count
        rw [hoffset]
        exact hiff.mp (hhit _ (List.mem_map_of_mem (List.mem_range.mpr hj)))
      have hbetween : Probed sn backend channelKey token count startIndex maxNoteLogIndex _ :=
        .between (Nat.lt_of_succ_lt_succ hlt) hlast (not_lt.mp hupper) hcache
      rw [← (hhits k (by omega)).1, ← (hhits (k + 1) (by omega)).1] at hbetween
      have hgetLast : ((List.range (k + 1)).map
          (probeAt sn backend channelKey token startIndex)).getLast? =
            some (probeAt sn backend channelKey token startIndex k) := by
        rw [List.range_succ, List.map_append]
        exact List.getLast?_concat
      rw [hgetLast]
      exact hbetween

/-! ### The bisection -/

/-- The bisection caches what it hits. -/
theorem bisectBoundary_caches (hoccupied : Occupied sn backend channelKey token count)
    (fuel : ℕ) {lower upper : ℕ} {cache : ProbeCache} (hlt : upper < 2 ^ 64)
    (hcache : ∀ entry ∈ cache, CachesNote sn backend channelKey token count entry) :
    ∀ entry ∈ (bisectBoundary sn backend channelKey token fuel lower upper cache).2.2,
      CachesNote sn backend channelKey token count entry := by
  induction fuel generalizing lower upper cache with
  | zero => exact hcache
  | succ fuel ih =>
    rw [bisectBoundary]
    split_ifs with hwide
    · dsimp only
      have hmid : lower + (upper - lower) / 2 < upper := by omega
      split_ifs with hhit
      · have hbelow := (hoccupied _ (hmid.trans hlt)).mp hhit
        exact ih hlt (List.forall_mem_cons.mpr ⟨⟨hbelow, rfl, rfl⟩, hcache⟩)
      · exact ih (hmid.trans hlt) hcache
    · exact hcache

/-! ### The search -/

section Search

variable {cursor : SubchannelCursor}

/-- A search that the budget does not pay for. -/
theorem findLastNoteIndex_short (hnone : cursor.totalNNotes = none) {budget : ℕ}
    (hbudget : budget < boundaryBudget maxNoteLogIndex) :
    (findLastNoteIndex sn backend channelKey token cursor maxNoteLogIndex).runOn budget =
      (.ok (cursor, [], true), budget) := by
  unfold findLastNoteIndex
  rw [hnone, Option.isSome_none, if_neg Bool.false_ne_true, runOn_bind, runOn_consume_of_lt hbudget]
  rfl

/-- A search that is paid for: what it returns, and what is left. -/
theorem findLastNoteIndex_run (hnone : cursor.totalNNotes = none) {budget : ℕ}
    (hbudget : boundaryBudget maxNoteLogIndex ≤ budget) :
    (findLastNoteIndex sn backend channelKey token cursor maxNoteLogIndex).runOn budget =
      match exponentialProbe sn backend channelKey token cursor.startIndex maxNoteLogIndex with
      | .error e => (.error e, budget - boundaryBudget maxNoteLogIndex)
      | .ok (none, cache) =>
        (.ok ({ cursor with totalNNotes := some 0 }, cache, false),
          budget - boundaryBudget maxNoteLogIndex + maxNoteLogIndex)
      | .ok (some (lower, upper), cache) =>
        let found := bisectBoundary sn backend channelKey token (upper - lower) lower upper cache
        (.ok ({ cursor with totalNNotes := some (found.1 + 1) }, found.2.2, false),
          budget - boundaryBudget maxNoteLogIndex + (maxNoteLogIndex - found.2.1)) := by
  unfold findLastNoteIndex
  rw [hnone, Option.isSome_none, if_neg Bool.false_ne_true, runOn_bind, runOn_consume_of_le hbudget]
  dsimp only
  rw [Bool.not_true, if_neg Bool.false_ne_true, runOn_read_bind, runOn_bind, runOn_ofExcept]
  cases exponentialProbe sn backend channelKey token cursor.startIndex maxNoteLogIndex with
  | error e => rfl
  | ok probed =>
    obtain ⟨_ | ⟨lower, upper⟩, cache⟩ := probed
    · dsimp only
      rw [runOn_bind, runOn_reclaim, costNoteProbing, mul_one]
      rfl
    · dsimp only
      rw [runOn_read_bind, runOn_bind, runOn_reclaim, costNoteProbing, mul_one]
      rfl

end Search

/-- The search is exact: on a sufficient budget it finds the count, or says that its probe is too
short for it. It charges no more than its price, what it puts back is not negative, and on a
smaller budget it does nothing. -/
structure BoundaryExact (sn : Starknet) (backend : Backend) (channelKey token : Felt)
    (count maxNoteLogIndex : ℕ) (cursor : SubchannelCursor) : Prop where
  found : count < cursor.startIndex + 2 ^ maxNoteLogIndex →
    ∀ budget, boundaryBudget maxNoteLogIndex ≤ budget →
      ∃ cache, ((findLastNoteIndex sn backend channelKey token cursor maxNoteLogIndex).runOn
          budget).1 = .ok ({ cursor with totalNNotes := some count }, cache, false) ∧
        ∀ entry ∈ cache, CachesNote sn backend channelKey token count entry
  exceeded : cursor.startIndex + 2 ^ maxNoteLogIndex ≤ count →
    ∀ budget, boundaryBudget maxNoteLogIndex ≤ budget →
      ((findLastNoteIndex sn backend channelKey token cursor maxNoteLogIndex).runOn budget).1 =
        .error (boundaryExceeded maxNoteLogIndex cursor.startIndex)
  charged : ∀ budget,
    let left := ((findLastNoteIndex sn backend channelKey token cursor maxNoteLogIndex).runOn
      budget).2
    left ≤ budget ∧ budget ≤ left + (2 * maxNoteLogIndex + 1)
  reclaimed : ∀ lower upper cache,
    exponentialProbe sn backend channelKey token cursor.startIndex maxNoteLogIndex =
        .ok (some (lower, upper), cache) →
      (bisectBoundary sn backend channelKey token (upper - lower) lower upper cache).2.1 ≤
        maxNoteLogIndex
  short : ∀ budget < boundaryBudget maxNoteLogIndex,
    (findLastNoteIndex sn backend channelKey token cursor maxNoteLogIndex).runOn budget =
      (.ok (cursor, [], true), budget)

/-- What the search leaves of a sufficient budget. -/
theorem findLastNoteIndex_charged {cursor : SubchannelCursor} (hnone : cursor.totalNNotes = none)
    (budget : ℕ) :
    let left := ((findLastNoteIndex sn backend channelKey token cursor maxNoteLogIndex).runOn
      budget).2
    left ≤ budget ∧ budget ≤ left + (2 * maxNoteLogIndex + 1) := by
  have hprice : boundaryBudget maxNoteLogIndex = 2 * maxNoteLogIndex + 1 := Nat.mul_one _
  dsimp only
  by_cases hbudget : boundaryBudget maxNoteLogIndex ≤ budget
  · rw [findLastNoteIndex_run hnone hbudget]
    split
    · dsimp only
      omega
    · dsimp only
      omega
    · dsimp only
      omega
  · rw [findLastNoteIndex_short hnone (not_le.mp hbudget)]
    exact ⟨le_rfl, Nat.le_add_right _ _⟩

/-- **Boundary finding.** From an index up to the count the search is exact just when the cursor
does not start behind the last note of a subchannel that has notes. -/
theorem boundary_exact_iff {cursor : SubchannelCursor}
    (hoccupied : Occupied sn backend channelKey token count) (hnone : cursor.totalNNotes = none)
    (hstart : cursor.startIndex ≤ count) (hfits : cursor.startIndex + 2 ^ maxNoteLogIndex < 2 ^ 64) :
    BoundaryExact sn backend channelKey token count maxNoteLogIndex cursor ↔
      (cursor.startIndex = count → count = 0) := by
  have hpos := Nat.two_pow_pos maxNoteLogIndex
  have hprobed := exponentialProbe_probed hoccupied hstart hfits
  have hrun : ∀ budget, boundaryBudget maxNoteLogIndex ≤ budget →
      (findLastNoteIndex sn backend channelKey token cursor maxNoteLogIndex).runOn budget = _ :=
    fun _ hbudget => findLastNoteIndex_run hnone hbudget
  constructor
  -- Behind the last note the first probe misses, and the total becomes 0.
  · intro hexact hbehind
    obtain ⟨cache, hfound, -⟩ := hexact.found (by omega) _ le_rfl
    rw [hrun _ le_rfl] at hfound
    generalize exponentialProbe sn backend channelKey token cursor.startIndex maxNoteLogIndex =
      probed at hprobed hfound
    cases hprobed with
    | exceeded hcount => omega
    | missed hcount =>
      have htotal := congrArg (SubchannelCursor.totalNNotes ∘ Prod.fst) (Except.ok.inj hfound)
      exact (Option.some.inj htotal).symm
    | between hk hlower hupper hcache => omega
  · intro hbehind
    -- Elsewhere each outcome of the probe is as the search is meant to end.
    generalize hresult : exponentialProbe sn backend channelKey token cursor.startIndex
      maxNoteLogIndex = probed at hprobed hrun
    refine ⟨fun hcount budget hbudget => ?_, fun hcount budget hbudget => ?_,
      findLastNoteIndex_charged hnone, fun lower upper cache hbetween => ?_,
      fun budget hbudget => findLastNoteIndex_short hnone hbudget⟩
    · rw [hrun budget hbudget]
      cases hprobed with
      | exceeded hexceeded => omega
      | missed hmissed => exact ⟨[], by rw [hbehind hmissed.symm], nofun⟩
      | @between k cache hk hlower hupper hcache =>
        have hlt : cursor.startIndex + (2 ^ (k + 1) - 1) < 2 ^ 64 := by
          have hpow : 2 ^ (k + 1) ≤ 2 ^ maxNoteLogIndex := Nat.pow_le_pow_right (by decide) hk
          omega
        dsimp only
        rw [bisectBoundary_finds hoccupied cache hlower hupper hlt le_rfl]
        exact ⟨_, rfl, bisectBoundary_caches hoccupied _ hlt hcache⟩
    · rw [hrun budget hbudget]
      cases hprobed with
      | exceeded hexceeded => rfl
      | missed hmissed => omega
      | @between k cache hk hlower hupper hcache =>
        have hpow : 2 ^ (k + 1) ≤ 2 ^ maxNoteLogIndex := Nat.pow_le_pow_right (by decide) hk
        omega
    · rw [hresult] at hbetween
      subst hbetween
      cases hprobed with
      | between hk hlower hupper hcache =>
        refine (bisectBoundary_steps_le _ _ ?_).trans hk.le
        rw [pow_succ]
        omega

/-- The search for the boundary of the two notes of user 5, from the first one. -/
theorem boundary_exact_iff_sample :
    BoundaryExact Starknet.sample Sample.backend 1 77 2 3 {} := by
  have hoccupied : Occupied Starknet.sample Sample.backend 1 77 2 :=
    Sample.subchannelStored.used_iff
  refine (boundary_exact_iff hoccupied rfl ?_ ?_).mpr nofun
  · exact Nat.zero_le 2
  · decide

/-- Behind its last note the subchannel of user 5 is taken for empty. -/
theorem boundary_behind_last_note :
    ¬BoundaryExact Starknet.sample Sample.backend 1 77 2 3 { lastNoteIndex := some 1 } := by
  intro hexact
  obtain ⟨cache, hfound, -⟩ := hexact.found (by decide) 7 (by decide)
  have hzero : ((findLastNoteIndex Starknet.sample Sample.backend 1 77
      { lastNoteIndex := some 1 } 3).runOn 7).1 =
        .ok ({ lastNoteIndex := some 1, totalNNotes := some 0 }, [], false) := by decide +kernel
  have htotal := congrArg (SubchannelCursor.totalNNotes ∘ Prod.fst)
    (Except.ok.inj (hzero.symm.trans hfound))
  exact absurd (Option.some.inj htotal) (by decide)

end PrivacyPool.Discovery
