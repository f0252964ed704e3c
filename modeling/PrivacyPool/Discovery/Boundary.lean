import PrivacyPool.Discovery.Notes

/-!
# What the note scans find

The notes of a subchannel occupy the indices below a count. The probe and the
bisection find that count, unless the probe is too short for it, and what they
cache is what the storage holds. The linear scan then returns the unspent notes of
a prefix of what is left.

## Main definitions

* `NotesHeld` — the notes of a subchannel are those below a count
* `noteAt`, `unspentNotes` — the notes, read off the storage

## Main results

* `findLastNoteIndex_within` — the boundary search finds the count
* `discoverNotesPaginated_within` — a page returns the next unspent notes
-/

namespace PrivacyPool.Discovery

open Budget.Task

variable {full : Prop} {sn : Starknet} {backend : Backend} {channelKey token privateKey : Felt}
  {count startIndex maxNoteLogIndex : ℕ}

/-- The notes of a subchannel are those below the count, among the indices of a `u64`. -/
structure NotesHeld (sn : Starknet) (backend : Backend) (channelKey token : Felt) (count : ℕ) :
    Prop where
  value_ne_zero_iff : ∀ index < 2 ^ 64,
    (backend.getNoteWithBlock sn (computeNoteId sn channelKey token index)).value ≠ 0 ↔
      index < count
  /-- Indices are written as `u32` by the contract. -/
  count_le : count ≤ 2 ^ 32

/-! ### The probe -/

/-- The probe reads indices of a `u64`. -/
theorem probeOffset_lt (k : ℕ) : probeOffset k < 2 ^ 63 := by
  unfold probeOffset
  split_ifs
  · exact Nat.two_pow_pos 63
  · have hpow : 2 ^ (k % 64) ≤ 2 ^ 63 := Nat.pow_le_pow_right (by omega) (by omega)
    have hpos := Nat.two_pow_pos (k % 64)
    omega

theorem probeOffset_of_lt {k : ℕ} (h : k < 64) : probeOffset k = 2 ^ k - 1 := by
  unfold probeOffset
  split_ifs with hzero
  · simp [hzero]
  · rw [Nat.mod_eq_of_lt h]

/-- Two neighbouring probes are no further apart than `2 ^ k`, also where the shift starts over. -/
theorem probeOffset_succ_le (k : ℕ) : probeOffset (k + 1) ≤ probeOffset k + 2 ^ k := by
  have hle : 2 ^ (k % 64) ≤ 2 ^ k := Nat.pow_le_pow_right (by decide) (Nat.mod_le k 64)
  have hpos := Nat.two_pow_pos (k % 64)
  have hsucc : probeOffset (k + 1) = 2 ^ ((k + 1) % 64) - 1 := if_neg (Nat.succ_ne_zero k)
  have hk : probeOffset k = 2 ^ (k % 64) - 1 := by
    unfold probeOffset
    split_ifs with hzero
    · rw [hzero]
      rfl
    · rfl
  rw [hsucc, hk]
  rcases Nat.lt_or_ge (k % 64) 63 with hlt | hge
  · rw [show (k + 1) % 64 = k % 64 + 1 by omega, pow_succ]
    omega
  · rw [show (k + 1) % 64 = 0 by omega, pow_zero]
    omega

/-- A count that a probe bounds is below what the longest probe bounds. -/
theorem lt_of_probeOffset {k : ℕ} (hk : k ≤ maxNoteLogIndex) (hcount : count ≤ 2 ^ 32)
    (hbound : count ≤ startIndex + probeOffset k) : count < startIndex + 2 ^ maxNoteLogIndex := by
  rcases Nat.lt_or_ge maxNoteLogIndex 33 with hlog | hlog
  · rw [probeOffset_of_lt (by omega)] at hbound
    have hpow : 2 ^ k ≤ 2 ^ maxNoteLogIndex := Nat.pow_le_pow_right (by omega) hk
    have hpos := Nat.two_pow_pos k
    omega
  · have hpow : 2 ^ 33 ≤ 2 ^ maxNoteLogIndex := Nat.pow_le_pow_right (by omega) hlog
    omega

theorem scanProbes_eq_none {probes : List (ℕ × Felt × StorageResult)} {lower : Option ℕ}
    {cache : ProbeCache} :
    scanProbes probes lower cache = none ↔ ∀ probe ∈ probes, probe.2.2.value ≠ 0 := by
  induction probes generalizing lower cache with
  | nil => simp [scanProbes]
  | cons probe probes ih =>
    rw [List.forall_mem_cons, scanProbes]
    split_ifs with hhit
    · rw [ih]
      exact ⟨fun h => ⟨hhit, h⟩, And.right⟩
    · exact iff_of_false (by simp) fun h => hhit h.1

/-- The probe stops at its first miss: the hits before it are cached, and the last
of them bounds the boundary from below. -/
theorem scanProbes_eq_some {probes : List (ℕ × Felt × StorageResult)} {lower : Option ℕ}
    {cache cache' : ProbeCache} {bounds : Option (ℕ × ℕ)}
    (h : scanProbes probes lower cache = some (bounds, cache')) :
    ∃ hits miss rest, probes = hits ++ miss :: rest ∧ (∀ probe ∈ hits, probe.2.2.value ≠ 0) ∧
      miss.2.2.value = 0 ∧ cache' = hits.reverse ++ cache ∧
      bounds = ((hits.getLast?.map Prod.fst).or lower).map fun low => (low, miss.1) := by
  induction probes generalizing lower cache with
  | nil => cases h
  | cons probe probes ih =>
    rw [scanProbes] at h
    split_ifs at h with hhit
    · obtain ⟨hits, miss, rest, rfl, hhits, hmiss, rfl, rfl⟩ := ih h
      refine ⟨probe :: hits, miss, rest, rfl, ?_, hmiss, ?_, ?_⟩
      · exact List.forall_mem_cons.mpr ⟨hhit, hhits⟩
      · simp
      · cases hlast : hits.getLast? with
        | none =>
          rw [List.getLast?_eq_none_iff.mp hlast]
          rfl
        | some last =>
          rw [List.getLast?_cons, hlast]
          rfl
    · obtain ⟨rfl, rfl⟩ := Prod.mk.inj (Option.some.inj h)
      exact ⟨[], probe, probes, rfl, by simp, not_not.mp hhit, rfl, rfl⟩

/-- The items before an item of a list of images, and the item. -/
theorem range_map_eq_append {α : Type*} {f : ℕ → α} {hits rest : List α} {miss : α} {n : ℕ}
    (h : (List.range n).map f = hits ++ miss :: rest) :
    hits.length < n ∧ hits = (List.range hits.length).map f ∧ miss = f hits.length := by
  have hlength := congrArg List.length h
  simp only [List.length_map, List.length_range, List.length_append, List.length_cons] at hlength
  have hlt : hits.length < n := by omega
  refine ⟨hlt, ?_, ?_⟩
  · have htake := congrArg (List.take hits.length) h
    rw [List.take_left, ← List.map_take, List.take_range, min_eq_left hlt.le] at htake
    exact htake.symm
  · have hget := congrArg (·[hits.length]?) h
    simp only [List.getElem?_map, List.getElem?_range hlt, Option.map_some,
      List.getElem?_append_right le_rfl, Nat.sub_self, List.getElem?_cons_zero,
      Option.some.injEq] at hget
    exact hget.symm

/-- The probe of an index, as `exponentialProbe` collects it. -/
def probeAt (sn : Starknet) (backend : Backend) (channelKey token : Felt) (startIndex k : ℕ) :
    ℕ × Felt × StorageResult :=
  (startIndex + probeOffset k,
    computeNoteId sn channelKey token (startIndex + probeOffset k),
    backend.getNoteWithBlock sn (computeNoteId sn channelKey token (startIndex + probeOffset k)))

/-- The value of a note, as a probe sees it. -/
def noteValue (sn : Starknet) (backend : Backend) (channelKey token : Felt) (index : ℕ) : Felt :=
  (backend.getNoteWithBlock sn (computeNoteId sn channelKey token index)).value

/-- Without an assumption on the notes: the probe ends at two neighbouring probes, of which only
the first hits, or at its first one. -/
theorem exponentialProbe_neighbours :
    Outcome (fun _ => True) (fun result => match result.1 with
        | none => True
        | some (lower, upper) => ∃ k < maxNoteLogIndex,
          lower = startIndex + probeOffset k ∧ upper = startIndex + probeOffset (k + 1) ∧
            noteValue sn backend channelKey token startIndex ≠ 0 ∧
            noteValue sn backend channelKey token lower ≠ 0 ∧
            noteValue sn backend channelKey token upper = 0)
      (exponentialProbe sn backend channelKey token startIndex maxNoteLogIndex) := by
  change Outcome _ _ (Fallible.expect (scanProbes ((List.range (maxNoteLogIndex + 1)).map
    (probeAt sn backend channelKey token startIndex)) none []) _)
  cases hscan : scanProbes _ none [] with
  | none => trivial
  | some found =>
    obtain ⟨bounds, cache⟩ := found
    obtain ⟨hits, miss, rest, hprobes, hhit, hmiss, rfl, rfl⟩ := scanProbes_eq_some hscan
    obtain ⟨hlt, heq, rfl⟩ := range_map_eq_append hprobes
    generalize hits.length = k at *
    subst heq
    -- The first probe misses, or the last hit and the miss are neighbours.
    cases k with
    | zero => trivial
    | succ k =>
      have hgetLast : ((List.range (k + 1)).map
          (probeAt sn backend channelKey token startIndex)).getLast? =
            some (probeAt sn backend channelKey token startIndex k) := by
        rw [List.range_succ, List.map_append]
        exact List.getLast?_concat
      rw [hgetLast]
      have hhits : ∀ j ≤ k, noteValue sn backend channelKey token (startIndex + probeOffset j) ≠ 0 :=
        fun j hj => hhit _ (List.mem_map_of_mem (List.mem_range.mpr (Nat.lt_succ_of_le hj)))
      exact ⟨k, Nat.lt_of_succ_lt_succ hlt, rfl, rfl, hhits 0 (Nat.zero_le k), hhits k le_rfl, hmiss⟩

/-- The cache holds what the storage holds. -/
def CacheSound (sn : Starknet) (backend : Backend) (channelKey token : Felt)
    (cache : ProbeCache) : Prop :=
  ∀ entry ∈ cache, entry.2.1 = computeNoteId sn channelKey token entry.1 ∧
    entry.2.2 = backend.getNoteWithBlock sn entry.2.1

theorem cacheSound_nil : CacheSound sn backend channelKey token [] := fun _ h => nomatch h

theorem CacheSound.lookup {cache : ProbeCache} (h : CacheSound sn backend channelKey token cache)
    (index : ℕ) : (cache.lookup index).getD (computeNoteId sn channelKey token index,
      backend.getNoteWithBlock sn (computeNoteId sn channelKey token index)) =
    (computeNoteId sn channelKey token index,
      backend.getNoteWithBlock sn (computeNoteId sn channelKey token index)) := by
  cases hfound : cache.lookup index with
  | none => rfl
  | some found =>
    obtain ⟨before, after, hcache, -⟩ := List.lookup_eq_some_iff.mp hfound
    obtain ⟨hid, hresult⟩ := h (index, found) (by simp [hcache])
    dsimp only at hid hresult
    rw [Option.getD_some, ← hid, ← hresult]

/-- The probe from an index up to the count brackets the count, or is too short. -/
theorem exponentialProbe_outcome (hheld : NotesHeld sn backend channelKey token count)
    (hstart : startIndex ≤ count) :
    Outcome (fun e => e = boundaryExceeded maxNoteLogIndex startIndex ∧
        startIndex + 2 ^ maxNoteLogIndex ≤ count)
      (fun result => CacheSound sn backend channelKey token result.2 ∧
        count < startIndex + 2 ^ maxNoteLogIndex ∧
        match result.1 with
        | none => count = startIndex
        | some (lower, upper) =>
          startIndex ≤ lower ∧ lower < count ∧ count ≤ upper ∧ upper < 2 ^ 64)
      (exponentialProbe sn backend channelKey token startIndex maxNoteLogIndex) := by
  have hcount := hheld.count_le
  have hindex : ∀ k, startIndex + probeOffset k < 2 ^ 64 := by
    intro k
    have := probeOffset_lt k
    omega
  unfold exponentialProbe
  dsimp only
  cases hscan : scanProbes _ none [] with
  | none =>
    -- All probes hit, also the longest one below 64.
    rw [scanProbes_eq_none, List.forall_mem_map] at hscan
    have hhit : ∀ k ≤ maxNoteLogIndex, startIndex + probeOffset k < count := fun k hk =>
      (hheld.value_ne_zero_iff _ (hindex k)).mp (hscan k (List.mem_range.mpr (by omega)))
    refine ⟨rfl, ?_⟩
    by_cases hlog : maxNoteLogIndex < 64
    · have hlast := hhit maxNoteLogIndex le_rfl
      rw [probeOffset_of_lt hlog] at hlast
      have hpos := Nat.two_pow_pos maxNoteLogIndex
      omega
    · have hlast := hhit 33 (by omega)
      rw [probeOffset_of_lt (by decide)] at hlast
      omega
  | some found =>
    obtain ⟨bounds, cache⟩ := found
    -- The count lies between the last probe that hits and the first that misses.
    obtain ⟨hits, miss, rest, hprobes, hhits, hmiss, rfl, rfl⟩ := scanProbes_eq_some hscan
    have hmem : ∀ probe ∈ hits ++ miss :: rest, startIndex ≤ probe.1 ∧ probe.1 < 2 ^ 64 ∧
        probe.2.1 = computeNoteId sn channelKey token probe.1 ∧
        probe.2.2 = backend.getNoteWithBlock sn probe.2.1 := by
      rw [← hprobes]
      rintro _ hprobe
      obtain ⟨k, -, rfl⟩ := List.mem_map.mp hprobe
      exact ⟨Nat.le_add_right _ _, hindex k, rfl, rfl⟩
    have hexists : ∀ probe ∈ hits ++ miss :: rest, probe.2.2.value ≠ 0 ↔ probe.1 < count := by
      intro probe hprobe
      obtain ⟨-, hlt, hid, hresult⟩ := hmem probe hprobe
      rw [hresult, hid]
      exact hheld.value_ne_zero_iff _ hlt
    have hupper : count ≤ miss.1 := by
      by_contra hlt
      exact (hexists miss (by simp)).mpr (by omega) hmiss
    refine ⟨?_, ?_, ?_⟩
    · intro entry hentry
      rw [List.append_nil, List.mem_reverse] at hentry
      exact (hmem entry (List.mem_append_left _ hentry)).2.2
    · have hmissed : miss ∈ hits ++ miss :: rest := by simp
      rw [← hprobes] at hmissed
      obtain ⟨k, hk, rfl⟩ := List.mem_map.mp hmissed
      exact lt_of_probeOffset (Nat.lt_succ_iff.mp (List.mem_range.mp hk)) hcount hupper
    · rcases List.eq_nil_or_concat hits with rfl | ⟨init, last, rfl⟩
      · -- The first probe missed, at the start index itself.
        have hfirst : startIndex = miss.1 := by
          rw [List.range_succ_eq_map, List.map_cons, List.nil_append] at hprobes
          exact congrArg Prod.fst (List.cons.inj hprobes).1
        change count = startIndex
        omega
      · have hlast : last ∈ init.concat last := by simp
        have hlow := (hexists last (List.mem_append_left _ hlast)).mp (hhits last hlast)
        have hge := (hmem last (List.mem_append_left _ hlast)).1
        have hlt := (hmem miss (by simp)).2.1
        simpa using ⟨hge, hlow, hupper, hlt⟩

/-! ### The bisection -/

/-- The bisection ends at an index that exists before one that does not. -/
theorem bisectBoundary_between {fuel lower upper : ℕ} (cache : ProbeCache) (hlt : lower < upper)
    (hlower : noteValue sn backend channelKey token lower ≠ 0)
    (hupper : noteValue sn backend channelKey token upper = 0) (hfuel : upper - lower ≤ fuel) :
    let boundary := (bisectBoundary sn backend channelKey token fuel lower upper cache).1
    lower ≤ boundary ∧ boundary < upper ∧ noteValue sn backend channelKey token boundary ≠ 0 ∧
      noteValue sn backend channelKey token (boundary + 1) = 0 := by
  induction fuel generalizing lower upper cache with
  | zero => omega
  | succ fuel ih =>
    rw [bisectBoundary]
    split_ifs with hwide
    · dsimp only
      split_ifs with hhit
      · exact (ih _ (by omega) hhit hupper (by omega)).imp_left
          (Nat.le_add_right _ _).trans
      · obtain ⟨hge, hbelow, hrest⟩ := ih cache (by omega) hlower (not_not.mp hhit) (by omega)
        exact ⟨hge, hbelow.trans (by omega), hrest⟩
    · obtain rfl : upper = lower + 1 := by omega
      exact ⟨le_rfl, hlt, hlower, hupper⟩

/-- The bisection ends at the last index that exists. -/
theorem bisectBoundary_finds
    (hexists : ∀ index < 2 ^ 64, noteValue sn backend channelKey token index ≠ 0 ↔ index < count)
    {fuel lower upper : ℕ} (cache : ProbeCache) (hlower : lower < count) (hupper : count ≤ upper)
    (hlt : upper < 2 ^ 64) (hfuel : upper - lower ≤ fuel) :
    (bisectBoundary sn backend channelKey token fuel lower upper cache).1 + 1 = count := by
  obtain ⟨-, hboundary, hlast, hnext⟩ := bisectBoundary_between cache (by omega)
    ((hexists lower (by omega)).mpr hlower)
    (not_not.mp (mt (hexists upper hlt).mp (not_lt.mpr hupper))) hfuel
  have hbelow := (hexists _ (by omega)).mp hlast
  have habove := mt (hexists _ (by omega)).mpr (not_not.mpr hnext)
  omega

/-- The bisection of a gap of `2 ^ k` takes at most `k` steps. -/
theorem bisectBoundary_steps_le (fuel : ℕ) {k lower upper : ℕ} (cache : ProbeCache)
    (hwidth : upper ≤ lower + 2 ^ k) :
    (bisectBoundary sn backend channelKey token fuel lower upper cache).2.1 ≤ k := by
  induction fuel generalizing k lower upper cache with
  | zero => exact Nat.zero_le k
  | succ fuel ih =>
    rw [bisectBoundary]
    split_ifs with hwide
    · obtain ⟨j, rfl⟩ : ∃ j, k = j + 1 := by
        cases k with
        | zero => omega
        | succ j => exact ⟨j, rfl⟩
      rw [pow_succ] at hwidth
      dsimp only
      split_ifs
      · exact Nat.succ_le_succ (ih _ (by omega))
      · exact Nat.succ_le_succ (ih _ (by omega))
    · exact Nat.zero_le k

/-- The bisection adds what it reads to the cache. -/
theorem bisectBoundary_cacheSound (fuel : ℕ) {lower upper : ℕ} {cache : ProbeCache}
    (hcache : CacheSound sn backend channelKey token cache) :
    CacheSound sn backend channelKey token
      (bisectBoundary sn backend channelKey token fuel lower upper cache).2.2 := by
  induction fuel generalizing lower upper cache with
  | zero => exact hcache
  | succ fuel ih =>
    rw [bisectBoundary]
    split_ifs with hwide
    · dsimp only
      split_ifs with hhit
      · exact ih (List.forall_mem_cons.mpr ⟨⟨rfl, rfl⟩, hcache⟩)
      · exact ih hcache
    · exact hcache

/-! ### The boundary search -/

/-- What a boundary search makes of a cursor: nothing when the budget is short or the
total is cached, and otherwise it caches the count. An empty rest counts as no note. -/
inductive BoundaryFound (count maxNoteLogIndex : ℕ) (cursor : SubchannelCursor) :
    SubchannelCursor → Bool → Prop
  | short (h : cursor.totalNNotes = none) : BoundaryFound count maxNoteLogIndex cursor cursor true
  | cached (h : cursor.totalNNotes.isSome) :
    BoundaryFound count maxNoteLogIndex cursor cursor false
  | found (h : cursor.totalNNotes = none)
      (hrange : count < cursor.startIndex + 2 ^ maxNoteLogIndex) :
    BoundaryFound count maxNoteLogIndex cursor
      { cursor with totalNNotes := some (if count = cursor.startIndex then 0 else count) } false

/-- The boundary search finds the count, unless the probe is too short. -/
theorem findLastNoteIndex_within (hheld : NotesHeld sn backend channelKey token count)
    {cursor : SubchannelCursor} (hstart : cursor.totalNNotes = none → cursor.startIndex ≤ count) :
    (findLastNoteIndex sn backend channelKey token cursor maxNoteLogIndex).Within full
      (fun e => e = boundaryExceeded maxNoteLogIndex cursor.startIndex ∧
        cursor.totalNNotes = none ∧ cursor.startIndex + 2 ^ maxNoteLogIndex ≤ count)
      (fun result => CacheSound sn backend channelKey token result.2.1 ∧
        BoundaryFound count maxNoteLogIndex cursor result.1 result.2.2 ∧
        (full → result.2.2 = false)) := by
  unfold findLastNoteIndex
  split_ifs with hcached
  · exact within_pure ⟨cacheSound_nil, .cached hcached, fun _ => rfl⟩
  · have hnone : cursor.totalNNotes = none := by simpa using hcached
    refine within_bind (within_consume fun ok hok => ?_)
    cases ok with
    -- Without the budget for the worst case the cursor comes back as it was.
    | false => exact within_pure ⟨cacheSound_nil, .short hnone, fun hfull => nomatch hok hfull⟩
    | true =>
      refine within_bind (within_read (within_bind (within_ofExcept ?_)))
      refine (exponentialProbe_outcome hheld (hstart hnone)).mono
        (fun e he => ⟨he.1, hnone, he.2⟩) ?_
      rintro ⟨bounds, cache⟩ ⟨hcache, hrange, hbounds⟩
      cases bounds with
      -- The first probe misses: there is no note from the start index on.
      | none =>
        refine within_bind (within_reclaim ?_)
        have hfound := BoundaryFound.found hnone hrange
        rw [if_pos hbounds] at hfound
        exact within_pure ⟨hcache, hfound, fun _ => rfl⟩
      | some bounds =>
        -- The bounds enclose the count, and the bisection closes them.
        obtain ⟨hge, hlower, hupper, hlt⟩ := hbounds
        have hboundary :=
          bisectBoundary_finds hheld.value_ne_zero_iff cache hlower hupper hlt le_rfl
        have hcache' : CacheSound sn backend channelKey token
            (bisectBoundary sn backend channelKey token (bounds.2 - bounds.1) bounds.1 bounds.2
              cache).2.2 := bisectBoundary_cacheSound _ hcache
        refine within_bind (within_read (within_bind (within_reclaim ?_)))
        have hfound := BoundaryFound.found hnone hrange
        rw [if_neg (by omega)] at hfound
        refine within_pure ⟨hcache', ?_, fun _ => rfl⟩
        dsimp only at hboundary ⊢
        rw [hboundary]
        exact hfound

/-! ### The linear scan -/

/-- The note at an index, as the storage holds it. -/
def noteAt (sn : Starknet) (backend : Backend) (channelKey token : Felt) (index : ℕ) :
    DecryptedNote :=
  let noteId := computeNoteId sn channelKey token index
  let result := backend.getNoteWithBlock sn noteId
  decryptNote sn channelKey token index noteId result.value result.lastUpdateBlock

/-- The nullifier of a note is written. -/
def isSpent (sn : Starknet) (backend : Backend) (privateKey channelKey token : Felt) (index : ℕ) :
    Bool :=
  backend.nullifierExists sn (computeNullifier sn channelKey token index privateKey)

/-- The unspent notes of a range of indices. -/
def unspentNotes (sn : Starknet) (backend : Backend) (privateKey channelKey token : Felt)
    (first number : ℕ) : List DecryptedNote :=
  ((List.range' first number).filter
    fun index => !isSpent sn backend privateKey channelKey token index).map
      (noteAt sn backend channelKey token)

theorem unspentNotes_add (first m n : ℕ) :
    unspentNotes sn backend privateKey channelKey token first (m + n) =
      unspentNotes sn backend privateKey channelKey token first m ++
        unspentNotes sn backend privateKey channelKey token (first + m) n := by
  unfold unspentNotes
  rw [← List.range'_append_1, List.filter_append, List.map_append]

/-- What a batch makes of the unspent notes of its range, whatever of them is cached. -/
theorem filterMap_resolve {cache : ProbeCache}
    (hcache : CacheSound sn backend channelKey token cache) (indices : List ℕ) :
    (indices.filterMap fun index =>
      if backend.nullifierExists sn (computeNullifier sn channelKey token index privateKey) then none
      else
        let (noteId, result) := (cache.lookup index).getD
          (computeNoteId sn channelKey token index,
            backend.getNoteWithBlock sn (computeNoteId sn channelKey token index))
        some (decryptNote sn channelKey token index noteId result.value result.lastUpdateBlock)) =
      (indices.filter fun index => !isSpent sn backend privateKey channelKey token index).map
        (noteAt sn backend channelKey token) := by
  induction indices with
  | nil => rfl
  | cons index indices ih =>
    rw [List.filterMap_cons, List.filter_cons, ih]
    cases hspent : isSpent sn backend privateKey channelKey token index with
    | true =>
      rw [isSpent] at hspent
      simp [hspent]
    | false =>
      rw [isSpent] at hspent
      simp only [hspent, Bool.false_eq_true, if_false, Bool.not_false, if_true, List.map_cons]
      rw [hcache.lookup]
      rfl

/-- A batch is the unspent notes of its range. -/
theorem processNoteBatch_within {E : DiscoveryError → Prop} {cache : ProbeCache}
    (hcache : CacheSound sn backend channelKey token cache) (batchSize : ℕ) :
    (processNoteBatch sn backend channelKey token startIndex batchSize privateKey cache).Within full
      E fun result =>
        result.1 = unspentNotes sn backend privateKey channelKey token startIndex batchSize := by
  refine within_bind (within_read (within_bind (within_read (within_pure ?_))))
  unfold unspentNotes
  rw [List.range'_eq_map_range]
  exact filterMap_resolve hcache _

/-- What a page makes of the cursor of an open subchannel: nothing when the boundary
search is not paid for, and otherwise it advances over some of the rest. -/
inductive NotesPage (count maxNoteLogIndex : ℕ) (cursor : SubchannelCursor) :
    SubchannelCursor → ℕ → Prop
  | short (h : cursor.totalNNotes = none) : NotesPage count maxNoteLogIndex cursor cursor 0
  | scanned {total number : ℕ}
      (htotal : cursor.totalNNotes = some total ∨
        cursor.totalNNotes = none ∧ count < cursor.startIndex + 2 ^ maxNoteLogIndex ∧
          total = if count = cursor.startIndex then 0 else count)
      (hnumber : number ≤ total - cursor.startIndex) :
    NotesPage count maxNoteLogIndex cursor
      { noteDiscoveryComplete := decide (number = total - cursor.startIndex)
        lastNoteIndex :=
          if number = 0 then cursor.lastNoteIndex else some (cursor.startIndex + number - 1)
        totalNNotes := some total } number

/-- After a search that was done, the total is that of the page. -/
theorem BoundaryFound.total {cursor cursor' : SubchannelCursor}
    (h : BoundaryFound count maxNoteLogIndex cursor cursor' false) :
    ∃ total, cursor' = { cursor with totalNNotes := some total } ∧
      (cursor.totalNNotes = some total ∨
        cursor.totalNNotes = none ∧ count < cursor.startIndex + 2 ^ maxNoteLogIndex ∧
          total = if count = cursor.startIndex then 0 else count) := by
  cases h with
  | cached h =>
    obtain ⟨total, htotal⟩ := Option.isSome_iff_exists.mp h
    refine ⟨total, ?_, .inl htotal⟩
    rw [← htotal]
  | found h hrange => exact ⟨_, rfl, .inr ⟨h, hrange, rfl⟩⟩

/-- The linear scan returns the unspent notes of a prefix of the range. -/
theorem discoverNotes_within {E : DiscoveryError → Prop} {cache : ProbeCache} {endIndex : ℕ}
    (hcache : CacheSound sn backend channelKey token cache) :
    (discoverNotes sn backend channelKey token startIndex endIndex privateKey cache).Within full E
      (fun result => ∃ number ≤ endIndex + 1 - startIndex,
        (full → number = endIndex + 1 - startIndex) ∧
        result = ⟨unspentNotes sn backend privateKey channelKey token startIndex number,
          if number = 0 then none else some (startIndex + number - 1),
          decide (number < endIndex + 1 - startIndex)⟩) := by
  unfold discoverNotes
  refine within_bind (within_consumeUpTo fun number hnumber hall => ?_)
  have hall' := fun hfull => hall hfull (by decide)
  dsimp only
  split_ifs with hzero
  · refine within_pure ⟨number, hnumber, hall', ?_⟩
    rw [if_pos hzero, hzero]
    rfl
  · refine within_bind ((processNoteBatch_within hcache number).mono fun batch hbatch => ?_)
    refine within_bind (within_reclaim (within_pure ⟨number, hnumber, hall', ?_⟩))
    rw [if_neg hzero, hbatch]

/-- A page returns the unspent notes that it advances over. -/
theorem discoverNotesPaginated_within (hheld : NotesHeld sn backend channelKey token count)
    {cursor : SubchannelCursor} (hopen : cursor.noteDiscoveryComplete = false)
    (hstart : cursor.totalNNotes = none → cursor.startIndex ≤ count) :
    (discoverNotesPaginated sn backend channelKey token cursor privateKey maxNoteLogIndex).Within full
      (fun e => e = boundaryExceeded maxNoteLogIndex cursor.startIndex ∧
        cursor.totalNNotes = none ∧ cursor.startIndex + 2 ^ maxNoteLogIndex ≤ count)
      (fun result => ∃ number, NotesPage count maxNoteLogIndex cursor result.1 number ∧
        result.2 = unspentNotes sn backend privateKey channelKey token cursor.startIndex number ∧
        (full → result.1.noteDiscoveryComplete = true)) := by
  unfold discoverNotesPaginated
  refine within_bind ((findLastNoteIndex_within hheld hstart).mono ?_)
  rintro ⟨cursor', cache, hasMore⟩ ⟨hcache, hfound, hgranted⟩
  cases hasMore with
  | true =>
    cases hfound with
    | short h => exact within_pure ⟨0, .short h, rfl, fun hfull => nomatch hgranted hfull⟩
  | false =>
    obtain ⟨total, rfl, htotal⟩ := hfound.total
    cases total with
    -- An empty subchannel is complete at once.
    | zero =>
      refine within_pure ⟨0, ?_, rfl, fun _ => rfl⟩
      have hpage := NotesPage.scanned htotal (Nat.zero_le _)
      simpa using hpage
    | succ last =>
      simp only [Bool.false_eq_true, if_false, SubchannelCursor.lastExistingIndex_succ]
      refine within_bind ((discoverNotes_within hcache).mono ?_)
      rintro _ ⟨number, hnumber, hall, rfl⟩
      refine within_pure ⟨number, ?_, rfl, fun hfull => ?_⟩
      · have hpage := NotesPage.scanned htotal hnumber
        -- The scan is over when it has advanced over all of the rest.
        have hover : decide (number = last + 1 - cursor.startIndex) =
            !decide (number < last + 1 - cursor.startIndex) := by
          rw [← decide_not]
          exact decide_eq_decide.mpr (by omega)
        rw [hover] at hpage
        convert hpage using 1
        cases hlt : decide (number < last + 1 - cursor.startIndex) <;>
          by_cases hzero : number = 0 <;> simp [hopen, hzero]
      · rw [hall hfull]
        simp

end PrivacyPool.Discovery
