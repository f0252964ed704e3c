import PrivacyPool.Discovery.Incoming
import PrivacyPool.Discovery.Outgoing

/-!
# How a cursor moves

Whatever the pool holds, a call moves a cursor forward: last indices do not decrease and scans
that are over stay over. At each level it adds no more entries than there are slots, and a total
that it finds lies above the start index of its search. Only behind the greatest index a scan
starts anew, and what it finds then takes the last index back.

## Main definitions

* `SubchannelCursor.Advances`, `ChannelCursor.Advances`, `DiscoveryCursor.Advances` — a cursor
  after a call
* `SubchannelCursor.Moves` — with the total that a search may have found
* `ChannelCursor.Restarts`, `DiscoveryCursor.Restarts` — a scan that starts anew

## Main results

* `syncIncomingState_moves`, `syncOutgoingState_moves` — a call moves a cursor forward
-/

namespace PrivacyPool.Discovery

open Budget Budget.Task HashMap

variable {full : Prop} {sn : Starknet} {backend : Backend} {channelKey token privateKey : Felt}
  {count maxNoteLogIndex : ℕ}

/-! ### Forward -/

/-- The last index does not decrease, and a scan that is over stays over. -/
structure SubchannelCursor.Advances (cursor cursor' : SubchannelCursor) : Prop where
  complete : cursor.noteDiscoveryComplete = true → cursor'.noteDiscoveryComplete = true
  start_le : cursor.startIndex ≤ cursor'.startIndex

/-- A channel cursor after a call: no less is scanned, and no subchannel is lost. -/
structure ChannelCursor.Advances (cursor cursor' : ChannelCursor) : Prop where
  channelKey_eq : cursor'.channelKey = cursor.channelKey
  complete : cursor.subchannelDiscoveryComplete = true → cursor'.subchannelDiscoveryComplete = true
  start_le : nextIndex cursor.lastSubchannelIndex ≤ nextIndex cursor'.lastSubchannelIndex
  nodup : (keys cursor'.subchannels).Nodup
  subchannels : ∀ sub ∈ cursor.subchannels,
    ∃ sub' ∈ cursor'.subchannels, sub'.1 = sub.1 ∧ sub.2.Advances sub'.2

/-- A cursor after a call: no less is scanned, and no channel is lost. -/
structure DiscoveryCursor.Advances (cursor cursor' : DiscoveryCursor) : Prop where
  complete : cursor.channelDiscoveryComplete = true → cursor'.channelDiscoveryComplete = true
  start_le : nextIndex cursor.lastChannelIndex ≤ nextIndex cursor'.lastChannelIndex
  nodup : (keys cursor'.channels).Nodup
  channels : ∀ entry ∈ cursor.channels,
    ∃ entry' ∈ cursor'.channels, entry'.1 = entry.1 ∧ entry.2.Advances entry'.2

theorem SubchannelCursor.Advances.refl (cursor : SubchannelCursor) : cursor.Advances cursor :=
  ⟨id, le_rfl⟩

/-- The maps of a cursor have distinct keys. -/
structure DiscoveryCursor.Keyed (cursor : DiscoveryCursor) : Prop where
  nodup : (keys cursor.channels).Nodup
  entries : ∀ entry ∈ cursor.channels, (keys entry.2.subchannels).Nodup

/-! ### The note boundary -/

/-- A total that a search from an index finds: nothing, or the end of the notes. -/
def TotalFound (sn : Starknet) (backend : Backend) (channelKey token : Felt)
    (startIndex maxNoteLogIndex total : ℕ) : Prop :=
  total = 0 ∨ startIndex < total ∧ total ≤ startIndex + 2 ^ 63 ∧
    total < startIndex + 2 ^ maxNoteLogIndex ∧
    (startIndex < 2 ^ 64 → ∀ count, NotesHeld sn backend channelKey token count → total = count)

theorem totalFound_of_bisect {startIndex k fuel : ℕ} (cache : ProbeCache)
    (hk : k < maxNoteLogIndex)
    (hstart : noteValue sn backend channelKey token startIndex ≠ 0)
    (hlower : noteValue sn backend channelKey token (startIndex + probeOffset k) ≠ 0)
    (hupper : noteValue sn backend channelKey token (startIndex + probeOffset (k + 1)) = 0)
    (hfuel : startIndex + probeOffset (k + 1) - (startIndex + probeOffset k) ≤ fuel) :
    TotalFound sn backend channelKey token startIndex maxNoteLogIndex
      ((bisectBoundary sn backend channelKey token fuel (startIndex + probeOffset k)
        (startIndex + probeOffset (k + 1)) cache).1 + 1) := by
  refine .inr ?_
  have hpow : 2 ^ (k + 1) ≤ 2 ^ maxNoteLogIndex := Nat.pow_le_pow_right (by decide) hk
  -- The probes stay within the bound, also where the shift leaves the width of an index.
  have hoffset : ∀ j, probeOffset j + 1 ≤ 2 ^ j := by
    intro j
    unfold probeOffset
    split_ifs with hzero
    · rw [hzero]
      exact le_rfl
    · have hmod : 2 ^ (j % 64) ≤ 2 ^ j := Nat.pow_le_pow_right (by decide) (Nat.mod_le j 64)
      have := Nat.two_pow_pos (j % 64)
      omega
  have hk' := hoffset k
  have hnext' := hoffset (k + 1)
  have hlt := probeOffset_lt k
  have hnextLt := probeOffset_lt (k + 1)
  rw [pow_succ] at hpow hnext'
  by_cases hwide : startIndex + probeOffset k < startIndex + probeOffset (k + 1)
  · obtain ⟨hge, hbelow, hlast, hnext⟩ := bisectBoundary_between cache hwide hlower hupper hfuel
    generalize (bisectBoundary sn backend channelKey token fuel (startIndex + probeOffset k)
      (startIndex + probeOffset (k + 1)) cache).1 = boundary at *
    refine ⟨by omega, by omega, by omega, fun hstart64 count hheld => ?_⟩
    have hcount := hheld.count_le
    have hexists := hheld.value_ne_zero_iff
    have hstart' := (hexists _ hstart64).mp hstart
    have hlow' := (hexists (startIndex + probeOffset k) (by omega)).mp hlower
    have hlast' := (hexists boundary (by omega)).mp hlast
    have hnext' := mt (hexists (boundary + 1) (by omega)).mpr (not_not.mpr hnext)
    omega
  · -- Only a shift beyond the width of the index puts the upper probe below the lower one.
    have hstay : bisectBoundary sn backend channelKey token fuel (startIndex + probeOffset k)
        (startIndex + probeOffset (k + 1)) cache = (startIndex + probeOffset k, 0, cache) := by
      cases fuel with
      | zero => rfl
      | succ fuel => rw [bisectBoundary, if_neg (by omega)]
    rw [hstay]
    refine ⟨by dsimp only; omega, by dsimp only; omega, by dsimp only; omega,
      fun hstart64 count hheld => ?_⟩
    have hcount := hheld.count_le
    have hexists := hheld.value_ne_zero_iff
    have hstart' := (hexists _ hstart64).mp hstart
    have hlow' := (hexists (startIndex + probeOffset k) (by omega)).mp hlower
    have hup' := mt (hexists (startIndex + probeOffset (k + 1)) (by omega)).mpr
      (not_not.mpr hupper)
    dsimp only
    omega

/-- A search leaves the cursor as it is, or sets the total that it finds. -/
theorem findLastNoteIndex_total (cursor : SubchannelCursor) :
    (findLastNoteIndex sn backend channelKey token cursor maxNoteLogIndex).Within full
      (fun _ => True) fun result => result.1 = cursor ∨
        cursor.totalNNotes = none ∧ ∃ total,
          TotalFound sn backend channelKey token cursor.startIndex maxNoteLogIndex total ∧
            result.1 = { cursor with totalNNotes := some total } := by
  unfold findLastNoteIndex
  split_ifs with hcached
  · exact within_pure (.inl rfl)
  · have hnone : cursor.totalNNotes = none := by simpa using hcached
    refine within_bind (within_consume fun ok _ => ?_)
    cases ok with
    | false => exact within_pure (.inl rfl)
    | true =>
      refine within_bind (within_read ?_)
      refine within_bind (within_ofExcept (exponentialProbe_neighbours.mono (fun _ _ => trivial) ?_))
      rintro ⟨bounds, cache⟩ hbounds
      cases bounds with
      | none =>
        refine within_bind (within_reclaim (within_pure ?_))
        exact .inr ⟨hnone, 0, .inl rfl, rfl⟩
      | some bounds =>
        obtain ⟨lower, upper⟩ := bounds
        obtain ⟨k, hk, rfl, rfl, hstart, hlower, hupper⟩ := hbounds
        refine within_bind (within_read (within_bind (within_reclaim (within_pure ?_))))
        exact .inr ⟨hnone, _, totalFound_of_bisect cache hk hstart hlower hupper le_rfl, rfl⟩

/-! ### Subchannels -/

/-- A cursor after a call: it has moved forward, at most to its total, and the total is as it
was, or was found. -/
structure SubchannelCursor.Moves (sn : Starknet) (backend : Backend) (channelKey token : Felt)
    (maxNoteLogIndex : ℕ) (cursor cursor' : SubchannelCursor) : Prop where
  advances : cursor.Advances cursor'
  start_le : cursor'.startIndex ≤ max cursor.startIndex (cursor'.totalNNotes.getD 0)
  total : cursor'.totalNNotes = cursor.totalNNotes ∨
    (cursor.noteDiscoveryComplete = false ∧ cursor.totalNNotes = none) ∧ ∃ total,
      TotalFound sn backend channelKey token cursor.startIndex maxNoteLogIndex total ∧
        cursor'.totalNNotes = some total

theorem SubchannelCursor.Moves.refl (cursor : SubchannelCursor) :
    cursor.Moves sn backend channelKey token maxNoteLogIndex cursor :=
  ⟨.refl cursor, le_max_left _ _, .inl rfl⟩

/-- A search, and after it a scan up to the total. -/
theorem SubchannelCursor.Moves.of_search {cursor probed cursor' : SubchannelCursor}
    (hopen : cursor.noteDiscoveryComplete = false)
    (hprobed : probed = cursor ∨ cursor.totalNNotes = none ∧ ∃ total,
      TotalFound sn backend channelKey token cursor.startIndex maxNoteLogIndex total ∧
        probed = { cursor with totalNNotes := some total })
    (htotal : cursor'.totalNNotes = probed.totalNNotes)
    (hstart : cursor.startIndex ≤ cursor'.startIndex)
    (hend : cursor'.startIndex ≤ max cursor.startIndex (probed.totalNNotes.getD 0)) :
    cursor.Moves sn backend channelKey token maxNoteLogIndex cursor' := by
  refine ⟨⟨fun hcomplete => ?_, hstart⟩, htotal ▸ hend, ?_⟩
  · rw [hopen] at hcomplete
    cases hcomplete
  · rw [htotal]
    rcases hprobed with rfl | ⟨hnone, total, hfound, rfl⟩
    · exact .inl rfl
    · exact .inr ⟨⟨hopen, hnone⟩, total, hfound, rfl⟩

/-- The scan reports the last index of a part of its range. -/
theorem discoverNotes_lastIndex {startIndex endIndex : ℕ} {cache : ProbeCache} :
    (discoverNotes sn backend channelKey token startIndex endIndex privateKey cache).Within full
      (fun _ => True) fun result => ∃ number ≤ endIndex + 1 - startIndex,
        result.lastIndex = if number = 0 then none else some (startIndex + number - 1) := by
  unfold discoverNotes
  refine within_bind (within_consumeUpTo fun number hnumber _ => ?_)
  dsimp only
  split_ifs with hzero
  · exact within_pure ⟨number, hnumber, (if_pos hzero).symm⟩
  · refine within_bind (within_true.mono fun batch _ => within_bind (within_reclaim ?_))
    exact within_pure ⟨number, hnumber, (if_neg hzero).symm⟩

theorem discoverNotesPaginated_moves {cursor : SubchannelCursor}
    (hopen : cursor.noteDiscoveryComplete = false) :
    (discoverNotesPaginated sn backend channelKey token cursor privateKey maxNoteLogIndex).Within
      full (fun _ => True) fun result =>
        cursor.Moves sn backend channelKey token maxNoteLogIndex result.1 := by
  unfold discoverNotesPaginated
  refine within_bind ((findLastNoteIndex_total cursor).mono ?_)
  rintro ⟨probed, cache, hasMore⟩ hprobed
  -- The search for the boundary sets the total only.
  have hlast : probed.startIndex = cursor.startIndex := by
    rcases hprobed with rfl | ⟨-, total, -, rfl⟩
    · rfl
    · rfl
  dsimp only
  split_ifs
  · exact within_pure (.of_search hopen hprobed rfl hlast.ge (hlast.le.trans (le_max_left _ _)))
  · cases hend : probed.lastExistingIndex with
    | none =>
      refine within_pure (.of_search hopen hprobed rfl hlast.ge ?_)
      exact hlast.le.trans (le_max_left _ _)
    | some endIndex =>
      have htotal : probed.totalNNotes.getD 0 = endIndex + 1 := by
        unfold SubchannelCursor.lastExistingIndex at hend
        cases htotal : probed.totalNNotes with
        | none =>
          rw [htotal] at hend
          cases hend
        | some total =>
          rw [htotal, Option.bind_some] at hend
          split_ifs at hend with hpos
          · have := Option.some.inj hend
            rw [Option.getD_some]
            omega
      refine within_bind (discoverNotes_lastIndex.mono fun result hresult => ?_)
      obtain ⟨number, hnumber, hindex⟩ := hresult
      -- The last index goes up by the notes that were scanned, at most to the total.
      have hmoved : nextIndex (result.lastIndex.or probed.lastNoteIndex) =
          cursor.startIndex + number := by
        rw [hindex, ← hlast]
        unfold SubchannelCursor.startIndex
        rw [or_eq_lastIndexAfter, nextIndex_lastIndexAfter]
      have hstart : cursor.startIndex ≤ nextIndex (result.lastIndex.or probed.lastNoteIndex) := by
        omega
      have hbound : nextIndex (result.lastIndex.or probed.lastNoteIndex) ≤
          max cursor.startIndex (probed.totalNNotes.getD 0) := by
        omega
      refine within_pure ?_
      dsimp only
      split_ifs
      · exact .of_search hopen hprobed rfl hstart hbound
      · exact .of_search hopen hprobed rfl hstart hbound

theorem processSubchannel_moves {entry : Felt × SubchannelCursor}
    (hopen : entry.2.noteDiscoveryComplete = false) :
    (processSubchannel sn backend channelKey entry.1 entry.2 privateKey maxNoteLogIndex).Within full
      (fun _ => True) fun result => result.token = entry.1 ∧
        entry.2.Moves sn backend channelKey entry.1 maxNoteLogIndex result.cursor := by
  unfold processSubchannel
  rw [hopen]
  refine within_bind ((discoverNotesPaginated_moves hopen).mono fun result hmoves => ?_)
  exact within_pure ⟨rfl, hmoves⟩

theorem processOutgoingSubchannel_moves {entry : Felt × SubchannelCursor}
    (hopen : entry.2.noteDiscoveryComplete = false) :
    (processOutgoingSubchannel sn backend channelKey entry.1 entry.2 maxNoteLogIndex).Within full
      (fun _ => True) fun result => result.token = entry.1 ∧
        entry.2.Moves sn backend channelKey entry.1 maxNoteLogIndex result.cursor := by
  unfold processOutgoingSubchannel
  rw [hopen]
  refine within_bind ((findLastNoteIndex_total entry.2).mono ?_)
  rintro ⟨probed, cache, hasMore⟩ hprobed
  have hlast : probed.startIndex = entry.2.startIndex := by
    rcases hprobed with rfl | ⟨-, total, -, rfl⟩
    · rfl
    · rfl
  exact within_pure ⟨rfl, .of_search hopen hprobed rfl hlast.ge (hlast.le.trans (le_max_left _ _))⟩

/-! ### Maps of entries -/

/-- A map after a call: each entry is still there and has moved, and each entry there is one that
has moved, or one that was new. -/
structure MapMoves {β : Type} (New : β → Prop) (R : Felt → β → β → Prop) (m m' : List (Felt × β)) :
    Prop where
  nodup : (keys m').Nodup
  old : ∀ entry ∈ m, ∃ entry' ∈ m', entry'.1 = entry.1 ∧ R entry.1 entry.2 entry'.2
  all : ∀ entry' ∈ m', ∃ value, ((entry'.1, value) ∈ m ∨ New value) ∧ R entry'.1 value entry'.2

section Maps

variable {β γ ρ : Type} {N : β → Prop} {R : Felt → β → β → Prop} {m : List (Felt × β)}

/-- New entries are added to a map. -/
theorem mapMoves_orInsert (hrefl : ∀ key value, R key value value) (hnodup : (keys m).Nodup)
    (items : List γ) (key : γ → Felt) (value : γ → β) (hnew : ∀ item, N (value item)) :
    MapMoves N R m (items.foldl (fun m item => orInsert m (key item) (value item)) m) ∧
      (items.foldl (fun m item => orInsert m (key item) (value item)) m).length ≤
        m.length + items.length := by
  obtain ⟨new, hsub, heq, -, hnodup', hfresh⟩ := foldl_orInsert_sublist m items key value
  rw [heq]
  refine ⟨⟨nodup_keys_append new key value hnodup hnodup' hfresh, fun entry hentry => ?_,
    fun entry' hentry' => ?_⟩, ?_⟩
  · exact ⟨entry, List.mem_append_left _ hentry, rfl, hrefl _ _⟩
  · rcases List.mem_append.mp hentry' with hold | hadded
    · exact ⟨entry'.2, .inl hold, hrefl _ _⟩
    · obtain ⟨item, -, rfl⟩ := List.mem_map.mp hadded
      exact ⟨value item, .inr (hnew item), hrefl _ _⟩
  · rw [List.length_append, List.length_map]
    exact Nat.add_le_add_left hsub.length_le _

/-- The incomplete entries of a map are processed. -/
theorem MapMoves.processed {m' : List (Felt × β)} (h : MapMoves N (fun _ value value' =>
      value' = value) m m') (hrefl : ∀ entry ∈ m', R entry.1 entry.2 entry.2) {complete : β → Bool}
    {results : List ρ} {key : ρ → Felt} {value : ρ → β}
    (hresults : List.Forall₂ (fun entry result => key result = entry.1 ∧
      R entry.1 entry.2 (value result)) (pending complete m') results) :
    MapMoves N R m (results.foldl (fun m result => insert m (key result) (value result))
        (kept complete m')) ∧
      (results.foldl (fun m result => insert m (key result) (value result))
        (kept complete m')).length = m'.length := by
  have hkeys := map_eq_keys hresults fun _ _ h => h.1
  rw [foldl_insert_extractIf h.nodup value hkeys]
  refine ⟨⟨(keys_extractIf_perm value hkeys).nodup_iff.mpr h.nodup, fun entry hentry => ?_,
    fun entry' hentry' => ?_⟩, ?_⟩
  · obtain ⟨entry', hentry', hkey, hvalue⟩ := h.old entry hentry
    -- A complete entry stays, an incomplete one is replaced by its result.
    by_cases hcomplete : complete entry'.2 = true
    · refine ⟨entry', List.mem_append_left _ (mem_kept.mpr ⟨hentry', hcomplete⟩), hkey, ?_⟩
      rw [← hkey, ← hvalue]
      exact hrefl entry' hentry'
    · have hpending := mem_pending.mpr ⟨hentry', Bool.eq_false_iff.mpr hcomplete⟩
      obtain ⟨result, hresult, hkey', hR⟩ := exists_right_of_forall₂ hresults hpending
      refine ⟨_, List.mem_append_right _ (List.mem_map_of_mem hresult), hkey'.trans hkey, ?_⟩
      rwa [hkey, hvalue] at hR
  · rcases List.mem_append.mp hentry' with hkept | hadded
    · obtain ⟨hmem, -⟩ := mem_kept.mp hkept
      obtain ⟨value', hvalue, heq⟩ := h.all entry' hmem
      exact ⟨value', hvalue, heq ▸ hrefl entry' hmem⟩
    · obtain ⟨result, hresult, rfl⟩ := List.mem_map.mp hadded
      obtain ⟨entry, hpending, hkey, hR⟩ := exists_left_of_forall₂ hresults hresult
      obtain ⟨value', hvalue, heq⟩ := h.all entry (mem_pending.mp hpending).1
      rw [heq] at hR
      rw [← hkey] at hvalue hR
      exact ⟨value', hvalue, hR⟩
  · have hperm := (keys_extractIf_perm value hkeys).length_eq
    simpa [keys] using hperm

end Maps

/-! ### Channels -/

/-- The last index after a scan that starts behind the last one, or finds nothing. -/
theorem nextIndex_le_or {last found : Option ℕ} (h : ∀ index ∈ found, wrappingNext last ≤ index)
    (hwraps : 2 ^ 64 ≤ nextIndex last → found = none) :
    nextIndex last ≤ nextIndex (found.or last) := by
  cases found with
  | none => exact le_rfl
  | some index =>
    have hlt : nextIndex last < 2 ^ 64 := by
      refine Nat.lt_of_not_le fun hle => ?_
      cases hwraps hle
    have hle := h index rfl
    rw [wrappingNext_of_lt hlt] at hle
    exact hle.trans (Nat.le_succ index)

/-- The scan of the subchannels of a channel is still to come, and starts anew. -/
structure ChannelCursor.Restarts (maxSubchannels : ℕ) (cursor : ChannelCursor) : Prop where
  isOpen : cursor.subchannelDiscoveryComplete = false
  slots_pos : cursor.subchannels.length < maxSubchannels
  wraps : 2 ^ 64 ≤ nextIndex cursor.lastSubchannelIndex

/-- Where the scan of a channel starts anew, it finds nothing. -/
def ChannelCursor.KeepsLast (sn : Starknet) (backend : Backend) (maxSubchannels : ℕ)
    (cursor : ChannelCursor) : Prop :=
  cursor.Restarts maxSubchannels →
    (backend.getSubchannelInfo sn (computeSubchannelId sn cursor.channelKey 0)).salt = 0

theorem keepsLast_new (maxSubchannels : ℕ) (channelKey : Felt) :
    (newChannelCursor channelKey).KeepsLast sn backend maxSubchannels := by
  intro hrestarts
  exact absurd hrestarts.wraps (Nat.not_le.mpr (Nat.two_pow_pos 64))

theorem scanSubchannels_indices (slots index : ℕ) :
    (scanSubchannels sn backend channelKey slots index).Within full (fun _ => True) fun result =>
      result.1.length ≤ slots ∧ (∀ sub ∈ result.1, index ≤ sub.index) ∧
        ((backend.getSubchannelInfo sn (computeSubchannelId sn channelKey index)).salt = 0 →
          result.1 = []) := by
  induction slots generalizing index with
  | zero => exact within_pure ⟨le_rfl, nofun, fun _ => rfl⟩
  | succ slots ih =>
    refine within_bind (within_consume fun ok _ => ?_)
    cases ok with
    | false => exact within_pure ⟨Nat.zero_le _, nofun, fun _ => rfl⟩
    | true =>
      simp only [Bool.not_true, Bool.false_eq_true, if_false]
      refine within_bind (within_read ?_)
      split_ifs with hsalt
      · exact within_pure ⟨Nat.zero_le _, nofun, fun _ => rfl⟩
      · refine within_bind ((ih (index + 1)).mono fun result hresult => within_pure ⟨?_, ?_, ?_⟩)
        · exact Nat.succ_le_succ hresult.1
        · refine List.forall_mem_cons.mpr ⟨le_rfl, fun sub hsub => ?_⟩
          exact (Nat.le_succ index).trans (hresult.2.1 sub hsub)
        · exact fun hzero => absurd hzero hsalt

/-- A channel cursor after a call, with the changes of its entries. -/
structure ChannelCursor.Moves (R : Felt → SubchannelCursor → SubchannelCursor → Prop)
    (maxSubchannels : ℕ) (cursor cursor' : ChannelCursor) : Prop where
  channelKey_eq : cursor'.channelKey = cursor.channelKey
  complete : cursor.subchannelDiscoveryComplete = true → cursor'.subchannelDiscoveryComplete = true
  start_le : nextIndex cursor.lastSubchannelIndex ≤ nextIndex cursor'.lastSubchannelIndex
  length_le : cursor'.subchannels.length ≤ max cursor.subchannels.length maxSubchannels
  subchannels : MapMoves (· = {}) R cursor.subchannels cursor'.subchannels

theorem mapMoves_refl {β : Type} {New : β → Prop} {m : List (Felt × β)} (hnodup : (keys m).Nodup) :
    MapMoves New (fun _ value value' => value' = value) m m :=
  ⟨hnodup, fun entry hentry => ⟨entry, hentry, rfl, rfl⟩,
    fun entry hentry => ⟨entry.2, .inl hentry, rfl⟩⟩

theorem ChannelCursor.moves_refl {maxSubchannels : ℕ} {cursor : ChannelCursor}
    (hnodup : (keys cursor.subchannels).Nodup) :
    cursor.Moves (fun _ sc sc' => sc' = sc) maxSubchannels cursor :=
  ⟨rfl, id, le_rfl, le_max_left _ _, mapMoves_refl hnodup⟩

theorem discoverSubchannelsPaginated_moves {cursor : ChannelCursor}
    (hnodup : (keys cursor.subchannels).Nodup) {maxSubchannels : ℕ}
    (hkeeps : cursor.KeepsLast sn backend maxSubchannels) :
    (discoverSubchannelsPaginated sn backend cursor.channelKey cursor maxSubchannels).Within full
      (fun _ => True) fun result =>
        cursor.Moves (fun _ sc sc' => sc' = sc) maxSubchannels result.1 := by
  unfold discoverSubchannelsPaginated
  split_ifs with hcomplete
  · exact within_pure (cursor.moves_refl hnodup)
  dsimp only
  split_ifs with hslots
  · exact within_pure (cursor.moves_refl hnodup)
  · refine within_bind (within_bind ((scanSubchannels_indices _ _).mono ?_))
    rintro ⟨found, hasMore⟩ ⟨hlength, hindices, hnothing⟩
    obtain ⟨hmoves, hcount⟩ := mapMoves_orInsert (N := fun sc : SubchannelCursor => sc = {})
      (R := fun _ sc sc' => sc' = sc) (fun _ _ => rfl) hnodup found Subchannel.token
      (fun _ => {}) fun _ => rfl
    refine within_pure (within_pure ⟨rfl, fun hover => absurd hover hcomplete, ?_, ?_, hmoves⟩)
    · refine nextIndex_le_or (fun index hindex => ?_) fun hwraps => ?_
      · obtain ⟨sub, hsub, rfl⟩ := Option.mem_map.mp hindex
        exact hindices sub (List.mem_of_mem_getLast? hsub)
      · rw [wrappingNext_of_le hwraps] at hnothing
        have hsalt := hkeeps ⟨Bool.eq_false_iff.mpr hcomplete, by omega, hwraps⟩
        rw [show found = [] from hnothing hsalt]
        rfl
    · dsimp only at hlength hcount ⊢
      omega

section Processed

variable {cursor : ChannelCursor} {limits : CursorLimits} {turns : List ℕ}

/-- The change of a subchannel cursor in a call. -/
abbrev SubchannelMoves (sn : Starknet) (backend : Backend) (limits : CursorLimits)
    (channelKey token : Felt) (cursor cursor' : SubchannelCursor) : Prop :=
  cursor.Moves sn backend channelKey token limits.maxNoteLogIndex cursor'

theorem ChannelCursor.Moves.processed {scanned : ChannelCursor}
    (h : cursor.Moves (fun _ sc sc' => sc' = sc) limits.maxSubchannels scanned) {ρ : Type}
    {results : List ρ} {token : ρ → Felt} {value : ρ → SubchannelCursor}
    (hresults : List.Forall₂ (fun entry result => token result = entry.1 ∧
      SubchannelMoves sn backend limits cursor.channelKey entry.1 entry.2 (value result))
        (pending SubchannelCursor.noteDiscoveryComplete scanned.subchannels) results) :
    cursor.Moves (SubchannelMoves sn backend limits cursor.channelKey) limits.maxSubchannels
      { scanned with
        subchannels := results.foldl (fun m result => insert m (token result) (value result))
          (kept SubchannelCursor.noteDiscoveryComplete scanned.subchannels) } := by
  have hrefl : ∀ sub ∈ scanned.subchannels,
      SubchannelMoves sn backend limits cursor.channelKey sub.1 sub.2 sub.2 :=
    fun sub _ => .refl sub.2
  obtain ⟨hmoves, hlength⟩ := h.subchannels.processed hrefl hresults
  exact ⟨h.channelKey_eq, h.complete, h.start_le, hlength.le.trans h.length_le, hmoves⟩

theorem processChannel_moves {entry : Felt × ChannelCursor}
    (hnodup : (keys entry.2.subchannels).Nodup)
    (hkeeps : entry.2.KeepsLast sn backend limits.maxSubchannels) :
    (processChannel sn backend entry.1 entry.2 privateKey limits.maxSubchannels
      limits.maxNoteLogIndex turns).Within full (fun _ => True) fun result =>
        result.senderAddr = entry.1 ∧
          entry.2.Moves (SubchannelMoves sn backend limits entry.2.channelKey)
            limits.maxSubchannels result.cursor := by
  unfold processChannel
  refine within_bind ((discoverSubchannelsPaginated_moves hnodup hkeeps).mono ?_)
  rintro ⟨scanned, found⟩ hscanned
  unfold processSubchannels
  refine within_bind ((within_parallel fun sub hsub =>
    processSubchannel_moves (mem_pending.mp hsub).2).mono fun results hresults => ?_)
  exact within_pure ⟨rfl, hscanned.processed hresults⟩

theorem processOutgoingChannel_moves {entry : Felt × ChannelCursor}
    (hnodup : (keys entry.2.subchannels).Nodup)
    (hkeeps : entry.2.KeepsLast sn backend limits.maxSubchannels) :
    (processOutgoingChannel sn backend entry.1 entry.2 limits.maxSubchannels
      limits.maxNoteLogIndex turns).Within full (fun _ => True) fun result =>
        result.recipientAddr = entry.1 ∧
          entry.2.Moves (SubchannelMoves sn backend limits entry.2.channelKey)
            limits.maxSubchannels result.cursor := by
  unfold processOutgoingChannel
  refine within_bind ((discoverSubchannelsPaginated_moves hnodup hkeeps).mono ?_)
  rintro ⟨scanned, found⟩ hscanned
  unfold processOutgoingSubchannels
  refine within_bind ((within_parallel fun sub hsub =>
    processOutgoingSubchannel_moves (mem_pending.mp hsub).2).mono fun results hresults => ?_)
  exact within_pure ⟨rfl, hscanned.processed hresults⟩

end Processed

/-! ### Calls -/

/-- The scan of the channels is due, and starts anew. -/
structure DiscoveryCursor.Restarts (maxChannels : ℕ) (cursor : DiscoveryCursor) : Prop where
  processed : cursor.allChannelsProcessed = true
  isOpen : cursor.channelDiscoveryComplete = false
  slots_pos : cursor.channels.length < maxChannels
  wraps : 2 ^ 64 ≤ nextIndex cursor.lastChannelIndex

/-- An incoming call that starts from index zero finds a channel there. -/
def FirstIncoming (sn : Starknet) (newFromX : Felt → Option sn.EcPoint) (backend : Backend)
    (recipient : ContractAddress) (privateKey : Felt) (cursor : DiscoveryCursor) : Prop :=
  0 < cursor.totalNChannels.getD (backend.getNumOfChannels recipient) ∧
    ∃ channel, decryptChannelInfo sn newFromX (backend.getChannelInfo recipient 0) privateKey =
      .ok channel

/-- Where the scan of the channels starts anew, an incoming call finds nothing. -/
def DiscoveryCursor.KeepsIncoming (sn : Starknet) (newFromX : Felt → Option sn.EcPoint)
    (backend : Backend) (recipient : ContractAddress) (privateKey : Felt) (maxChannels : ℕ)
    (cursor : DiscoveryCursor) : Prop :=
  cursor.Restarts maxChannels → ¬FirstIncoming sn newFromX backend recipient privateKey cursor

/-- Where the scan of the channels starts anew, an outgoing call finds nothing. -/
def DiscoveryCursor.KeepsOutgoing (sn : Starknet) (backend : Backend)
    (senderAddr privateKey : Felt) (maxChannels : ℕ) (cursor : DiscoveryCursor) : Prop :=
  cursor.Restarts maxChannels →
    (backend.getOutgoingChannelInfo sn
      (computeOutgoingChannelId sn senderAddr privateKey 0)).salt = 0

/-- A cursor after a call, with the changes of its entries. -/
structure DiscoveryCursor.Moves (R : Felt → ChannelCursor → ChannelCursor → Prop)
    (maxChannels : ℕ) (cursor cursor' : DiscoveryCursor) : Prop where
  complete : cursor.channelDiscoveryComplete = true → cursor'.channelDiscoveryComplete = true
  start_le : nextIndex cursor.lastChannelIndex ≤ nextIndex cursor'.lastChannelIndex
  length_le : cursor'.channels.length ≤ max cursor.channels.length maxChannels
  channels : MapMoves (fun ch => ∃ channelKey, ch = newChannelCursor channelKey) R cursor.channels
    cursor'.channels

section Calls

variable {newFromX : Felt → Option sn.EcPoint} {recipient : ContractAddress} {senderAddr : Felt}
  {cursor : DiscoveryCursor} {limits : CursorLimits} {recipients : Option (List Felt)}

theorem DiscoveryCursor.moves_refl {maxChannels : ℕ} (hnodup : (keys cursor.channels).Nodup) :
    cursor.Moves (fun _ ch ch' => ch' = ch) maxChannels cursor :=
  ⟨id, le_rfl, le_max_left _ _, mapMoves_refl hnodup⟩

/-- A scan of the channels adds new entries. -/
theorem DiscoveryCursor.moves_orInsert {maxChannels : ℕ} {cursor' : DiscoveryCursor} {γ : Type}
    (hnodup : (keys cursor.channels).Nodup) (hopen : cursor.channelDiscoveryComplete ≠ true)
    (found : List γ) (addr channelKey : γ → Felt)
    (hlength : found.length ≤ maxChannels - cursor.channels.length)
    (hslots : maxChannels - cursor.channels.length ≠ 0)
    (hstart : nextIndex cursor.lastChannelIndex ≤ nextIndex cursor'.lastChannelIndex)
    (hchannels : cursor'.channels = found.foldl
      (fun m item => orInsert m (addr item) (newChannelCursor (channelKey item))) cursor.channels) :
    cursor.Moves (fun _ ch ch' => ch' = ch) maxChannels cursor' := by
  obtain ⟨hmoves, hcount⟩ := mapMoves_orInsert
    (N := fun ch : ChannelCursor => ∃ channelKey, ch = newChannelCursor channelKey)
    (R := fun _ ch ch' => ch' = ch) (fun _ _ => rfl) hnodup found addr
    (fun item => newChannelCursor (channelKey item)) fun item => ⟨channelKey item, rfl⟩
  rw [← hchannels] at hmoves hcount
  exact ⟨fun hover => absurd hover hopen, hstart, by omega, hmoves⟩

theorem decryptChannels_length {index : ℕ} {batch : List EncChannelInfo} :
    Outcome (fun _ => True) (fun channels => channels.length = batch.length ∧
        ∀ enc ∈ batch.head?, ∃ channel, decryptChannelInfo sn newFromX enc privateKey = .ok channel)
      (decryptChannels sn newFromX privateKey index batch) := by
  induction batch generalizing index with
  | nil => exact ⟨rfl, nofun⟩
  | cons enc batch ih =>
    rw [decryptChannels]
    cases hinfo : decryptChannelInfo sn newFromX enc privateKey with
    | error e => trivial
    | ok info =>
      have hrest := @ih (index + 1)
      cases hbatch : decryptChannels sn newFromX privateKey (index + 1) batch with
      | error e => trivial
      | ok channels =>
        rw [hbatch] at hrest
        refine ⟨congrArg Nat.succ hrest.1, fun first hfirst => ?_⟩
        obtain rfl := Option.some.inj hfirst
        exact ⟨info, hinfo⟩

theorem discoverIncomingChannels_found (startIndex numChannels : ℕ) :
    (discoverIncomingChannels sn newFromX backend recipient privateKey startIndex
      numChannels).Within full (fun _ => True) fun result =>
        result.channels.length ≤ numChannels ∧ (∀ index ∈ result.lastIndex, startIndex ≤ index) ∧
          (result.lastIndex = none ∨ ∃ channel, decryptChannelInfo sn newFromX
            (backend.getChannelInfo recipient startIndex) privateKey = .ok channel) := by
  unfold discoverIncomingChannels
  refine within_bind (within_consumeUpTo fun number hnumber _ => ?_)
  dsimp only
  split_ifs with hzero
  · exact within_pure ⟨Nat.zero_le _, nofun, .inl rfl⟩
  · refine within_bind (within_read ?_)
    refine within_bind (within_ofExcept (decryptChannels_length.mono (fun _ _ => trivial)
      fun channels hchannels => within_pure ⟨?_, ?_, .inr ?_⟩))
    · rw [hchannels.1, Backend.getChannelInfoBatch, List.length_map, List.length_range]
      exact hnumber
    · intro index hindex
      obtain rfl := Option.some.inj hindex
      omega
    · obtain ⟨number, rfl⟩ := Nat.exists_eq_succ_of_ne_zero hzero
      refine hchannels.2 _ ?_
      rw [Backend.getChannelInfoBatch, List.range_succ_eq_map]
      rfl

theorem cachedChannelCount_total :
    (cachedChannelCount backend recipient cursor).Within full (fun _ => True) fun result =>
      ∀ total ∈ result, total = cursor.totalNChannels.getD (backend.getNumOfChannels recipient) := by
  unfold cachedChannelCount
  cases cursor.totalNChannels with
  | some total => exact within_pure fun _ htotal => (Option.some.inj htotal).symm
  | none =>
    unfold getIncomingChannelCount
    refine within_bind (within_consume fun ok _ => ?_)
    cases ok with
    | false => exact within_pure nofun
    | true =>
      exact within_bind (within_read (within_pure fun _ htotal => (Option.some.inj htotal).symm))

theorem discoverIncomingChannelsPaginated_moves (hnodup : (keys cursor.channels).Nodup)
    {maxChannels : ℕ} (hprocessed : cursor.allChannelsProcessed = true)
    (hkeeps : cursor.KeepsIncoming sn newFromX backend recipient privateKey maxChannels) :
    (discoverIncomingChannelsPaginated sn newFromX backend recipient privateKey cursor
      maxChannels).Within full (fun _ => True) fun result =>
        cursor.Moves (fun _ ch ch' => ch' = ch) maxChannels result.1 := by
  unfold discoverIncomingChannelsPaginated
  split_ifs with hcomplete
  · exact within_pure (DiscoveryCursor.moves_refl hnodup)
  dsimp only
  split_ifs with hslots
  · exact within_pure (DiscoveryCursor.moves_refl hnodup)
  refine within_bind (cachedChannelCount_total.mono fun total htotal => ?_)
  cases total with
  | none => exact within_pure (DiscoveryCursor.moves_refl hnodup)
  | some total =>
    dsimp only
    split_ifs with hremaining
    · exact within_pure ⟨fun _ => rfl, le_rfl, le_max_left _ _, mapMoves_refl hnodup⟩
    · refine within_bind ((discoverIncomingChannels_found _ _).mono ?_)
      rintro result ⟨hlength, hindex, hfirst⟩
      refine within_pure (DiscoveryCursor.moves_orInsert hnodup hcomplete result.channels
        IncomingChannel.senderAddr IncomingChannel.channelKey (hlength.trans (min_le_right _ _))
          hslots (nextIndex_le_or hindex fun hwraps => ?_) rfl)
      -- At the wrap the scan starts at zero, where the condition says that nothing is found.
      rw [wrappingNext_of_le hwraps] at hfirst hremaining
      refine hfirst.resolve_right fun hok => ?_
      refine hkeeps ⟨hprocessed, Bool.eq_false_iff.mpr hcomplete, by omega, hwraps⟩ ⟨?_, hok⟩
      exact htotal total rfl ▸ Nat.pos_of_ne_zero hremaining

theorem scanOutgoingChannels_found (slots index : ℕ) :
    (scanOutgoingChannels sn backend senderAddr privateKey slots index).Within full
      (fun _ => True) fun result =>
        result.1.length ≤ slots ∧ (∀ last ∈ result.2.1, index ≤ last) ∧
          ((backend.getOutgoingChannelInfo sn
            (computeOutgoingChannelId sn senderAddr privateKey index)).salt = 0 →
              result.2.1 = none) := by
  induction slots generalizing index with
  | zero => exact within_pure ⟨le_rfl, nofun, fun _ => rfl⟩
  | succ slots ih =>
    refine within_bind (within_consume fun ok _ => ?_)
    cases ok with
    | false => exact within_pure ⟨Nat.zero_le _, nofun, fun _ => rfl⟩
    | true =>
      simp only [Bool.not_true, Bool.false_eq_true, if_false]
      refine within_bind (within_read ?_)
      split_ifs with hsalt
      · exact within_pure ⟨Nat.zero_le _, nofun, fun _ => rfl⟩
      · refine within_bind (within_read (within_bind ((ih (index + 1)).mono ?_)))
        rintro ⟨channels, lastIndex, hasMore⟩ ⟨hlength, hlast, -⟩
        refine within_pure ⟨Nat.succ_le_succ hlength, fun last hlast' => ?_, fun hzero =>
          absurd hzero hsalt⟩
        cases lastIndex with
        | none => exact (Option.some.inj hlast').le
        | some found =>
          obtain rfl := Option.some.inj hlast'
          exact (Nat.le_succ index).trans (hlast found rfl)

theorem discoverOutgoingChannelsPaginated_moves (hnodup : (keys cursor.channels).Nodup)
    {maxChannels : ℕ} (hprocessed : cursor.allChannelsProcessed = true)
    (hkeeps : cursor.KeepsOutgoing sn backend senderAddr privateKey maxChannels) :
    (discoverOutgoingChannelsPaginated sn backend senderAddr privateKey cursor maxChannels
      recipients).Within full (fun _ => True) fun result =>
        cursor.Moves (fun _ ch ch' => ch' = ch) maxChannels result.1 := by
  unfold discoverOutgoingChannelsPaginated
  split_ifs with hcomplete
  · exact within_pure (DiscoveryCursor.moves_refl hnodup)
  dsimp only
  split_ifs with hslots
  · exact within_pure (DiscoveryCursor.moves_refl hnodup)
  unfold discoverOutgoingChannels
  refine within_bind (within_bind ((scanOutgoingChannels_found _ _).mono ?_))
  rintro ⟨channels, lastIndex, hasMore⟩ ⟨hlength, hlast, hnothing⟩
  refine within_pure ?_
  -- At the wrap the scan starts at zero, where the condition says that nothing is found.
  have hwraps : 2 ^ 64 ≤ nextIndex cursor.lastChannelIndex → lastIndex = none := by
    intro hwraps
    rw [wrappingNext_of_le hwraps] at hnothing
    exact hnothing (hkeeps ⟨hprocessed, Bool.eq_false_iff.mpr hcomplete, by omega, hwraps⟩)
  have hmoves : ∀ (complete : Bool) (total : Option ℕ),
      cursor.Moves (fun _ ch ch' => ch' = ch) maxChannels
        ⟨complete, total, lastIndex.or cursor.lastChannelIndex,
          (channels.filter fun channel => passes recipients channel.recipientAddr).foldl
            (fun m channel =>
              orInsert m channel.recipientAddr (newChannelCursor channel.channelKey))
            cursor.channels⟩ := fun complete total =>
    DiscoveryCursor.moves_orInsert hnodup hcomplete _ OutgoingChannel.recipientAddr
      OutgoingChannel.channelKey ((List.length_filter_le _ _).trans hlength) hslots
      (nextIndex_le_or hlast hwraps) rfl
  dsimp only
  split_ifs
  · exact within_pure (hmoves _ _)
  · exact within_pure (hmoves _ _)

/-- The change of a channel cursor in a call. -/
abbrev ChannelMoves (sn : Starknet) (backend : Backend) (limits : CursorLimits) (_addr : Felt)
    (cursor cursor' : ChannelCursor) : Prop :=
  cursor.Moves (SubchannelMoves sn backend limits cursor.channelKey) limits.maxSubchannels cursor'

theorem channelMoves_refl {addr : Felt} {cursor : ChannelCursor}
    (hnodup : (keys cursor.subchannels).Nodup) :
    ChannelMoves sn backend limits addr cursor cursor := by
  refine ⟨rfl, id, le_rfl, le_max_left _ _, hnodup, fun sub hsub => ?_, fun sub hsub => ?_⟩
  · exact ⟨sub, hsub, rfl, .refl sub.2⟩
  · exact ⟨sub.2, .inl hsub, .refl sub.2⟩

/-- The entries of a scanned cursor have maps with distinct keys. -/
theorem DiscoveryCursor.Moves.nodup_subchannels {scanned : DiscoveryCursor}
    (h : cursor.Moves (fun _ ch ch' => ch' = ch) limits.maxChannels scanned)
    (hkeyed : cursor.Keyed) : ∀ entry ∈ scanned.channels, (keys entry.2.subchannels).Nodup := by
  intro entry hentry
  obtain ⟨ch, hch, heq⟩ := h.channels.all entry hentry
  rw [heq]
  rcases hch with hold | ⟨channelKey, rfl⟩
  · exact hkeyed.entries _ hold
  · exact List.nodup_nil

/-- The entries of a scanned cursor are those of the cursor, or new. -/
theorem DiscoveryCursor.Moves.keepsLast {scanned : DiscoveryCursor}
    (h : cursor.Moves (fun _ ch ch' => ch' = ch) limits.maxChannels scanned)
    (hkeeps : ∀ entry ∈ cursor.channels, entry.2.KeepsLast sn backend limits.maxSubchannels) :
    ∀ entry ∈ scanned.channels, entry.2.KeepsLast sn backend limits.maxSubchannels := by
  intro entry hentry
  obtain ⟨ch, hch, heq⟩ := h.channels.all entry hentry
  rw [heq]
  rcases hch with hold | ⟨channelKey, rfl⟩
  · exact hkeeps _ hold
  · exact keepsLast_new _ _

theorem DiscoveryCursor.Moves.processed {scanned : DiscoveryCursor}
    (h : cursor.Moves (fun _ ch ch' => ch' = ch) limits.maxChannels scanned)
    (hkeyed : cursor.Keyed) {ρ : Type} {results : List ρ} {addr : ρ → Felt}
    {value : ρ → ChannelCursor}
    (hresults : List.Forall₂ (fun entry result => addr result = entry.1 ∧
      ChannelMoves sn backend limits entry.1 entry.2 (value result))
        (pending ChannelCursor.isComplete scanned.channels) results) :
    cursor.Moves (ChannelMoves sn backend limits) limits.maxChannels
      { scanned with
        channels := results.foldl (fun m result => insert m (addr result) (value result))
          (kept ChannelCursor.isComplete scanned.channels) } := by
  have hrefl : ∀ entry ∈ scanned.channels,
      ChannelMoves sn backend limits entry.1 entry.2 entry.2 :=
    fun entry hentry => channelMoves_refl (h.nodup_subchannels hkeyed entry hentry)
  obtain ⟨hmoves, hlength⟩ := h.channels.processed hrefl hresults
  exact ⟨h.complete, h.start_le, hlength.le.trans h.length_le, hmoves⟩

/-- An incoming call moves a cursor forward, unless a scan starts anew. -/
theorem syncIncomingState_moves (hkeyed : cursor.Keyed)
    (hsubchannels : ∀ entry ∈ cursor.channels, entry.2.KeepsLast sn backend limits.maxSubchannels)
    (hkeeps : cursor.KeepsIncoming sn newFromX backend recipient privateKey limits.maxChannels)
    (schedule : Schedule) :
    (syncIncomingState sn newFromX backend recipient privateKey cursor limits schedule).Within full
      (fun _ => True) fun result =>
        cursor.Moves (ChannelMoves sn backend limits) limits.maxChannels result.cursor := by
  unfold syncIncomingState
  have hscan : (newIncomingChannels sn newFromX backend recipient privateKey cursor
      limits.maxChannels).Within full (fun _ => True) fun result =>
        cursor.Moves (fun _ ch ch' => ch' = ch) limits.maxChannels result.1 := by
    unfold newIncomingChannels
    split_ifs with hprocessed
    · exact discoverIncomingChannelsPaginated_moves hkeyed.nodup hprocessed hkeeps
    · exact within_pure (DiscoveryCursor.moves_refl hkeyed.nodup)
  refine within_bind (hscan.mono ?_)
  rintro ⟨scanned, found⟩ hscanned
  unfold processChannels
  refine within_bind ((within_parallel fun entry hentry => processChannel_moves
    (hscanned.nodup_subchannels hkeyed entry (mem_pending.mp hentry).1)
      (hscanned.keepsLast hsubchannels entry (mem_pending.mp hentry).1)).mono ?_)
  exact fun results hresults => within_pure (hscanned.processed hkeyed hresults)

/-- An outgoing call moves a cursor forward, unless a scan starts anew. -/
theorem syncOutgoingState_moves (hkeyed : cursor.Keyed)
    (hsubchannels : ∀ entry ∈ cursor.channels, entry.2.KeepsLast sn backend limits.maxSubchannels)
    (hkeeps : cursor.KeepsOutgoing sn backend senderAddr privateKey limits.maxChannels)
    (schedule : Schedule) :
    (syncOutgoingState sn backend senderAddr privateKey cursor limits recipients schedule).Within
      full (fun _ => True) fun result =>
        cursor.Moves (ChannelMoves sn backend limits) limits.maxChannels result.cursor := by
  unfold syncOutgoingState
  have hscan : (newOutgoingChannels sn backend senderAddr privateKey cursor limits.maxChannels
      recipients).Within full (fun _ => True) fun result =>
        cursor.Moves (fun _ ch ch' => ch' = ch) limits.maxChannels result.1 := by
    unfold newOutgoingChannels
    split_ifs with hprocessed
    · exact discoverOutgoingChannelsPaginated_moves hkeyed.nodup hprocessed hkeeps
    · exact within_pure (DiscoveryCursor.moves_refl hkeyed.nodup)
  refine within_bind (hscan.mono ?_)
  rintro ⟨scanned, found⟩ hscanned
  unfold processOutgoingChannels
  refine within_bind (within_bind ((within_parallel fun entry hentry =>
    processOutgoingChannel_moves
      (hscanned.nodup_subchannels hkeyed entry (mem_pending.mp hentry).1)
        (hscanned.keepsLast hsubchannels entry (mem_pending.mp hentry).1)).mono ?_))
  intro results hresults
  refine within_pure (within_bind (within_true.mono fun _ _ => within_pure ?_))
  exact hscanned.processed hkeyed hresults

end Calls

end PrivacyPool.Discovery
