import PrivacyPool.Discovery.Capacity
import PrivacyPool.Discovery.PageProgress

/-!
# Outgoing cursors that lag behind

The cursor of a sender may have channels and subchannels that its scans have yet to come to. A
scan that comes to a subchannel of the cursor does not add it again; a channel that the client has
dropped by then it does add again, as a new one.

On the way only those channels stay in the cursor that never had a subchannel. So the scans can
end within the limits when there is a slot beside these, a slot beside the subchannels of each
channel, and each boundary is in reach.

## Main definitions

* `ChannelCursor.Tracks`, `DiscoveryCursor.TracksOutgoing` — what the scans have passed is there
* `ChannelCursor.CanEnd`, `DiscoveryCursor.CanEndOutgoing` — the scans can end within the limits

## Main results

* `OutgoingPaged.tracks` — a page keeps track
* `OutgoingPaged.canEnd` — no page makes a cursor able to end
-/

namespace PrivacyPool.Discovery

open HashMap

variable {full : Prop} {sn : Starknet} {backend : Backend} {contents : Contents}
  {limits : CursorLimits}

/-! ### Channels -/

/-- What the scan of a channel has passed is in its cursor, as long as the scan goes on. A scan
that is over had a slot left, and has found something if there is anything. A search that is not
over has no total. -/
structure ChannelCursor.Tracks (contents : Contents) (limits : CursorLimits)
    (cursor : ChannelCursor) : Prop extends ChannelCursor.Lags contents cursor where
  found : cursor.subchannelDiscoveryComplete = false →
    ∀ token ∈ (contents.tokens cursor.channelKey).take (nextIndex cursor.lastSubchannelIndex),
      token ∈ keys cursor.subchannels
  spared : cursor.subchannelDiscoveryComplete = true → 0 < limits.maxSubchannels
  empty : cursor.subchannelDiscoveryComplete = true → cursor.subchannels = [] →
    contents.tokens cursor.channelKey = []
  searching : ∀ entry ∈ cursor.subchannels, entry.2.noteDiscoveryComplete = false →
    entry.2.totalNNotes = none

/-- The search of a subchannel from its first note on is still to come. -/
def ChannelCursor.Unseen (contents : Contents) (cursor : ChannelCursor) (token : Felt) : Prop :=
  (∃ sub ∈ cursor.subchannels, sub.1 = token ∧ sub.2.noteDiscoveryComplete = false ∧
    sub.2.totalNNotes = none ∧ sub.2.startIndex = 0) ∨
    cursor.subchannelDiscoveryComplete = false ∧
      token ∈ (contents.tokens cursor.channelKey).drop (nextIndex cursor.lastSubchannelIndex) ∧
        token ∉ keys cursor.subchannels

/-- The scan of a channel can end within the limits. -/
structure ChannelCursor.CanEnd (contents : Contents) (limits : CursorLimits)
    (cursor : ChannelCursor) : Prop where
  room : cursor.subchannelDiscoveryComplete = false →
    (contents.tokens cursor.channelKey).length < limits.maxSubchannels
  reach : ∀ token, cursor.Unseen contents token →
    contents.count cursor.channelKey token < 2 ^ limits.maxNoteLogIndex

theorem ChannelCursor.tracks_new (contents : Contents) (limits : CursorLimits) (channelKey : Felt) :
    (newChannelCursor channelKey).Tracks contents limits where
  toLags := (ChannelCursor.follows_new contents channelKey).lags
  found _ token htoken := by simp [newChannelCursor, nextIndex] at htoken
  spared h := nomatch h
  empty h := nomatch h
  searching _ h := nomatch h

theorem ChannelCursor.canEnd_new_iff {channelKey : Felt} :
    (newChannelCursor channelKey).CanEnd contents limits ↔
      (contents.tokens channelKey).length < limits.maxSubchannels ∧
        ∀ token ∈ contents.tokens channelKey,
          contents.count channelKey token < 2 ^ limits.maxNoteLogIndex := by
  have hunseen : ∀ token, (newChannelCursor channelKey).Unseen contents token ↔
      token ∈ contents.tokens channelKey := by
    intro token
    simp [ChannelCursor.Unseen, newChannelCursor, nextIndex, keys]
  constructor
  · rintro ⟨hroom, hreach⟩
    exact ⟨hroom rfl, fun token htoken => hreach token ((hunseen token).mpr htoken)⟩
  · rintro ⟨hroom, hreach⟩
    exact ⟨fun _ => hroom, fun token htoken => hreach token ((hunseen token).mp htoken)⟩

theorem ChannelCursor.canEnd_of_isComplete {cursor : ChannelCursor} (h : cursor.isComplete = true) :
    cursor.CanEnd contents limits := by
  obtain ⟨hover, hall⟩ := Bool.and_eq_true_iff.mp h
  refine ⟨fun hopen => ?_, ?_⟩
  · rw [hover] at hopen
    cases hopen
  · rintro token (⟨sub, hsub, -, hopen, -⟩ | ⟨hopen, -⟩)
    · have hdone := List.all_eq_true.mp hall sub hsub
      rw [hopen] at hdone
      cases hdone
    · rw [hover] at hopen
      cases hopen

/-- A cursor has no more subchannels than the channel. -/
theorem ChannelCursor.Lags.length_le {cursor : ChannelCursor} (h : cursor.Lags contents) :
    cursor.subchannels.length ≤ (contents.tokens cursor.channelKey).length := by
  have hsubset : keys cursor.subchannels ⊆ contents.tokens cursor.channelKey := by
    intro token htoken
    obtain ⟨sub, hsub, rfl⟩ := List.mem_map.mp htoken
    exact h.known sub hsub
  have hle := (List.subperm_of_subset h.nodup hsubset).length_le
  rwa [keys, List.length_map] at hle

section Scan

variable {cursor cursor' : ChannelCursor} (hnodup : (contents.tokens cursor.channelKey).Nodup)
  (hcursor : cursor.Tracks contents limits)
  (h : SubchannelsPage full (contents.tokens cursor.channelKey) limits.maxSubchannels cursor cursor')
include hnodup hcursor h

theorem SubchannelsPage.tracks : cursor'.Tracks contents limits := by
  have hlags := h.lags hnodup hcursor.toLags
  cases h with
  | closed h => exact hcursor
  | @advanced number complete hopen hadvance hslots =>
    -- Each token that the scan has passed is in the cursor.
    have hpassed : ∀ token ∈ (contents.tokens cursor.channelKey).take
        (nextIndex cursor.lastSubchannelIndex + number), token ∈ keys (cursor.subchannels ++
          (((contents.tokens cursor.channelKey).drop (nextIndex cursor.lastSubchannelIndex)).take
            number |>.filter fun token => token ∉ keys cursor.subchannels).map
              fun token => (token, ({} : SubchannelCursor))) := by
      intro token htoken
      rw [keys_append, List.mem_append]
      rw [List.take_add, List.mem_append] at htoken
      rcases htoken with hold | hfound
      · exact .inl (hcursor.found hopen token hold)
      · by_cases hmem : token ∈ keys cursor.subchannels
        · exact .inl hmem
        · exact .inr (mem_keys_of_mem (List.mem_map_of_mem
            (List.mem_filter.mpr ⟨hfound, decide_eq_true hmem⟩)))
    refine ⟨hlags, fun _ => ?_, fun hover => ?_, fun hover hnone => ?_, fun sub hsub hopen' => ?_⟩
    · dsimp only
      rwa [nextIndex_lastIndexAfter]
    · have := hslots hover
      omega
    · dsimp only at hover hnone ⊢
      rw [hadvance.ended hover, List.take_length, hnone] at hpassed
      exact List.eq_nil_iff_forall_not_mem.mpr fun token htoken => nomatch hpassed token htoken
    · rcases List.mem_append.mp hsub with hold | hadded
      · exact hcursor.searching sub hold hopen'
      · obtain ⟨token, -, rfl⟩ := List.mem_map.mp hadded
        rfl

/-- Where a scan is over, there was a slot left. -/
theorem SubchannelsPage.canEnd (hcan : cursor'.CanEnd contents limits) :
    cursor.CanEnd contents limits := by
  cases h with
  | closed h => exact hcan
  | @advanced number complete hopen hadvance hslots =>
    refine ⟨fun _ => ?_, ?_⟩
    · cases complete with
      | false => exact hcan.room rfl
      | true =>
        -- All tokens are in the cursor, which has a slot left.
        have hpassed := (List.subperm_of_subset (hnodup.sublist (List.take_sublist _ _))
          (hcursor.found hopen)).length_le
        have hover := hadvance.ended rfl
        have hless := hslots rfl
        rw [keys, List.length_map, List.length_take] at hpassed
        omega
    · rintro token (⟨sub, hsub, rfl, hunseen⟩ | ⟨-, hrest, hfresh⟩)
      · exact hcan.reach _ (.inl ⟨sub, List.mem_append_left _ hsub, rfl, hunseen⟩)
      · rw [← List.take_append_drop number (List.drop _ _), List.mem_append] at hrest
        have hdisjoint : ∀ token' ∈ ((contents.tokens cursor.channelKey).drop
            (nextIndex cursor.lastSubchannelIndex)).take number, token' ∉
              ((contents.tokens cursor.channelKey).drop
                (nextIndex cursor.lastSubchannelIndex)).drop number := fun token' htake hdrop =>
          List.disjoint_take_drop (hnodup.sublist (List.drop_sublist _ _)) le_rfl htake hdrop
        rcases hrest with hfound | hleft
        · refine hcan.reach token (.inl ⟨(token, {}), List.mem_append_right _ ?_, rfl, rfl, rfl, rfl⟩)
          exact List.mem_map_of_mem (List.mem_filter.mpr ⟨hfound, decide_eq_true hfresh⟩)
        · refine hcan.reach token (.inr ⟨Bool.eq_false_iff.mpr fun hover => ?_, ?_, fun hmem => ?_⟩)
          · -- At the end nothing is left.
            rw [List.drop_drop, hadvance.ended hover, List.drop_length] at hleft
            cases hleft
          · dsimp only
            rwa [nextIndex_lastIndexAfter, ← List.drop_drop]
          · dsimp only at hmem
            rw [keys_append, List.mem_append] at hmem
            obtain ⟨sub, hsub, rfl⟩ := List.mem_map.mp (hmem.resolve_left hfresh)
            obtain ⟨token', htoken', rfl⟩ := List.mem_map.mp hsub
            exact hdisjoint _ (List.mem_of_mem_filter htoken') hleft

end Scan

section Processed

variable {recipientAddr : Felt} {cursor : ChannelCursor}
  {results : List ProcessOutgoingSubchannelResult} {result : ProcessOutgoingChannelResult}

/-- A search without a total is as before. -/
theorem OutgoingSubchannelPaged.eq_of_none {maxNoteLogIndex : ℕ} {channelKey : Felt}
    {entry : Felt × SubchannelCursor} {result : ProcessOutgoingSubchannelResult}
    (h : OutgoingSubchannelPaged full contents maxNoteLogIndex channelKey entry result)
    (hnone : result.cursor.totalNNotes = none) :
    entry.2.totalNNotes = none ∧ result.cursor.startIndex = entry.2.startIndex := by
  obtain ⟨probed, hasMore, hfound, hresult, -⟩ := h.probed
  rw [hresult] at hnone ⊢
  cases hfound with
  | short h => exact ⟨h, rfl⟩
  | cached h =>
    rw [hnone] at h
    cases h
  | found h hrange => cases hnone

/-- A search from the first note on finds the end, unless it is not paid for. -/
theorem OutgoingSubchannelPaged.unseen {maxNoteLogIndex : ℕ} {channelKey : Felt}
    {entry : Felt × SubchannelCursor} {result : ProcessOutgoingSubchannelResult}
    (h : OutgoingSubchannelPaged full contents maxNoteLogIndex channelKey entry result)
    (hnone : entry.2.totalNNotes = none) (hstart : entry.2.startIndex = 0) :
    contents.count channelKey entry.1 < 2 ^ maxNoteLogIndex ∨
      result.cursor.noteDiscoveryComplete = false ∧ result.cursor.totalNNotes = none ∧
        result.cursor.startIndex = 0 := by
  obtain ⟨probed, hasMore, hfound, hresult, -⟩ := h.probed
  rw [hresult]
  cases hfound with
  | short h => exact .inr ⟨rfl, hnone, hstart⟩
  | cached h =>
    rw [hnone] at h
    cases h
  | found h hrange =>
    rw [hstart, Nat.zero_add] at hrange
    exact .inl hrange

/-- A search without a total stays without one, or it finds the end. -/
theorem OutgoingSubchannelPaged.searching {maxNoteLogIndex : ℕ} {channelKey : Felt}
    {entry : Felt × SubchannelCursor} {result : ProcessOutgoingSubchannelResult}
    (h : OutgoingSubchannelPaged full contents maxNoteLogIndex channelKey entry result)
    (hnone : entry.2.totalNNotes = none) :
    result.cursor.totalNNotes = none ∨ result.cursor.noteDiscoveryComplete = true ∧
      ∃ total ≤ contents.count channelKey entry.1, result.cursor.totalNNotes = some total := by
  obtain ⟨probed, hasMore, hfound, hresult, -⟩ := h.probed
  rw [hresult]
  cases hfound with
  | short h => exact .inl h
  | cached h =>
    rw [hnone] at h
    cases h
  | found h hrange =>
    refine .inr ⟨rfl, _, ?_, rfl⟩
    split_ifs
    · exact Nat.zero_le _
    · exact le_rfl

/-- A report has no index beyond the last note. -/
theorem OutgoingSubchannelPaged.report_le {maxNoteLogIndex : ℕ} {channelKey : Felt}
    {entry : Felt × SubchannelCursor} {result : ProcessOutgoingSubchannelResult}
    (h : OutgoingSubchannelPaged full contents maxNoteLogIndex channelKey entry result)
    (hnone : entry.2.totalNNotes = none) :
    result.lastNoteIndex.elim 0 (· + 1) ≤ contents.count channelKey entry.1 := by
  rw [h.reported, SubchannelCursor.lastExistingIndex]
  rcases h.searching hnone with hnone' | ⟨-, total, hle, htotal⟩
  · rw [hnone']
    exact Nat.zero_le _
  · rw [htotal, Option.bind_some]
    split_ifs with hpos
    · exact (Nat.sub_add_cancel hpos).trans_le hle
    · exact Nat.zero_le _

theorem OutgoingSubchannelsProcessed.keys_perm {maxNoteLogIndex : ℕ}
    (h : OutgoingSubchannelsProcessed full contents maxNoteLogIndex recipientAddr cursor results
      result) : (keys result.cursor.subchannels).Perm (keys cursor.subchannels) := by
  rw [h.cursor_eq]
  exact keys_extractIf_perm _ (map_eq_keys h.paged fun _ _ hR => hR.token_eq)

theorem OutgoingSubchannelsProcessed.tracks {maxNoteLogIndex : ℕ}
    (hcursor : cursor.Tracks contents limits)
    (h : OutgoingSubchannelsProcessed full contents maxNoteLogIndex recipientAddr cursor results
      result) : result.cursor.Tracks contents limits := by
  have hkeys := h.keys_perm
  rw [h.cursor_eq] at hkeys ⊢
  refine ⟨⟨hcursor.start_le, hkeys.nodup_iff.mpr hcursor.nodup, fun sub hsub => ?_,
    fun sub hsub hnone => ?_⟩, fun hopen token htoken => ?_, hcursor.spared,
    fun hover hempty => ?_, fun sub hsub hopen => ?_⟩
  · obtain ⟨old, hold, hsame⟩ := List.mem_map.mp (hkeys.subset (mem_keys_of_mem hsub))
    rw [← hsame]
    exact hcursor.known old hold
  · rcases mem_processed h.paged hsub with ⟨hkept, -⟩ | ⟨old, hold, -, processed, hR, rfl⟩
    · exact hcursor.resumable sub hkept hnone
    · obtain ⟨hnone', hstart⟩ := hR.eq_of_none hnone
      dsimp only
      rw [hstart, hR.token_eq]
      exact hcursor.resumable old hold hnone'
  · exact hkeys.mem_iff.mpr (hcursor.found hopen token htoken)
  · dsimp only at hkeys hempty
    rw [hempty] at hkeys
    exact hcursor.empty hover (List.map_eq_nil_iff.mp hkeys.symm.eq_nil)
  · rcases mem_processed h.paged hsub with ⟨-, hover⟩ | ⟨old, hold, hopen', processed, hR, rfl⟩
    · rw [hover] at hopen
      cases hopen
    · exact (hR.searching (hcursor.searching old hold hopen')).resolve_right
        fun hfound => Bool.eq_false_iff.mp hopen hfound.1

/-- Searching makes no channel able to end. -/
theorem OutgoingSubchannelsProcessed.canEnd
    (h : OutgoingSubchannelsProcessed full contents limits.maxNoteLogIndex recipientAddr cursor
      results result) (hcan : result.cursor.CanEnd contents limits) :
    cursor.CanEnd contents limits := by
  have hkeys := h.keys_perm
  rw [h.cursor_eq] at hcan hkeys
  refine ⟨hcan.room, ?_⟩
  rintro token (⟨sub, hsub, rfl, hopen, hnone, hstart⟩ | ⟨hopen, hrest, hfresh⟩)
  · obtain ⟨processed, hmem, hR⟩ := exists_right_of_forall₂ h.paged (mem_pending.mpr ⟨hsub, hopen⟩)
    refine (hR.unseen hnone hstart).elim id fun hunseen => ?_
    exact hcan.reach sub.1 (.inl ⟨(processed.token, processed.cursor),
      List.mem_append_right _ (List.mem_map_of_mem hmem), hR.token_eq, hunseen⟩)
  · exact hcan.reach token (.inr ⟨hopen, hrest, fun hmem => hfresh (hkeys.subset hmem)⟩)

end Processed

section Channel

variable {entry : Felt × ChannelCursor} {result : ProcessOutgoingChannelResult}
  (hnodup : (contents.tokens entry.2.channelKey).Nodup) (hentry : entry.2.Tracks contents limits)
  (h : OutgoingChannelPaged full contents limits entry result)
include hnodup hentry h

theorem OutgoingChannelPaged.tracks : result.cursor.Tracks contents limits := by
  obtain ⟨scanned, results, hpage, hprocessed⟩ := h.steps
  exact hprocessed.tracks (hpage.tracks hnodup hentry)

/-- The reports on a channel are on its subchannels, and have no index beyond the last note. -/
theorem OutgoingChannelPaged.reports_le :
    ∀ report ∈ result.subchannels, report.recipientAddr = entry.1 ∧
      report.token ∈ contents.tokens entry.2.channelKey ∧
      report.lastNoteIndex.elim 0 (· + 1) ≤ contents.count entry.2.channelKey report.token := by
  obtain ⟨scanned, results, hpage, hresults, -, hreports, -⟩ := h.steps
  have hscanned := hpage.tracks hnodup hentry
  intro report hreport
  rw [hreports] at hreport
  obtain ⟨processed, hmem, rfl⟩ := List.mem_map.mp hreport
  obtain ⟨sub, hsub, hR⟩ := exists_left_of_forall₂ hresults hmem
  obtain ⟨hold, hopen⟩ := mem_pending.mp hsub
  rw [← hpage.channelKey_eq]
  dsimp only
  rw [hR.token_eq]
  exact ⟨rfl, hscanned.known sub hold, hR.report_le (hscanned.searching sub hold hopen)⟩

theorem OutgoingChannelPaged.canEnd (hcan : result.cursor.CanEnd contents limits) :
    entry.2.CanEnd contents limits := by
  obtain ⟨scanned, results, hpage, hprocessed⟩ := h.steps
  exact hpage.canEnd hnodup hentry (hprocessed.canEnd hcan)

end Channel

/-! ### The page -/

section Page

variable {senderAddr viewingKey : Felt} {recipients : List Felt} {filter : Option (List Felt)}
  {cursor cursor' : DiscoveryCursor}

/-- The cursor of the channel toward an address when it is found. -/
abbrev newCursorToward (sn : Starknet) (backend : Backend) (senderAddr viewingKey addr : Felt) :
    ChannelCursor :=
  newChannelCursor (channelToward sn backend senderAddr viewingKey addr false).channelKey

/-- The recipients that pass the filter and whose channels have no subchannel. -/
def idleToward (sn : Starknet) (backend : Backend) (senderAddr viewingKey : Felt)
    (contents : Contents) (filter : Option (List Felt)) (recipients : List Felt) : List Felt :=
  (recipients.filter (passes filter)).filter fun addr => (contents.tokens
    (channelToward sn backend senderAddr viewingKey addr false).channelKey).isEmpty

/-- The channels of a cursor track the contents, and no channel without a subchannel is dropped
once the scan has passed it. -/
structure DiscoveryCursor.TracksOutgoing (sn : Starknet) (backend : Backend)
    (senderAddr viewingKey : Felt) (contents : Contents) (recipients : List Felt)
    (filter : Option (List Felt)) (limits : CursorLimits) (cursor : DiscoveryCursor) : Prop
    extends DiscoveryCursor.LagsOutgoing sn backend senderAddr viewingKey contents recipients filter
      cursor where
  scans : ∀ entry ∈ cursor.channels, entry.2.Tracks contents limits
  kept : ∀ addr ∈ idleToward sn backend senderAddr viewingKey contents filter
    (recipients.take (nextIndex cursor.lastChannelIndex)), addr ∈ keys cursor.channels

/-- The client drops complete channels, except those that never had a subchannel. -/
def DiscoveryCursor.Trimmed (cursor : DiscoveryCursor) : Prop :=
  ∀ entry ∈ cursor.channels, entry.2.isComplete = true → entry.2.subchannels = []

/-- The scans of a sender's cursor can end within the limits: the channels that are never dropped
leave a slot. -/
structure DiscoveryCursor.CanEndOutgoing (sn : Starknet) (backend : Backend)
    (senderAddr viewingKey : Felt) (contents : Contents) (recipients : List Felt)
    (filter : Option (List Felt)) (limits : CursorLimits) (cursor : DiscoveryCursor) : Prop where
  room : cursor.channelDiscoveryComplete = false →
    (idleToward sn backend senderAddr viewingKey contents filter recipients).length <
      limits.maxChannels
  entries : ∀ entry ∈ cursor.channels, entry.2.CanEnd contents limits
  unfound : ∀ addr ∈ cursor.unfoundToward recipients filter,
    (newCursorToward sn backend senderAddr viewingKey addr).CanEnd contents limits

theorem DiscoveryCursor.canEndOutgoing_of_isComplete (h : cursor.isComplete = true) :
    cursor.CanEndOutgoing sn backend senderAddr viewingKey contents recipients filter limits := by
  obtain ⟨hover, hall⟩ := Bool.and_eq_true_iff.mp h
  refine ⟨fun hopen => ?_, fun entry hentry => ?_, ?_⟩
  · rw [hover] at hopen
    cases hopen
  · exact ChannelCursor.canEnd_of_isComplete (List.all_eq_true.mp hall entry hentry)
  · rw [show cursor.unfoundToward recipients filter = [] from if_pos hover]
    exact fun _ h => nomatch h

theorem idleToward_append (recipients recipients' : List Felt) :
    idleToward sn backend senderAddr viewingKey contents filter (recipients ++ recipients') =
      idleToward sn backend senderAddr viewingKey contents filter recipients ++
        idleToward sn backend senderAddr viewingKey contents filter recipients' := by
  unfold idleToward
  rw [List.filter_append, List.filter_append]

theorem idleToward_sublist (recipients : List Felt) :
    (idleToward sn backend senderAddr viewingKey contents filter recipients).Sublist recipients :=
  List.filter_sublist.trans List.filter_sublist

/-- When the channels of all recipients can end, no boundary is out of reach. -/
theorem DiscoveryCursor.LagsOutgoing.not_exceedsToward
    (h : cursor.LagsOutgoing sn backend senderAddr viewingKey contents recipients filter)
    (hcan : ∀ addr ∈ recipients.filter (passes filter),
      (newCursorToward sn backend senderAddr viewingKey addr).CanEnd contents limits) :
    ¬cursor.ExceedsToward sn backend senderAddr viewingKey contents recipients filter
      limits.maxNoteLogIndex := by
  have hnew := fun addr haddr => (ChannelCursor.canEnd_new_iff.mp (hcan addr haddr)).2
  rintro (⟨entry, hentry, token, hunprobed, hexceeds⟩ | ⟨addr, haddr, token, hunprobed, hexceeds⟩)
  · obtain ⟨haddr, hkey⟩ := h.known entry hentry
    have htoken : token ∈ contents.tokens entry.2.channelKey := by
      rcases hunprobed with ⟨sub, hsub, rfl, -⟩ | ⟨-, hrest⟩
      · exact (h.entries entry hentry).known sub hsub
      · exact List.mem_of_mem_drop hrest
    rw [hkey] at htoken hexceeds
    exact Nat.not_lt.mpr hexceeds (hnew entry.1 haddr token htoken)
  · have haddr' : addr ∈ recipients.filter (passes filter) := by
      unfold DiscoveryCursor.unfoundToward at haddr
      split_ifs at haddr
      · cases haddr
      · exact ((List.drop_sublist _ _).filter _).subset haddr
    have htoken : token ∈ contents.tokens
        (channelToward sn backend senderAddr viewingKey addr false).channelKey := by
      rcases hunprobed with ⟨sub, hsub, -⟩ | ⟨-, hrest⟩
      · cases hsub
      · exact List.mem_of_mem_drop hrest
    exact Nat.not_lt.mpr hexceeds (hnew addr haddr' token htoken)

/-- A channel that is complete without a subchannel has none. -/
theorem DiscoveryCursor.TracksOutgoing.tokens_eq
    (h : cursor.TracksOutgoing sn backend senderAddr viewingKey contents recipients filter limits)
    (htrimmed : cursor.Trimmed) {entry : Felt × ChannelCursor} (hentry : entry ∈ cursor.channels)
    (hcomplete : entry.2.isComplete = true) : contents.tokens
      (channelToward sn backend senderAddr viewingKey entry.1 false).channelKey = [] := by
  rw [← (h.known entry hentry).2]
  exact (h.scans entry hentry).empty (Bool.and_eq_true_iff.mp hcomplete).1
    (htrimmed entry hentry hcomplete)

/-- When all channels of a cursor are complete, those of them that are left never had a
subchannel. -/
theorem DiscoveryCursor.TracksOutgoing.length_le
    (h : cursor.TracksOutgoing sn backend senderAddr viewingKey contents recipients filter limits)
    (htrimmed : cursor.Trimmed) (hprocessed : cursor.allChannelsProcessed = true) :
    cursor.channels.length ≤
      (idleToward sn backend senderAddr viewingKey contents filter recipients).length := by
  have hsubset : keys cursor.channels ⊆
      idleToward sn backend senderAddr viewingKey contents filter recipients := by
    intro addr haddr
    obtain ⟨entry, hentry, rfl⟩ := List.mem_map.mp haddr
    have htokens := h.tokens_eq htrimmed hentry (List.all_eq_true.mp hprocessed entry hentry)
    exact List.mem_filter.mpr ⟨(h.known entry hentry).1, List.isEmpty_iff.mpr htokens⟩
  have hle := (List.subperm_of_subset h.nodup hsubset).length_le
  rwa [keys, List.length_map] at hle

section Scan

variable {found : List OutgoingChannel}
  (hcursor : cursor.TracksOutgoing sn backend senderAddr viewingKey contents recipients filter
    limits)
  (h : OutgoingPage full sn backend senderAddr viewingKey recipients filter limits.maxChannels
    cursor cursor' found)
include hcursor h

theorem OutgoingPage.tracks :
    cursor'.TracksOutgoing sn backend senderAddr viewingKey contents recipients filter limits := by
  have hlags := h.lags hcursor.toLagsOutgoing
  cases h with
  | closed h => exact hcursor
  | @advanced number complete found new hopen hadvance hslots hfound hnew hnodup hfresh hall =>
    refine ⟨hlags, fun entry hentry => ?_, fun addr haddr => ?_⟩
    · rcases List.mem_append.mp hentry with hold | hadded
      · exact hcursor.scans entry hold
      · obtain ⟨addr, -, rfl⟩ := List.mem_map.mp hadded
        exact ChannelCursor.tracks_new contents limits _
    · dsimp only at haddr ⊢
      rw [nextIndex_lastIndexAfter, List.take_add, idleToward_append, List.mem_append] at haddr
      rw [keys_append, List.mem_append]
      rcases haddr with hold | hfound'
      · exact .inl (hcursor.kept addr hold)
      · exact (hall addr (hfound ▸ List.mem_of_mem_filter hfound')).imp_right fun hadded =>
          mem_keys_of_mem (List.mem_map_of_mem hadded)

/-- Where the scan is over, there was a slot left. -/
theorem OutgoingPage.canEnd (hnodup : recipients.Nodup) (htrimmed : cursor.Trimmed)
    (hprocessed : cursor.allChannelsProcessed = true)
    (hcan : cursor'.CanEndOutgoing sn backend senderAddr viewingKey contents recipients filter
      limits) :
    cursor.CanEndOutgoing sn backend senderAddr viewingKey contents recipients filter limits := by
  obtain ⟨addrs, hunfound, -, new, -, hall, hchannels⟩ := h.unfoundToward_eq
  have hentries := hcan.entries
  rw [hchannels] at hentries
  refine ⟨fun hopen => ?_, fun entry hentry => hentries entry (List.mem_append_left _ hentry), ?_⟩
  · cases h with
    | closed hover =>
      rw [hover] at hopen
      cases hopen
    | @advanced number complete found new' hopen hadvance hslots hfound hnew hnodup' hfresh hall' =>
      cases complete with
      | false => exact hcan.room rfl
      -- Every channel that was passed over and has no subchannel is still in the cursor, so the
      -- slots that were taken count for what was left.
      | true =>
        have hpassed := (List.subperm_of_subset ((idleToward_sublist _).nodup
          (hnodup.sublist (List.take_sublist _ _))) hcursor.kept).length_le
        have hrest : (idleToward sn backend senderAddr viewingKey contents filter (recipients.drop
            (nextIndex cursor.lastChannelIndex))).length ≤ _ := (idleToward_sublist _).length_le
        have hless := hslots rfl
        have hover := hadvance.ended rfl
        rw [keys, List.length_map] at hpassed
        rw [List.length_drop] at hrest
        rw [← List.take_append_drop (nextIndex cursor.lastChannelIndex) recipients,
          idleToward_append, List.length_append]
        omega
  · rw [hunfound]
    intro addr haddr
    rcases List.mem_append.mp haddr with haddr | hleft
    · rcases hall addr haddr with hold | hadded
      · -- The channel is still in the cursor: it has no subchannel.
        obtain ⟨entry, hentry, rfl⟩ := List.mem_map.mp hold
        have hcomplete := List.all_eq_true.mp hprocessed entry hentry
        have htokens := hcursor.tokens_eq htrimmed hentry hcomplete
        have hspared := (hcursor.scans entry hentry).spared (Bool.and_eq_true_iff.mp hcomplete).1
        refine ChannelCursor.canEnd_new_iff.mpr ?_
        rw [htokens]
        exact ⟨hspared, fun _ h => absurd h List.not_mem_nil⟩
      · exact hentries _ (List.mem_append_right _ (List.mem_map_of_mem hadded))
    · exact hcan.unfound addr hleft

end Scan

section Processed

variable {results : List ProcessOutgoingChannelResult} {reports : List OutgoingSubchannel}
  (hheld : SenderHeld sn backend senderAddr viewingKey recipients contents)
  (hcursor : cursor.TracksOutgoing sn backend senderAddr viewingKey contents recipients filter
    limits)
  (h : OutgoingChannelsProcessed full contents limits cursor results cursor' reports)
include hheld hcursor h

theorem OutgoingChannelsProcessed.tracks :
    cursor'.TracksOutgoing sn backend senderAddr viewingKey contents recipients filter limits := by
  have hkeys := keys_extractIf_perm ProcessOutgoingChannelResult.cursor
    (map_eq_keys h.paged fun _ _ hR => hR.recipient_eq)
  have hentry : ∀ entry ∈ cursor'.channels, (entry.1 ∈ recipients.filter (passes filter) ∧
      entry.2.channelKey =
        (channelToward sn backend senderAddr viewingKey entry.1 false).channelKey) ∧
      entry.2.Tracks contents limits := by
    intro entry hentry
    rw [h.cursor_eq] at hentry
    rcases mem_processed h.paged hentry with ⟨hkept, -⟩ | ⟨old, hold, -, processed, hR, rfl⟩
    · exact ⟨hcursor.known entry hkept, hcursor.scans entry hkept⟩
    · dsimp only
      rw [hR.recipient_eq, hR.channelKey_eq]
      exact ⟨hcursor.known old hold, hR.tracks
        (hheld.held_entry hcursor.toLagsOutgoing hold).nodup (hcursor.scans old hold)⟩
  refine ⟨⟨?_, ?_, fun entry hmem => (hentry entry hmem).1,
    fun entry hmem => (hentry entry hmem).2.toLags⟩, fun entry hmem => (hentry entry hmem).2, ?_⟩
  · rw [h.cursor_eq]
    exact hcursor.start_le
  · rw [h.cursor_eq]
    exact hkeys.nodup_iff.mpr hcursor.nodup
  · rw [h.cursor_eq]
    exact fun addr haddr => hkeys.mem_iff.mpr (hcursor.kept addr haddr)

/-- Processing its channels makes no cursor able to end. -/
theorem OutgoingChannelsProcessed.canEnd
    (hcan : cursor'.CanEndOutgoing sn backend senderAddr viewingKey contents recipients filter
      limits) :
    cursor.CanEndOutgoing sn backend senderAddr viewingKey contents recipients filter limits := by
  rw [h.cursor_eq] at hcan
  refine ⟨hcan.room, fun entry hentry => ?_, hcan.unfound⟩
  by_cases hcomplete : entry.2.isComplete = true
  · exact ChannelCursor.canEnd_of_isComplete hcomplete
  · have hpending := mem_pending.mpr ⟨hentry, Bool.eq_false_iff.mpr hcomplete⟩
    obtain ⟨processed, hmem, hR⟩ := exists_right_of_forall₂ h.paged hpending
    exact hR.canEnd (hheld.held_entry hcursor.toLagsOutgoing hentry).nodup
      (hcursor.scans entry hentry)
      (hcan.entries _ (List.mem_append_right _ (List.mem_map_of_mem hmem)))

end Processed

section Sync

variable {result : SyncOutgoingStateResult}
  (hheld : SenderHeld sn backend senderAddr viewingKey recipients contents)
  (hcursor : cursor.TracksOutgoing sn backend senderAddr viewingKey contents recipients filter
    limits)
  (h : OutgoingPaged full sn backend senderAddr viewingKey contents recipients filter limits cursor
    result)
include hheld hcursor h

theorem OutgoingPaged.tracks :
    result.cursor.TracksOutgoing sn backend senderAddr viewingKey contents recipients filter
      limits := by
  obtain ⟨scanned, found, results, hpage, hprocessed, -⟩ := h.steps
  rcases hpage with ⟨-, hpage⟩ | ⟨-, rfl, -⟩
  · exact hprocessed.tracks hheld (hpage.tracks hcursor)
  · exact hprocessed.tracks hheld hcursor

/-- The reports of a page have no index beyond the last note. -/
theorem OutgoingPaged.reports_le {report : OutgoingSubchannel}
    (hreport : report ∈ result.subchannels) : report.recipientAddr ∈ recipients ∧
      report.token ∈ contents.tokens
        (channelToward sn backend senderAddr viewingKey report.recipientAddr false).channelKey ∧
      report.lastNoteIndex.elim 0 (· + 1) ≤ contents.count
        (channelToward sn backend senderAddr viewingKey report.recipientAddr false).channelKey
        report.token := by
  obtain ⟨scanned, found, results, hpage, ⟨hresults, hreports, -⟩, -⟩ := h.steps
  have hscanned : scanned.TracksOutgoing sn backend senderAddr viewingKey contents recipients filter
      limits := by
    rcases hpage with ⟨-, hpage⟩ | ⟨-, rfl, -⟩
    · exact hpage.tracks hcursor
    · exact hcursor
  rw [hreports] at hreport
  obtain ⟨processed, hprocessed, hreport⟩ := List.mem_flatMap.mp hreport
  obtain ⟨entry, hentry, hR⟩ := exists_left_of_forall₂ hresults hprocessed
  have hentry' := (mem_pending.mp hentry).1
  obtain ⟨haddr, htoken, hlast⟩ := hR.reports_le
    (hheld.held_entry hscanned.toLagsOutgoing hentry').nodup (hscanned.scans entry hentry')
    report hreport
  obtain ⟨hrecipient, hkey⟩ := hscanned.known entry hentry'
  rw [hkey] at htoken hlast
  rw [haddr]
  exact ⟨List.mem_of_mem_filter hrecipient, htoken, hlast⟩

theorem OutgoingPaged.canEnd (hnodup : recipients.Nodup) (htrimmed : cursor.Trimmed)
    (hcan : result.cursor.CanEndOutgoing sn backend senderAddr viewingKey contents recipients filter
      limits) :
    cursor.CanEndOutgoing sn backend senderAddr viewingKey contents recipients filter limits := by
  obtain ⟨scanned, found, results, hpage, hprocessed, -⟩ := h.steps
  rcases hpage with ⟨hall, hpage⟩ | ⟨-, rfl, -⟩
  · exact hpage.canEnd hcursor hnodup htrimmed hall
      (hprocessed.canEnd hheld (hpage.tracks hcursor) hcan)
  · exact hprocessed.canEnd hheld hcursor hcan

end Sync

end Page

end PrivacyPool.Discovery
