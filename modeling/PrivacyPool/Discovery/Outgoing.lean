import PrivacyPool.Discovery.Accounting

/-!
# What an outgoing page does

A page of the outgoing sync finds new channels when the cursor has no pending work, then
finds the next subchannels of each incomplete channel and probes the note boundary of each
incomplete subchannel, on which it reports. Once all channels are known it adds the
requested channels that are not there yet.

## Main definitions

* `OutgoingSubchannelPaged`, `OutgoingChannelPaged`, `OutgoingPaged` — what a page does
* `DiscoveryCursor.FollowsOutgoing`, `DiscoveryCursor.LagsOutgoing` — cursors of a sender
* `DiscoveryCursor.Awaits` — a report on a subchannel is still to come

## Main results

* `syncOutgoingState_within` — a page does just this, or a note boundary is out of reach
* `OutgoingPaged.settles` — what is no longer awaited after a page is in its reports
-/

namespace PrivacyPool.Discovery

open Budget.Task HashMap

variable {full : Prop} {sn : Starknet} {backend : Backend} {contents : Contents}
  {cursorLimits : CursorLimits}

/-! ### Subchannels -/

/-- A page probes the boundary of a subchannel and reports on it. -/
structure OutgoingSubchannelPaged (full : Prop) (contents : Contents) (maxNoteLogIndex : ℕ)
    (channelKey : Felt) (entry : Felt × SubchannelCursor)
    (result : ProcessOutgoingSubchannelResult) : Prop where
  token_eq : result.token = entry.1
  probed : ∃ (probed : SubchannelCursor) (hasMore : Bool),
    BoundaryFound (contents.count channelKey entry.1) maxNoteLogIndex entry.2 probed hasMore ∧
      result.cursor = { probed with noteDiscoveryComplete := !hasMore } ∧
      (full → hasMore = false)
  reported : result.lastNoteIndex = result.cursor.lastExistingIndex

theorem processOutgoingSubchannel_within {channelKey : Felt}
    (hheld : contents.Held sn backend channelKey) {entry : Felt × SubchannelCursor}
    (htoken : entry.1 ∈ contents.tokens channelKey)
    (hopen : entry.2.noteDiscoveryComplete = false)
    (hstart : entry.2.totalNNotes = none → entry.2.startIndex ≤ contents.count channelKey entry.1)
    {maxNoteLogIndex : ℕ} :
    (processOutgoingSubchannel sn backend channelKey entry.1 entry.2 maxNoteLogIndex).Within full
      (fun _ => entry.2.totalNNotes = none ∧ 2 ^ maxNoteLogIndex ≤ contents.count channelKey entry.1)
      (OutgoingSubchannelPaged full contents maxNoteLogIndex channelKey entry) := by
  unfold processOutgoingSubchannel
  rw [hopen]
  refine within_bind (((findLastNoteIndex_within (hheld.notes _ htoken) hstart).weaken
    fun e he => ?_).mono ?_)
  · exact ⟨he.2.1, (Nat.le_add_left _ _).trans he.2.2⟩
  · rintro ⟨probed, _, hasMore⟩ ⟨-, hfound, hgranted⟩
    exact within_pure ⟨rfl, ⟨probed, hasMore, hfound, rfl, hgranted⟩, rfl⟩

/-! ### Channels -/

/-- The incomplete subchannels of a channel are probed. -/
structure OutgoingSubchannelsProcessed (full : Prop) (contents : Contents) (maxNoteLogIndex : ℕ)
    (recipientAddr : Felt) (cursor : ChannelCursor) (results : List ProcessOutgoingSubchannelResult)
    (result : ProcessOutgoingChannelResult) : Prop where
  paged : List.Forall₂ (OutgoingSubchannelPaged full contents maxNoteLogIndex cursor.channelKey)
    (pending SubchannelCursor.noteDiscoveryComplete cursor.subchannels) results
  recipient_eq : result.recipientAddr = recipientAddr
  reports_eq : result.subchannels = results.map fun processed =>
    ⟨recipientAddr, processed.token, processed.lastNoteIndex⟩
  cursor_eq : result.cursor = { cursor with
    subchannels := kept SubchannelCursor.noteDiscoveryComplete cursor.subchannels ++
      results.map fun processed => (processed.token, processed.cursor) }

/-- A page finds the next subchannels of a channel and probes the incomplete ones. -/
structure OutgoingChannelPaged (full : Prop) (contents : Contents) (cursorLimits : CursorLimits)
    (entry : Felt × ChannelCursor) (result : ProcessOutgoingChannelResult) : Prop where
  steps : ∃ (scanned : ChannelCursor) (results : List ProcessOutgoingSubchannelResult),
    SubchannelsPage full (contents.tokens entry.2.channelKey) cursorLimits.maxSubchannels entry.2
      scanned ∧
    OutgoingSubchannelsProcessed full contents cursorLimits.maxNoteLogIndex entry.1 scanned results
      result

theorem OutgoingChannelPaged.recipient_eq {entry : Felt × ChannelCursor}
    {result : ProcessOutgoingChannelResult}
    (h : OutgoingChannelPaged full contents cursorLimits entry result) :
    result.recipientAddr = entry.1 := by
  obtain ⟨scanned, results, -, hprocessed⟩ := h.steps
  exact hprocessed.recipient_eq

theorem OutgoingSubchannelsProcessed.of_paged (recipientAddr : Felt) {cursor : ChannelCursor}
    (hcursor : cursor.Lags contents) {maxNoteLogIndex : ℕ}
    {results : List ProcessOutgoingSubchannelResult}
    (h : List.Forall₂ (OutgoingSubchannelPaged full contents maxNoteLogIndex cursor.channelKey)
      (pending SubchannelCursor.noteDiscoveryComplete cursor.subchannels) results) :
    OutgoingSubchannelsProcessed full contents maxNoteLogIndex recipientAddr cursor results
      { recipientAddr
        subchannels := results.map fun result =>
          ⟨recipientAddr, result.token, result.lastNoteIndex⟩
        cursor := { cursor with
          subchannels := results.foldl (fun m result => insert m result.token result.cursor)
            (kept SubchannelCursor.noteDiscoveryComplete cursor.subchannels) } } := by
  have hkeys := map_eq_keys h fun _ _ h => h.token_eq
  have hfold := foldl_insert_extractIf hcursor.nodup ProcessOutgoingSubchannelResult.cursor hkeys
  exact ⟨h, rfl, rfl, congrArg (fun subchannels => { cursor with subchannels }) hfold⟩

theorem pendingOutgoingSubchannels_within {cursor : ChannelCursor}
    (hheld : contents.Held sn backend cursor.channelKey) (hcursor : cursor.Lags contents)
    {maxNoteLogIndex : ℕ} {sub : Felt × SubchannelCursor}
    (hsub : sub ∈ pending SubchannelCursor.noteDiscoveryComplete cursor.subchannels) :
    (processOutgoingSubchannel sn backend cursor.channelKey sub.1 sub.2 maxNoteLogIndex).Within full
      (fun _ => cursor.Exceeds contents maxNoteLogIndex)
      (OutgoingSubchannelPaged full contents maxNoteLogIndex cursor.channelKey sub) := by
  obtain ⟨hmem, hopen⟩ := mem_pending.mp hsub
  refine (processOutgoingSubchannel_within hheld (hcursor.known sub hmem) hopen
    (hcursor.resumable sub hmem)).weaken ?_
  exact fun _ ⟨hnone, hcount⟩ => ⟨sub.1, .inl ⟨sub, hmem, rfl, hopen, hnone⟩, hcount⟩

theorem processOutgoingSubchannels_within {recipientAddr : Felt} {cursor : ChannelCursor}
    (hheld : contents.Held sn backend cursor.channelKey) (hcursor : cursor.Lags contents)
    {maxNoteLogIndex : ℕ} {turns : List ℕ} :
    (processOutgoingSubchannels sn backend recipientAddr cursor.channelKey cursor maxNoteLogIndex
      turns).Within full (fun _ => cursor.Exceeds contents maxNoteLogIndex) fun result =>
        ∃ results, OutgoingSubchannelsProcessed full contents maxNoteLogIndex recipientAddr cursor
          results result := by
  refine within_bind ((within_parallel fun sub hsub =>
    pendingOutgoingSubchannels_within hheld hcursor hsub).mono fun results hresults => ?_)
  exact within_pure ⟨results, .of_paged recipientAddr hcursor hresults⟩

theorem processOutgoingChannel_within {entry : Felt × ChannelCursor}
    (hheld : contents.Held sn backend entry.2.channelKey) (hcursor : entry.2.Lags contents)
    {turns : List ℕ} :
    (processOutgoingChannel sn backend entry.1 entry.2 cursorLimits.maxSubchannels
      cursorLimits.maxNoteLogIndex turns).Within full
      (fun _ => entry.2.Exceeds contents cursorLimits.maxNoteLogIndex)
      (OutgoingChannelPaged full contents cursorLimits entry) := by
  unfold processOutgoingChannel
  refine within_bind ((discoverSubchannelsPaginated_within hheld hcursor.start_le).mono ?_)
  rintro ⟨scanned, _⟩ hpage
  have hkey := hpage.channelKey_eq
  dsimp only
  have hscanned := hpage.lags hheld.nodup hcursor
  have hheld' : contents.Held sn backend scanned.channelKey := hkey ▸ hheld
  rw [← hkey]
  refine ((processOutgoingSubchannels_within hheld' hscanned).weaken fun _ hexceeds => ?_).mono ?_
  · exact hpage.exceeds hexceeds
  · exact fun result ⟨results, hresults⟩ => ⟨scanned, results, hpage, hresults⟩

/-! ### The page -/

/-- The channels toward the requested recipients that are registered and not in the cursor. -/
def missingToward (sn : Starknet) (backend : Backend) (senderAddr viewingKey : Felt)
    (filter : Option (List Felt)) (cursor : DiscoveryCursor) : List OutgoingChannel :=
  ((filter.getD []).filter fun addr =>
    addr ∉ keys cursor.channels ∧ backend.getPublicKey sn addr ≠ 0).map
      (channelToward sn backend senderAddr viewingKey · true)

/-- The incomplete channels of a cursor are processed. -/
structure OutgoingChannelsProcessed (full : Prop) (contents : Contents)
    (cursorLimits : CursorLimits) (cursor : DiscoveryCursor)
    (results : List ProcessOutgoingChannelResult) (cursor' : DiscoveryCursor)
    (reports : List OutgoingSubchannel) : Prop where
  paged : List.Forall₂ (OutgoingChannelPaged full contents cursorLimits)
    (pending ChannelCursor.isComplete cursor.channels) results
  reports_eq : reports = results.flatMap (·.subchannels)
  cursor_eq : cursor' = { cursor with
    channels := kept ChannelCursor.isComplete cursor.channels ++
      results.map fun processed => (processed.recipientAddr, processed.cursor) }

/-- A page finds the next channels, when none in the cursor is incomplete, processes the
incomplete ones, and adds the missing ones once all are found. -/
structure OutgoingPaged (full : Prop) (sn : Starknet) (backend : Backend)
    (senderAddr viewingKey : Felt) (contents : Contents) (recipients : List Felt)
    (filter : Option (List Felt)) (cursorLimits : CursorLimits) (cursor : DiscoveryCursor)
    (result : SyncOutgoingStateResult) : Prop where
  steps : ∃ (scanned : DiscoveryCursor) (found : List OutgoingChannel)
      (results : List ProcessOutgoingChannelResult),
    (cursor.allChannelsProcessed = true ∧ OutgoingPage full sn backend senderAddr viewingKey
      recipients filter cursorLimits.maxChannels cursor scanned found ∨
    cursor.allChannelsProcessed = false ∧ scanned = cursor ∧ found = []) ∧
    OutgoingChannelsProcessed full contents cursorLimits scanned results result.cursor
      result.subchannels ∧
    result.channels = found ++ if result.cursor.channelDiscoveryComplete then
      missingToward sn backend senderAddr viewingKey filter result.cursor else []

/-- The cursor of a sender follows the contents. Its incomplete subchannels are untouched:
a probe is done in full or not at all. -/
structure DiscoveryCursor.FollowsOutgoing (sn : Starknet) (backend : Backend)
    (senderAddr viewingKey : Felt) (contents : Contents) (recipients : List Felt)
    (filter : Option (List Felt)) (cursor : DiscoveryCursor) : Prop where
  start_le : nextIndex cursor.lastChannelIndex ≤ recipients.length
  ended : cursor.channelDiscoveryComplete = true →
    nextIndex cursor.lastChannelIndex = recipients.length ∧
      cursor.totalNChannels = some recipients.length
  nodup : (keys cursor.channels).Nodup
  known : ∀ entry ∈ cursor.channels,
    entry.1 ∈ (recipients.take (nextIndex cursor.lastChannelIndex)).filter (passes filter) ∧
      entry.2.channelKey = (channelToward sn backend senderAddr viewingKey entry.1 false).channelKey
  entries : ∀ entry ∈ cursor.channels, entry.2.Follows contents
  untouched : ∀ entry ∈ cursor.channels, ∀ sub ∈ entry.2.subchannels,
    sub.2.noteDiscoveryComplete = false → sub.2 = {}

/-- The cursor of a sender lags behind the contents: its channels exist and pass the filter, but
the scan need not have come to them. -/
structure DiscoveryCursor.LagsOutgoing (sn : Starknet) (backend : Backend)
    (senderAddr viewingKey : Felt) (contents : Contents) (recipients : List Felt)
    (filter : Option (List Felt)) (cursor : DiscoveryCursor) : Prop where
  start_le : nextIndex cursor.lastChannelIndex ≤ recipients.length
  nodup : (keys cursor.channels).Nodup
  known : ∀ entry ∈ cursor.channels, entry.1 ∈ recipients.filter (passes filter) ∧
    entry.2.channelKey = (channelToward sn backend senderAddr viewingKey entry.1 false).channelKey
  entries : ∀ entry ∈ cursor.channels, entry.2.Lags contents

section Page

variable {senderAddr viewingKey : Felt} {recipients : List Felt} {filter : Option (List Felt)}
  {cursor : DiscoveryCursor}

theorem DiscoveryCursor.FollowsOutgoing.lags
    (h : cursor.FollowsOutgoing sn backend senderAddr viewingKey contents recipients filter) :
    cursor.LagsOutgoing sn backend senderAddr viewingKey contents recipients filter where
  start_le := h.start_le
  nodup := h.nodup
  known entry hentry := ⟨((List.take_sublist _ _).filter _).subset (h.known entry hentry).1,
    (h.known entry hentry).2⟩
  entries entry hentry := (h.entries entry hentry).lags

theorem precomputeChannels_within {E : DiscoveryError → Prop} (addrs : List Felt) :
    (precomputeChannels sn backend senderAddr viewingKey addrs).Within full E fun channels =>
      channels = (addrs.filter fun addr => backend.getPublicKey sn addr ≠ 0).map
        (channelToward sn backend senderAddr viewingKey · true) := by
  unfold precomputeChannels
  split_ifs with hempty
  · rw [List.isEmpty_iff.mp hempty]
    exact within_pure rfl
  · refine within_bind (within_consume fun _ _ => within_bind (within_read (within_pure ?_)))
    rw [List.filterMap_map, ← List.filterMap_eq_map, List.filterMap_filter]
    refine List.filterMap_congr fun addr _ => ?_
    simp only [decide_eq_true_eq]
    rfl

theorem missingChannels_within {E : DiscoveryError → Prop} :
    (missingChannels sn backend senderAddr viewingKey cursor filter).Within full E fun channels =>
      channels = if cursor.channelDiscoveryComplete then
        missingToward sn backend senderAddr viewingKey filter cursor else [] := by
  unfold missingChannels
  split_ifs with hcomplete
  · refine (precomputeChannels_within _).mono fun channels hchannels => ?_
    rw [hchannels, missingRecipients, List.filter_filter, missingToward]
    congr 1
    refine List.filter_congr fun addr _ => ?_
    simp [Bool.and_comm]
  · exact within_pure rfl

theorem newOutgoingChannels_within {E : DiscoveryError → Prop}
    (hheld : OutgoingHeld sn backend senderAddr viewingKey recipients)
    (hstart : nextIndex cursor.lastChannelIndex ≤ recipients.length) {maxChannels : ℕ} :
    (newOutgoingChannels sn backend senderAddr viewingKey cursor maxChannels filter).Within full E
      fun result =>
        cursor.allChannelsProcessed = true ∧ OutgoingPage full sn backend senderAddr viewingKey
          recipients filter maxChannels cursor result.1 result.2 ∨
        cursor.allChannelsProcessed = false ∧ result.1 = cursor ∧ result.2 = [] := by
  unfold newOutgoingChannels
  split_ifs with hprocessed
  · refine (discoverOutgoingChannelsPaginated_within hheld hstart).mono ?_
    exact fun result hpage => .inl ⟨hprocessed, hpage⟩
  · exact within_pure (.inr ⟨Bool.eq_false_iff.mpr hprocessed, rfl, rfl⟩)

/-- Finding channels keeps the cursor on the contents. -/
theorem OutgoingPage.follows {scanned : DiscoveryCursor} {found : List OutgoingChannel}
    {maxChannels : ℕ}
    (hcursor : cursor.FollowsOutgoing sn backend senderAddr viewingKey contents recipients filter)
    (h : OutgoingPage full sn backend senderAddr viewingKey recipients filter maxChannels cursor
      scanned found) :
    scanned.FollowsOutgoing sn backend senderAddr viewingKey contents recipients filter := by
  cases h with
  | closed h => exact hcursor
  | @advanced number complete found new hopen hadvance hslots hfound hnew hnodup hfresh hall =>
    have hle := hadvance.le_length' hcursor.start_le
    have hkeys := nodup_keys_append new id (fun addr => newChannelCursor
      (channelToward sn backend senderAddr viewingKey addr false).channelKey) hcursor.nodup
      (by rwa [List.map_id]) hfresh
    -- What the scan has passed is what it had passed and what it has found.
    have htake : recipients.take (nextIndex (lastIndexAfter cursor.lastChannelIndex number)) =
        recipients.take (nextIndex cursor.lastChannelIndex) ++
          (recipients.drop (nextIndex cursor.lastChannelIndex)).take number := by
      rw [nextIndex_lastIndexAfter, List.take_add]
    refine ⟨?_, ?_, hkeys, ?_, ?_, ?_⟩
    · simpa using hle
    · intro hcomplete
      dsimp only at hcomplete ⊢
      rw [nextIndex_lastIndexAfter, if_pos hcomplete]
      exact ⟨hadvance.ended hcomplete, rfl⟩
    · intro entry hentry
      rw [htake, List.filter_append, List.mem_append]
      rcases List.mem_append.mp hentry with hold | hadded
      · exact ⟨.inl (hcursor.known entry hold).1, (hcursor.known entry hold).2⟩
      · obtain ⟨addr, haddr, rfl⟩ := List.mem_map.mp hadded
        exact ⟨.inr (hfound ▸ hnew.subset haddr), rfl⟩
    · intro entry hentry
      rcases List.mem_append.mp hentry with hold | hadded
      · exact hcursor.entries entry hold
      · obtain ⟨addr, haddr, rfl⟩ := List.mem_map.mp hadded
        exact ChannelCursor.follows_new contents _
    · intro entry hentry
      rcases List.mem_append.mp hentry with hold | hadded
      · exact hcursor.untouched entry hold
      · obtain ⟨addr, haddr, rfl⟩ := List.mem_map.mp hadded
        exact fun _ hsub => nomatch hsub

theorem OutgoingPage.lags {scanned : DiscoveryCursor} {found : List OutgoingChannel}
    {maxChannels : ℕ}
    (hcursor : cursor.LagsOutgoing sn backend senderAddr viewingKey contents recipients filter)
    (h : OutgoingPage full sn backend senderAddr viewingKey recipients filter maxChannels cursor
      scanned found) :
    scanned.LagsOutgoing sn backend senderAddr viewingKey contents recipients filter := by
  cases h with
  | closed h => exact hcursor
  | @advanced number complete found new hopen hadvance hslots hfound hnew hnodup hfresh hall =>
    have hle := hadvance.le_length' hcursor.start_le
    have hkeys := nodup_keys_append new id (fun addr => newChannelCursor
      (channelToward sn backend senderAddr viewingKey addr false).channelKey) hcursor.nodup
      (by rwa [List.map_id]) hfresh
    have hpass : new ⊆ recipients.filter (passes filter) := fun addr haddr =>
      (((List.take_sublist _ _).trans (List.drop_sublist _ _)).filter _).subset
        (hfound ▸ hnew.subset haddr)
    refine ⟨by simpa using hle, hkeys, fun entry hentry => ?_, fun entry hentry => ?_⟩
    · rcases List.mem_append.mp hentry with hold | hadded
      · exact hcursor.known entry hold
      · obtain ⟨addr, haddr, rfl⟩ := List.mem_map.mp hadded
        exact ⟨hpass haddr, rfl⟩
    · rcases List.mem_append.mp hentry with hold | hadded
      · exact hcursor.entries entry hold
      · obtain ⟨addr, -, rfl⟩ := List.mem_map.mp hadded
        exact (ChannelCursor.follows_new contents _).lags

/-- The cursor after the channels of a page are found. -/
theorem lagsOutgoing_of_scanned {scanned : DiscoveryCursor} {found : List OutgoingChannel}
    {maxChannels : ℕ}
    (hcursor : cursor.LagsOutgoing sn backend senderAddr viewingKey contents recipients filter)
    (h : cursor.allChannelsProcessed = true ∧ OutgoingPage full sn backend senderAddr viewingKey
        recipients filter maxChannels cursor scanned found ∨
      cursor.allChannelsProcessed = false ∧ scanned = cursor ∧ found = []) :
    scanned.LagsOutgoing sn backend senderAddr viewingKey contents recipients filter := by
  rcases h with ⟨-, hpage⟩ | ⟨-, rfl, -⟩
  · exact hpage.lags hcursor
  · exact hcursor

theorem followsOutgoing_of_scanned {scanned : DiscoveryCursor} {found : List OutgoingChannel}
    {maxChannels : ℕ}
    (hcursor : cursor.FollowsOutgoing sn backend senderAddr viewingKey contents recipients filter)
    (h : cursor.allChannelsProcessed = true ∧ OutgoingPage full sn backend senderAddr viewingKey
        recipients filter maxChannels cursor scanned found ∨
      cursor.allChannelsProcessed = false ∧ scanned = cursor ∧ found = []) :
    scanned.FollowsOutgoing sn backend senderAddr viewingKey contents recipients filter := by
  rcases h with ⟨-, hpage⟩ | ⟨-, rfl, -⟩
  · exact hpage.follows hcursor
  · exact hcursor

/-- The pool holds the channels of a sender and their contents. -/
structure SenderHeld (sn : Starknet) (backend : Backend) (senderAddr viewingKey : Felt)
    (recipients : List Felt) (contents : Contents) : Prop where
  listed : OutgoingHeld sn backend senderAddr viewingKey recipients
  held : ∀ addr ∈ recipients, contents.Held sn backend
    (channelToward sn backend senderAddr viewingKey addr false).channelKey

theorem DiscoveryCursor.LagsOutgoing.mem_recipients
    (hcursor : cursor.LagsOutgoing sn backend senderAddr viewingKey contents recipients filter)
    {entry : Felt × ChannelCursor} (hentry : entry ∈ cursor.channels) : entry.1 ∈ recipients :=
  List.mem_of_mem_filter (hcursor.known entry hentry).1

theorem SenderHeld.held_entry
    (hheld : SenderHeld sn backend senderAddr viewingKey recipients contents)
    (hcursor : cursor.LagsOutgoing sn backend senderAddr viewingKey contents recipients filter)
    {entry : Felt × ChannelCursor} (hentry : entry ∈ cursor.channels) :
    contents.Held sn backend entry.2.channelKey := by
  rw [(hcursor.known entry hentry).2]
  exact hheld.held _ (hcursor.mem_recipients hentry)

/-- The recipients that pass the filter and are yet to be found. -/
def DiscoveryCursor.unfoundToward (recipients : List Felt) (filter : Option (List Felt))
    (cursor : DiscoveryCursor) : List Felt :=
  if cursor.channelDiscoveryComplete then []
  else (recipients.drop (nextIndex cursor.lastChannelIndex)).filter (passes filter)

/-- A boundary that is still to be found is out of reach of the probe. -/
def DiscoveryCursor.ExceedsToward (sn : Starknet) (backend : Backend) (senderAddr viewingKey : Felt)
    (contents : Contents) (recipients : List Felt) (filter : Option (List Felt))
    (maxNoteLogIndex : ℕ) (cursor : DiscoveryCursor) : Prop :=
  (∃ entry ∈ cursor.channels, entry.2.Exceeds contents maxNoteLogIndex) ∨
    ∃ addr ∈ cursor.unfoundToward recipients filter,
      (newChannelCursor (channelToward sn backend senderAddr viewingKey addr
        false).channelKey).Exceeds contents maxNoteLogIndex

/-- What a page finds is the beginning of what was left to find. -/
theorem OutgoingPage.unfoundToward_eq {scanned : DiscoveryCursor} {found : List OutgoingChannel}
    {maxChannels : ℕ}
    (h : OutgoingPage full sn backend senderAddr viewingKey recipients filter maxChannels cursor
      scanned found) :
    ∃ addrs, cursor.unfoundToward recipients filter =
      addrs ++ scanned.unfoundToward recipients filter ∧
        found = addrs.map (channelToward sn backend senderAddr viewingKey · false) ∧
        ∃ new : List Felt, new.Sublist addrs ∧
          (∀ addr ∈ addrs, addr ∈ keys cursor.channels ∨ addr ∈ new) ∧
          scanned.channels = cursor.channels ++ new.map fun addr =>
            (addr, newChannelCursor
              (channelToward sn backend senderAddr viewingKey addr false).channelKey) := by
  cases h with
  | closed h =>
    exact ⟨[], rfl, rfl, [], List.nil_sublist _, fun _ h => (nomatch h), (List.append_nil _).symm⟩
  | @advanced number complete found new hopen hadvance hslots hfound hnew hnodup hfresh hall =>
    refine ⟨found, ?_, rfl, new, hnew, hall, rfl⟩
    unfold DiscoveryCursor.unfoundToward
    rw [hopen, hfound]
    -- A scan that is over leaves nothing, as it is at the end of the recipients.
    have hleft : (if complete = true then [] else (recipients.drop
        (nextIndex (lastIndexAfter cursor.lastChannelIndex number))).filter (passes filter)) =
        ((recipients.drop (nextIndex cursor.lastChannelIndex)).drop number).filter
          (passes filter) := by
      rw [nextIndex_lastIndexAfter, List.drop_drop]
      split_ifs with hcomplete
      · rw [hadvance.ended hcomplete, List.drop_length]
        rfl
      · rfl
    dsimp only
    rw [hleft, ← List.filter_append, List.take_append_drop]
    rfl

theorem OutgoingPage.exceedsToward {scanned : DiscoveryCursor} {found : List OutgoingChannel}
    {maxChannels : ℕ}
    (h : OutgoingPage full sn backend senderAddr viewingKey recipients filter maxChannels cursor
      scanned found) {maxNoteLogIndex : ℕ}
    (hexceeds : scanned.ExceedsToward sn backend senderAddr viewingKey contents recipients filter
      maxNoteLogIndex) :
    cursor.ExceedsToward sn backend senderAddr viewingKey contents recipients filter
      maxNoteLogIndex := by
  obtain ⟨addrs, hunfound, -, new, hnew, -, hchannels⟩ := h.unfoundToward_eq
  unfold DiscoveryCursor.ExceedsToward at hexceeds ⊢
  rw [hunfound]
  rcases hexceeds with ⟨entry, hentry, hexceeds⟩ | ⟨addr, haddr, hexceeds⟩
  · rw [hchannels] at hentry
    rcases List.mem_append.mp hentry with hold | hadded
    · exact .inl ⟨entry, hold, hexceeds⟩
    · obtain ⟨addr, haddr, rfl⟩ := List.mem_map.mp hadded
      exact .inr ⟨addr, List.mem_append_left _ (hnew.subset haddr), hexceeds⟩
  · exact .inr ⟨addr, List.mem_append_right _ haddr, hexceeds⟩

theorem OutgoingChannelsProcessed.of_paged
    (hcursor : cursor.LagsOutgoing sn backend senderAddr viewingKey contents recipients filter)
    {results : List ProcessOutgoingChannelResult}
    (h : List.Forall₂ (OutgoingChannelPaged full contents cursorLimits)
      (pending ChannelCursor.isComplete cursor.channels) results) :
    OutgoingChannelsProcessed full contents cursorLimits cursor results
      { cursor with
        channels := results.foldl (fun m result => insert m result.recipientAddr result.cursor)
          (kept ChannelCursor.isComplete cursor.channels) }
      (results.flatMap (·.subchannels)) := by
  have hkeys := map_eq_keys h fun _ _ h => h.recipient_eq
  have hfold := foldl_insert_extractIf hcursor.nodup ProcessOutgoingChannelResult.cursor hkeys
  exact ⟨h, rfl, congrArg (fun channels => { cursor with channels }) hfold⟩

theorem pendingOutgoingChannels_within
    (hheld : SenderHeld sn backend senderAddr viewingKey recipients contents)
    (hcursor : cursor.LagsOutgoing sn backend senderAddr viewingKey contents recipients filter)
    {entry : Felt × ChannelCursor}
    (hentry : entry ∈ pending ChannelCursor.isComplete cursor.channels) {turns : List ℕ} :
    (processOutgoingChannel sn backend entry.1 entry.2 cursorLimits.maxSubchannels
      cursorLimits.maxNoteLogIndex turns).Within full
      (fun _ => cursor.ExceedsToward sn backend senderAddr viewingKey contents recipients filter
        cursorLimits.maxNoteLogIndex)
      (OutgoingChannelPaged full contents cursorLimits entry) := by
  have hmem := (mem_pending.mp hentry).1
  exact (processOutgoingChannel_within (hheld.held_entry hcursor hmem)
    (hcursor.entries entry hmem)).weaken fun _ hexceeds => .inl ⟨entry, hmem, hexceeds⟩

theorem processOutgoingChannels_within {schedule : Schedule}
    (hheld : SenderHeld sn backend senderAddr viewingKey recipients contents)
    (hcursor : cursor.LagsOutgoing sn backend senderAddr viewingKey contents recipients filter) :
    (processOutgoingChannels sn backend cursor cursorLimits schedule).Within full
      (fun _ => cursor.ExceedsToward sn backend senderAddr viewingKey contents recipients filter
        cursorLimits.maxNoteLogIndex) fun result =>
        ∃ results, OutgoingChannelsProcessed full contents cursorLimits cursor results result.1
          result.2 := by
  refine within_bind ((within_parallel fun entry hentry =>
    pendingOutgoingChannels_within hheld hcursor hentry).mono fun results hresults => ?_)
  exact within_pure ⟨results, .of_paged hcursor hresults⟩

/-- A page does what it is said to do, or some note boundary is out of reach. -/
theorem syncOutgoingState_within {schedule : Schedule}
    (hheld : SenderHeld sn backend senderAddr viewingKey recipients contents)
    (hcursor : cursor.LagsOutgoing sn backend senderAddr viewingKey contents recipients filter) :
    (syncOutgoingState sn backend senderAddr viewingKey cursor cursorLimits filter
      schedule).Within full
      (fun _ => cursor.ExceedsToward sn backend senderAddr viewingKey contents recipients filter
        cursorLimits.maxNoteLogIndex)
      (OutgoingPaged full sn backend senderAddr viewingKey contents recipients filter cursorLimits
        cursor) := by
  unfold syncOutgoingState
  refine within_bind ((newOutgoingChannels_within hheld.listed hcursor.start_le).mono ?_)
  rintro ⟨scanned, found⟩ hscanned
  have hlags := lagsOutgoing_of_scanned hcursor hscanned
  refine within_bind (((processOutgoingChannels_within hheld hlags).weaken
    fun _ hexceeds => ?_).mono ?_)
  · rcases hscanned with ⟨-, hpage⟩ | ⟨-, rfl, -⟩
    · exact hpage.exceedsToward hexceeds
    · exact hexceeds
  · rintro ⟨cursor', reports⟩ ⟨results, hresults⟩
    refine within_bind (missingChannels_within.mono fun channels hchannels => ?_)
    exact within_pure ⟨scanned, found, results, hscanned, hresults,
      congrArg (found ++ ·) hchannels⟩

end Page

/-! ### Cursors stay on the contents -/

/-- An untouched subchannel stays so, or its boundary is found. -/
theorem OutgoingSubchannelPaged.cursor_eq {maxNoteLogIndex : ℕ} {channelKey token : Felt}
    {result : ProcessOutgoingSubchannelResult}
    (h : OutgoingSubchannelPaged full contents maxNoteLogIndex channelKey (token, {}) result) :
    result.cursor = {} ∧ ¬full ∨
      result.cursor = { noteDiscoveryComplete := true
                        totalNNotes := some (contents.count channelKey token) } := by
  obtain ⟨probed, hasMore, hfound, hresult, hgranted⟩ := h.probed
  rw [hresult]
  cases hfound with
  | short h => exact .inl ⟨rfl, fun hfull => nomatch hgranted hfull⟩
  | cached h => cases h
  | found h hrange =>
    -- The probe starts at zero, and a count of zero is found as such.
    have htotal : ∀ count : ℕ,
        (if count = ({} : SubchannelCursor).startIndex then 0 else count) = count := by
      intro count
      split_ifs with hzero
      · exact hzero.symm
      · rfl
    exact .inr (congrArg (fun total => (⟨true, none, some total⟩ : SubchannelCursor)) (htotal _))

section Channel

variable {maxNoteLogIndex : ℕ} {recipientAddr : Felt} {cursor : ChannelCursor}
  {results : List ProcessOutgoingSubchannelResult} {entry : Felt × ChannelCursor}
  {result : ProcessOutgoingChannelResult}

/-- The subchannels that are found are untouched. -/
theorem SubchannelsPage.untouched {tokens : List Felt} {maxCursorSubchannels : ℕ}
    {cursor' : ChannelCursor}
    (huntouched : ∀ sub ∈ cursor.subchannels, sub.2.noteDiscoveryComplete = false → sub.2 = {})
    (h : SubchannelsPage full tokens maxCursorSubchannels cursor cursor') :
    ∀ sub ∈ cursor'.subchannels, sub.2.noteDiscoveryComplete = false → sub.2 = {} := by
  cases h with
  | closed h => exact huntouched
  | advanced hopen hadvance hslots =>
    intro sub hsub hincomplete
    rcases List.mem_append.mp hsub with hold | hnew
    · exact huntouched sub hold hincomplete
    · obtain ⟨token, -, rfl⟩ := List.mem_map.mp hnew
      rfl

theorem OutgoingSubchannelsProcessed.follows (hcursor : cursor.Follows contents)
    (huntouched : ∀ sub ∈ cursor.subchannels, sub.2.noteDiscoveryComplete = false → sub.2 = {})
    (h : OutgoingSubchannelsProcessed full contents maxNoteLogIndex recipientAddr cursor results
      result) :
    result.cursor.Follows contents ∧
      ∀ sub ∈ result.cursor.subchannels, sub.2.noteDiscoveryComplete = false → sub.2 = {} := by
  have hkeys := map_eq_keys h.paged fun _ _ h => h.token_eq
  rw [h.cursor_eq]
  refine ⟨⟨hcursor.start_le, ?_, ?_, ?_⟩, ?_⟩
  · exact (keys_extractIf_perm _ hkeys).nodup_iff.mpr hcursor.nodup
  · intro sub hsub
    rcases mem_processed h.paged hsub with hkept | ⟨old, hold, -, processed, hR, rfl⟩
    · exact hcursor.known sub hkept.1
    · rw [hR.token_eq]
      exact hcursor.known old hold
  · intro sub hsub hnone
    rcases mem_processed h.paged hsub with hkept | ⟨⟨token, sc⟩, hold, hopen, processed, hR, rfl⟩
    · exact hcursor.resumable sub hkept.1 hnone
    · obtain rfl := huntouched _ hold hopen
      rcases hR.cursor_eq with ⟨hcursor, -⟩ | hcursor
      · rw [hcursor]
        exact Nat.zero_le _
      · rw [hcursor] at hnone
        cases hnone
  · intro sub hsub hincomplete
    rcases mem_processed h.paged hsub with hkept | ⟨⟨token, sc⟩, hold, hopen, processed, hR, rfl⟩
    · exact huntouched sub hkept.1 hincomplete
    · obtain rfl := huntouched _ hold hopen
      rcases hR.cursor_eq with ⟨hcursor, -⟩ | hcursor
      · exact hcursor
      · rw [hcursor] at hincomplete
        cases hincomplete

theorem OutgoingChannelPaged.channelKey_eq
    (h : OutgoingChannelPaged full contents cursorLimits entry result) :
    result.cursor.channelKey = entry.2.channelKey := by
  obtain ⟨scanned, results, hpage, hprocessed⟩ := h.steps
  rw [hprocessed.cursor_eq]
  exact hpage.channelKey_eq

theorem OutgoingChannelPaged.follows (hnodup : (contents.tokens entry.2.channelKey).Nodup)
    (hentry : entry.2.Follows contents)
    (huntouched : ∀ sub ∈ entry.2.subchannels, sub.2.noteDiscoveryComplete = false → sub.2 = {})
    (h : OutgoingChannelPaged full contents cursorLimits entry result) :
    result.cursor.Follows contents ∧
      ∀ sub ∈ result.cursor.subchannels, sub.2.noteDiscoveryComplete = false → sub.2 = {} := by
  obtain ⟨scanned, results, hpage, hprocessed⟩ := h.steps
  exact hprocessed.follows (hpage.follows hnodup hentry) (hpage.untouched huntouched)

end Channel

section Page

variable {senderAddr viewingKey : Felt} {recipients : List Felt} {filter : Option (List Felt)}
  {cursor : DiscoveryCursor} {result : SyncOutgoingStateResult}

theorem DiscoveryCursor.followsOutgoing_default :
    DiscoveryCursor.FollowsOutgoing sn backend senderAddr viewingKey contents recipients filter
      {} where
  start_le := Nat.zero_le _
  ended h := nomatch h
  nodup := List.nodup_nil
  known _ h := nomatch h
  entries _ h := nomatch h
  untouched _ h := nomatch h

theorem OutgoingPaged.follows
    (hheld : SenderHeld sn backend senderAddr viewingKey recipients contents)
    (hcursor : cursor.FollowsOutgoing sn backend senderAddr viewingKey contents recipients filter)
    (h : OutgoingPaged full sn backend senderAddr viewingKey contents recipients filter cursorLimits
      cursor result) :
    result.cursor.FollowsOutgoing sn backend senderAddr viewingKey contents recipients filter := by
  obtain ⟨scanned, found, results, hpage, ⟨hresults, -, hresult⟩, -⟩ := h.steps
  have hscanned := followsOutgoing_of_scanned hcursor hpage
  have hkeys := map_eq_keys hresults fun _ _ h => h.recipient_eq
  -- An entry was complete and stays, or is the result of its processing.
  have hentry : ∀ entry ∈ result.cursor.channels,
      (entry.1 ∈ (recipients.take (nextIndex scanned.lastChannelIndex)).filter (passes filter) ∧
        entry.2.channelKey =
          (channelToward sn backend senderAddr viewingKey entry.1 false).channelKey) ∧
      entry.2.Follows contents ∧
      ∀ sub ∈ entry.2.subchannels, sub.2.noteDiscoveryComplete = false → sub.2 = {} := by
    intro entry hentry
    rw [hresult] at hentry
    rcases mem_processed hresults hentry with hkept | ⟨old, hold, -, processed, hR, rfl⟩
    · exact ⟨hscanned.known entry hkept.1, hscanned.entries entry hkept.1,
        hscanned.untouched entry hkept.1⟩
    · have hknown := hscanned.known old hold
      dsimp only
      rw [hR.recipient_eq, hR.channelKey_eq]
      exact ⟨hknown, hR.follows (hheld.held_entry hscanned.lags hold).nodup (hscanned.entries old hold)
        (hscanned.untouched old hold)⟩
  have hlast : result.cursor.lastChannelIndex = scanned.lastChannelIndex := by rw [hresult]
  refine ⟨?_, ?_, ?_, ?_, ?_, ?_⟩
  · rw [hlast]
    exact hscanned.start_le
  · rw [hresult]
    exact hscanned.ended
  · rw [hresult]
    exact (keys_extractIf_perm _ hkeys).nodup_iff.mpr hscanned.nodup
  · rw [hlast]
    exact fun entry hmem => (hentry entry hmem).1
  · exact fun entry hmem => (hentry entry hmem).2.1
  · exact fun entry hmem => (hentry entry hmem).2.2

end Page

/-- A request on a complete cursor leaves it complete. -/
theorem OutgoingPaged.isComplete {senderAddr viewingKey : Felt} {recipients : List Felt}
    {filter : Option (List Felt)} {cursor : DiscoveryCursor} {result : SyncOutgoingStateResult}
    (hcomplete : cursor.isComplete = true)
    (h : OutgoingPaged full sn backend senderAddr viewingKey contents recipients filter cursorLimits
      cursor result) : result.cursor.isComplete = true := by
  obtain ⟨scanned, found, results, hpage, hprocessed, -⟩ := h.steps
  obtain ⟨hover, hall⟩ := Bool.and_eq_true_iff.mp hcomplete
  have hsame : scanned = cursor := by
    rcases hpage with ⟨-, hpage⟩ | ⟨-, hsame, -⟩
    · cases hpage with
      | closed => rfl
      | advanced hopen =>
        rw [hover] at hopen
        cases hopen
    · exact hsame
  rw [hprocessed.cursor_eq, hsame]
  exact Bool.and_eq_true_iff.mpr ⟨hover, all_processed (hsame ▸ hprocessed.paged) hall⟩

/-! ### Reports -/

/-- The last note index of a subchannel with so many notes. -/
def lastIndexOf (count : ℕ) : Option ℕ := if count = 0 then none else some (count - 1)

theorem lastExistingIndex_total (complete : Bool) (last : Option ℕ) (count : ℕ) :
    SubchannelCursor.lastExistingIndex ⟨complete, last, some count⟩ = lastIndexOf count := by
  cases count with
  | zero => rfl
  | succ n => rw [SubchannelCursor.lastExistingIndex_succ]; rfl

/-- A channel cursor has yet to report on a token: its subchannel is incomplete or not
found yet. -/
def ChannelCursor.Awaits (contents : Contents) (cursor : ChannelCursor) (token : Felt) : Prop :=
  (∃ sub ∈ cursor.subchannels, sub.1 = token ∧ sub.2.noteDiscoveryComplete = false) ∨
    cursor.subchannelDiscoveryComplete = false ∧
      token ∈ (contents.tokens cursor.channelKey).drop (nextIndex cursor.lastSubchannelIndex)

/-- A cursor has yet to report on a token of the channel toward an address. -/
def DiscoveryCursor.Awaits (contents : Contents) (cursor : DiscoveryCursor) (addr token : Felt) :
    Prop :=
  ∃ entry ∈ cursor.channels, entry.1 = addr ∧ entry.2.Awaits contents token

theorem ChannelCursor.not_awaits {cursor : ChannelCursor} (h : cursor.isComplete = true)
    {token : Felt} : ¬cursor.Awaits contents token := by
  obtain ⟨hcomplete, hall⟩ := Bool.and_eq_true_iff.mp h
  rintro (⟨sub, hsub, -, hopen⟩ | ⟨hopen, -⟩)
  · have hdone := List.all_eq_true.mp hall sub hsub
    rw [hopen] at hdone
    cases hdone
  · rw [hcomplete] at hopen
    cases hopen

theorem DiscoveryCursor.not_awaits {cursor : DiscoveryCursor}
    (h : cursor.allChannelsProcessed = true) {addr token : Felt} :
    ¬cursor.Awaits contents addr token := by
  rintro ⟨entry, hentry, -, hawaits⟩
  exact ChannelCursor.not_awaits (List.all_eq_true.mp h entry hentry) hawaits

/-- Finding subchannels loses none that is awaited. -/
theorem SubchannelsPage.awaits {maxCursorSubchannels : ℕ} {cursor cursor' : ChannelCursor}
    (hnodup : (contents.tokens cursor.channelKey).Nodup) (hcursor : cursor.Follows contents)
    (h : SubchannelsPage full (contents.tokens cursor.channelKey) maxCursorSubchannels cursor
      cursor') {token : Felt} (hawaits : cursor.Awaits contents token) :
    cursor'.Awaits contents token := by
  cases h with
  | closed h => exact hawaits
  | @advanced number complete hopen hadvance hslots =>
    rw [hcursor.filter_fresh hnodup]
    rcases hawaits with ⟨sub, hsub, hsame, hincomplete⟩ | ⟨-, hrest⟩
    · exact .inl ⟨sub, List.mem_append_left _ hsub, hsame, hincomplete⟩
    · rw [← List.take_append_drop number (List.drop _ _), List.mem_append, List.drop_drop] at hrest
      rcases hrest with hfound | hleft
      · exact .inl ⟨(token, {}), List.mem_append_right _ (List.mem_map.mpr ⟨token, hfound, rfl⟩),
          rfl, rfl⟩
      · refine .inr ⟨Bool.eq_false_iff.mpr fun hcomplete => ?_, ?_⟩
        · -- At the end nothing is left.
          rw [hadvance.ended hcomplete, List.drop_length] at hleft
          cases hleft
        · dsimp only
          rwa [nextIndex_lastIndexAfter]

/-- A channel reports on each incomplete subchannel, and what it reports is right or to be
reported again. -/
theorem OutgoingChannelPaged.settles {entry : Felt × ChannelCursor}
    {result : ProcessOutgoingChannelResult}
    (hnodup : (contents.tokens entry.2.channelKey).Nodup) (hentry : entry.2.Follows contents)
    (huntouched : ∀ sub ∈ entry.2.subchannels, sub.2.noteDiscoveryComplete = false → sub.2 = {})
    (h : OutgoingChannelPaged full contents cursorLimits entry result) :
    (∀ token, entry.2.Awaits contents token → result.cursor.Awaits contents token ∨
      ∃ report ∈ result.subchannels, report.recipientAddr = entry.1 ∧ report.token = token) ∧
    ∀ report ∈ result.subchannels, report.recipientAddr = entry.1 ∧
      (result.cursor.Awaits contents report.token ∨
        report.lastNoteIndex = lastIndexOf (contents.count entry.2.channelKey report.token)) := by
  obtain ⟨scanned, results, hpage, hresults, -, hreports, hresult⟩ := h.steps
  have huntouched' := hpage.untouched huntouched
  rw [hreports, hresult, ← hpage.channelKey_eq]
  refine ⟨fun token hawaits => ?_, fun report hreport => ?_⟩
  · rcases hpage.awaits hnodup hentry hawaits with ⟨sub, hsub, rfl, hopen⟩ | hrest
    · obtain ⟨processed, hmem, hR⟩ := exists_right_of_forall₂ hresults (mem_pending.mpr ⟨hsub, hopen⟩)
      exact .inr ⟨_, List.mem_map_of_mem hmem, rfl, hR.token_eq⟩
    · exact .inl (.inr hrest)
  · obtain ⟨processed, hmem, rfl⟩ := List.mem_map.mp hreport
    refine ⟨rfl, ?_⟩
    obtain ⟨⟨token, sc⟩, hsub, hR⟩ := exists_left_of_forall₂ hresults hmem
    obtain ⟨hold, hopen⟩ := mem_pending.mp hsub
    obtain rfl := huntouched' _ hold hopen
    -- The budget ran out, and it is reported again; or the report has the last index.
    rcases hR.cursor_eq with ⟨hcursor, -⟩ | hcursor
    · refine .inl (.inl ⟨_, List.mem_append_right _ (List.mem_map_of_mem hmem), rfl, ?_⟩)
      rw [hcursor]
    · refine .inr ?_
      dsimp only
      rw [hR.reported, hcursor, lastExistingIndex_total, hR.token_eq]

/-- A report without an index is to be repeated, and every other is right. -/
theorem OutgoingChannelPaged.reports_right {entry : Felt × ChannelCursor}
    {result : ProcessOutgoingChannelResult}
    (huntouched : ∀ sub ∈ entry.2.subchannels, sub.2.noteDiscoveryComplete = false → sub.2 = {})
    (h : OutgoingChannelPaged full contents cursorLimits entry result) :
    ∀ report ∈ result.subchannels, report.recipientAddr = entry.1 ∧
      (report.lastNoteIndex = none ∨
        report.lastNoteIndex = lastIndexOf (contents.count entry.2.channelKey report.token)) := by
  obtain ⟨scanned, results, hpage, hresults, -, hreports, -⟩ := h.steps
  have huntouched' := hpage.untouched huntouched
  intro report hreport
  rw [hreports] at hreport
  obtain ⟨processed, hmem, rfl⟩ := List.mem_map.mp hreport
  refine ⟨rfl, ?_⟩
  obtain ⟨⟨token, sc⟩, hsub, hR⟩ := exists_left_of_forall₂ hresults hmem
  obtain ⟨hold, hopen⟩ := mem_pending.mp hsub
  obtain rfl := huntouched' _ hold hopen
  dsimp only
  rw [hR.reported, hR.token_eq, ← hpage.channelKey_eq]
  rcases hR.cursor_eq with ⟨hcursor, -⟩ | hcursor
  · rw [hcursor]
    exact .inl rfl
  · rw [hcursor, lastExistingIndex_total]
    exact .inr rfl

/-- A report on the tokens of the channel toward an address. -/
def OutgoingSubchannel.IsOn (addr token : Felt) (report : OutgoingSubchannel) : Bool :=
  report.recipientAddr = addr ∧ report.token = token

/-- The last report on a subchannel. -/
def lastReport (reports : List OutgoingSubchannel) (addr token : Felt) :
    Option OutgoingSubchannel :=
  reports.reverse.find? (OutgoingSubchannel.IsOn addr token)

theorem lastReport_append (reports reports' : List OutgoingSubchannel) (addr token : Felt) :
    lastReport (reports ++ reports') addr token =
      (lastReport reports' addr token).or (lastReport reports addr token) := by
  simp [lastReport, List.find?_append]

section Page

variable {senderAddr viewingKey : Felt} {recipients : List Felt} {filter : Option (List Felt)}
  {cursor : DiscoveryCursor} {result : SyncOutgoingStateResult}

/-- The report that a subchannel should get. -/
def trueReport (sn : Starknet) (backend : Backend) (senderAddr viewingKey : Felt)
    (contents : Contents) (addr token : Felt) : OutgoingSubchannel :=
  ⟨addr, token, lastIndexOf (contents.count
    (channelToward sn backend senderAddr viewingKey addr false).channelKey token)⟩

/-- Each report of a page is right, or has no index. -/
theorem OutgoingPaged.reports_right
    (hcursor : cursor.FollowsOutgoing sn backend senderAddr viewingKey contents recipients filter)
    (h : OutgoingPaged full sn backend senderAddr viewingKey contents recipients filter cursorLimits
      cursor result) {report : OutgoingSubchannel} (hreport : report ∈ result.subchannels) :
    report.lastNoteIndex = none ∨ report =
      trueReport sn backend senderAddr viewingKey contents report.recipientAddr report.token := by
  obtain ⟨scanned, found, results, hpage, ⟨hresults, hreports, -⟩, -⟩ := h.steps
  have hscanned := followsOutgoing_of_scanned hcursor hpage
  rw [hreports] at hreport
  obtain ⟨processed, hprocessed, hreport⟩ := List.mem_flatMap.mp hreport
  obtain ⟨entry, hentry, hR⟩ := exists_left_of_forall₂ hresults hprocessed
  have hentry' := (mem_pending.mp hentry).1
  obtain ⟨haddr, hright⟩ := hR.reports_right (hscanned.untouched entry hentry') report hreport
  refine hright.imp_right fun hright => ?_
  rw [(hscanned.known entry hentry').2, ← haddr] at hright
  unfold trueReport
  rw [← hright]

/-- A subchannel of a channel that was found is awaited, unless the channel was known
before and the subchannel was not awaited. -/
theorem OutgoingPage.awaits {scanned : DiscoveryCursor} {found : List OutgoingChannel}
    {maxChannels : ℕ}
    (hcursor : cursor.FollowsOutgoing sn backend senderAddr viewingKey contents recipients filter)
    (h : OutgoingPage full sn backend senderAddr viewingKey recipients filter maxChannels cursor
      scanned found) {addr token : Felt}
    (haddr : addr ∈ (recipients.take (nextIndex scanned.lastChannelIndex)).filter (passes filter))
    (htoken : token ∈ contents.tokens
      (channelToward sn backend senderAddr viewingKey addr false).channelKey) :
    scanned.Awaits contents addr token ∨
      addr ∈ (recipients.take (nextIndex cursor.lastChannelIndex)).filter (passes filter) ∧
        ¬cursor.Awaits contents addr token := by
  cases h with
  | closed h =>
    by_cases hawaits : cursor.Awaits contents addr token
    · exact .inl hawaits
    · exact .inr ⟨haddr, hawaits⟩
  | @advanced number complete found new hopen hadvance hslots hfound hnew hnodup hfresh hall =>
    by_cases hawaits : cursor.Awaits contents addr token
    · obtain ⟨entry, hentry, hsame, hopen'⟩ := hawaits
      exact .inl ⟨entry, List.mem_append_left _ hentry, hsame, hopen'⟩
    · rw [nextIndex_lastIndexAfter, List.take_add, List.filter_append, List.mem_append,
        ← hfound] at haddr
      rcases haddr with hold | hfound'
      · exact .inr ⟨hold, hawaits⟩
      -- A channel that was found is new, or one that was known already.
      · rcases hall addr hfound' with hkey | hadded
        · obtain ⟨entry, hentry, rfl⟩ := List.mem_map.mp hkey
          exact .inr ⟨(hcursor.known entry hentry).1, hawaits⟩
        · exact .inl ⟨_, List.mem_append_right _ (List.mem_map_of_mem hadded), rfl,
            .inr ⟨rfl, htoken⟩⟩

/-- After a page a subchannel of a channel that was found is awaited, or the page reports
on it and is right, or it was not awaited before and the page does not report on it. -/
theorem OutgoingPaged.settles
    (hheld : SenderHeld sn backend senderAddr viewingKey recipients contents)
    (hcursor : cursor.FollowsOutgoing sn backend senderAddr viewingKey contents recipients filter)
    (h : OutgoingPaged full sn backend senderAddr viewingKey contents recipients filter cursorLimits
      cursor result) {addr token : Felt}
    (haddr : addr ∈ (recipients.take (nextIndex result.cursor.lastChannelIndex)).filter
      (passes filter))
    (htoken : token ∈ contents.tokens
      (channelToward sn backend senderAddr viewingKey addr false).channelKey) :
    result.cursor.Awaits contents addr token ∨
      lastReport result.subchannels addr token =
        some (trueReport sn backend senderAddr viewingKey contents addr token) ∨
      (addr ∈ (recipients.take (nextIndex cursor.lastChannelIndex)).filter (passes filter) ∧
        ¬cursor.Awaits contents addr token) ∧
        lastReport result.subchannels addr token = none := by
  obtain ⟨scanned, found, results, hpage, ⟨hresults, hreports, hresult⟩, -⟩ := h.steps
  have hscanned := followsOutgoing_of_scanned hcursor hpage
  have hsettles := fun entry (hentry : entry ∈ scanned.channels) processed
      (hR : OutgoingChannelPaged full contents cursorLimits entry processed) =>
    hR.settles (hheld.held_entry hscanned.lags hentry).nodup (hscanned.entries entry hentry)
      (hscanned.untouched entry hentry)
  have hprocessed : ∀ processed ∈ results, processed.cursor.Awaits contents token →
      processed.recipientAddr = addr → result.cursor.Awaits contents addr token := by
    intro processed hmem hawaits hsame
    rw [hresult]
    exact ⟨_, List.mem_append_right _ (List.mem_map_of_mem hmem), hsame, hawaits⟩
  cases hlast : lastReport result.subchannels addr token with
  | some report =>
    -- The page reports on the subchannel.
    have hon : report.IsOn addr token = true := List.find?_some hlast
    obtain ⟨rfl, rfl⟩ := of_decide_eq_true hon
    have hmem := List.mem_reverse.mp (List.mem_of_find?_eq_some hlast)
    rw [hreports] at hmem
    obtain ⟨processed, hprocessed', hreport⟩ := List.mem_flatMap.mp hmem
    obtain ⟨entry, hentry, hR⟩ := exists_left_of_forall₂ hresults hprocessed'
    have hentry' := (mem_pending.mp hentry).1
    obtain ⟨haddr', hright⟩ := (hsettles entry hentry' processed hR).2 report hreport
    rcases hright with hawaits | hright
    · exact .inl (hprocessed processed hprocessed' hawaits (hR.recipient_eq.trans haddr'.symm))
    · refine .inr (.inl (congrArg some ?_))
      rw [(hscanned.known entry hentry').2, ← haddr'] at hright
      unfold trueReport
      rw [← hright]
  | none =>
    have hnone := List.find?_eq_none.mp hlast
    rw [show result.cursor.lastChannelIndex = scanned.lastChannelIndex by rw [hresult]] at haddr
    -- A channel that the page has found is awaited; another one may have been settled before.
    have hscan : scanned.Awaits contents addr token ∨
        addr ∈ (recipients.take (nextIndex cursor.lastChannelIndex)).filter (passes filter) ∧
          ¬cursor.Awaits contents addr token := by
      rcases hpage with ⟨-, hpage⟩ | ⟨-, rfl, -⟩
      · exact hpage.awaits hcursor haddr htoken
      · by_cases hawaits : scanned.Awaits contents addr token
        · exact .inl hawaits
        · exact .inr ⟨haddr, hawaits⟩
    rcases hscan with ⟨entry, hentry, rfl, hawaits⟩ | hold
    · -- A channel that is awaited is processed, and without a report it still is.
      have hopen : entry.2.isComplete = false :=
        Bool.eq_false_iff.mpr fun hcomplete => ChannelCursor.not_awaits hcomplete hawaits
      obtain ⟨processed, hmem, hR⟩ :=
        exists_right_of_forall₂ hresults (mem_pending.mpr ⟨hentry, hopen⟩)
      rcases (hsettles entry hentry processed hR).1 token hawaits with hawaits' | hreport
      · exact .inl (hprocessed processed hmem hawaits' hR.recipient_eq)
      · obtain ⟨report, hreport, hon⟩ := hreport
        refine absurd (decide_eq_true hon) (hnone report (List.mem_reverse.mpr ?_))
        rw [hreports]
        exact List.mem_flatMap_of_mem hmem hreport
    · exact .inr (.inr ⟨hold, rfl⟩)

end Page

end PrivacyPool.Discovery
