import PrivacyPool.Discovery.Growth
import PrivacyPool.Discovery.PageCapacity
import PrivacyPool.Discovery.Settled
import PrivacyPool.Sdk.NotesPage

/-!
# The cursor between two calls of `discoverNotes`

After a complete sync the cursor of the SDK has every channel, and of each subchannel that
was scanned the total that was found and an index that is not below it. A later call sends
the totals back with the scans open. So it looks for new channels, and for further
subchannels of the channels that it has, but it takes the old total of a subchannel for the
current one, and looks for no new note in it. With a filter it marks the scan of subchannels
as over when it has one for each token of the filter.

## Main definitions

* `NotesCursor.Seen` — what the cursor has seen
* `NotesCursor.Scanned` — it has scanned all subchannels
* `newInKnown` — what a later call looks for in a channel of the cursor

## Main results

* `seen_knownChannels` — the cursor after a complete sync
* `notesCursorToApiCursor_follows` — a later call starts from a cursor that follows the pool
* `notesCursorToApiCursor_weight` — what it has left to return
-/

namespace PrivacyPool.Sdk

open Discovery HashMap

/-! ### What a cursor has seen -/

/-- Subchannels of a channel are scanned up to an index, and the notes of those that the
cursor has up to the totals. -/
structure IncomingChannelCursor.Seen (contents : Contents) (icc : IncomingChannelCursor) :
    Prop where
  index_le : icc.subchannelIdIndex ≤ (contents.tokens icc.channelKey).length
  nodup : (keys icc.noteIndexes).Nodup
  tokens : ∀ entry ∈ icc.noteIndexes,
    entry.1 ∈ (contents.tokens icc.channelKey).take icc.subchannelIdIndex ∧
    entry.2 ≤ contents.count icc.channelKey entry.1 ∧
    ∃ total, AddressMap.get icc.totalNoteCounts entry.1 = some total ∧ total ≤ entry.2

/-- The cursor has every channel. -/
structure NotesCursor.Seen (contents : Contents) (channels : List IncomingChannel)
    (cursor : NotesCursor) : Prop where
  nodup : (keys cursor).Nodup
  known : ∀ entry ∈ cursor, ⟨entry.2.channelKey, entry.1⟩ ∈ channels
  all : ∀ channel ∈ channels, channel.senderAddr ∈ keys cursor
  entries : ∀ entry ∈ cursor, entry.2.Seen contents

/-- The subchannels of the channels in the cursor are scanned up to the last. -/
def NotesCursor.Scanned (contents : Contents) (cursor : NotesCursor) : Prop :=
  ∀ entry ∈ cursor,
    entry.2.subchannelIdIndex = (contents.tokens entry.2.channelKey).length

variable {sn : Starknet} {backend : Backend} {viewingKey : Felt} {contents contents' : Contents}
  {channels channels' : List IncomingChannel} {cursor : NotesCursor}
  {tokenFilter : Option (List Felt)} {limits : CursorLimits}

theorem NotesCursor.Seen.length_eq (hnodup : (channels.map IncomingChannel.senderAddr).Nodup)
    (h : NotesCursor.Seen contents channels cursor) : cursor.length = channels.length := by
  have hperm : (keys cursor).Perm (channels.map IncomingChannel.senderAddr) := by
    refine (List.perm_ext_iff_of_nodup h.nodup hnodup).mpr fun sender => ⟨fun hmem => ?_, fun hmem => ?_⟩
    · obtain ⟨entry, hentry, rfl⟩ := List.mem_map.mp hmem
      exact List.mem_map_of_mem (f := IncomingChannel.senderAddr) (h.known entry hentry)
    · obtain ⟨channel, hchannel, rfl⟩ := List.mem_map.mp hmem
      exact h.all channel hchannel
  have hlength := hperm.length_eq
  rwa [keys, List.length_map, List.length_map] at hlength

/-- The keys of a cursor with channels of the pool are right. -/
theorem rightKeys_of_known (hnodup : (channels.map IncomingChannel.senderAddr).Nodup)
    (hknown : ∀ entry ∈ cursor, ⟨entry.2.channelKey, entry.1⟩ ∈ channels) :
    RightKeys channels fun sender => (AddressMap.get cursor sender).map (·.channelKey) := by
  intro sender channelKey hget
  obtain ⟨icc, hicc, rfl⟩ := Option.map_eq_some_iff.mp hget
  exact (senderKey_of_mem hnodup (hknown _ (AddressMap.mem_of_get hicc))).symm

/-! ### After a complete sync -/

theorem keys_apiCursorToNotesCursor (apiCursor : DiscoveryCursor) :
    keys (apiCursorToNotesCursor apiCursor) = keys apiCursor.channels := by
  rw [keys, apiCursorToNotesCursor, List.map_map]
  rfl

theorem get_totals (subchannels : List (Felt × SubchannelCursor)) (token : Felt) :
    AddressMap.get (subchannels.filterMap fun (token, sc) =>
        sc.totalNNotes.map fun total => (token, total)) token =
      ((subchannels.filter fun sub => sub.2.totalNNotes.isSome).find? fun sub =>
        sub.1 = token).bind fun sub => sub.2.totalNNotes := by
  induction subchannels with
  | nil => rfl
  | cons sub subchannels ih =>
    obtain ⟨token', sc⟩ := sub
    unfold AddressMap.get at ih ⊢
    cases htotal : sc.totalNNotes with
    | none =>
      rw [List.filterMap_cons_none (by simp [htotal]), ih,
        List.filter_cons_of_neg (by simp [htotal])]
    | some total =>
      rw [List.filterMap_cons_some (b := (token', total)) (by simp [htotal]),
        List.filter_cons_of_pos (by simp [htotal])]
      by_cases hsame : token' = token
      · rw [List.find?_cons_of_pos (by simpa using hsame),
          List.find?_cons_of_pos (by simpa using hsame), Option.bind_some, htotal]
        rfl
      · rw [List.find?_cons_of_neg (by simpa using hsame),
          List.find?_cons_of_neg (by simpa using hsame), ih]

/-- A channel of a complete cursor has been seen. -/
theorem seen_of_isComplete {ch : ChannelCursor} (hfollows : ch.Follows contents)
    (hsettles : ch.Settles contents) (hcomplete : ch.isComplete = true) :
    IncomingChannelCursor.Seen contents
      { channelKey := ch.channelKey
        subchannelIdIndex := nextIndex ch.lastSubchannelIndex
        noteIndexes := ch.subchannels.map fun (token, sc) => (token, nextIndex sc.lastNoteIndex)
        totalNoteCounts := ch.subchannels.filterMap fun (token, sc) =>
          sc.totalNNotes.map fun total => (token, total) } := by
  obtain ⟨-, hall⟩ := Bool.and_eq_true_iff.mp hcomplete
  have hkeys : keys (ch.subchannels.map fun (token, sc) => (token, nextIndex sc.lastNoteIndex)) =
      keys ch.subchannels := by
    rw [keys, List.map_map]
    rfl
  refine ⟨hfollows.start_le, hkeys ▸ hfollows.nodup, fun entry hentry => ?_⟩
  obtain ⟨sub, hsub, rfl⟩ := List.mem_map.mp hentry
  have hsub' := hsettles sub hsub
  obtain ⟨total, htotal, hle⟩ := hsub'.settled (List.all_eq_true.mp hall sub hsub)
  refine ⟨hfollows.known sub hsub, hsub'.start_le, total, ?_, hle⟩
  have hnodup : ((ch.subchannels.filter fun sub => sub.2.totalNNotes.isSome).map Prod.fst).Nodup :=
    hfollows.nodup.sublist (List.filter_sublist.map _)
  have hmem : sub ∈ ch.subchannels.filter fun sub => sub.2.totalNNotes.isSome :=
    List.mem_filter.mpr ⟨hsub, by rw [htotal]; rfl⟩
  rw [get_totals, find?_eq_some_of_mem hnodup hmem]
  exact htotal

/-- What the SDK knows after a page is what the cursor of the page has. -/
theorem mem_knownChannels_iff {known : NotesCursor} {apiCursor : DiscoveryCursor}
    (hfollows : apiCursor.Follows contents channels) (hnodup : (keys known).Nodup)
    (hkeys : keys known ⊆ keys apiCursor.channels) {entry : Felt × IncomingChannelCursor} :
    entry ∈ knownChannels known apiCursor ↔ entry ∈ apiCursorToNotesCursor apiCursor := by
  have hkeys' := keys_apiCursorToNotesCursor apiCursor
  exact AddressMap.mem_foldl_set_iff (hkeys'.symm ▸ hfollows.nodup) hnodup (hkeys'.symm ▸ hkeys)

/-- So it has the keys of channels of the pool. -/
theorem known_of_knownChannels {known : NotesCursor} {apiCursor : DiscoveryCursor}
    (hfollows : apiCursor.Follows contents channels) (hnodup : (keys known).Nodup)
    (hkeys : keys known ⊆ keys apiCursor.channels) :
    ∀ entry ∈ knownChannels known apiCursor, ⟨entry.2.channelKey, entry.1⟩ ∈ channels := by
  intro entry hentry
  obtain ⟨old, hold, rfl⟩ := List.mem_map.mp
    ((mem_knownChannels_iff hfollows hnodup hkeys).mp hentry)
  exact List.mem_of_mem_take (hfollows.known old hold)

/-- What the SDK knows after the last page of a sync has seen everything. -/
theorem seen_knownChannels {known : NotesCursor} {apiCursor : DiscoveryCursor}
    (hfollows : apiCursor.Follows contents channels) (hsettles : apiCursor.Settles contents channels)
    (hcomplete : apiCursor.isComplete = true) (hnodup : (keys known).Nodup)
    (hkeys : keys known ⊆ keys apiCursor.channels) :
    NotesCursor.Seen contents channels (knownChannels known apiCursor) := by
  obtain ⟨hover, hall⟩ := Bool.and_eq_true_iff.mp hcomplete
  refine ⟨AddressMap.nodup_keys_foldl_set hnodup, known_of_knownChannels hfollows hnodup hkeys,
    fun channel hchannel => ?_, fun entry hentry => ?_⟩
  · rw [mem_keys_knownChannels]
    refine .inr (hsettles.found channel ?_)
    rwa [hsettles.ended hover, List.take_length]
  · obtain ⟨old, hold, rfl⟩ := List.mem_map.mp
      ((mem_knownChannels_iff hfollows hnodup hkeys).mp hentry)
    exact seen_of_isComplete (hfollows.entries old hold) (hsettles.entries old hold)
      (List.all_eq_true.mp hall old hold)

theorem scanned_knownChannels {known : NotesCursor} {apiCursor : DiscoveryCursor}
    (hfollows : apiCursor.Follows contents channels) (hscanned : apiCursor.Scanned contents)
    (hcomplete : apiCursor.isComplete = true) (hnodup : (keys known).Nodup)
    (hkeys : keys known ⊆ keys apiCursor.channels) :
    NotesCursor.Scanned contents (knownChannels known apiCursor) := by
  obtain ⟨-, hall⟩ := Bool.and_eq_true_iff.mp hcomplete
  intro entry hentry
  obtain ⟨old, hold, rfl⟩ := List.mem_map.mp
    ((mem_knownChannels_iff hfollows hnodup hkeys).mp hentry)
  exact hscanned old hold (Bool.and_eq_true_iff.mp (List.all_eq_true.mp hall old hold)).1

/-! ### A later call -/

@[simp] theorem nextIndex_pred (n : ℕ) : nextIndex (if 0 < n then some (n - 1) else none) = n := by
  cases n <;> rfl

/-- The subchannels that are sent back, with their totals. -/
theorem buildSubchannelCursors_eq {noteIndexes totals : List (Felt × ℕ)}
    (hnodup : (keys noteIndexes).Nodup) :
    buildSubchannelCursors noteIndexes tokenFilter totals =
      (noteIndexes.filter fun entry => inFilter tokenFilter entry.1).map fun entry =>
        (entry.1, { lastNoteIndex := if 0 < entry.2 then some (entry.2 - 1) else none
                    totalNNotes := AddressMap.get totals entry.1 }) := by
  unfold buildSubchannelCursors
  have hsub : (keys (noteIndexes.filter fun entry => inFilter tokenFilter entry.1)).Nodup :=
    hnodup.sublist (List.filter_sublist.map _)
  generalize noteIndexes.filter (fun entry => inFilter tokenFilter entry.1) = entries at hsub
  -- The induction is on the entries, from any cursors without their tokens.
  suffices hstart : ∀ start : List (Felt × SubchannelCursor),
      (∀ entry ∈ entries, entry.1 ∉ keys start) →
      entries.foldl (fun m entry => AddressMap.set m entry.1
        { lastNoteIndex := if 0 < entry.2 then some (entry.2 - 1) else none
          totalNNotes := AddressMap.get totals entry.1 }) start = start ++ entries.map fun entry =>
            (entry.1, { lastNoteIndex := if 0 < entry.2 then some (entry.2 - 1) else none
                        totalNNotes := AddressMap.get totals entry.1 }) from
    hstart [] fun _ _ => List.not_mem_nil
  clear hnodup
  induction entries with
  | nil => exact fun start _ => (List.append_nil _).symm
  | cons entry entries ih =>
    intro start hfresh
    rw [keys, List.map_cons, List.nodup_cons] at hsub
    rw [List.foldl_cons, List.map_cons]
    have hnew := hfresh entry List.mem_cons_self
    rw [ih hsub.2, AddressMap.set, if_neg hnew, List.append_assoc]
    · rfl
    · intro entry' hentry' hmem
      rcases AddressMap.mem_keys_set.mp hmem with hold | hsame
      · exact hfresh entry' (List.mem_cons_of_mem _ hentry') hold
      · exact hsub.1 (hsame ▸ mem_keys_of_mem hentry')

/-- The cursor of a channel as it is sent back. -/
def resumedChannel (tokenFilter : Option (List Felt)) (icc : IncomingChannelCursor) :
    ChannelCursor :=
  let subchannels := buildSubchannelCursors icc.noteIndexes tokenFilter icc.totalNoteCounts
  { channelKey := icc.channelKey
    subchannelDiscoveryComplete := tokenFilter.any fun tokens => tokens.length = subchannels.length
    lastSubchannelIndex :=
      if 0 < icc.subchannelIdIndex then some (icc.subchannelIdIndex - 1) else none
    subchannels }

theorem channels_notesCursorToApiCursor (cursor : NotesCursor) (tokenFilter : Option (List Felt)) :
    (notesCursorToApiCursor cursor tokenFilter).channels =
      cursor.map fun entry => (entry.1, resumedChannel tokenFilter entry.2) := rfl

section Resumed

variable {icc : IncomingChannelCursor} {sender : Felt}

@[simp] theorem nextIndex_resumed (tokenFilter : Option (List Felt)) (icc : IncomingChannelCursor) :
    nextIndex (resumedChannel tokenFilter icc).lastSubchannelIndex = icc.subchannelIdIndex :=
  nextIndex_pred _

/-- A subchannel that is sent back is one that was seen, with its total. -/
theorem IncomingChannelCursor.Seen.mem_resumed (h : icc.Seen contents) {sub : Felt × SubchannelCursor}
    (hsub : sub ∈ (resumedChannel tokenFilter icc).subchannels) :
    sub.1 ∈ (contents.tokens icc.channelKey).take icc.subchannelIdIndex ∧
      sub.2.startIndex ≤ contents.count icc.channelKey sub.1 ∧
      sub.2.noteDiscoveryComplete = false ∧
      ∃ total, sub.2.totalNNotes = some total ∧ total ≤ sub.2.startIndex := by
  unfold resumedChannel at hsub
  dsimp only at hsub
  rw [buildSubchannelCursors_eq h.nodup] at hsub
  obtain ⟨entry, hentry, rfl⟩ := List.mem_map.mp hsub
  obtain ⟨htoken, hcount, total, htotal, hle⟩ := h.tokens entry (List.mem_of_mem_filter hentry)
  unfold SubchannelCursor.startIndex
  dsimp only
  rw [nextIndex_pred]
  exact ⟨htoken, hcount, rfl, total, htotal, hle⟩

theorem IncomingChannelCursor.Seen.nodup_resumed (h : icc.Seen contents) :
    (keys (resumedChannel tokenFilter icc).subchannels).Nodup := by
  have hkeys : keys (resumedChannel tokenFilter icc).subchannels =
      keys (icc.noteIndexes.filter fun entry => inFilter tokenFilter entry.1) := by
    unfold resumedChannel
    dsimp only
    rw [buildSubchannelCursors_eq h.nodup, keys, List.map_map]
    rfl
  rw [hkeys]
  exact h.nodup.sublist (List.filter_sublist.map _)

/-- The tokens that were scanned are the same later on. -/
theorem take_eq_take_of_le {tokens tokens' : List Felt} (h : tokens <+: tokens') {index : ℕ}
    (hindex : index ≤ tokens.length) : tokens'.take index = tokens.take index := by
  obtain ⟨rest, rfl⟩ := h
  exact List.take_append_of_le_length hindex

theorem IncomingChannelCursor.Seen.follows (h : icc.Seen contents)
    (htokens : contents.tokens icc.channelKey <+: contents'.tokens icc.channelKey) :
    (resumedChannel tokenFilter icc).Follows contents' := by
  refine ⟨?_, h.nodup_resumed, fun sub hsub => ?_, fun sub hsub hnone => ?_⟩
  · rw [nextIndex_resumed]
    exact h.index_le.trans htokens.length_le
  · rw [nextIndex_resumed]
    change sub.1 ∈ (contents'.tokens icc.channelKey).take icc.subchannelIdIndex
    rw [take_eq_take_of_le htokens h.index_le]
    exact (h.mem_resumed hsub).1
  · obtain ⟨-, -, -, total, htotal, -⟩ := h.mem_resumed hsub
    rw [htotal] at hnone
    cases hnone

/-- Of a channel that was seen, the subchannels that were not scanned are left to return, unless
their scan is marked as over. -/
theorem IncomingChannelCursor.Seen.weight_eq (h : icc.Seen contents) :
    (resumedChannel tokenFilter icc).weight contents'
        (pendingNotes sn backend contents' viewingKey sender icc.channelKey) =
      if (resumedChannel tokenFilter icc).subchannelDiscoveryComplete then 0
      else (((contents'.tokens icc.channelKey).drop icc.subchannelIdIndex).map fun token =>
        pendingNotes sn backend contents' viewingKey sender icc.channelKey token {}).sum := by
  unfold ChannelCursor.weight
  have hsubs : ((resumedChannel tokenFilter icc).subchannels.map fun sub =>
      pendingNotes sn backend contents' viewingKey sender icc.channelKey sub.1 sub.2).sum = 0 := by
    refine List.sum_eq_zero fun x hx => ?_
    obtain ⟨sub, hsub, rfl⟩ := List.mem_map.mp hx
    obtain ⟨-, -, hopen, total, htotal, hle⟩ := h.mem_resumed hsub
    unfold pendingNotes
    rw [hopen, if_neg Bool.false_ne_true, htotal, Option.getD_some, Nat.sub_eq_zero_of_le hle]
    rfl
  rw [hsubs, zero_add, nextIndex_resumed]
  rfl

theorem IncomingChannelCursor.Seen.settles (h : icc.Seen contents)
    (hcounts : ∀ token ∈ contents.tokens icc.channelKey,
      contents.count icc.channelKey token ≤ contents'.count icc.channelKey token) :
    (resumedChannel tokenFilter icc).Settles contents' := by
  intro sub hsub
  obtain ⟨htoken, hcount, hopen, total, htotal, hle⟩ := h.mem_resumed hsub
  have hgrown := hcount.trans (hcounts _ (List.mem_of_mem_take htoken))
  refine ⟨hgrown, fun total' htotal' => ?_, fun hover => ?_⟩
  · rw [htotal] at htotal'
    obtain rfl := Option.some.inj htotal'
    exact hle.trans hgrown
  · rw [hopen] at hover
    cases hover

/-- A channel that was seen fits when it would fit as a new one: only subchannels that were not
scanned are still to be probed. -/
theorem IncomingChannelCursor.Seen.fits (h : icc.Seen contents)
    (htokens : contents.tokens icc.channelKey <+: contents'.tokens icc.channelKey)
    (hslots : (contents'.tokens icc.channelKey).length < limits.maxSubchannels)
    (hreach : ∀ token ∈ contents'.tokens icc.channelKey,
      contents'.count icc.channelKey token < 2 ^ limits.maxNoteLogIndex) :
    (resumedChannel tokenFilter icc).Fits contents' limits := by
  constructor
  · intro _
    have hsubset : keys (resumedChannel tokenFilter icc).subchannels ⊆
        (contents.tokens icc.channelKey).take icc.subchannelIdIndex := by
      intro token htoken
      obtain ⟨sub, hsub, rfl⟩ := List.mem_map.mp htoken
      exact (h.mem_resumed hsub).1
    have hlength := (List.subperm_of_subset h.nodup_resumed hsubset).length_le
    rw [keys, List.length_map, List.length_take] at hlength
    have := h.index_le.trans htokens.length_le
    rw [nextIndex_resumed]
    change _ + ((contents'.tokens icc.channelKey).length - _) < _
    omega
  · rintro ⟨token, ⟨sub, hsub, -, -, hnone⟩ | ⟨-, hmem⟩, hexceeds⟩
    · obtain ⟨-, -, -, total, htotal, -⟩ := h.mem_resumed hsub
      rw [htotal] at hnone
      cases hnone
    · exact Nat.not_lt.mpr hexceeds (hreach token (List.mem_of_mem_drop hmem))

end Resumed

/-! ### The whole cursor -/

/-- What a later call looks for in a channel that the cursor has: the notes of the subchannels
that were not scanned, unless their scan is marked as over. -/
def newInKnown (sn : Starknet) (backend : Backend) (contents : Contents) (viewingKey : Felt)
    (tokenFilter : Option (List Felt)) (entry : Felt × IncomingChannelCursor) :
    Multiset DecryptedNote :=
  if (resumedChannel tokenFilter entry.2).subchannelDiscoveryComplete then 0
  else (((contents.tokens entry.2.channelKey).drop entry.2.subchannelIdIndex).map fun token =>
    pendingNotes sn backend contents viewingKey entry.1 entry.2.channelKey token {}).sum

/-- A scan of subchannels that is marked as over from the start stands at their end when the
cursor has scanned them all. Without a filter none is marked. -/
theorem notesCursorToApiCursor_scanned (hscanned : tokenFilter = none ∨ cursor.Scanned contents') :
    (notesCursorToApiCursor cursor tokenFilter).Scanned contents' := by
  intro entry hentry hover
  rw [channels_notesCursorToApiCursor] at hentry
  obtain ⟨old, hold, rfl⟩ := List.mem_map.mp hentry
  rcases hscanned with rfl | hscanned
  · cases hover
  · rw [nextIndex_resumed]
    exact hscanned old hold

section Cursor

variable (hseen : NotesCursor.Seen contents channels cursor)
  (hnodup : (channels.map IncomingChannel.senderAddr).Nodup)
  (hgrown : contents.Grown contents' channels channels')

include hseen hnodup

theorem nextIndex_notesCursorToApiCursor :
    nextIndex (notesCursorToApiCursor cursor tokenFilter).lastChannelIndex = channels.length := by
  unfold notesCursorToApiCursor
  dsimp only
  rw [nextIndex_pred, hseen.length_eq hnodup]

include hgrown

omit hnodup in
theorem mem_of_seen {entry : Felt × IncomingChannelCursor} (hentry : entry ∈ cursor) :
    ⟨entry.2.channelKey, entry.1⟩ ∈ channels' :=
  hgrown.channels_prefix.subset (hseen.known entry hentry)

/-- A later call starts from a cursor that follows the pool. -/
theorem notesCursorToApiCursor_follows :
    (notesCursorToApiCursor cursor tokenFilter).Follows contents' channels' := by
  have hnext : nextIndex (notesCursorToApiCursor cursor tokenFilter).lastChannelIndex =
      channels.length := nextIndex_notesCursorToApiCursor hseen hnodup
  refine ⟨le_rfl, ?_, ?_, fun entry hentry => ?_, fun entry hentry => ?_⟩
  · rw [hnext]
    exact hgrown.channels_prefix.length_le
  · rw [channels_notesCursorToApiCursor, keys, List.map_map]
    exact hseen.nodup
  · rw [channels_notesCursorToApiCursor] at hentry
    obtain ⟨old, hold, rfl⟩ := List.mem_map.mp hentry
    obtain ⟨rest, hrest⟩ := hgrown.channels_prefix
    rw [hnext, ← hrest, List.take_left]
    exact hseen.known old hold
  · rw [channels_notesCursorToApiCursor] at hentry
    obtain ⟨old, hold, rfl⟩ := List.mem_map.mp hentry
    exact (hseen.entries old hold).follows (hgrown.tokens_prefix _ (hseen.known old hold))

theorem notesCursorToApiCursor_settles :
    (notesCursorToApiCursor cursor tokenFilter).Settles contents' channels' := by
  refine ⟨nofun, nofun, fun channel hchannel => ?_, fun entry hentry => ?_⟩
  · rw [nextIndex_notesCursorToApiCursor hseen hnodup] at hchannel
    obtain ⟨rest, hrest⟩ := hgrown.channels_prefix
    rw [← hrest, List.take_left] at hchannel
    rw [channels_notesCursorToApiCursor, keys, List.map_map]
    exact hseen.all channel hchannel
  · rw [channels_notesCursorToApiCursor] at hentry
    obtain ⟨old, hold, rfl⟩ := List.mem_map.mp hentry
    have hknown := hseen.known old hold
    exact (hseen.entries old hold).settles (hgrown.count_le _ hknown)

omit hgrown in
/-- A later call has the new channels left to find. -/
theorem unfound_notesCursorToApiCursor :
    (notesCursorToApiCursor cursor tokenFilter).unfound channels' =
      channels'.drop channels.length := by
  unfold DiscoveryCursor.unfound
  rw [nextIndex_notesCursorToApiCursor hseen hnodup]
  exact congrArg (List.drop _) (List.take_length)

omit hgrown in
/-- A later call has the new channels left to return, and of the channels that it has the new
subchannels. -/
theorem notesCursorToApiCursor_weight :
    (notesCursorToApiCursor cursor tokenFilter).weight contents' channels'
        (pendingNotes sn backend contents' viewingKey) =
      (cursor.map (newInKnown sn backend contents' viewingKey tokenFilter)).sum +
      ((channels'.drop channels.length).map fun channel =>
        (newChannelCursor channel.channelKey).weight contents'
          (pendingNotes sn backend contents' viewingKey channel.senderAddr channel.channelKey)).sum := by
  unfold DiscoveryCursor.weight
  rw [unfound_notesCursorToApiCursor hseen hnodup, channels_notesCursorToApiCursor, List.map_map]
  congr 2
  refine List.map_congr_left fun entry hentry => ?_
  exact (hseen.entries entry hentry).weight_eq

/-- The cursor of a later call is within limits that leave room for the channels. -/
theorem notesCursorToApiCursor_valid (hroom : channels.length ≤ limits.maxChannels)
    (hcount : ∀ channel ∈ channels', ∀ token ∈ contents'.tokens channel.channelKey,
      contents'.count channel.channelKey token ≤ 2 ^ 32)
    (hfits : ∀ channel ∈ channels', (newChannelCursor channel.channelKey).Fits contents' limits) :
    (notesCursorToApiCursor cursor tokenFilter).Valid limits := by
  refine ⟨?_, fun entry hentry => ?_⟩
  · rw [channels_notesCursorToApiCursor, List.length_map, hseen.length_eq hnodup]
    exact hroom
  · rw [channels_notesCursorToApiCursor] at hentry
    obtain ⟨old, hold, rfl⟩ := List.mem_map.mp hentry
    have hknown := hseen.known old hold
    have hmem : ⟨old.2.channelKey, old.1⟩ ∈ channels' := mem_of_seen hseen hgrown hold
    obtain ⟨hslots, hreach⟩ := ChannelCursor.fits_new_iff.mp (hfits _ hmem)
    have hbegins := hgrown.tokens_prefix _ hknown
    have hfollows : (resumedChannel tokenFilter old.2).Follows contents' :=
      (hseen.entries old hold).follows hbegins
    refine ⟨?_, fun sub hsub => ?_⟩
    · have hsubset : keys (resumedChannel tokenFilter old.2).subchannels ⊆
          contents'.tokens old.2.channelKey := by
        intro token htoken
        obtain ⟨sub, hsub, rfl⟩ := List.mem_map.mp htoken
        exact List.mem_of_mem_take (hfollows.known sub hsub)
      have hlength := (List.subperm_of_subset hfollows.nodup hsubset).length_le
      rw [keys, List.length_map] at hlength
      exact (hlength.trans_lt hslots).le
    · obtain ⟨htoken, hstart, -, total, htotal, hle⟩ := (hseen.entries old hold).mem_resumed hsub
      have htoken := List.mem_of_mem_take htoken
      have htoken' := hbegins.subset htoken
      -- The count was in reach of the limit, and an index of the cursor is below the count.
      have hbound : contents'.count old.2.channelKey sub.1 ≤ maxNotes limits.maxNoteLogIndex :=
        le_maxNotes (hcount _ hmem _ htoken') (hreach _ htoken')
      have hstart' := hstart.trans ((hgrown.count_le _ hknown _ htoken).trans hbound)
      refine ⟨?_, hstart', fun hnone => ?_⟩
      · rw [htotal]
        exact hle.trans hstart'
      · rw [htotal] at hnone
        cases hnone

/-- A later call fits just when there is a slot for the end of its scan of the channels. -/
theorem notesCursorToApiCursor_fits_iff
    (hfits : ∀ channel ∈ channels', (newChannelCursor channel.channelKey).Fits contents' limits) :
    (notesCursorToApiCursor cursor tokenFilter).Fits contents' channels' limits ↔
      channels.length + max 1 (channels'.length - channels.length) ≤ limits.maxChannels := by
  have hunfound : (notesCursorToApiCursor cursor tokenFilter).unfound channels' =
      channels'.drop channels.length := unfound_notesCursorToApiCursor hseen hnodup
  have hlength : (notesCursorToApiCursor cursor tokenFilter).channels.length = channels.length := by
    rw [channels_notesCursorToApiCursor, List.length_map, hseen.length_eq hnodup]
  constructor
  · intro h
    have hroom := h.room rfl
    rwa [hunfound, hlength, List.length_drop] at hroom
  · intro hroom
    refine ⟨fun _ => ?_, fun entry hentry => ?_, ?_⟩
    · rwa [hunfound, hlength, List.length_drop]
    · rw [channels_notesCursorToApiCursor] at hentry
      obtain ⟨old, hold, rfl⟩ := List.mem_map.mp hentry
      have hmem : ⟨old.2.channelKey, old.1⟩ ∈ channels' := mem_of_seen hseen hgrown hold
      obtain ⟨hslots, hreach⟩ := ChannelCursor.fits_new_iff.mp (hfits _ hmem)
      have hbegins := hgrown.tokens_prefix _ (hseen.known old hold)
      exact (hseen.entries old hold).fits hbegins hslots hreach
    · rw [hunfound]
      exact fun channel hchannel => hfits channel (List.mem_of_mem_drop hchannel)

end Cursor

end PrivacyPool.Sdk
