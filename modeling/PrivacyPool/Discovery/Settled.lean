import PrivacyPool.Discovery.Accounting

/-!
# What a complete cursor has seen

A scan is marked as over when it stands at the end of what it scans. So once a cursor is
complete it has every channel, and each of its subchannels has been scanned up to its total.
The scan of the subchannels of a channel is apart from this: a client may mark it as over
before its end.

## Main definitions

* `SubchannelCursor.Settles`, `ChannelCursor.Settles`, `DiscoveryCursor.Settles` — scans of
  channels and of notes that are over stand at their end
* `ChannelCursor.Scanned`, `DiscoveryCursor.Scanned` — so do the scans of subchannels

## Main results

* `IncomingPaged.settles`, `IncomingPaged.scanned` — a page keeps both
-/

namespace PrivacyPool.Discovery

open HashMap

/-- A subchannel cursor stays within the notes, and is complete when it stands at its total. -/
structure SubchannelCursor.Settles (count : ℕ) (cursor : SubchannelCursor) : Prop where
  start_le : cursor.startIndex ≤ count
  total_le : ∀ total, cursor.totalNNotes = some total → total ≤ count
  settled : cursor.noteDiscoveryComplete = true →
    ∃ total, cursor.totalNNotes = some total ∧ total ≤ cursor.startIndex

/-- The subchannels of a channel cursor settle with their counts. -/
def ChannelCursor.Settles (contents : Contents) (cursor : ChannelCursor) : Prop :=
  ∀ sub ∈ cursor.subchannels, sub.2.Settles (contents.count cursor.channelKey sub.1)

/-- When the scan of subchannels is over, it stands at their end. -/
def ChannelCursor.Scanned (contents : Contents) (cursor : ChannelCursor) : Prop :=
  cursor.subchannelDiscoveryComplete = true →
    nextIndex cursor.lastSubchannelIndex = (contents.tokens cursor.channelKey).length

/-- What a cursor says of the channels is so, and its entries settle. -/
structure DiscoveryCursor.Settles (contents : Contents) (channels : List IncomingChannel)
    (cursor : DiscoveryCursor) : Prop where
  total_eq : ∀ total, cursor.totalNChannels = some total → total = channels.length
  ended : cursor.channelDiscoveryComplete = true →
    nextIndex cursor.lastChannelIndex = channels.length
  found : ∀ channel ∈ channels.take (nextIndex cursor.lastChannelIndex),
    channel.senderAddr ∈ keys cursor.channels
  entries : ∀ entry ∈ cursor.channels, entry.2.Settles contents

/-- Each entry of a cursor is scanned. -/
def DiscoveryCursor.Scanned (contents : Contents) (cursor : DiscoveryCursor) : Prop :=
  ∀ entry ∈ cursor.channels, entry.2.Scanned contents

variable {full : Prop} {sn : Starknet} {backend : Backend} {contents : Contents}
  {channels : List IncomingChannel} {viewingKey : Felt} {cursorLimits : CursorLimits}

theorem SubchannelCursor.settles_default (count : ℕ) : SubchannelCursor.Settles count {} where
  start_le := Nat.zero_le _
  total_le _ h := nomatch h
  settled h := nomatch h

theorem ChannelCursor.settles_new (contents : Contents) (channelKey : Felt) :
    (newChannelCursor channelKey).Settles contents :=
  fun _ h => nomatch h

theorem ChannelCursor.scanned_new (contents : Contents) (channelKey : Felt) :
    (newChannelCursor channelKey).Scanned contents :=
  (nomatch ·)

theorem DiscoveryCursor.settles_default (contents : Contents) (channels : List IncomingChannel) :
    DiscoveryCursor.Settles contents channels {} where
  total_eq _ h := nomatch h
  ended h := nomatch h
  found _ h := nomatch h
  entries _ h := nomatch h

/-! ### Subchannels -/

theorem NotesPage.settles {count maxNoteLogIndex number : ℕ} {cursor cursor' : SubchannelCursor}
    (h : NotesPage count maxNoteLogIndex cursor cursor' number) (hcursor : cursor.Settles count) :
    cursor'.Settles count := by
  have hnext := h.startIndex_eq
  cases h with
  | short h => exact hcursor
  | @scanned total number htotal hnumber =>
    have hle : total ≤ count := by
      rcases htotal with hsome | ⟨-, -, htotal⟩
      · exact hcursor.total_le total hsome
      · split_ifs at htotal <;> omega
    have hstart := hcursor.start_le
    refine ⟨?_, fun total' htotal' => ?_, fun hover => ⟨total, rfl, ?_⟩⟩
    · rw [hnext]
      omega
    · obtain rfl := Option.some.inj htotal'
      exact hle
    · have := of_decide_eq_true hover
      rw [hnext]
      omega

theorem SubchannelsPage.settles {maxCursorSubchannels : ℕ} {cursor cursor' : ChannelCursor}
    (h : SubchannelsPage full (contents.tokens cursor.channelKey) maxCursorSubchannels cursor
      cursor') (hcursor : cursor.Settles contents) : cursor'.Settles contents := by
  cases h with
  | closed h => exact hcursor
  | advanced hopen hadvance hslots =>
    intro sub hsub
    rcases List.mem_append.mp hsub with hold | hnew
    · exact hcursor sub hold
    · obtain ⟨token, -, rfl⟩ := List.mem_map.mp hnew
      exact SubchannelCursor.settles_default _

theorem SubchannelsPage.scanned {maxCursorSubchannels : ℕ} {cursor cursor' : ChannelCursor}
    (h : SubchannelsPage full (contents.tokens cursor.channelKey) maxCursorSubchannels cursor
      cursor') (hcursor : cursor.Scanned contents) : cursor'.Scanned contents := by
  cases h with
  | closed h => exact hcursor
  | advanced hopen hadvance hslots =>
    intro hover
    dsimp only
    rw [nextIndex_lastIndexAfter]
    exact hadvance.ended hover

/-! ### Channels -/

theorem SubchannelsProcessed.settles {maxNoteLogIndex : ℕ} {senderAddr : Felt}
    {cursor : ChannelCursor} {results : List ProcessSubchannelResult}
    {result : ProcessChannelResult}
    (h : SubchannelsProcessed full sn backend contents viewingKey maxNoteLogIndex senderAddr cursor
      results result) (hcursor : cursor.Settles contents) : result.cursor.Settles contents := by
  rw [h.cursor_eq]
  intro sub hsub
  rcases mem_processed h.paged hsub with hkept | ⟨old, hold, -, processed, hR, rfl⟩
  · exact hcursor sub hkept.1
  · obtain ⟨number, hpage, -⟩ := hR.advanced
    dsimp only
    rw [hR.token_eq]
    exact hpage.settles (hcursor old hold)

theorem ChannelPaged.settles {entry : Felt × ChannelCursor} {result : ProcessChannelResult}
    (h : ChannelPaged full sn backend contents viewingKey cursorLimits entry result)
    (hentry : entry.2.Settles contents) : result.cursor.Settles contents := by
  obtain ⟨scanned, results, hpage, hprocessed⟩ := h.steps
  exact hprocessed.settles (hpage.settles hentry)

theorem ChannelPaged.scanned {entry : Felt × ChannelCursor} {result : ProcessChannelResult}
    (h : ChannelPaged full sn backend contents viewingKey cursorLimits entry result)
    (hentry : entry.2.Scanned contents) : result.cursor.Scanned contents := by
  obtain ⟨scanned, results, hpage, hprocessed⟩ := h.steps
  rw [hprocessed.cursor_eq]
  exact hpage.scanned hentry

theorem ChannelsPage.settles {maxCursorChannels : ℕ} {cursor cursor' : DiscoveryCursor}
    {found : List IncomingChannel}
    (h : ChannelsPage full channels maxCursorChannels cursor cursor' found)
    (hcursor : cursor.Settles contents channels) : cursor'.Settles contents channels := by
  cases h with
  | closed | blocked | uncounted => exact hcursor
  | @advanced number total complete hopen hslots htotal hadvance hover =>
    -- The total that the scan goes by is that of the channels.
    have hlength : total = channels.length := by
      rw [htotal]
      cases htotal' : cursor.totalNChannels with
      | none => rfl
      | some total' => exact hcursor.total_eq total' htotal'
    refine ⟨fun total' htotal' => ?_, fun hcomplete => ?_, fun channel hchannel => ?_,
      fun entry hentry => ?_⟩
    · exact (Option.some.inj htotal') ▸ hlength
    · dsimp only
      rw [nextIndex_lastIndexAfter, hadvance.ended hcomplete, hlength]
    · dsimp only at hchannel ⊢
      rw [nextIndex_lastIndexAfter, List.take_add, List.mem_append] at hchannel
      rw [keys_append, List.mem_append]
      rcases hchannel with hold | hnew
      · exact .inl (hcursor.found channel hold)
      · by_cases hmem : channel.senderAddr ∈ keys cursor.channels
        · exact .inl hmem
        · refine .inr (List.mem_map.mpr ⟨_, List.mem_map_of_mem (List.mem_filter.mpr ⟨hnew, ?_⟩), rfl⟩)
          exact decide_eq_true hmem
    · rcases List.mem_append.mp hentry with hold | hnew
      · exact hcursor.entries entry hold
      · obtain ⟨channel, -, rfl⟩ := List.mem_map.mp hnew
        exact ChannelCursor.settles_new contents channel.channelKey

theorem ChannelsPage.scanned {maxCursorChannels : ℕ} {cursor cursor' : DiscoveryCursor}
    {found : List IncomingChannel}
    (h : ChannelsPage full channels maxCursorChannels cursor cursor' found)
    (hcursor : cursor.Scanned contents) : cursor'.Scanned contents := by
  cases h with
  | closed | blocked | uncounted => exact hcursor
  | advanced =>
    intro entry hentry
    rcases List.mem_append.mp hentry with hold | hnew
    · exact hcursor entry hold
    · obtain ⟨channel, -, rfl⟩ := List.mem_map.mp hnew
      exact ChannelCursor.scanned_new contents channel.channelKey

/-! ### Pages -/

/-- The keys of a cursor after a page. -/
theorem ChannelsProcessed.keys_perm {cursor : DiscoveryCursor}
    {results : List ProcessChannelResult} {result : SyncIncomingStateResult}
    (h : ChannelsProcessed full sn backend contents viewingKey cursorLimits cursor results result) :
    (keys result.cursor.channels).Perm (keys cursor.channels) := by
  have hkeys := map_eq_keys h.paged fun _ _ h => h.sender_eq
  rw [h.cursor_eq]
  exact keys_extractIf_perm _ hkeys

theorem IncomingPaged.settles {cursor : DiscoveryCursor} {result : SyncIncomingStateResult}
    (h : IncomingPaged full sn backend contents channels viewingKey cursorLimits cursor result)
    (hcursor : cursor.Settles contents channels) : result.cursor.Settles contents channels := by
  obtain ⟨scanned, results, hpage, hprocessed⟩ := h.steps
  have hscanned : scanned.Settles contents channels := by
    rcases hpage with ⟨-, hpage⟩ | ⟨-, rfl, -⟩
    · exact hpage.settles hcursor
    · exact hcursor
  have hperm := hprocessed.keys_perm
  have hresult := hprocessed.cursor_eq
  refine ⟨?_, ?_, ?_, fun entry hentry => ?_⟩
  · rw [hresult]
    exact hscanned.total_eq
  · rw [hresult]
    exact hscanned.ended
  · intro channel hchannel
    rw [hperm.mem_iff]
    rw [hresult] at hchannel
    exact hscanned.found channel hchannel
  · rw [hresult] at hentry
    rcases mem_processed hprocessed.paged hentry with hkept | ⟨old, hold, -, processed, hR, rfl⟩
    · exact hscanned.entries entry hkept.1
    · exact hR.settles (hscanned.entries old hold)

theorem IncomingPaged.scanned {cursor : DiscoveryCursor} {result : SyncIncomingStateResult}
    (h : IncomingPaged full sn backend contents channels viewingKey cursorLimits cursor result)
    (hcursor : cursor.Scanned contents) : result.cursor.Scanned contents := by
  obtain ⟨scanned, results, hpage, hprocessed⟩ := h.steps
  have hscanned : scanned.Scanned contents := by
    rcases hpage with ⟨-, hpage⟩ | ⟨-, rfl, -⟩
    · exact hpage.scanned hcursor
    · exact hcursor
  rw [hprocessed.cursor_eq]
  intro entry hentry
  rcases mem_processed hprocessed.paged hentry with hkept | ⟨old, hold, -, processed, hR, rfl⟩
  · exact hscanned entry hkept.1
  · exact hR.scanned (hscanned old hold)

/-- A page drops no channel from the cursor. -/
theorem IncomingPaged.keys_subset {cursor : DiscoveryCursor} {result : SyncIncomingStateResult}
    (h : IncomingPaged full sn backend contents channels viewingKey cursorLimits cursor result) :
    keys cursor.channels ⊆ keys result.cursor.channels := by
  obtain ⟨scanned, results, hpage, hprocessed⟩ := h.steps
  intro key hkey
  rw [hprocessed.keys_perm.mem_iff]
  rcases hpage with ⟨-, hpage⟩ | ⟨-, rfl, -⟩
  · generalize result.channels = found at hpage
    cases hpage with
    | closed | blocked | uncounted => exact hkey
    | advanced =>
      rw [keys_append]
      exact List.mem_append_left _ hkey
  · exact hkey

end PrivacyPool.Discovery
