import PrivacyPool.Discovery.Resume

/-!
# What an incoming page does

A page of the incoming sync finds new channels when the cursor has no pending work, and
then finds the next subchannels of each incomplete channel and advances over the notes
of each incomplete subchannel. How far it gets at each place is up to the budget and
the schedule.

## Main definitions

* `SubchannelPaged`, `ChannelPaged`, `IncomingPaged` — what a page does, level by level

## Main results

* `syncIncomingState_within` — a page does just this, or the probe of a note boundary is
  too short
-/

namespace PrivacyPool.Discovery

open Budget.Task HashMap

variable {full : Prop} {sn : Starknet} {newFromX : Felt → Option sn.EcPoint} {backend : Backend}
  {contents : Contents} {viewingKey : Felt}

/-- The entries of a map that a page leaves alone. -/
abbrev kept {β : Type} (complete : β → Bool) (m : List (Felt × β)) : List (Felt × β) :=
  (extractIf m fun value => !complete value).1

/-- The entries of a map that a page processes. -/
abbrev pending {β : Type} (complete : β → Bool) (m : List (Felt × β)) : List (Felt × β) :=
  (extractIf m fun value => !complete value).2

theorem mem_pending {β : Type} {complete : β → Bool} {m : List (Felt × β)} {entry : Felt × β} :
    entry ∈ pending complete m ↔ entry ∈ m ∧ complete entry.2 = false := by
  simp [pending, extractIf]

theorem mem_kept {β : Type} {complete : β → Bool} {m : List (Felt × β)} {entry : Felt × β} :
    entry ∈ kept complete m ↔ entry ∈ m ∧ complete entry.2 = true := by
  simp [kept, extractIf]

/-! ### Subchannels -/

/-- A page advances over some notes of a subchannel and returns the unspent ones. -/
structure SubchannelPaged (full : Prop) (sn : Starknet) (backend : Backend) (contents : Contents)
    (viewingKey : Felt) (maxNoteLogIndex : ℕ) (channelKey : Felt)
    (entry : Felt × SubchannelCursor) (result : ProcessSubchannelResult) : Prop where
  token_eq : result.token = entry.1
  advanced : ∃ number, NotesPage (contents.count channelKey entry.1) maxNoteLogIndex entry.2
    result.cursor number ∧
      result.notes =
        unspentNotes sn backend viewingKey channelKey entry.1 entry.2.startIndex number
  granted : full → result.cursor.noteDiscoveryComplete = true

theorem processSubchannel_within {channelKey : Felt} (hheld : contents.Held sn backend channelKey)
    {entry : Felt × SubchannelCursor} (htoken : entry.1 ∈ contents.tokens channelKey)
    (hopen : entry.2.noteDiscoveryComplete = false)
    (hstart : entry.2.totalNNotes = none → entry.2.startIndex ≤ contents.count channelKey entry.1)
    {maxNoteLogIndex : ℕ} :
    (processSubchannel sn backend channelKey entry.1 entry.2 viewingKey maxNoteLogIndex).Within full
      (fun _ => entry.2.totalNNotes = none ∧ 2 ^ maxNoteLogIndex ≤ contents.count channelKey entry.1)
      (SubchannelPaged full sn backend contents viewingKey maxNoteLogIndex channelKey entry) := by
  unfold processSubchannel
  rw [hopen]
  refine within_bind (((discoverNotesPaginated_within (hheld.notes _ htoken) hopen
    hstart).weaken fun e he => ?_).mono ?_)
  · exact ⟨he.2.1, (Nat.le_add_left _ _).trans he.2.2⟩
  · rintro ⟨cursor, notes⟩ ⟨number, hpage, rfl, hgranted⟩
    exact within_pure ⟨rfl, ⟨number, hpage, rfl⟩, hgranted⟩

/-! ### Channels -/

/-- The incomplete subchannels of a channel are processed. -/
structure SubchannelsProcessed (full : Prop) (sn : Starknet) (backend : Backend)
    (contents : Contents) (viewingKey : Felt) (maxNoteLogIndex : ℕ) (senderAddr : Felt)
    (cursor : ChannelCursor) (results : List ProcessSubchannelResult)
    (result : ProcessChannelResult) : Prop where
  paged : List.Forall₂ (SubchannelPaged full sn backend contents viewingKey maxNoteLogIndex
    cursor.channelKey) (pending SubchannelCursor.noteDiscoveryComplete cursor.subchannels) results
  sender_eq : result.senderAddr = senderAddr
  notes_eq : result.notes = (results.flatMap fun processed =>
    processed.notes.map fun note => { note with senderAddr, token := processed.token })
  cursor_eq : result.cursor = { cursor with
    subchannels := kept SubchannelCursor.noteDiscoveryComplete cursor.subchannels ++
      results.map fun processed => (processed.token, processed.cursor) }

/-- A page finds the next subchannels of a channel and processes the incomplete ones. -/
structure ChannelPaged (full : Prop) (sn : Starknet) (backend : Backend) (contents : Contents)
    (viewingKey : Felt) (cursorLimits : CursorLimits) (entry : Felt × ChannelCursor)
    (result : ProcessChannelResult) : Prop where
  steps : ∃ (scanned : ChannelCursor) (results : List ProcessSubchannelResult),
    SubchannelsPage full (contents.tokens entry.2.channelKey) cursorLimits.maxSubchannels entry.2
      scanned ∧
    SubchannelsProcessed full sn backend contents viewingKey cursorLimits.maxNoteLogIndex entry.1
      scanned results result

theorem ChannelPaged.sender_eq {cursorLimits : CursorLimits} {entry : Felt × ChannelCursor}
    {result : ProcessChannelResult}
    (h : ChannelPaged full sn backend contents viewingKey cursorLimits entry result) :
    result.senderAddr = entry.1 := by
  obtain ⟨scanned, results, -, hprocessed⟩ := h.steps
  exact hprocessed.sender_eq

theorem SubchannelsProcessed.of_paged (senderAddr : Felt) {cursor : ChannelCursor}
    (hcursor : cursor.Follows contents) {maxNoteLogIndex : ℕ}
    {results : List ProcessSubchannelResult}
    (h : List.Forall₂ (SubchannelPaged full sn backend contents viewingKey maxNoteLogIndex
      cursor.channelKey) (pending SubchannelCursor.noteDiscoveryComplete cursor.subchannels)
        results) :
    SubchannelsProcessed full sn backend contents viewingKey maxNoteLogIndex senderAddr cursor
      results
      { senderAddr
        subchannels := results.map fun result => ⟨senderAddr, result.token⟩
        notes := results.flatMap fun result =>
          result.notes.map fun note => { note with senderAddr, token := result.token }
        cursor := { cursor with
          subchannels := results.foldl (fun m result => insert m result.token result.cursor)
            (kept SubchannelCursor.noteDiscoveryComplete cursor.subchannels) } } := by
  have hkeys := map_eq_keys h fun _ _ h => h.token_eq
  have hfold := foldl_insert_extractIf hcursor.nodup ProcessSubchannelResult.cursor hkeys
  exact ⟨h, rfl, rfl, congrArg (fun subchannels => { cursor with subchannels }) hfold⟩

theorem pendingSubchannels_within {cursor : ChannelCursor}
    (hheld : contents.Held sn backend cursor.channelKey) (hcursor : cursor.Follows contents)
    {maxNoteLogIndex : ℕ} {sub : Felt × SubchannelCursor}
    (hsub : sub ∈ pending SubchannelCursor.noteDiscoveryComplete cursor.subchannels) :
    (processSubchannel sn backend cursor.channelKey sub.1 sub.2 viewingKey maxNoteLogIndex).Within
      full (fun _ => cursor.Exceeds contents maxNoteLogIndex)
      (SubchannelPaged full sn backend contents viewingKey maxNoteLogIndex cursor.channelKey
        sub) := by
  obtain ⟨hmem, hopen⟩ := mem_pending.mp hsub
  have htoken := List.mem_of_mem_take (hcursor.known sub hmem)
  refine (processSubchannel_within hheld htoken hopen (hcursor.resumable sub hmem)).weaken ?_
  exact fun _ ⟨hnone, hcount⟩ => ⟨sub.1, .inl ⟨sub, hmem, rfl, hopen, hnone⟩, hcount⟩

theorem processSubchannels_within {senderAddr : Felt} {cursor : ChannelCursor}
    (hheld : contents.Held sn backend cursor.channelKey) (hcursor : cursor.Follows contents)
    {maxNoteLogIndex : ℕ} {turns : List ℕ} :
    (processSubchannels sn backend senderAddr cursor.channelKey cursor viewingKey maxNoteLogIndex
      turns).Within full (fun _ => cursor.Exceeds contents maxNoteLogIndex) fun result =>
        ∃ results, SubchannelsProcessed full sn backend contents viewingKey maxNoteLogIndex
          senderAddr cursor results result := by
  refine within_bind ((within_parallel fun sub hsub =>
    pendingSubchannels_within hheld hcursor hsub).mono fun results hresults => ?_)
  exact within_pure ⟨results, .of_paged senderAddr hcursor hresults⟩

theorem processChannel_within {entry : Felt × ChannelCursor}
    (hheld : contents.Held sn backend entry.2.channelKey) (hcursor : entry.2.Follows contents)
    {cursorLimits : CursorLimits} {turns : List ℕ} :
    (processChannel sn backend entry.1 entry.2 viewingKey cursorLimits.maxSubchannels
      cursorLimits.maxNoteLogIndex turns).Within full
      (fun _ => entry.2.Exceeds contents cursorLimits.maxNoteLogIndex)
      (ChannelPaged full sn backend contents viewingKey cursorLimits entry) := by
  unfold processChannel
  refine within_bind ((discoverSubchannelsPaginated_within hheld hcursor.start_le).mono ?_)
  rintro ⟨scanned, _⟩ hpage
  have hkey := hpage.channelKey_eq
  dsimp only
  have hscanned := hpage.follows hheld.nodup hcursor
  have hheld' : contents.Held sn backend scanned.channelKey := hkey ▸ hheld
  rw [← hkey]
  refine ((processSubchannels_within hheld' hscanned).weaken fun _ hexceeds => ?_).mono ?_
  · exact hpage.exceeds hexceeds
  · exact fun result ⟨results, hresults⟩ => ⟨scanned, results, hpage, hresults⟩

/-! ### The page -/

/-- The incomplete channels of a cursor are processed. -/
structure ChannelsProcessed (full : Prop) (sn : Starknet) (backend : Backend) (contents : Contents)
    (viewingKey : Felt) (cursorLimits : CursorLimits) (cursor : DiscoveryCursor)
    (results : List ProcessChannelResult) (result : SyncIncomingStateResult) : Prop where
  paged : List.Forall₂ (ChannelPaged full sn backend contents viewingKey cursorLimits)
    (pending ChannelCursor.isComplete cursor.channels) results
  notes_eq : result.notes = results.flatMap (·.notes)
  cursor_eq : result.cursor = { cursor with
    channels := kept ChannelCursor.isComplete cursor.channels ++
      results.map fun processed => (processed.senderAddr, processed.cursor) }

/-- A page finds the next channels, when none in the cursor is incomplete, and processes
the incomplete ones. -/
structure IncomingPaged (full : Prop) (sn : Starknet) (backend : Backend) (contents : Contents)
    (channels : List IncomingChannel) (viewingKey : Felt) (cursorLimits : CursorLimits)
    (cursor : DiscoveryCursor) (result : SyncIncomingStateResult) : Prop where
  steps : ∃ (scanned : DiscoveryCursor) (results : List ProcessChannelResult),
    (cursor.allChannelsProcessed = true ∧
      ChannelsPage full channels cursorLimits.maxChannels cursor scanned result.channels ∨
    cursor.allChannelsProcessed = false ∧ scanned = cursor ∧ result.channels = []) ∧
    ChannelsProcessed full sn backend contents viewingKey cursorLimits scanned results result

/-- The pool holds the channels of a recipient and their contents. -/
structure IncomingHeld (sn : Starknet) (newFromX : Felt → Option sn.EcPoint) (backend : Backend)
    (recipient : ContractAddress) (viewingKey : Felt) (channels : List IncomingChannel)
    (contents : Contents) : Prop where
  listed : ChannelsHeld sn newFromX backend recipient viewingKey channels
  held : ∀ channel ∈ channels, contents.Held sn backend channel.channelKey

section Page

variable {recipient : ContractAddress} {channels : List IncomingChannel} {cursor : DiscoveryCursor}
  {cursorLimits : CursorLimits} {schedule : Schedule}

theorem newIncomingChannels_within
    (hheld : ChannelsHeld sn newFromX backend recipient viewingKey channels)
    (hcursor : cursor.Follows contents channels) {E : DiscoveryError → Prop} {maxChannels : ℕ} :
    (newIncomingChannels sn newFromX backend recipient viewingKey cursor maxChannels).Within full E
      fun result =>
        cursor.allChannelsProcessed = true ∧
          ChannelsPage full channels maxChannels cursor result.1 result.2 ∨
        cursor.allChannelsProcessed = false ∧ result.1 = cursor ∧ result.2 = [] := by
  unfold newIncomingChannels
  split_ifs with hprocessed
  · refine (discoverIncomingChannelsPaginated_within hheld hcursor.total_le hcursor.start_le).mono ?_
    exact fun result hpage => .inl ⟨hprocessed, hpage⟩
  · exact within_pure (.inr ⟨Bool.eq_false_iff.mpr hprocessed, rfl, rfl⟩)

/-- The cursor after the channels of a page are found. -/
theorem follows_of_scanned {scanned : DiscoveryCursor} {found : List IncomingChannel}
    (hnodup : (channels.map IncomingChannel.senderAddr).Nodup)
    (hcursor : cursor.Follows contents channels)
    (h : cursor.allChannelsProcessed = true ∧
        ChannelsPage full channels cursorLimits.maxChannels cursor scanned found ∨
      cursor.allChannelsProcessed = false ∧ scanned = cursor ∧ found = []) :
    scanned.Follows contents channels := by
  rcases h with ⟨-, hpage⟩ | ⟨-, rfl, -⟩
  · exact hpage.follows hnodup hcursor
  · exact hcursor

theorem IncomingHeld.held_entry
    (hheld : IncomingHeld sn newFromX backend recipient viewingKey channels contents)
    (hcursor : cursor.Follows contents channels) {entry : Felt × ChannelCursor}
    (hentry : entry ∈ cursor.channels) : contents.Held sn backend entry.2.channelKey :=
  hheld.held _ (List.mem_of_mem_take (hcursor.known entry hentry))

theorem ChannelsProcessed.of_paged (hcursor : cursor.Follows contents channels)
    (newChannels : List IncomingChannel) {results : List ProcessChannelResult}
    (h : List.Forall₂ (ChannelPaged full sn backend contents viewingKey cursorLimits)
      (pending ChannelCursor.isComplete cursor.channels) results) :
    ChannelsProcessed full sn backend contents viewingKey cursorLimits cursor results
      { channels := newChannels
        subchannels := results.flatMap (·.subchannels)
        notes := results.flatMap (·.notes)
        cursor := { cursor with
          channels := results.foldl (fun m result => insert m result.senderAddr result.cursor)
            (kept ChannelCursor.isComplete cursor.channels) } } := by
  have hkeys := map_eq_keys h fun _ _ h => h.sender_eq
  have hfold := foldl_insert_extractIf hcursor.nodup ProcessChannelResult.cursor hkeys
  exact ⟨h, rfl, congrArg (fun channels => { cursor with channels }) hfold⟩

theorem pendingChannels_within
    (hheld : IncomingHeld sn newFromX backend recipient viewingKey channels contents)
    (hcursor : cursor.Follows contents channels) {entry : Felt × ChannelCursor}
    (hentry : entry ∈ pending ChannelCursor.isComplete cursor.channels) {turns : List ℕ} :
    (processChannel sn backend entry.1 entry.2 viewingKey cursorLimits.maxSubchannels
      cursorLimits.maxNoteLogIndex turns).Within full
      (fun _ => cursor.Exceeds contents channels cursorLimits.maxNoteLogIndex)
      (ChannelPaged full sn backend contents viewingKey cursorLimits entry) := by
  have hmem := (mem_pending.mp hentry).1
  exact (processChannel_within (hheld.held_entry hcursor hmem)
    (hcursor.entries entry hmem)).weaken fun _ hexceeds => .inl ⟨entry, hmem, hexceeds⟩

theorem processChannels_within {newChannels : List IncomingChannel}
    (hheld : IncomingHeld sn newFromX backend recipient viewingKey channels contents)
    (hcursor : cursor.Follows contents channels) :
    (processChannels sn backend cursor newChannels viewingKey cursorLimits schedule).Within full
      (fun _ => cursor.Exceeds contents channels cursorLimits.maxNoteLogIndex) fun result =>
        result.channels = newChannels ∧ ∃ results, ChannelsProcessed full sn backend contents
          viewingKey cursorLimits cursor results result := by
  refine within_bind ((within_parallel fun entry hentry =>
    pendingChannels_within hheld hcursor hentry).mono fun results hresults => ?_)
  exact within_pure ⟨rfl, results, .of_paged hcursor newChannels hresults⟩

/-- A page does what it is said to do, or some note boundary is out of reach. -/
theorem syncIncomingState_within
    (hheld : IncomingHeld sn newFromX backend recipient viewingKey channels contents)
    (hcursor : cursor.Follows contents channels) :
    (syncIncomingState sn newFromX backend recipient viewingKey cursor cursorLimits
      schedule).Within full
      (fun _ => cursor.Exceeds contents channels cursorLimits.maxNoteLogIndex)
      (IncomingPaged full sn backend contents channels viewingKey cursorLimits cursor) := by
  unfold syncIncomingState
  refine within_bind ((newIncomingChannels_within hheld.listed hcursor).mono ?_)
  rintro ⟨scanned, newChannels⟩ hscanned
  have hfollows := follows_of_scanned hheld.listed.nodup hcursor hscanned
  refine ((processChannels_within hheld hfollows).weaken fun _ hexceeds => ?_).mono ?_
  · rcases hscanned with ⟨-, hpage⟩ | ⟨-, rfl, -⟩
    · exact hpage.exceeds hheld.listed.nodup hcursor hexceeds
    · exact hexceeds
  · rintro result ⟨rfl, results, hresults⟩
    exact ⟨scanned, results, hscanned, hresults⟩

end Page

end PrivacyPool.Discovery
