import PrivacyPool.Discovery.PageCapacity
import PrivacyPool.Properties.IncomingSync
import PrivacyPool.Sdk.NotesPage
import PrivacyPool.Sdk.Pruning

/-!
# When the sync loops end

The loops of the SDK end just when the limits of the server leave room for the account.
`discoverNotes` keeps every channel in the cursor, so all channels must fit in it.
`discoverChannels` drops complete channels, but not those without a subchannel. Either way
a channel whose subchannels fill up the limit never gets complete: the end of its
subchannels is only seen by a scan that has a slot left.

## Main definitions

* `StoredChannel.Fits`, `IncomingFits`, `OutgoingFits` — the limits leave room

## Main results

* `discoverNotes_ends_iff`, `discoverChannels_ends_iff` — when each loop ends that starts afresh
-/

namespace PrivacyPool.Sdk

open Discovery HashMap

variable {sn : Starknet} {newFromX : Felt → Option sn.EcPoint} {backend : Backend}
  {limits : ValidationLimits} {address : ContractAddress} {viewingKey : Felt}
  {contents : Contents}

/-! ### Notes -/

section Incoming

variable {channels : List IncomingChannel} {tokenFilter : Option (List Felt)}
  {schedules : ℕ → Schedule}

/-- The channels of the cursor are known to the SDK, apart from those that have no note left
to return that passes the filter. -/
def NotesState.Known (sn : Starknet) (backend : Backend) (contents : Contents) (viewingKey : Felt)
    (tokenFilter : Option (List Felt)) (state : NotesState) : Prop :=
  ∀ entry ∈ state.apiCursor.channels, entry.1 ∈ keys state.incomingChannels ∨
    ∀ n ∈ entry.2.weight contents
      (pendingNotes sn backend contents viewingKey entry.1 entry.2.channelKey),
        inFilter tokenFilter n.token = false

/-- What a page does to a cursor that follows the pool and is valid. -/
theorem discoverNotesPage_valid
    (hheld : IncomingHeld sn newFromX backend address viewingKey channels contents) {round : ℕ}
    {state next : NotesState} {ended : Bool} (hfollows : state.apiCursor.Follows contents channels)
    (hvalid : state.apiCursor.Valid limits.cursorLimits)
    (hok : discoverNotesPage sn newFromX backend limits address viewingKey tokenFilter schedules
      round state = .ok (next, ended)) :
    (next.apiCursor.Follows contents channels ∧ next.apiCursor.Valid limits.cursorLimits) ∧
      (next.apiCursor.Fits contents channels limits.cursorLimits ↔
        state.apiCursor.Fits contents channels limits.cursorLimits) ∧
      ended = next.apiCursor.isComplete ∧
      next.Known sn backend contents viewingKey tokenFilter := by
  have htokens : ∀ channel ∈ channels, (contents.tokens channel.channelKey).Nodup :=
    fun channel hchannel => (hheld.held channel hchannel).nodup
  obtain ⟨resp, notesByToken, hsync, -, rfl, hover⟩ := discoverNotesPage_eq_ok hok
  have hpaged := incomingPaged_of_ok hheld hfollows hsync
  obtain ⟨hvalid', hfits⟩ := hpaged.valid_fits hheld hfollows hvalid
  exact ⟨⟨hpaged.follows hheld.listed.nodup htokens hfollows, hvalid'⟩, hfits, hover,
    fun entry hentry => .inl (mem_keys_knownChannels.mpr (.inr (mem_keys_of_mem hentry)))⟩

/-- From a cursor that does not fit the loop of `discoverNotes` does not end, whatever is known. -/
theorem fits_of_discoverNotes_loop
    (hheld : IncomingHeld sn newFromX backend address viewingKey channels contents) {round : ℕ}
    {state final : NotesState} (hfollows : state.apiCursor.Follows contents channels)
    (hvalid : state.apiCursor.Valid limits.cursorLimits)
    (hends : Loop.Ends (discoverNotesPage sn newFromX backend limits address viewingKey tokenFilter
      schedules) round state final) :
    state.apiCursor.Fits contents channels limits.cursorLimits := by
  obtain ⟨round', last, ⟨⟨hfollows', hvalid'⟩, hsame⟩, hok⟩ := hends.last
    (fun state' : NotesState => (state'.apiCursor.Follows contents channels ∧
      state'.apiCursor.Valid limits.cursorLimits) ∧
        (state'.apiCursor.Fits contents channels limits.cursorLimits ↔
          state.apiCursor.Fits contents channels limits.cursorLimits))
    ⟨⟨hfollows, hvalid⟩, Iff.rfl⟩ fun round' state' next ⟨⟨hfollows', hvalid'⟩, hsame⟩ hok => by
      obtain ⟨hnext, hfits, -⟩ := discoverNotesPage_valid hheld hfollows' hvalid' hok
      exact ⟨hnext, hfits.trans hsame⟩
  obtain ⟨-, hfits, hover, -⟩ := discoverNotesPage_valid hheld hfollows' hvalid' hok
  exact hsame.mp (hfits.mp (DiscoveryCursor.fits_of_isComplete hover.symm))

/-- The loop of `discoverNotes` ends from a state just when its cursor fits: the cursor
follows the pool and is valid, and the channels that it has are known. -/
theorem discoverNotes_loop_iff
    (hheld : IncomingHeld sn newFromX backend address viewingKey channels contents)
    (hkey : validateViewingKey sn backend viewingKey (ContractAddress.toFelt address) = .ok ())
    (hbudget : minServerBudget limits.cursorLimits.maxNoteLogIndex ≤ limits.serverBudget)
    {round : ℕ} {state : NotesState} (hfollows : state.apiCursor.Follows contents channels)
    (hvalid : state.apiCursor.Valid limits.cursorLimits)
    (hknown : state.Known sn backend contents viewingKey tokenFilter) :
    (∃ final, Loop.Ends (discoverNotesPage sn newFromX backend limits address viewingKey tokenFilter
      schedules) round state final) ↔
        state.apiCursor.Fits contents channels limits.cursorLimits := by
  have htokens : ∀ channel ∈ channels, (contents.tokens channel.channelKey).Nodup :=
    fun channel hchannel => (hheld.held channel hchannel).nodup
  refine Loop.exists_ends_iff
    (fun state : NotesState => state.apiCursor.Follows contents channels ∧
      state.apiCursor.Valid limits.cursorLimits ∧
        state.Known sn backend contents viewingKey tokenFilter)
    (fun state : NotesState => state.apiCursor.Fits contents channels limits.cursorLimits)
    (fun state : NotesState => state.apiCursor.work contents channels) ?_ ?_ ?_
    ⟨hfollows, hvalid, hknown⟩
  -- A page that ends the loop leaves a complete cursor, which fits.
  · rintro round state next ⟨hfollows, hvalid, -⟩ hok
    obtain ⟨-, hfits, hover, -⟩ := discoverNotesPage_valid hheld hfollows hvalid hok
    exact hfits.mp (DiscoveryCursor.fits_of_isComplete hover.symm)
  -- A page that goes on keeps what is known of the cursor, and whether it fits.
  · rintro round state next ⟨hfollows, hvalid, -⟩ hok
    obtain ⟨⟨hfollows', hvalid'⟩, hfits, -, hknown'⟩ :=
      discoverNotesPage_valid hheld hfollows hvalid hok
    exact ⟨⟨hfollows', hvalid', hknown'⟩, hfits⟩
  · rintro round state ⟨hfollows, hvalid, hknown⟩ hfits
    -- No boundary is out of reach, so the request succeeds.
    have hreach : ¬state.apiCursor.Exceeds contents channels
        limits.cursorLimits.maxNoteLogIndex := by
      rintro (⟨entry, hentry, hexceeds⟩ | ⟨channel, hchannel, hexceeds⟩)
      · exact (hfits.entries entry hentry).reach hexceeds
      · exact (hfits.unfound channel hchannel).reach hexceeds
    have hwithin : (syncIncomingState sn newFromX backend address viewingKey state.apiCursor
        limits.cursorLimits (schedules round)).Within False
          (fun _ => state.apiCursor.Exceeds contents channels limits.cursorLimits.maxNoteLogIndex)
          (IncomingPaged False sn backend contents channels viewingKey limits.cursorLimits
            state.apiCursor) := syncIncomingState_within hheld hfollows
    have houtcome := hwithin.run limits.serverBudget
    cases hsync : (syncIncomingState sn newFromX backend address viewingKey state.apiCursor
        limits.cursorLimits (schedules round)).outcome limits.serverBudget with
    | error e =>
      rw [hsync] at houtcome
      exact absurd houtcome hreach
    | ok resp =>
      have hpaged := incomingPaged_of_ok hheld hfollows hsync
      -- Each sender is one whose channel was found now or before.
      have hsenders : ∀ n ∈ resp.notes, inFilter tokenFilter n.token = true →
          n.senderAddr ∈ keys (channelKeys resp.channels) ∨
            n.senderAddr ∈ keys state.incomingChannels := by
        intro n hn hfilter
        rcases hpaged.sender_mem hheld.listed.nodup htokens hfollows n hn with
          ⟨entry, hentry, hsame, hpending⟩ | hfound
        · refine .inr (hsame ▸ (hknown entry hentry).resolve_right fun hnone => ?_)
          rw [hnone n hpending] at hfilter
          cases hfilter
        · exact .inl (mem_keys_channelKeys.mpr hfound)
      obtain ⟨next, hok, hnext⟩ : ∃ next, discoverNotesPage sn newFromX backend limits address
          viewingKey tokenFilter schedules round state = .ok (next, resp.cursor.isComplete) ∧
          next.apiCursor = resp.cursor :=
        discoverNotesPage_ok hvalid.validateCursor hkey hsync hsenders
      refine ⟨next, resp.cursor.isComplete, hok, fun hopen => ?_⟩
      have hincomplete : state.apiCursor.isComplete = false :=
        Bool.eq_false_iff.mpr fun hcomplete => by
          rw [hpaged.isComplete hcomplete] at hopen
          cases hopen
      rw [hnext]
      refine (syncIncomingState_leads hheld hfollows hincomplete (fun hopen _ => ?_)
        (fun entry hentry hopen => ?_) (affords_of_minServerBudget_le hbudget)).of_ok hsync
      · have := hfits.room hopen
        omega
      · have := (hfits.entries entry hentry).room hopen
        omega

end Incoming

/-! ### Channels -/

section Outgoing

variable {senderAddr : Felt} {recipients : List Felt} {filter : Option (List Felt)}
  {schedules : ℕ → Schedule}

/-- A page of `discoverChannels` that is taken is that of a successful request. -/
theorem discoverChannelsPage_eq_ok {round : ℕ} {state next : ChannelsState} {ended : Bool}
    (h : discoverChannelsPage sn backend limits senderAddr viewingKey filter schedules round
      state = .ok (next, ended)) :
    (validateRecipients filter limits.maxOutgoingRecipients = .ok () ∧
      state.apiCursor.Accepted limits.cursorLimits) ∧ ∃ resp,
      (syncOutgoingState sn backend senderAddr viewingKey state.apiCursor limits.cursorLimits filter
        (schedules round)).outcome limits.serverBudget = .ok resp ∧
      next = ⟨if resp.cursor.isComplete then resp.cursor else pruneCompleteCursor resp.cursor,
        accumulateOutgoingResponse resp state.acc⟩ ∧
      ended = resp.cursor.isComplete := by
  unfold discoverChannelsPage at h
  obtain ⟨resp, hresp, h⟩ := Fallible.bind_eq_ok.mp h
  have hsame := Except.ok.inj h
  have hsync := Fallible.mapError_eq_ok.mp hresp
  unfold outgoingSync at hsync
  obtain ⟨⟨⟩, hrecipients, hsync⟩ := Fallible.bind_eq_ok.mp hsync
  obtain ⟨⟨⟩, hvalid, hsync⟩ := Fallible.bind_eq_ok.mp hsync
  obtain ⟨-, -, hsync⟩ := Fallible.bind_eq_ok.mp hsync
  exact ⟨⟨hrecipients, validateCursor_eq_ok_iff.mp hvalid⟩, resp, Fallible.mapError_eq_ok.mp hsync,
    (congrArg Prod.fst hsame).symm, (congrArg Prod.snd hsame).symm⟩

theorem discoverChannelsPage_ok {round : ℕ} {state : ChannelsState}
    {resp : SyncOutgoingStateResult}
    (hrecipients : validateRecipients filter limits.maxOutgoingRecipients = .ok ())
    (hvalid : validateCursor state.apiCursor limits.cursorLimits = .ok ())
    (hkey : validateViewingKey sn backend viewingKey senderAddr = .ok ())
    (hsync : (syncOutgoingState sn backend senderAddr viewingKey state.apiCursor
      limits.cursorLimits filter (schedules round)).outcome limits.serverBudget = .ok resp) :
    discoverChannelsPage sn backend limits senderAddr viewingKey filter schedules round state = .ok
      (⟨if resp.cursor.isComplete then resp.cursor else pruneCompleteCursor resp.cursor,
        accumulateOutgoingResponse resp state.acc⟩, resp.cursor.isComplete) := by
  have hresp : outgoingSync sn backend limits senderAddr viewingKey state.apiCursor filter
      (schedules round) = .ok resp := by
    unfold outgoingSync
    rw [hrecipients, hvalid, hkey, hsync]
    rfl
  unfold discoverChannelsPage
  rw [hresp]
  exact Fallible.bind_eq_ok.mpr ⟨resp, rfl, rfl⟩

/-- What the loop of `discoverChannels` keeps: the cursor tracks the pool, and its complete
channels have no subchannel. -/
structure ChannelsState.Tracking (sn : Starknet) (backend : Backend) (senderAddr viewingKey : Felt)
    (contents : Contents) (recipients : List Felt) (filter : Option (List Felt))
    (limits : CursorLimits) (state : ChannelsState) : Prop where
  tracks : state.apiCursor.TracksOutgoing sn backend senderAddr viewingKey contents recipients
    filter limits
  trimmed : state.apiCursor.Trimmed

/-- What a page does to a state that tracks the pool. -/
theorem discoverChannelsPage_tracking (hnodup : recipients.Nodup)
    (hheld : SenderHeld sn backend senderAddr viewingKey recipients contents) {round : ℕ}
    {state next : ChannelsState} {ended : Bool}
    (hstate : state.Tracking sn backend senderAddr viewingKey contents recipients filter
      limits.cursorLimits)
    (hok : discoverChannelsPage sn backend limits senderAddr viewingKey filter schedules round
      state = .ok (next, ended)) :
    (next.apiCursor.CanEndOutgoing sn backend senderAddr viewingKey contents recipients filter
        limits.cursorLimits →
      state.apiCursor.CanEndOutgoing sn backend senderAddr viewingKey contents recipients filter
        limits.cursorLimits) ∧
      (ended = false → next.Tracking sn backend senderAddr viewingKey contents recipients filter
        limits.cursorLimits) ∧
      (ended = true → next.apiCursor.isComplete = true) := by
  obtain ⟨-, resp, hsync, rfl, rfl⟩ := discoverChannelsPage_eq_ok hok
  have hwithin : (syncOutgoingState sn backend senderAddr viewingKey state.apiCursor
      limits.cursorLimits filter (schedules round)).Within False
        (fun _ => state.apiCursor.ExceedsToward sn backend senderAddr viewingKey contents recipients
          filter limits.cursorLimits.maxNoteLogIndex)
        (OutgoingPaged False sn backend senderAddr viewingKey contents recipients filter
          limits.cursorLimits state.apiCursor) :=
    syncOutgoingState_within hheld hstate.tracks.toLagsOutgoing
  have hpaged := hwithin.of_ok hsync
  have hcan := hpaged.canEnd hheld hstate.tracks hnodup hstate.trimmed
  cases hover : resp.cursor.isComplete with
  | true => exact ⟨hcan, nofun, fun _ => hover⟩
  | false =>
    exact ⟨fun hnext => hcan (pruneCompleteCursor_canEnd hnext),
      fun _ => ⟨pruneCompleteCursor_tracks (hpaged.tracks hheld hstate.tracks),
        pruneCompleteCursor_trimmed⟩, nofun⟩

theorem tracking_default {cursorLimits : CursorLimits} : ChannelsState.Tracking sn backend
    senderAddr viewingKey contents recipients filter cursorLimits ⟨{}, {}⟩ where
  tracks :=
    { DiscoveryCursor.followsOutgoing_default.lags with
      scans := fun _ h => nomatch h
      kept := fun _ h => by simp [idleToward, nextIndex] at h }
  trimmed _ h := nomatch h

/-- The loop of `discoverChannels` only ends from a state whose recipients and cursor are accepted
and whose cursor can end. -/
theorem canEnd_of_discoverChannels_loop (hnodup : recipients.Nodup)
    (hheld : SenderHeld sn backend senderAddr viewingKey recipients contents) {round : ℕ}
    {state final : ChannelsState}
    (hstate : state.Tracking sn backend senderAddr viewingKey contents recipients filter
      limits.cursorLimits)
    (hends : Loop.Ends (discoverChannelsPage sn backend limits senderAddr viewingKey filter schedules)
      round state final) :
    (validateRecipients filter limits.maxOutgoingRecipients = .ok () ∧
      state.apiCursor.Accepted limits.cursorLimits) ∧
      state.apiCursor.CanEndOutgoing sn backend senderAddr viewingKey contents recipients filter
        limits.cursorLimits := by
  constructor
  · rcases Loop.ends_iff.mp hends with hlast | ⟨next, hnext, -⟩
    · exact (discoverChannelsPage_eq_ok hlast).1
    · exact (discoverChannelsPage_eq_ok hnext).1
  · obtain ⟨round', last, ⟨hlast, hcan⟩, hok⟩ := hends.last
      (fun state' : ChannelsState => state'.Tracking sn backend senderAddr viewingKey contents
        recipients filter limits.cursorLimits ∧
          (state'.apiCursor.CanEndOutgoing sn backend senderAddr viewingKey contents recipients
              filter limits.cursorLimits →
            state.apiCursor.CanEndOutgoing sn backend senderAddr viewingKey contents recipients
              filter limits.cursorLimits))
      ⟨hstate, id⟩ fun round' state' next ⟨hstate', hcan⟩ hok => by
        obtain ⟨hcan', hnext, -⟩ := discoverChannelsPage_tracking hnodup hheld hstate' hok
        exact ⟨hnext rfl, hcan ∘ hcan'⟩
    obtain ⟨hcan', -, hcomplete⟩ := discoverChannelsPage_tracking hnodup hheld hlast hok
    exact hcan (hcan' (DiscoveryCursor.canEndOutgoing_of_isComplete (hcomplete rfl)))

/-- With each boundary in reach, a page keeps a cursor accepted, and its scan of channels over. -/
theorem accepted_of_lagsOutgoing {cursor : DiscoveryCursor} {schedule : Schedule}
    {resp : SyncOutgoingStateResult}
    (hheld : SenderHeld sn backend senderAddr viewingKey recipients contents)
    (hcursor : cursor.LagsOutgoing sn backend senderAddr viewingKey contents recipients filter)
    (hreach : ∀ addr ∈ recipients.filter (passes filter), ∀ token ∈ contents.tokens
      (channelToward sn backend senderAddr viewingKey addr false).channelKey, contents.count
        (channelToward sn backend senderAddr viewingKey addr false).channelKey token <
          2 ^ limits.cursorLimits.maxNoteLogIndex)
    (haccepted : cursor.Accepted limits.cursorLimits)
    (hsync : (syncOutgoingState sn backend senderAddr viewingKey cursor limits.cursorLimits filter
      schedule).outcome limits.serverBudget = .ok resp) :
    resp.cursor.Accepted limits.cursorLimits ∧
      (cursor.channelDiscoveryComplete = true → resp.cursor.channelDiscoveryComplete = true) := by
  have hnotes : cursor.Contiguous sn backend contents.count := fun entry hentry sub hsub =>
    (hheld.held_entry hcursor hentry).notes sub.1 ((hcursor.entries entry hentry).known sub hsub)
  -- No subchannel of the cursor has outgrown the limit, and no index has come to the wrap.
  have hwithin : cursor.InReach contents.count limits.cursorLimits.maxNoteLogIndex := by
    intro entry hentry sub hsub hover
    obtain ⟨haddr, hkey⟩ := hcursor.known entry hentry
    have hless := hreach entry.1 haddr sub.1
      (hkey ▸ (hcursor.entries entry hentry).known sub hsub)
    rw [← hkey] at hless
    exact Nat.not_lt.mpr (le_maxNotes (hnotes entry hentry sub hsub).count_le hless) hover.exceeds
  have hmoves := (syncOutgoingState_moves
    ⟨hcursor.nodup, fun entry hentry => (hcursor.entries entry hentry).nodup⟩
    (fun entry hentry hrestarts => absurd hrestarts.wraps (Nat.not_le.mpr
      ((hcursor.entries entry hentry).start_le.trans_lt (hheld.held_entry hcursor hentry).length_lt)))
    (fun hrestarts => absurd hrestarts.wraps (Nat.not_le.mpr
      (hcursor.start_le.trans_lt hheld.listed.length_lt))) schedule).of_ok hsync
  exact ⟨hmoves.accepted haccepted hnotes hwithin, hmoves.complete⟩

/-- The loop of `discoverChannels` ends when the recipients and the cursor are accepted and the
limits leave room. -/
theorem discoverChannels_loop_ends
    (hheld : SenderHeld sn backend senderAddr viewingKey recipients contents)
    (hkey : validateViewingKey sn backend viewingKey senderAddr = .ok ())
    (hbudget : minServerBudget limits.cursorLimits.maxNoteLogIndex ≤ limits.serverBudget)
    (hnodup : recipients.Nodup)
    (hrecipients : validateRecipients filter limits.maxOutgoingRecipients = .ok ())
    (hcan : ∀ addr ∈ recipients.filter (passes filter),
      (newCursorToward sn backend senderAddr viewingKey addr).CanEnd contents limits.cursorLimits)
    {round : ℕ} {state : ChannelsState}
    (hstate : state.Tracking sn backend senderAddr viewingKey contents recipients filter
      limits.cursorLimits)
    (haccepted : state.apiCursor.Accepted limits.cursorLimits)
    (hroom : state.apiCursor.channelDiscoveryComplete = false →
      (idleToward sn backend senderAddr viewingKey contents filter recipients).length <
        limits.cursorLimits.maxChannels) :
    ∃ final, Loop.Ends (discoverChannelsPage sn backend limits senderAddr viewingKey filter
      schedules) round state final := by
  have hnew := fun addr haddr => ChannelCursor.canEnd_new_iff.mp (hcan addr haddr)
  refine Loop.ends_of_measure
    (fun state : ChannelsState => state.Tracking sn backend senderAddr viewingKey contents
      recipients filter limits.cursorLimits ∧ state.apiCursor.Accepted limits.cursorLimits ∧
        (state.apiCursor.channelDiscoveryComplete = false →
          (idleToward sn backend senderAddr viewingKey contents filter recipients).length <
            limits.cursorLimits.maxChannels))
    (fun state : ChannelsState =>
      state.apiCursor.workToward sn backend senderAddr viewingKey contents recipients filter)
    ?_ ⟨hstate, haccepted, hroom⟩
  rintro round state ⟨hstate, haccepted, hroom⟩
  have hlags := hstate.tracks.toLagsOutgoing
  have hwithin : (syncOutgoingState sn backend senderAddr viewingKey state.apiCursor
      limits.cursorLimits filter (schedules round)).Within False
        (fun _ => state.apiCursor.ExceedsToward sn backend senderAddr viewingKey contents recipients
          filter limits.cursorLimits.maxNoteLogIndex)
        (OutgoingPaged False sn backend senderAddr viewingKey contents recipients filter
          limits.cursorLimits state.apiCursor) := syncOutgoingState_within hheld hlags
  -- No boundary is out of reach, so the request succeeds.
  have houtcome := hwithin.run limits.serverBudget
  cases hsync : (syncOutgoingState sn backend senderAddr viewingKey state.apiCursor
      limits.cursorLimits filter (schedules round)).outcome limits.serverBudget with
  | error e =>
    rw [hsync] at houtcome
    exact absurd houtcome (hlags.not_exceedsToward hcan)
  | ok resp =>
    have hok : discoverChannelsPage sn backend limits senderAddr viewingKey filter schedules round
        state = _ :=
      discoverChannelsPage_ok hrecipients (validateCursor_eq_ok_iff.mpr haccepted) hkey hsync
    refine ⟨_, _, hok, fun hopen => ?_⟩
    obtain ⟨haccepted', hclosed⟩ := accepted_of_lagsOutgoing hheld hlags
      (fun addr haddr => (hnew addr haddr).2) haccepted hsync
    have hnext := (discoverChannelsPage_tracking hnodup hheld hstate hok).2.1 hopen
    have hincomplete : state.apiCursor.isComplete = false :=
      Bool.eq_false_iff.mpr fun hcomplete => by
        rw [(hwithin.of_ok hsync).isComplete hcomplete] at hopen
        cases hopen
    rw [hopen] at hnext ⊢
    refine ⟨⟨hnext, pruneCompleteCursor_accepted haccepted', fun hopen' => hroom ?_⟩, ?_⟩
    · exact Bool.eq_false_iff.mpr fun hover => Bool.eq_false_iff.mp hopen' (hclosed hover)
    · refine pruneCompleteCursor_workToward.trans_lt ?_
      refine (syncOutgoingState_leads hheld hlags hincomplete (fun hopen hprocessed => ?_)
        (fun entry hentry _ => ?_) (affords_of_minServerBudget_le hbudget)).of_ok hsync
      · exact (hstate.tracks.length_le hstate.trimmed hprocessed).trans_lt (hroom hopen)
      · obtain ⟨haddr, hkey⟩ := hlags.known entry hentry
        have hlength := (hlags.entries entry hentry).length_le
        rw [hkey] at hlength
        exact hlength.trans_lt (hnew entry.1 haddr).1

end Outgoing

/-! ### Accounts -/

/-- The limits leave room for a channel: its subchannels leave a slot free, and its notes are
in reach of the boundary search. -/
def ChannelFits (limits : CursorLimits) (channel : StoredChannel) : Prop :=
  channel.subchannels.length < limits.maxSubchannels ∧
    ∀ subchannel ∈ channel.subchannels, subchannel.notes.length < 2 ^ limits.maxNoteLogIndex

/-- The limits leave room for the channels of a recipient. -/
def IncomingFits (limits : CursorLimits) (account : List StoredChannel) : Prop :=
  max 1 account.length ≤ limits.maxChannels ∧ ∀ channel ∈ account, ChannelFits limits channel

/-- The channels of a sender that pass a filter. -/
def passing (filter : Option (List Felt)) (account : List StoredChannel) : List StoredChannel :=
  account.filter fun channel => passes filter (ContractAddress.toFelt channel.peerAddr)

/-- The limits leave room for the channels of a sender that pass the filter: those without a
subchannel leave a slot free. -/
def OutgoingFits (limits : CursorLimits) (filter : Option (List Felt))
    (account : List StoredChannel) : Prop :=
  ((passing filter account).filter fun channel => channel.subchannels.isEmpty).length <
      limits.maxChannels ∧
    ∀ channel ∈ passing filter account, ChannelFits limits channel

/-- The limits leave room for what `discoverChannels` is asked for. -/
def ChannelsFit (limits : ValidationLimits) (recipients : RecipientsFilter)
    (account : List StoredChannel) : Prop :=
  match recipients with
  | .all | .totalOnly => OutgoingFits limits.cursorLimits none account
  | .only recipients => recipients = [] ∨ recipients.dedup.length ≤ limits.maxOutgoingRecipients ∧
      OutgoingFits limits.cursorLimits (some recipients.dedup) account

/-- A channel that is found fits just when the limits leave room for it. -/
theorem fits_stored_iff {pool : Pool} {account : List StoredChannel} {channel : StoredChannel}
    (hkeys : (account.map StoredChannel.channelKey).Nodup) (hmem : channel ∈ account)
    (hstored : ChannelStored sn pool channel.channelKey channel.subchannels)
    {limits : CursorLimits} :
    (newChannelCursor channel.channelKey).Fits (contentsOf account) limits ↔
      ChannelFits limits channel := by
  rw [ChannelCursor.fits_new_iff, tokens_of_mem hkeys hmem, List.length_map, List.forall_mem_map]
  refine and_congr_right fun _ => forall₂_congr fun subchannel hsub => ?_
  rw [count_of_mem (subchannelsAt_of_mem hkeys hmem) hstored.nodup hsub]

theorem validateViewingKey_ok {publicKey : Felt} (hkey : sn.derivePublicKey viewingKey = .ok publicKey)
    {addr : Felt} (hregistered : backend.getPublicKey sn addr = 0 ∨
      backend.getPublicKey sn addr = publicKey) :
    validateViewingKey sn backend viewingKey addr = .ok () := by
  unfold validateViewingKey
  dsimp only
  split_ifs with hzero hderived
  · rfl
  · rfl
  · refine absurd ?_ hderived
    rw [hkey, hregistered.resolve_left hzero]

variable {account : List StoredChannel} {publicKey : Felt} {schedules : ℕ → Schedule}

/-- `discoverNotes` returns just when its loop ends. -/
theorem exists_discoversNotes_iff {cursor : Option NotesCursor} (tokens : Option (List Felt))
    (schedules : ℕ → Schedule) :
    (∃ notes cursor', DiscoversNotes sn newFromX backend limits address viewingKey cursor tokens
      schedules notes cursor') ↔ ∃ final, Loop.Ends (discoverNotesPage sn newFromX backend limits
        address viewingKey (tokens.map List.dedup) schedules) 0
          (discoverNotesStart cursor (tokens.map List.dedup)) final := by
  constructor
  · rintro ⟨notes, cursor', apiCursor, hends⟩
    exact ⟨_, hends⟩
  · rintro ⟨⟨apiCursor, notes, cursor'⟩, hends⟩
    exact ⟨notes, cursor', apiCursor, hends⟩

/-- `discoverNotes` returns just when the limits leave room for the account. -/
theorem discoverNotes_ends_iff (hcurve : CurveLaw sn) (hrecover : RecoversPoints sn newFromX)
    (hkey : sn.derivePublicKey viewingKey = .ok publicKey)
    (hregistered : backend.getPublicKey sn (ContractAddress.toFelt address) = 0 ∨
      backend.getPublicKey sn (ContractAddress.toFelt address) = publicKey)
    (hstored : AccountStored sn backend.pool address publicKey account)
    (hbudget : minServerBudget limits.cursorLimits.maxNoteLogIndex ≤ limits.serverBudget)
    (tokens : Option (List Felt)) :
    (∃ notes cursor, DiscoversNotes sn newFromX backend limits address viewingKey none tokens
      schedules notes cursor) ↔ IncomingFits limits.cursorLimits account := by
  have hheld := hstored.incomingHeld hcurve hrecover hkey
  have hloop : (∃ final, Loop.Ends (discoverNotesPage sn newFromX backend limits address viewingKey
      (tokens.map List.dedup) schedules) 0 (discoverNotesStart none (tokens.map List.dedup)) final) ↔
      DiscoveryCursor.Fits (contentsOf account) (account.map fun channel =>
        ⟨channel.channelKey, ContractAddress.toFelt channel.peerAddr⟩) limits.cursorLimits {} :=
    discoverNotes_loop_iff hheld (validateViewingKey_ok hkey hregistered) hbudget
      (DiscoveryCursor.follows_default _ _) (DiscoveryCursor.valid_default _) fun _ h => nomatch h
  rw [exists_discoversNotes_iff, hloop, DiscoveryCursor.fits_default_iff, List.length_map, List.forall_mem_map]
  exact and_congr_right fun _ => forall₂_congr fun channel hmem =>
    fits_stored_iff hstored.keys_nodup hmem (hstored.stored channel hmem)

section Outgoing

variable {filter : Option (List Felt)}

/-- A channel of a sender can end just when the limits leave room for it. -/
theorem canEnd_stored_iff (hstored : SenderStored sn backend.pool address viewingKey account)
    {channel : StoredChannel} (hmem : channel ∈ account) {limits : CursorLimits} :
    (newCursorToward sn backend (ContractAddress.toFelt address) viewingKey
        (ContractAddress.toFelt channel.peerAddr)).CanEnd (contentsOf account) limits ↔
      ChannelFits limits channel := by
  rw [newCursorToward, hstored.channelToward_key hmem, ChannelCursor.canEnd_new_iff,
    tokens_of_mem hstored.keys_nodup hmem, List.length_map, List.forall_mem_map]
  refine and_congr_right fun _ => forall₂_congr fun subchannel hsub => ?_
  rw [count_of_mem (subchannelsAt_of_mem hstored.keys_nodup hmem)
    (hstored.stored channel hmem).nodup hsub]

theorem filter_recipientsOf (filter : Option (List Felt)) (account : List StoredChannel) :
    (recipientsOf account).filter (passes filter) = recipientsOf (passing filter account) :=
  List.filter_map

theorem idleToward_stored (hstored : SenderStored sn backend.pool address viewingKey account) :
    idleToward sn backend (ContractAddress.toFelt address) viewingKey (contentsOf account) filter
        (recipientsOf account) =
      recipientsOf ((passing filter account).filter fun channel => channel.subchannels.isEmpty) := by
  unfold idleToward
  rw [filter_recipientsOf, recipientsOf, List.filter_map]
  refine congrArg (List.map _) (List.filter_congr fun channel hchannel => ?_)
  have hmem := List.mem_of_mem_filter hchannel
  rw [Function.comp_apply, hstored.channelToward_key hmem, tokens_of_mem hstored.keys_nodup hmem,
    List.isEmpty_map]

/-- The limits leave room for a sender just when they do for its contents. -/
theorem outgoingFits_iff (hstored : SenderStored sn backend.pool address viewingKey account)
    {limits : CursorLimits} : OutgoingFits limits filter account ↔
      (idleToward sn backend (ContractAddress.toFelt address) viewingKey (contentsOf account) filter
        (recipientsOf account)).length < limits.maxChannels ∧
      ∀ addr ∈ (recipientsOf account).filter (passes filter), (newCursorToward sn backend
        (ContractAddress.toFelt address) viewingKey addr).CanEnd (contentsOf account) limits := by
  rw [idleToward_stored hstored, filter_recipientsOf, recipientsOf, recipientsOf, List.length_map,
    List.forall_mem_map]
  exact and_congr_right fun _ => forall₂_congr fun channel hpass =>
    (canEnd_stored_iff hstored (List.mem_of_mem_filter hpass)).symm

/-- From the first index on the loop of `discoverChannels` ends just when the recipients and the
cursor are accepted and the limits leave room. -/
theorem discoverChannels_loop_iff (hkey : validateViewingKey sn backend viewingKey
      (ContractAddress.toFelt address) = .ok ())
    (hstored : SenderStored sn backend.pool address viewingKey account)
    (hbudget : minServerBudget limits.cursorLimits.maxNoteLogIndex ≤ limits.serverBudget)
    {state : ChannelsState}
    (hstate : state.Tracking sn backend (ContractAddress.toFelt address) viewingKey
      (contentsOf account) (recipientsOf account) filter limits.cursorLimits)
    (hopen : state.apiCursor.channelDiscoveryComplete = false)
    (hfirst : nextIndex state.apiCursor.lastChannelIndex = 0) :
    (∃ final, Loop.Ends (discoverChannelsPage sn backend limits (ContractAddress.toFelt address)
      viewingKey filter schedules) 0 state final) ↔
        (validateRecipients filter limits.maxOutgoingRecipients = .ok () ∧
          state.apiCursor.Accepted limits.cursorLimits) ∧
          OutgoingFits limits.cursorLimits filter account := by
  have hheld := hstored.senderHeld
  have hnodup : (recipientsOf account).Nodup := nodup_toFelt hstored.peers_nodup
  have hunfound : state.apiCursor.unfoundToward (recipientsOf account) filter =
      (recipientsOf account).filter (passes filter) := by
    rw [DiscoveryCursor.unfoundToward, hopen, hfirst]
    rfl
  rw [outgoingFits_iff hstored]
  constructor
  · rintro ⟨final, hends⟩
    obtain ⟨haccepted, hcan⟩ := canEnd_of_discoverChannels_loop hnodup hheld hstate hends
    exact ⟨haccepted, hcan.room hopen, hunfound ▸ hcan.unfound⟩
  · rintro ⟨⟨hrecipients, haccepted⟩, hroom, hcan⟩
    exact discoverChannels_loop_ends hheld hkey hbudget hnodup hrecipients hcan hstate haccepted
      fun _ => hroom

/-- A page keeps a cursor on the pool. -/
theorem discoverChannelsPage_follows {senderAddr : Felt} {recipients : List Felt}
    (hheld : SenderHeld sn backend senderAddr viewingKey recipients contents) {round : ℕ}
    {state next : ChannelsState} {ended : Bool}
    (hstate : state.apiCursor.FollowsOutgoing sn backend senderAddr viewingKey contents recipients
      filter)
    (hok : discoverChannelsPage sn backend limits senderAddr viewingKey filter schedules round
      state = .ok (next, ended)) :
    next.apiCursor.FollowsOutgoing sn backend senderAddr viewingKey contents recipients filter ∧
      (ended = true → next.apiCursor.isComplete = true) := by
  obtain ⟨-, resp, hsync, rfl, rfl⟩ := discoverChannelsPage_eq_ok hok
  have hpaged : OutgoingPaged False sn backend senderAddr viewingKey contents recipients filter
      limits.cursorLimits state.apiCursor resp :=
    (syncOutgoingState_within hheld hstate.lags).of_ok hsync
  have hfollows := hpaged.follows hheld hstate
  split_ifs with hover
  · exact ⟨hfollows, fun _ => hover⟩
  · exact ⟨(pruneCompleteCursor_pruned resp.cursor).followsOutgoing hfollows,
      fun hended => absurd hended hover⟩

/-- A request on a cursor without channels whose scan is over returns it. -/
theorem syncOutgoingState_over {senderAddr : Felt} {cursor : DiscoveryCursor}
    {cursorLimits : CursorLimits} {filter : Option (List Felt)} {schedule : Schedule}
    (hover : cursor.channelDiscoveryComplete = true) (hnone : cursor.channels = []) :
    (syncOutgoingState sn backend senderAddr viewingKey cursor cursorLimits filter schedule).Within
      False (fun _ => False) fun result => result.cursor = cursor := by
  have hscan : newOutgoingChannels sn backend senderAddr viewingKey cursor cursorLimits.maxChannels
      filter = pure (cursor, []) := by
    unfold newOutgoingChannels discoverOutgoingChannelsPaginated DiscoveryCursor.allChannelsProcessed
    rw [hnone, if_pos hover]
    rfl
  have hprocess : processOutgoingChannels sn backend cursor cursorLimits schedule =
      pure (cursor, []) := by
    unfold processOutgoingChannels
    rw [hnone]
    simp only [extractIf, List.filter_nil, List.map_nil, Budget.Task.parallel_nil]
    rw [← hnone]
    rfl
  unfold syncOutgoingState
  rw [hscan]
  refine Budget.Task.within_bind (Budget.Task.within_pure ?_)
  dsimp only
  rw [hprocess]
  refine Budget.Task.within_bind (Budget.Task.within_pure ?_)
  exact Budget.Task.within_bind (missingChannels_within.mono fun _ _ => Budget.Task.within_pure rfl)

/-- Without recipients the loop of `discoverChannels` ends at once. -/
theorem discoverChannels_nil (hkey : validateViewingKey sn backend viewingKey
    (ContractAddress.toFelt address) = .ok ()) :
    ∃ final, Loop.Ends (discoverChannelsPage sn backend limits (ContractAddress.toFelt address)
      viewingKey (some []) schedules) 0 ⟨{ channelDiscoveryComplete := true }, {}⟩ final := by
  have hwithin : (syncOutgoingState sn backend (ContractAddress.toFelt address) viewingKey
      { channelDiscoveryComplete := true } limits.cursorLimits (some []) (schedules 0)).Within False
        (fun _ => False) fun result => result.cursor = { channelDiscoveryComplete := true } :=
    syncOutgoingState_over rfl rfl
  have houtcome := hwithin.run limits.serverBudget
  cases hsync : (syncOutgoingState sn backend (ContractAddress.toFelt address) viewingKey
      { channelDiscoveryComplete := true } limits.cursorLimits (some [])
        (schedules 0)).outcome limits.serverBudget with
  | error e =>
    rw [hsync] at houtcome
    exact houtcome.elim
  | ok resp =>
    have hcomplete : resp.cursor.isComplete = true := by
      rw [hwithin.of_ok hsync]
      rfl
    have hok : discoverChannelsPage sn backend limits (ContractAddress.toFelt address) viewingKey
        (some []) schedules 0 ⟨{ channelDiscoveryComplete := true }, {}⟩ = _ :=
      discoverChannelsPage_ok rfl rfl hkey hsync
    rw [hcomplete] at hok
    exact ⟨_, Loop.ends_iff.mpr (.inl hok)⟩

/-- With channels to return, `discoverChannels` returns just when its loop ends. -/
theorem exists_discoversChannels_iff {senderAddr : Felt} (recipients : RecipientsFilter)
    (cursorMap : List (Felt × Channel)) (hrecipients : recipients ≠ .totalOnly) :
    (∃ result, DiscoversChannels sn backend limits senderAddr viewingKey recipients cursorMap
      schedules result) ↔ ∃ final, Loop.Ends (discoverChannelsPage sn backend limits senderAddr
        viewingKey (requestRecipients recipients) schedules) 0
          ⟨discoverChannelsStart recipients cursorMap, {}⟩ final := by
  constructor
  · rintro ⟨result, state, hends, -⟩
    exact ⟨state, hends⟩
  · rintro ⟨state, hends⟩
    cases recipients with
    | all => exact ⟨_, state, hends, rfl⟩
    | totalOnly => exact absurd rfl hrecipients
    | only recipients => exact ⟨_, state, hends, rfl⟩

/-- `discoverChannels` returns just when the limits leave room for what it is asked for. -/
theorem discoverChannels_ends_iff (hkey : sn.derivePublicKey viewingKey = .ok publicKey)
    (hregistered : backend.getPublicKey sn (ContractAddress.toFelt address) = 0 ∨
      backend.getPublicKey sn (ContractAddress.toFelt address) = publicKey)
    (hstored : SenderStored sn backend.pool address viewingKey account)
    (hbudget : minServerBudget limits.cursorLimits.maxNoteLogIndex ≤ limits.serverBudget)
    (recipients : RecipientsFilter) :
    (∃ result, DiscoversChannels sn backend limits (ContractAddress.toFelt address) viewingKey
      recipients [] schedules result) ↔ ChannelsFit limits recipients account := by
  have hvalidKey := validateViewingKey_ok hkey hregistered
  have hloop : ∀ filter, (∃ final, Loop.Ends (discoverChannelsPage sn backend limits
      (ContractAddress.toFelt address) viewingKey filter schedules) 0 ⟨{}, {}⟩ final) ↔
        validateRecipients filter limits.maxOutgoingRecipients = .ok () ∧
          OutgoingFits limits.cursorLimits filter account := fun filter =>
    (discoverChannels_loop_iff hvalidKey hstored hbudget tracking_default rfl rfl).trans
      (and_congr_left fun _ => and_iff_left (DiscoveryCursor.accepted_default _))
  cases recipients with
  | all =>
    exact (exists_discoversChannels_iff .all [] nofun).trans ((hloop none).trans (and_iff_right rfl))
  | totalOnly =>
    refine Iff.trans ⟨?_, ?_⟩ ((hloop none).trans (and_iff_right rfl))
    · rintro ⟨result, state, hends, -⟩
      exact ⟨state, hends⟩
    · rintro ⟨state, hends⟩
      -- A cursor whose scan is over has the number of channels.
      have hheld := hstored.senderHeld
      obtain ⟨round, last, hlast, hok⟩ := hends.last (fun state : ChannelsState =>
        state.apiCursor.FollowsOutgoing sn backend (ContractAddress.toFelt address) viewingKey
          (contentsOf account) (recipientsOf account) none)
        DiscoveryCursor.followsOutgoing_default
        fun round state next hstate hok => (discoverChannelsPage_follows hheld hstate hok).1
      obtain ⟨hfollows, hcomplete⟩ := discoverChannelsPage_follows hheld hlast hok
      have htotal := (hfollows.ended (Bool.and_eq_true_iff.mp (hcomplete rfl)).1).2
      refine ⟨{ total := state.apiCursor.totalNChannels }, state, hends, ?_⟩
      unfold discoverChannelsResult
      rw [htotal]
      rfl
  | only recipients =>
    rw [exists_discoversChannels_iff (.only recipients) [] nofun]
    cases recipients with
    -- No recipient: the function returns at once.
    | nil => exact iff_of_true (discoverChannels_nil hvalidKey) (.inl rfl)
    | cons recipient recipients =>
      have hbound : validateRecipients (some (recipient :: recipients).dedup)
          limits.maxOutgoingRecipients = .ok () ↔
            (recipient :: recipients).dedup.length ≤ limits.maxOutgoingRecipients :=
        validateBound_eq_ok_iff
      refine (hloop (some (recipient :: recipients).dedup)).trans ?_
      rw [hbound]
      exact (or_iff_right (List.cons_ne_nil _ _)).symm

end Outgoing

namespace Sample

open Discovery.Sample

/-- Room for one subchannel in each channel. -/
def tightLimits : ValidationLimits := ⟨⟨4, 1, 3⟩, 4, 100⟩

/-- Room for four subchannels in each channel. -/
def wideLimits : ValidationLimits := ⟨⟨4, 4, 3⟩, 4, 100⟩

theorem registered : Discovery.Sample.backend.getPublicKey Starknet.sample
    (ContractAddress.toFelt 5) = 0 ∨ Discovery.Sample.backend.getPublicKey Starknet.sample
      (ContractAddress.toFelt 5) = 3 := by
  decide +kernel

theorem derived : Starknet.sample.derivePublicKey 3 = .ok 3 := by decide +kernel

theorem incomingFits : IncomingFits wideLimits.cursorLimits stored := by
  refine ⟨by decide, fun channel hchannel => ?_⟩
  obtain rfl := List.mem_singleton.mp hchannel
  refine ⟨by decide, fun subchannel hsub => ?_⟩
  obtain rfl := List.mem_singleton.mp hsub
  decide

end Sample

end PrivacyPool.Sdk
