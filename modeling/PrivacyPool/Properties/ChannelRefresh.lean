import PrivacyPool.Discovery.Growth
import PrivacyPool.Properties.OutgoingSync
import PrivacyPool.Properties.SyncLoops
import PrivacyPool.Sdk.ChannelMap

/-!
# Targeted channel refresh

`discoverChannels` with a list of recipients scans all channels unless the cursor has the
key of each of them. Then it skips the channel scan, and the server, which only returns the
channels that it finds, returns none of them: what is accumulated about their subchannels
has no channel to go with, and is dropped.

## Main definitions

* `Channel.Accurate`, `ChannelsAccurate` — what the SDK knows of the channels is right
* `RefreshAccurate` — a refresh returns an accurate entry for each requested recipient

## Main results

* `channel_refresh_accurate_iff` — when a refresh is accurate
-/

namespace PrivacyPool.Sdk

open Discovery HashMap

/-- What the SDK knows of a channel is right: its key, and the number of notes of each of
its subchannels. -/
structure Channel.Accurate (channel : Channel) (stored : StoredChannel) : Prop where
  key_eq : channel.key = some stored.channelKey
  tokens : ∀ subchannel ∈ stored.subchannels, ∃ tokenIndex,
    AddressMap.get channel.tokens (ContractAddress.toFelt subchannel.token) =
      some ⟨tokenIndex, subchannel.notes.length⟩

/-- A channel cursor is accurate: the channels that it has a key of are right. -/
def ChannelsAccurate (account : List StoredChannel) (cursorMap : List (Felt × Channel)) : Prop :=
  ∀ recipient channel, AddressMap.get cursorMap recipient = some channel → channel.key.isSome →
    ∃ stored ∈ account, ContractAddress.toFelt stored.peerAddr = recipient ∧
      channel.Accurate stored

variable {sn : Starknet} {backend : Backend} {limits : ValidationLimits} {sender : ContractAddress}
  {viewingKey : Felt} {account : List StoredChannel}

/-- Whatever the schedules are, `discoverChannels` with a list of recipients and a cursor
returns an accurate entry for each of them that has a channel. -/
def RefreshAccurate (sn : Starknet) (backend : Backend) (limits : ValidationLimits)
    (sender : ContractAddress) (viewingKey : Felt) (account : List StoredChannel)
    (cursorMap : List (Felt × Channel)) (recipients : List Felt) : Prop :=
  ∀ schedules, ∃ result channels, DiscoversChannels sn backend limits
      (ContractAddress.toFelt sender) viewingKey (.only recipients) cursorMap schedules result ∧
    result.channels = some channels ∧
    ∀ stored ∈ account, ContractAddress.toFelt stored.peerAddr ∈ recipients →
      ∃ channel, AddressMap.get channels (ContractAddress.toFelt stored.peerAddr) = some channel ∧
        channel.Accurate stored

/-! ### Pages -/

section Pages

variable {senderAddr : Felt} {filter : Option (List Felt)} {schedules : ℕ → Schedule}
  {final : ChannelsState}

/-- The loop of `discoverChannels` goes through pages of the outgoing sync. -/
theorem discoverChannels_pages (h : Loop.Ends (discoverChannelsPage sn backend limits senderAddr
    viewingKey filter schedules) 0 ⟨{}, {}⟩ final) :
    ∃ results, OutgoingPages sn backend senderAddr viewingKey filter {} results final.apiCursor ∧
      final.apiCursor.isComplete = true ∧ final.acc = accumulated {} results := by
  obtain ⟨round, last, ⟨results, cursor, pages, hpruned, hacc⟩, hok⟩ := h.last
    (fun state : ChannelsState => ∃ results cursor, OutgoingPages sn backend senderAddr viewingKey
      filter {} results cursor ∧ cursor.Pruned state.apiCursor ∧ state.acc = accumulated {} results)
    ⟨[], {}, .none, .refl _, rfl⟩ fun round state next ⟨results, cursor, pages, hpruned, hacc⟩ hok => by
      obtain ⟨-, resp, hsync, rfl, hover⟩ := discoverChannelsPage_eq_ok hok
      refine ⟨results ++ [resp], resp.cursor, .page pages hpruned hsync, ?_, ?_⟩
      · rw [← hover]
        exact pruneCompleteCursor_pruned resp.cursor
      · rw [hacc, accumulated, accumulated, List.foldl_append]
        rfl
  obtain ⟨-, resp, hsync, rfl, hover⟩ := discoverChannelsPage_eq_ok hok
  refine ⟨results ++ [resp], ?_, ?_, ?_⟩
  · rw [← hover]
    exact .page pages hpruned hsync
  · rw [← hover]
    exact hover.symm
  · rw [hacc, accumulated, accumulated, List.foldl_append]
    rfl

/-- A request on a cursor whose channel scan is over only returns precomputed channels, and
leaves the scan over. -/
theorem syncOutgoingState_skips {cursor : DiscoveryCursor} {cursorLimits : CursorLimits}
    {schedule : Schedule} (hover : cursor.channelDiscoveryComplete = true) :
    (syncOutgoingState sn backend senderAddr viewingKey cursor cursorLimits filter schedule).Within
      False (fun _ => True) fun result =>
        onChain result.channels = [] ∧ result.cursor.channelDiscoveryComplete = true := by
  have hscan : newOutgoingChannels sn backend senderAddr viewingKey cursor cursorLimits.maxChannels
      filter = pure (cursor, []) := by
    unfold newOutgoingChannels discoverOutgoingChannelsPaginated
    rw [if_pos hover]
    split_ifs <;> rfl
  have hprocess : (processOutgoingChannels sn backend cursor cursorLimits schedule).Within False
      (fun _ => True) fun result => result.1.channelDiscoveryComplete = true :=
    Budget.Task.within_bind (Budget.Task.within_true.mono fun _ _ => Budget.Task.within_pure hover)
  unfold syncOutgoingState
  rw [hscan]
  refine Budget.Task.within_bind (Budget.Task.within_pure ?_)
  refine Budget.Task.within_bind (hprocess.mono fun ⟨cursor', reports⟩ hover' => ?_)
  refine Budget.Task.within_bind (missingChannels_within.mono fun channels hchannels => ?_)
  refine Budget.Task.within_pure ⟨?_, hover'⟩
  rw [hchannels, if_pos hover']
  exact onChain_missingToward cursor'

/-- When the channel scan is skipped, no channel that exists is accumulated. -/
theorem discoverChannels_skipped {start : DiscoveryCursor}
    (hover : start.channelDiscoveryComplete = true)
    (h : Loop.Ends (discoverChannelsPage sn backend limits senderAddr viewingKey filter schedules) 0
      ⟨start, {}⟩ final) : final.acc.created = [] := by
  have hstep : ∀ round (state next : ChannelsState) ended,
      state.apiCursor.channelDiscoveryComplete = true ∧ state.acc.created = [] →
      discoverChannelsPage sn backend limits senderAddr viewingKey filter schedules round state =
        .ok (next, ended) →
      next.apiCursor.channelDiscoveryComplete = true ∧ next.acc.created = [] := by
    rintro round state next ended ⟨hover, hcreated⟩ hok
    obtain ⟨-, resp, hsync, rfl, -⟩ := discoverChannelsPage_eq_ok hok
    obtain ⟨hchannels, hover'⟩ := (syncOutgoingState_skips hover).of_ok hsync
    refine ⟨?_, ?_⟩
    · split_ifs <;> exact hover'
    · rw [accumulateOutgoingResponse, created_foldl_accumulateSubchannel,
        created_foldl_of_precomputed, hcreated]
      intro channel hchannel
      simpa using List.filter_eq_nil_iff.mp hchannels channel hchannel
  obtain ⟨round, last, hlast, hok⟩ := h.last
    (fun state : ChannelsState =>
      state.apiCursor.channelDiscoveryComplete = true ∧ state.acc.created = [])
    ⟨hover, rfl⟩ fun round state next hstate hok => hstep round state next false hstate hok
  exact (hstep round last final true hlast hok).2

end Pages

/-! ### The full scan -/

/-- The channel of an account is kept with its key. -/
theorem created_of_pages (hstored : SenderStored sn backend.pool sender viewingKey account)
    {filter : Option (List Felt)} {results : List SyncOutgoingStateResult} {cursor : DiscoveryCursor}
    (pages : OutgoingPages sn backend (ContractAddress.toFelt sender) viewingKey filter {} results
      cursor)
    (hover : cursor.channelDiscoveryComplete = true) {stored : StoredChannel}
    (hmem : stored ∈ account)
    (hpasses : passes filter (ContractAddress.toFelt stored.peerAddr) = true) :
    AddressMap.get (accumulated {} results).created (ContractAddress.toFelt stored.peerAddr) =
      some (backend.getPublicKey sn (ContractAddress.toFelt stored.peerAddr), stored.channelKey) := by
  have hchannels := pages.onChain_eq hstored hover
  have hfind : (results.flatMap (·.channels)).reverse.find?
      (createdToward (ContractAddress.toFelt stored.peerAddr)) =
        some (outgoingChannel sn backend stored) := by
    -- The last report on the recipient is found in the channels on chain, where the sender has one.
    have hsplit : (results.flatMap (·.channels)).reverse.find?
        (createdToward (ContractAddress.toFelt stored.peerAddr)) =
          (onChain (results.flatMap (·.channels))).reverse.find? fun channel =>
            channel.recipientAddr = (outgoingChannel sn backend stored).recipientAddr := by
      rw [onChain, ← List.filter_reverse, List.find?_filter]
      refine congrArg (List.find? · _) (funext fun channel => ?_)
      by_cases haddr : channel.recipientAddr = ContractAddress.toFelt stored.peerAddr <;>
        simp [createdToward, outgoingChannel, haddr]
    rw [hsplit, hchannels]
    refine find?_eq_some_of_mem ?_ ?_
    · rw [List.map_reverse, List.nodup_reverse, List.map_map]
      exact (nodup_toFelt hstored.peers_nodup).sublist (List.filter_sublist.map _)
    · exact List.mem_reverse.mpr (List.mem_map_of_mem (List.mem_filter.mpr ⟨hmem, hpasses⟩))
  rw [created_accumulated, hfind]
  rfl

/-- The number of notes of a subchannel is kept. -/
theorem reportAt_of_pages (hstored : SenderStored sn backend.pool sender viewingKey account)
    {filter : Option (List Felt)} {results : List SyncOutgoingStateResult} {cursor : DiscoveryCursor}
    (pages : OutgoingPages sn backend (ContractAddress.toFelt sender) viewingKey filter {} results
      cursor)
    (hcomplete : cursor.isComplete = true) {stored : StoredChannel} (hmem : stored ∈ account)
    (hpasses : passes filter (ContractAddress.toFelt stored.peerAddr) = true)
    {subchannel : StoredSubchannel} (hsub : subchannel ∈ stored.subchannels) :
    (accumulated {} results).reportAt (ContractAddress.toFelt stored.peerAddr)
      (ContractAddress.toFelt subchannel.token) = some (lastIndexOf subchannel.notes.length) := by
  unfold Accumulated.reportAt
  rw [subchannels_accumulated]
  refine reportAt_foldl (fun report hreport hon => ?_) (.inl rfl) (.inr ?_)
  · obtain ⟨haddr, htoken⟩ := of_decide_eq_true hon
    refine (pages.reports_right hstored.senderHeld report hreport).imp_right fun hright => ?_
    rw [hright, haddr, htoken, trueReport_stored hstored hmem hsub]
  · have hlast := pages.lastReport_eq hstored hcomplete hmem hpasses hsub
    exact ⟨_, List.mem_reverse.mp (List.mem_of_find?_eq_some hlast), decide_eq_true ⟨rfl, rfl⟩, rfl⟩

theorem elim_lastIndexOf (count : ℕ) : (lastIndexOf count).elim 0 (· + 1) = count := by
  cases count <;> rfl

/-- After a full scan the entry of a channel that passes the filter is accurate. -/
theorem accurate_of_pages (hstored : SenderStored sn backend.pool sender viewingKey account)
    {filter : Option (List Felt)} {results : List SyncOutgoingStateResult} {cursor : DiscoveryCursor}
    (pages : OutgoingPages sn backend (ContractAddress.toFelt sender) viewingKey filter {} results
      cursor)
    (hcomplete : cursor.isComplete = true) {stored : StoredChannel} (hmem : stored ∈ account)
    (hpasses : passes filter (ContractAddress.toFelt stored.peerAddr) = true) :
    ∃ channel, AddressMap.get (buildChannelMap (accumulated {} results))
        (ContractAddress.toFelt stored.peerAddr) = some channel ∧ channel.Accurate stored := by
  have hover := (Bool.and_eq_true_iff.mp hcomplete).1
  refine ⟨_, buildChannelMap_of_created (created_of_pages hstored pages hover hmem hpasses), rfl,
    fun subchannel hsub => ?_⟩
  have hreport := reportAt_of_pages hstored pages hcomplete hmem hpasses hsub
  obtain ⟨tokenIndex, htoken⟩ := get_buildTokens ((AddressMap.get (accumulated {} results).subchannels
    (ContractAddress.toFelt stored.peerAddr)).getD []) (ContractAddress.toFelt subchannel.token)
  unfold Accumulated.reportAt at hreport
  rw [hreport, Option.map_some, elim_lastIndexOf] at htoken
  exact ⟨tokenIndex, htoken⟩

/-! ### Refreshes -/

variable {cursorMap : List (Felt × Channel)} {recipients : List Felt}

/-- Without the key of some recipient, the refresh is a full scan. -/
theorem discoverChannelsStart_of_unresolved (h : resolve cursorMap recipients = none) :
    discoverChannelsStart (.only recipients) cursorMap = {} := by
  unfold discoverChannelsStart
  dsimp only
  rw [h]

/-- The recipients of a refresh that is not a full scan, with their keys. -/
theorem of_resolve {resolved : List (Felt × Felt × Channel)}
    (h : resolve cursorMap recipients = some resolved) :
    resolved.map Prod.fst = recipients ∧ ∀ entry ∈ resolved,
      AddressMap.get cursorMap entry.1 = some entry.2.2 ∧ entry.2.2.key = some entry.2.1 := by
  induction recipients generalizing resolved with
  | nil =>
    obtain rfl := Option.some.inj h
    exact ⟨rfl, nofun⟩
  | cons head rest ih =>
    unfold resolve at h ih
    rw [List.mapM_cons] at h
    obtain ⟨entry, hentry, h⟩ := Option.bind_eq_some_iff.mp h
    obtain ⟨entries, hentries, hsame⟩ := Option.bind_eq_some_iff.mp h
    obtain rfl := Option.some.inj hsame
    obtain ⟨hrest, hall⟩ := ih hentries
    obtain ⟨channel, hchannel, hkey⟩ := Option.bind_eq_some_iff.mp hentry
    obtain ⟨key, hfilter, rfl⟩ := Option.map_eq_some_iff.mp hkey
    refine ⟨by rw [List.map_cons, hrest], List.forall_mem_cons.mpr ⟨⟨hchannel, ?_⟩, hall⟩⟩
    exact (Option.filter_eq_some_iff.mp hfilter).1

/-- The key of each recipient is known when the refresh is not a full scan. -/
theorem known_of_resolve {resolved : List (Felt × Felt × Channel)}
    (h : resolve cursorMap recipients = some resolved) {recipient : Felt}
    (hrecipient : recipient ∈ recipients) : ∃ channel,
      AddressMap.get cursorMap recipient = some channel ∧ channel.key.isSome := by
  obtain ⟨hrecipients, hall⟩ := of_resolve h
  rw [← hrecipients] at hrecipient
  obtain ⟨⟨addr, key, channel⟩, hmem, rfl⟩ := List.mem_map.mp hrecipient
  obtain ⟨hget, hkey⟩ := hall _ hmem
  exact ⟨channel, hget, Option.isSome_of_mem hkey⟩

/-- When the key of each recipient is known, no entry that a refresh returns has a key. -/
theorem refresh_without_keys {resolved : List (Felt × Felt × Channel)} {senderAddr : Felt}
    {schedules : ℕ → Schedule} {result : ChannelsResult} {channels : List (Felt × Channel)}
    (hresolve : resolve cursorMap recipients = some resolved)
    (h : DiscoversChannels sn backend limits senderAddr viewingKey (.only recipients) cursorMap
      schedules result)
    (hchannels : result.channels = some channels) {recipient : Felt} {channel : Channel}
    (hget : AddressMap.get channels recipient = some channel) : channel.key = none := by
  obtain ⟨state, hends, hresult⟩ := h
  have hover : (discoverChannelsStart (.only recipients) cursorMap).channelDiscoveryComplete =
      true := by
    unfold discoverChannelsStart
    dsimp only
    rw [hresolve]
  have hcreated := discoverChannels_skipped hover hends
  obtain rfl := Except.ok.inj hresult
  obtain rfl := Option.some.inj hchannels
  exact buildChannelMap_of_none hcreated _ (List.mem_of_mem_filter (AddressMap.mem_of_get hget))

/-- A refresh that is a full scan is accurate, when it returns. -/
theorem refresh_of_unresolved (hstored : SenderStored sn backend.pool sender viewingKey account)
    (hresolve : resolve cursorMap recipients = none) {schedules : ℕ → Schedule}
    {result : ChannelsResult}
    (h : DiscoversChannels sn backend limits (ContractAddress.toFelt sender) viewingKey
      (.only recipients) cursorMap schedules result) :
    ∃ channels, result.channels = some channels ∧
      ∀ stored ∈ account, ContractAddress.toFelt stored.peerAddr ∈ recipients →
        ∃ channel, AddressMap.get channels (ContractAddress.toFelt stored.peerAddr) = some channel ∧
          channel.Accurate stored := by
  obtain ⟨state, hends, hresult⟩ := h
  rw [discoverChannelsStart_of_unresolved hresolve] at hends
  obtain ⟨results, pages, hcomplete, hacc⟩ := discoverChannels_pages hends
  obtain rfl := Except.ok.inj hresult
  refine ⟨_, rfl, fun stored hmem hrecipient => ?_⟩
  have hpasses : passes (requestRecipients (.only recipients))
      (ContractAddress.toFelt stored.peerAddr) = true :=
    List.contains_iff_mem.mpr (List.mem_dedup.mpr hrecipient)
  obtain ⟨channel, hget, haccurate⟩ := accurate_of_pages hstored pages hcomplete hmem hpasses
  refine ⟨channel, ?_, haccurate⟩
  rw [AddressMap.get_filter _ (fun addr => recipients.contains addr),
    if_pos (List.contains_iff_mem.mpr hrecipient), hacc, hget]

/-- A refresh that is a full scan returns just when a call without a cursor does. -/
theorem discoversChannels_of_unresolved (hresolve : resolve cursorMap recipients = none)
    {senderAddr : Felt} {schedules : ℕ → Schedule} {result : ChannelsResult} :
    DiscoversChannels sn backend limits senderAddr viewingKey (.only recipients) cursorMap schedules
        result ↔
      DiscoversChannels sn backend limits senderAddr viewingKey (.only recipients) [] schedules
        result := by
  have hnone : resolve [] recipients = none := by
    cases recipients with
    | nil => cases hresolve
    | cons recipient rest => rfl
  unfold DiscoversChannels
  rw [discoverChannelsStart_of_unresolved hresolve, discoverChannelsStart_of_unresolved hnone]

/-- **When a targeted refresh is accurate.** Let the pool store the outgoing channels of a
user, and let the channel cursor be accurate at an earlier pool. A refresh with a list of
recipients is accurate just when the list is empty, or the cursor lacks the key of one of
them, so that all channels are scanned, and the limits leave room for the scan. -/
theorem channel_refresh_accurate_iff {publicKey : Felt} {D : Domain} {earlier : Pool}
    {known : List StoredChannel} (hkey : sn.derivePublicKey viewingKey = .ok publicKey)
    (hregistered : backend.getPublicKey sn (ContractAddress.toFelt sender) = 0 ∨
      backend.getPublicKey sn (ContractAddress.toFelt sender) = publicKey)
    (hbudget : minServerBudget limits.cursorLimits.maxNoteLogIndex ≤ limits.serverBudget)
    (hstored : SenderStored sn backend.pool sender viewingKey account)
    (hearlier : SenderStored sn earlier sender viewingKey known)
    (hkept : Kept sn D earlier backend.pool) (hcovered : OutgoingCovered D sender viewingKey known)
    (hcursor : ChannelsAccurate known cursorMap) :
    RefreshAccurate sn backend limits sender viewingKey account cursorMap recipients ↔
      recipients = [] ∨
        resolve cursorMap recipients = none ∧ ChannelsFit limits (.only recipients) account := by
  constructor
  · intro haccurate
    obtain ⟨result, channels, hdiscovers, hchannels, hentries⟩ := haccurate fun _ => ⟨[], fun _ => []⟩
    cases hresolve : resolve cursorMap recipients with
    | none =>
      have hends := (discoverChannels_ends_iff hkey hregistered hstored hbudget _).mp
        ⟨result, (discoversChannels_of_unresolved hresolve).mp hdiscovers⟩
      exact .inr ⟨rfl, hends⟩
    | some resolved =>
      refine .inl (List.eq_nil_iff_forall_not_mem.mpr fun recipient hrecipient => ?_)
      -- The recipient had a channel when the cursor was accurate, and still has it.
      obtain ⟨channel, hget, hsome⟩ := known_of_resolve hresolve hrecipient
      obtain ⟨old, hold, rfl, -⟩ := hcursor recipient channel hget hsome
      obtain ⟨kept, added, rfl, hpeers⟩ := hearlier.peers_kept hstored hkept hcovered
      obtain ⟨stored, hmem, hpeer⟩ := exists_right_of_forall₂ hpeers hold
      rw [← hpeer] at hrecipient
      obtain ⟨entry, hentry, hright⟩ :=
        hentries stored (List.mem_append_left _ hmem) hrecipient
      have hnone := refresh_without_keys hresolve hdiscovers hchannels hentry
      rw [hright.key_eq] at hnone
      cases hnone
  -- An empty list asks for nothing, and without a key all channels are scanned.
  · rintro (rfl | ⟨hresolve, hfit⟩) schedules
    · obtain ⟨state, hends⟩ : ∃ final, Loop.Ends (discoverChannelsPage sn backend limits
          (ContractAddress.toFelt sender) viewingKey (some []) schedules) 0
            ⟨{ channelDiscoveryComplete := true }, {}⟩ final :=
        discoverChannels_nil (validateViewingKey_ok hkey hregistered)
      exact ⟨_, _, ⟨state, hends, rfl⟩, rfl, fun _ _ h => nomatch h⟩
    · obtain ⟨result, hdiscovers⟩ : ∃ result, DiscoversChannels sn backend limits
          (ContractAddress.toFelt sender) viewingKey (.only recipients) [] schedules result :=
        (discoverChannels_ends_iff hkey hregistered hstored hbudget _).mpr hfit
      have hdiscovers' := (discoversChannels_of_unresolved hresolve).mpr hdiscovers
      obtain ⟨channels, hchannels, hentries⟩ := refresh_of_unresolved hstored hresolve hdiscovers'
      exact ⟨result, channels, hdiscovers', hchannels, hentries⟩

namespace Sample

/-- What user 5 knows of its channel to itself. -/
def knownChannel : Channel := ⟨3, some 1, [(77, ⟨0, 2⟩)]⟩

theorem channelsAccurate : ChannelsAccurate Discovery.Sample.stored [(5, knownChannel)] := by
  intro recipient channel hget _
  obtain ⟨rfl, rfl⟩ := Prod.ext_iff.mp (List.mem_singleton.mp (AddressMap.mem_of_get hget))
  refine ⟨_, List.mem_cons_self, rfl, rfl, fun subchannel hsub => ?_⟩
  obtain rfl := List.mem_singleton.mp hsub
  exact ⟨0, rfl⟩

theorem channelsFit : ChannelsFit wideLimits (.only [5]) Discovery.Sample.stored := by
  refine .inr ⟨by decide, by decide +kernel, fun channel hchannel => ?_⟩
  exact incomingFits.2 channel (List.mem_of_mem_filter hchannel)

/-- What user 5 knows after it has also asked for user 6, to whom it has no channel. -/
def partlyKnown : List (Felt × Channel) := [(5, knownChannel), (6, ⟨0, none, []⟩)]

theorem partlyKnown_accurate : ChannelsAccurate Discovery.Sample.stored partlyKnown := by
  intro recipient channel hget hkey
  rcases List.mem_cons.mp (AddressMap.mem_of_get hget) with hknown | hunknown
  · obtain ⟨rfl, rfl⟩ := Prod.ext_iff.mp hknown
    exact channelsAccurate 5 knownChannel rfl hkey
  · obtain ⟨rfl, rfl⟩ := Prod.ext_iff.mp (List.mem_singleton.mp hunknown)
    cases hkey

theorem partlyKnown_channelsFit :
    ChannelsFit wideLimits (.only [5, 6]) Discovery.Sample.stored := by
  refine .inr ⟨by decide, by decide +kernel, fun channel hchannel => ?_⟩
  exact incomingFits.2 channel (List.mem_of_mem_filter hchannel)

end Sample

/-- User 5 knows its channel to itself, and no key of one to user 6. The refresh of both is
accurate: all channels are scanned. -/
theorem channel_refresh_accurate_iff_sample : RefreshAccurate Starknet.sample
    Discovery.Sample.backend Sample.wideLimits 5 3 Discovery.Sample.stored Sample.partlyKnown
      [5, 6] :=
  (channel_refresh_accurate_iff (D := ⟨Set.univ, Set.univ⟩) Sample.derived Sample.registered
    (by decide) Discovery.Sample.senderStored Discovery.Sample.senderStored
    ⟨fun _ _ _ _ _ => .inl fun _ _ => rfl, fun _ _ _ h => h⟩ (fun _ _ => Set.mem_univ _)
    Sample.partlyKnown_accurate).mpr (.inr ⟨by decide, Sample.partlyKnown_channelsFit⟩)

/-- With an accurate cursor for its channel to itself, and room for everything, the refresh
of user 5 is not accurate: no entry that it returns has a key. -/
theorem refresh_drops_known_channel :
    SenderStored Starknet.sample Discovery.Sample.backend.pool 5 3 Discovery.Sample.stored ∧
      ChannelsAccurate Discovery.Sample.stored [(5, Sample.knownChannel)] ∧
      ChannelsFit Sample.wideLimits (.only [5]) Discovery.Sample.stored ∧
      ¬RefreshAccurate Starknet.sample Discovery.Sample.backend Sample.wideLimits 5 3
        Discovery.Sample.stored [(5, Sample.knownChannel)] [5] := by
  refine ⟨Discovery.Sample.senderStored, Sample.channelsAccurate, Sample.channelsFit,
    fun haccurate => ?_⟩
  obtain ⟨result, channels, hdiscovers, hchannels, hentries⟩ := haccurate fun _ => ⟨[], fun _ => []⟩
  obtain ⟨entry, hentry, hright⟩ := hentries _ List.mem_cons_self (by decide)
  have hresolve : resolve [(5, Sample.knownChannel)] [5] = some [(5, 1, Sample.knownChannel)] := by
    decide
  have hnone := refresh_without_keys hresolve hdiscovers hchannels hentry
  rw [hright.key_eq] at hnone
  cases hnone

end PrivacyPool.Sdk
