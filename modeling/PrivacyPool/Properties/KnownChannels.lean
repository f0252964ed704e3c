import PrivacyPool.Properties.ChannelRefresh
import PrivacyPool.Sdk.NotesCursor

/-!
# Channels that the SDK knows

`discoverChannels` may start from channels that earlier calls have returned. It sends those that
it has a key of along, with the number of notes that it knows of in each subchannel. By then
there may be more channels, more subchannels and more notes, but not fewer.

## Main definitions

* `ChannelsLag` — the channels that the SDK knows lag behind those that are stored
* `ChannelsFitFrom` — the limits leave room for a call that starts from them

## Main results

* `discoverChannels_ends_of_fits`, `fits_of_discoverChannels` — when such a call ends
* `channelsLag_of_discovers`, `ChannelsLag.later` — what the calls return lags behind, at once and
  later
-/

namespace PrivacyPool.Sdk

open Discovery HashMap

/-- What the SDK knows of a channel lags behind: the key is right, and there are no fewer
subchannels and notes than it knows of. -/
structure Channel.Lags (channel : Channel) (stored : StoredChannel) : Prop where
  key_eq : channel.key = some stored.channelKey
  nodup : (keys channel.tokens).Nodup
  tokens : ∀ entry ∈ channel.tokens, ∃ subchannel ∈ stored.subchannels,
    ContractAddress.toFelt subchannel.token = entry.1 ∧
      entry.2.noteNonce ≤ subchannel.notes.length

/-- The channels that the SDK has a key of lag behind those that are stored. -/
structure ChannelsLag (account : List StoredChannel) (cursorMap : List (Felt × Channel)) : Prop where
  nodup : (keys cursorMap).Nodup
  known : ∀ entry ∈ cursorMap, entry.2.key.isSome → ∃ stored ∈ account,
    ContractAddress.toFelt stored.peerAddr = entry.1 ∧ entry.2.Lags stored

/-- The cursor that is sent for a subchannel in which some notes are known. -/
def knownSubchannel (noteNonce : ℕ) : SubchannelCursor where
  lastNoteIndex := if 0 < noteNonce then some (noteNonce - 1) else none

@[simp] theorem startIndex_knownSubchannel (noteNonce : ℕ) :
    (knownSubchannel noteNonce).startIndex = noteNonce := nextIndex_pred noteNonce

/-- The cursor that is sent for a known channel. -/
def knownCursor (key : Felt) (channel : Channel) : ChannelCursor where
  channelKey := key
  subchannels := buildSubchannelCursors
    (channel.tokens.map fun (token, nonces) => (token, nonces.noteNonce)) none []

theorem subchannels_knownCursor {key : Felt} {channel : Channel}
    (hnodup : (keys channel.tokens).Nodup) :
    (knownCursor key channel).subchannels =
      channel.tokens.map fun entry => (entry.1, knownSubchannel entry.2.noteNonce) := by
  have hkeys : (keys (channel.tokens.map fun (token, nonces) =>
      (token, nonces.noteNonce))).Nodup := by
    rw [keys, List.map_map]
    exact hnodup
  have hall : ∀ entries : List (Felt × ℕ),
      (entries.filter fun entry => inFilter none entry.1) = entries :=
    fun _ => List.filter_eq_self.mpr fun _ _ => rfl
  unfold knownCursor
  dsimp only
  rw [buildSubchannelCursors_eq hkeys, hall, List.map_map]
  rfl

/-- An entry of a request is that of a known channel. -/
def IsKnown (account : List StoredChannel) (cursorMap : List (Felt × Channel))
    (entry : Felt × ChannelCursor) : Prop :=
  ∃ stored ∈ account, ∃ channel, (entry.1, channel) ∈ cursorMap ∧
    ContractAddress.toFelt stored.peerAddr = entry.1 ∧ channel.Lags stored ∧
      entry.2 = knownCursor stored.channelKey channel

variable {sn : Starknet} {backend : Backend} {limits : ValidationLimits} {sender : ContractAddress}
  {viewingKey : Felt} {account : List StoredChannel} {cursorMap : List (Felt × Channel)}

section Request

variable (hstored : SenderStored sn backend.pool sender viewingKey account)
  {stored : StoredChannel} (hmem : stored ∈ account) {channel : Channel}
  (hlags : channel.Lags stored)
include hstored hmem hlags

/-- What is sent for a known channel tracks the pool. -/
theorem knownCursor_tracks (cursorLimits : CursorLimits) :
    (knownCursor stored.channelKey channel).Tracks (contentsOf account) cursorLimits := by
  have hat := subchannelsAt_of_mem hstored.keys_nodup hmem
  refine ⟨⟨Nat.zero_le _, ?_, fun entry hentry => ?_, fun entry hentry _ => ?_⟩, nofun, nofun, nofun,
    fun entry hentry _ => ?_⟩
  · rw [subchannels_knownCursor hlags.nodup, keys, List.map_map]
    exact hlags.nodup
  · rw [subchannels_knownCursor hlags.nodup] at hentry
    obtain ⟨old, hold, rfl⟩ := List.mem_map.mp hentry
    obtain ⟨subchannel, hsub, htoken, -⟩ := hlags.tokens old hold
    rw [knownCursor, tokens_of_mem hstored.keys_nodup hmem, ← htoken]
    exact List.mem_map_of_mem hsub
  · rw [subchannels_knownCursor hlags.nodup] at hentry
    obtain ⟨old, hold, rfl⟩ := List.mem_map.mp hentry
    obtain ⟨subchannel, hsub, htoken, hnonce⟩ := hlags.tokens old hold
    rw [knownCursor, ← htoken, count_of_mem hat (hstored.stored stored hmem).nodup hsub]
    exact (startIndex_knownSubchannel _).trans_le hnonce
  · rw [subchannels_knownCursor hlags.nodup] at hentry
    obtain ⟨old, -, rfl⟩ := List.mem_map.mp hentry
    rfl

/-- What is sent for a known channel is accepted, when the limits leave room for the channel. -/
theorem knownCursor_accepted {cursorLimits : CursorLimits} (hfits : ChannelFits cursorLimits stored) :
    (knownCursor stored.channelKey channel).subchannels.length ≤ cursorLimits.maxSubchannels ∧
      ∀ sub ∈ (knownCursor stored.channelKey channel).subchannels,
        sub.2.totalNNotes = none ∧ sub.2.startIndex ≤ maxNotes cursorLimits.maxNoteLogIndex := by
  have hlength := (knownCursor_tracks hstored hmem hlags cursorLimits).length_le
  rw [knownCursor, tokens_of_mem hstored.keys_nodup hmem, List.length_map] at hlength
  refine ⟨hlength.trans hfits.1.le, fun sub hsub => ?_⟩
  rw [subchannels_knownCursor hlags.nodup] at hsub
  obtain ⟨old, hold, rfl⟩ := List.mem_map.mp hsub
  obtain ⟨subchannel, hsub, -, hnonce⟩ := hlags.tokens old hold
  refine ⟨rfl, ((startIndex_knownSubchannel _).trans_le hnonce).trans ?_⟩
  have hcount := ((hstored.stored stored hmem).stored subchannel hsub).length_le
  exact le_maxNotes hcount (hfits.2 subchannel hsub)

end Request

/-- A request for known channels. -/
structure KnownRequest (account : List StoredChannel) (cursorMap : List (Felt × Channel))
    (filter : Option (List Felt)) (cursor : DiscoveryCursor) : Prop where
  last_eq : cursor.lastChannelIndex = none
  nodup : (keys cursor.channels).Nodup
  passes : ∀ entry ∈ cursor.channels, passes filter entry.1 = true
  known : ∀ entry ∈ cursor.channels, IsKnown account cursorMap entry

namespace KnownRequest

variable {filter : Option (List Felt)} {cursor : DiscoveryCursor}
  (h : KnownRequest account cursorMap filter cursor)
  (hstored : SenderStored sn backend.pool sender viewingKey account)
include h hstored

theorem tracking (cursorLimits : CursorLimits) :
    ChannelsState.Tracking sn backend (ContractAddress.toFelt sender) viewingKey
      (contentsOf account) (recipientsOf account) filter cursorLimits ⟨cursor, {}⟩ := by
  have hscans : ∀ entry ∈ cursor.channels, entry.2.Tracks (contentsOf account) cursorLimits := by
    intro entry hentry
    obtain ⟨stored, hmem, channel, -, -, hlags, hcursor⟩ := h.known entry hentry
    rw [hcursor]
    exact knownCursor_tracks hstored hmem hlags cursorLimits
  refine ⟨⟨⟨?_, h.nodup, fun entry hentry => ?_, fun entry hentry => (hscans entry hentry).toLags⟩,
    hscans, fun addr haddr => ?_⟩, fun entry hentry hcomplete => ?_⟩
  · rw [h.last_eq]
    exact Nat.zero_le _
  · obtain ⟨stored, hmem, channel, -, hpeer, hlags, hcursor⟩ := h.known entry hentry
    rw [hcursor, ← hpeer, hstored.channelToward_key hmem]
    exact ⟨List.mem_filter.mpr ⟨List.mem_map_of_mem hmem, hpeer ▸ h.passes entry hentry⟩, rfl⟩
  · rw [h.last_eq] at haddr
    simp [idleToward, nextIndex] at haddr
  · obtain ⟨stored, hmem, channel, -, -, -, hcursor⟩ := h.known entry hentry
    rw [hcursor] at hcomplete
    cases hcomplete

/-- A request for known channels is accepted when the limits leave room for them. -/
theorem accepted {cursorLimits : CursorLimits}
    (hlength : cursor.channels.length ≤ cursorLimits.maxChannels)
    (hfits : ∀ channel ∈ passing filter account, ChannelFits cursorLimits channel) :
    cursor.Accepted cursorLimits := by
  have hentry : ∀ entry ∈ cursor.channels,
      entry.2.subchannels.length ≤ cursorLimits.maxSubchannels ∧ ∀ sub ∈ entry.2.subchannels,
        sub.2.totalNNotes = none ∧ sub.2.startIndex ≤ maxNotes cursorLimits.maxNoteLogIndex := by
    intro entry hentry
    obtain ⟨stored, hmem, channel, -, hpeer, hlags, hcursor⟩ := h.known entry hentry
    rw [hcursor]
    exact knownCursor_accepted hstored hmem hlags
      (hfits stored (List.mem_filter.mpr ⟨hmem, hpeer ▸ h.passes entry hentry⟩))
  refine ⟨hlength, fun entry hmem => (hentry entry hmem).1, fun entry hmem sub hsub => ?_,
    fun entry hmem sub hsub => ((hentry entry hmem).2 sub hsub).2⟩
  rw [((hentry entry hmem).2 sub hsub).1]
  exact Nat.zero_le _

end KnownRequest

/-! ### The first request -/

/-- A channel that is sent along: its key is known. -/
def isSent (entry : Felt × Channel) : Bool := (entry.2.key.filter (· ≠ 0)).isSome

theorem keys_channelMapToApiCursor (channels : List (Felt × Channel)) (complete : Bool) :
    keys (channelMapToApiCursor channels complete).channels = keys (channels.filter isSent) := by
  have hsent : keys (channels.filter isSent) =
      channels.filterMap fun entry => if isSent entry then some entry.1 else none := by
    rw [keys, ← List.filterMap_eq_map, List.filterMap_filter]
    rfl
  rw [hsent, channelMapToApiCursor, keys, List.map_filterMap]
  refine List.filterMap_congr fun entry _ => ?_
  rw [Option.map_map, isSent]
  cases entry.2.key.filter (· ≠ 0) <;> rfl

/-- With all recipients, the channels that are known are sent. -/
theorem knownRequest_all (hlag : ChannelsLag account cursorMap) :
    KnownRequest account cursorMap none (channelMapToApiCursor cursorMap false) ∧
      (channelMapToApiCursor cursorMap false).channels.length = cursorMap.countP isSent := by
  have hkeys := keys_channelMapToApiCursor cursorMap false
  refine ⟨⟨rfl, ?_, fun _ _ => rfl, fun entry hentry => ?_⟩, ?_⟩
  · rw [hkeys]
    exact hlag.nodup.sublist (List.filter_sublist.map _)
  · obtain ⟨⟨recipient, channel⟩, hmem, hsent⟩ := List.mem_filterMap.mp hentry
    obtain ⟨key, hkey, rfl⟩ := Option.map_eq_some_iff.mp hsent
    have hkey' := (Option.filter_eq_some_iff.mp hkey).1
    obtain ⟨stored, hstored, hpeer, hlags⟩ := hlag.known _ hmem (Option.isSome_of_mem hkey')
    obtain rfl := Option.some.inj (hkey'.symm.trans hlags.key_eq)
    exact ⟨stored, hstored, channel, hmem, hpeer, hlags, rfl⟩
  · rw [List.countP_eq_length_filter, ← List.length_map Prod.fst, ← keys, hkeys, keys,
      List.length_map]

/-- When all recipients are known, they are what is sent. -/
theorem knownRequest_only (hlag : ChannelsLag account cursorMap) {recipients : List Felt}
    {resolved : List (Felt × Felt × Channel)} (hresolve : resolve cursorMap recipients = some resolved) :
    KnownRequest account cursorMap (some recipients.dedup)
        (discoverChannelsStart (.only recipients) cursorMap) ∧
      (keys (discoverChannelsStart (.only recipients) cursorMap).channels).Perm recipients.dedup := by
  obtain ⟨hrecipients, hall⟩ := of_resolve hresolve
  have hstart : (discoverChannelsStart (.only recipients) cursorMap).channels =
      (resolved.map fun entry => (entry.1, knownCursor entry.2.1 entry.2.2)).foldl
        (fun m entry => AddressMap.set m entry.1 entry.2) [] := by
    unfold discoverChannelsStart
    dsimp only
    rw [hresolve, List.foldl_map]
    rfl
  have hlast : (discoverChannelsStart (.only recipients) cursorMap).lastChannelIndex = none := by
    unfold discoverChannelsStart
    dsimp only
    rw [hresolve]
  have hkeys : ∀ addr, addr ∈ keys (discoverChannelsStart (.only recipients) cursorMap).channels ↔
      addr ∈ recipients := by
    intro addr
    rw [hstart, AddressMap.mem_keys_foldl_set _ Prod.fst Prod.snd, ← hrecipients, List.mem_map]
    simp [keys]
  have hnodup : (keys (discoverChannelsStart (.only recipients) cursorMap).channels).Nodup := by
    rw [hstart]
    exact AddressMap.nodup_keys_foldl_set List.nodup_nil
  refine ⟨⟨hlast, hnodup, fun entry hentry => ?_, fun entry hentry => ?_⟩, ?_⟩
  · exact List.contains_iff_mem.mpr (List.mem_dedup.mpr ((hkeys entry.1).mp (mem_keys_of_mem hentry)))
  · rw [hstart] at hentry
    obtain ⟨⟨recipient, key, channel⟩, hmem, rfl⟩ :=
      List.mem_map.mp ((AddressMap.mem_of_mem_foldl_set hentry).resolve_right List.not_mem_nil)
    -- An entry that is sent comes from a known channel, which lags behind a stored one.
    obtain ⟨hget, hkey⟩ := hall _ hmem
    have hknown := AddressMap.mem_of_get hget
    obtain ⟨stored, hstored, hpeer, hlags⟩ := hlag.known _ hknown (Option.isSome_of_mem hkey)
    obtain rfl := Option.some.inj (hkey.symm.trans hlags.key_eq)
    exact ⟨stored, hstored, channel, hknown, hpeer, hlags, rfl⟩
  · refine (List.perm_ext_iff_of_nodup hnodup (List.nodup_dedup _)).mpr fun addr => ?_
    rw [hkeys, List.mem_dedup]

/-! ### When the calls end -/

/-- The limits leave room for what `discoverChannels` is asked for when it starts from known
channels. With all recipients it sends these along; those of a list are refreshed when each of
them is known, and otherwise all channels are scanned afresh. -/
def ChannelsFitFrom (limits : ValidationLimits) (recipients : RecipientsFilter)
    (cursorMap : List (Felt × Channel)) (account : List StoredChannel) : Prop :=
  match recipients with
  | .all => cursorMap.countP isSent ≤ limits.cursorLimits.maxChannels ∧
      OutgoingFits limits.cursorLimits none account
  | .totalOnly => OutgoingFits limits.cursorLimits none account
  | .only recipients =>
    if (resolve cursorMap recipients).isSome then
      recipients.dedup.length ≤ limits.maxOutgoingRecipients ∧
        recipients.dedup.length ≤ limits.cursorLimits.maxChannels ∧
        ∀ channel ∈ passing (some recipients.dedup) account, ChannelFits limits.cursorLimits channel
    else ChannelsFit limits (.only recipients) account

theorem channelsFitFrom_of_unresolved {recipients : List Felt}
    (h : resolve cursorMap recipients = none) :
    ChannelsFitFrom limits (.only recipients) cursorMap account ↔
      ChannelsFit limits (.only recipients) account := by
  dsimp only [ChannelsFitFrom]
  rw [h, Option.isSome_none, if_neg Bool.false_ne_true]

theorem channelsFitFrom_of_resolved {recipients : List Felt}
    {resolved : List (Felt × Felt × Channel)} (h : resolve cursorMap recipients = some resolved) :
    ChannelsFitFrom limits (.only recipients) cursorMap account ↔
      recipients.dedup.length ≤ limits.maxOutgoingRecipients ∧
        recipients.dedup.length ≤ limits.cursorLimits.maxChannels ∧
        ∀ channel ∈ passing (some recipients.dedup) account,
          ChannelFits limits.cursorLimits channel := by
  dsimp only [ChannelsFitFrom]
  rw [h, Option.isSome_some, if_pos rfl]

/-- A subchannel of a refreshed channel, in which notes are known, has its end in reach. -/
def KnownInReach (limits : CursorLimits) (recipients : RecipientsFilter)
    (cursorMap : List (Felt × Channel)) (account : List StoredChannel) : Prop :=
  match recipients with
  | .all | .totalOnly => True
  | .only recipients => ∀ entry ∈ cursorMap, entry.1 ∈ recipients → ∀ token ∈ entry.2.tokens,
      0 < token.2.noteNonce → ∀ stored ∈ account, ContractAddress.toFelt stored.peerAddr = entry.1 →
        ∀ subchannel ∈ stored.subchannels, ContractAddress.toFelt subchannel.token = token.1 →
          subchannel.notes.length < 2 ^ limits.maxNoteLogIndex

section Refresh

variable {recipients : List Felt} {resolved : List (Felt × Felt × Channel)}
  {schedules : ℕ → Schedule} (hresolve : resolve cursorMap recipients = some resolved)
  (hlag : ChannelsLag account cursorMap)
  (hstored : SenderStored sn backend.pool sender viewingKey account)
include hresolve hlag hstored

theorem refresh_ends (hkey : validateViewingKey sn backend viewingKey
      (ContractAddress.toFelt sender) = .ok ())
    (hbudget : minServerBudget limits.cursorLimits.maxNoteLogIndex ≤ limits.serverBudget)
    (hrecipients : recipients.dedup.length ≤ limits.maxOutgoingRecipients)
    (hlength : recipients.dedup.length ≤ limits.cursorLimits.maxChannels)
    (hfits : ∀ channel ∈ passing (some recipients.dedup) account,
      ChannelFits limits.cursorLimits channel) :
    ∃ final, Loop.Ends (discoverChannelsPage sn backend limits (ContractAddress.toFelt sender)
      viewingKey (some recipients.dedup) schedules) 0
        ⟨discoverChannelsStart (.only recipients) cursorMap, {}⟩ final := by
  obtain ⟨hrequest, hkeys⟩ := knownRequest_only hlag hresolve
  have hchannels := hkeys.length_eq
  rw [keys, List.length_map] at hchannels
  have hover : (discoverChannelsStart (.only recipients) cursorMap).channelDiscoveryComplete =
      true := by
    unfold discoverChannelsStart
    dsimp only
    rw [hresolve]
  have hvalid : validateRecipients (some recipients.dedup) limits.maxOutgoingRecipients = .ok () :=
    validateBound_eq_ok_iff.mpr hrecipients
  refine discoverChannels_loop_ends hstored.senderHeld hkey hbudget
    (nodup_toFelt hstored.peers_nodup) hvalid ?_
    (hrequest.tracking hstored limits.cursorLimits)
    (hrequest.accepted hstored (hchannels.trans_le hlength) hfits) fun hopen => ?_
  · rw [filter_recipientsOf, recipientsOf, List.forall_mem_map]
    exact fun channel hchannel =>
      (canEnd_stored_iff hstored (List.mem_of_mem_filter hchannel)).mpr (hfits channel hchannel)
  · rw [hover] at hopen
    cases hopen

/-- A refresh only ends when the limits leave room for it. -/
theorem fits_of_refresh_ends (hreach : KnownInReach limits.cursorLimits (.only recipients) cursorMap
      account) {final : ChannelsState}
    (hends : Loop.Ends (discoverChannelsPage sn backend limits (ContractAddress.toFelt sender)
      viewingKey (some recipients.dedup) schedules) 0
        ⟨discoverChannelsStart (.only recipients) cursorMap, {}⟩ final) :
    recipients.dedup.length ≤ limits.maxOutgoingRecipients ∧
      recipients.dedup.length ≤ limits.cursorLimits.maxChannels ∧
      ∀ channel ∈ passing (some recipients.dedup) account,
        ChannelFits limits.cursorLimits channel := by
  obtain ⟨hrequest, hkeys⟩ := knownRequest_only hlag hresolve
  have hchannels := hkeys.length_eq
  rw [keys, List.length_map] at hchannels
  obtain ⟨⟨hrecipients, haccepted⟩, hcan⟩ := canEnd_of_discoverChannels_loop
    (nodup_toFelt hstored.peers_nodup) hstored.senderHeld
    (hrequest.tracking hstored limits.cursorLimits) hends
  refine ⟨validateBound_eq_ok_iff.mp hrecipients, hchannels.symm.trans_le haccepted.channels_le,
    fun channel hchannel => ?_⟩
  obtain ⟨hmem, hpasses⟩ := List.mem_filter.mp hchannel
  have hrecipient := hkeys.mem_iff.mpr (List.contains_iff_mem.mp hpasses)
  obtain ⟨entry, hentry, hpeer⟩ := List.mem_map.mp hrecipient
  obtain ⟨stored, hmem', known, hknown, hpeer', hlags, hcursor⟩ := hrequest.known entry hentry
  -- The entry of the request is the channel of this peer.
  obtain rfl : stored = channel := List.inj_on_of_nodup_map hstored.peers_nodup hmem' hmem
    (ContractAddress.toFelt_inj.mp (hpeer'.trans hpeer))
  have hcan' := hcan.entries entry hentry
  rw [hcursor] at hcan'
  have hat := subchannelsAt_of_mem hstored.keys_nodup hmem
  have htokens : (contentsOf account).tokens (knownCursor stored.channelKey known).channelKey = _ :=
    tokens_of_mem hstored.keys_nodup hmem
  have hroom := hcan'.room rfl
  rw [htokens, List.length_map] at hroom
  refine ⟨hroom, fun subchannel hsub => ?_⟩
  have hcount := count_of_mem hat (hstored.stored stored hmem).nodup hsub
  rw [← hcount]
  -- A subchannel in which no note is known is searched from its first note on.
  by_cases hseen : ContractAddress.toFelt subchannel.token ∈ keys known.tokens
  · obtain ⟨token, htoken, hsame⟩ := List.mem_map.mp hseen
    rcases Nat.eq_zero_or_pos token.2.noteNonce with hzero | hpos
    · have hsent : (token.1, knownSubchannel token.2.noteNonce) ∈
          (knownCursor stored.channelKey known).subchannels := by
        rw [subchannels_knownCursor hlags.nodup]
        exact List.mem_map_of_mem htoken
      refine hcan'.reach _ (.inl ⟨_, hsent, hsame, rfl, rfl, ?_⟩)
      rw [startIndex_knownSubchannel, hzero]
    · rw [hcount]
      refine hreach _ hknown ?_ token htoken hpos stored hmem hpeer' subchannel hsub hsame.symm
      rw [hpeer]
      exact List.mem_dedup.mp (List.contains_iff_mem.mp hpasses)
  · refine hcan'.reach _ (.inr ⟨rfl, ?_, ?_⟩)
    · rw [htokens]
      exact List.mem_map_of_mem hsub
    · rw [subchannels_knownCursor hlags.nodup, keys, List.map_map]
      exact hseen

end Refresh

section Calls

variable {publicKey : Felt} (hkey : sn.derivePublicKey viewingKey = .ok publicKey)
  (hregistered : backend.getPublicKey sn (ContractAddress.toFelt sender) = 0 ∨
    backend.getPublicKey sn (ContractAddress.toFelt sender) = publicKey)
  (hstored : SenderStored sn backend.pool sender viewingKey account)
  (hbudget : minServerBudget limits.cursorLimits.maxNoteLogIndex ≤ limits.serverBudget)
  (hlag : ChannelsLag account cursorMap) {schedules : ℕ → Schedule}
include hkey hregistered hstored hbudget hlag

/-- From known channels on `discoverChannels` returns all channels just when the limits leave
room. -/
theorem discoverChannels_all_iff :
    (∃ result, DiscoversChannels sn backend limits (ContractAddress.toFelt sender) viewingKey .all
      cursorMap schedules result) ↔ ChannelsFitFrom limits .all cursorMap account := by
  obtain ⟨hrequest, hlength⟩ := knownRequest_all hlag
  refine (exists_discoversChannels_iff .all cursorMap nofun).trans
    ((discoverChannels_loop_iff (validateViewingKey_ok hkey hregistered) hstored hbudget
      (hrequest.tracking hstored limits.cursorLimits) rfl rfl).trans ?_)
  constructor
  · rintro ⟨⟨-, haccepted⟩, hfits⟩
    exact ⟨hlength.symm.trans_le haccepted.channels_le, hfits⟩
  · rintro ⟨hle, hfits⟩
    exact ⟨⟨rfl, hrequest.accepted hstored (hlength.trans_le hle) hfits.2⟩, hfits⟩

/-- `discoverChannels` returns when the limits leave room for what it is asked for. -/
theorem discoverChannels_ends_of_fits {recipients : RecipientsFilter}
    (hfits : ChannelsFitFrom limits recipients cursorMap account) :
    ∃ result, DiscoversChannels sn backend limits (ContractAddress.toFelt sender) viewingKey
      recipients cursorMap schedules result := by
  cases recipients with
  | all => exact (discoverChannels_all_iff hkey hregistered hstored hbudget hlag).mpr hfits
  | totalOnly => exact (discoverChannels_ends_iff hkey hregistered hstored hbudget _).mpr hfits
  | only recipients =>
    cases hresolve : resolve cursorMap recipients with
    | none =>
      obtain ⟨result, hdiscovers⟩ := (discoverChannels_ends_iff hkey hregistered hstored hbudget _).mpr
        ((channelsFitFrom_of_unresolved hresolve).mp hfits)
      exact ⟨result, (discoversChannels_of_unresolved hresolve).mpr hdiscovers⟩
    | some resolved =>
      obtain ⟨hrecipients, hlength, hfits⟩ := (channelsFitFrom_of_resolved hresolve).mp hfits
      exact (exists_discoversChannels_iff (.only recipients) cursorMap nofun).mpr (refresh_ends hresolve hlag hstored
        (validateViewingKey_ok hkey hregistered) hbudget hrecipients hlength hfits)

/-- `discoverChannels` only returns when the limits leave room for what it is asked for. -/
theorem fits_of_discoverChannels {recipients : RecipientsFilter}
    (hreach : KnownInReach limits.cursorLimits recipients cursorMap account)
    (hends : ∃ result, DiscoversChannels sn backend limits (ContractAddress.toFelt sender)
      viewingKey recipients cursorMap schedules result) :
    ChannelsFitFrom limits recipients cursorMap account := by
  cases recipients with
  | all => exact (discoverChannels_all_iff hkey hregistered hstored hbudget hlag).mp hends
  | totalOnly => exact (discoverChannels_ends_iff hkey hregistered hstored hbudget _).mp hends
  | only recipients =>
    cases hresolve : resolve cursorMap recipients with
    | none =>
      obtain ⟨result, hdiscovers⟩ := hends
      refine (channelsFitFrom_of_unresolved hresolve).mpr ?_
      exact (discoverChannels_ends_iff hkey hregistered hstored hbudget _).mp
        ⟨result, (discoversChannels_of_unresolved hresolve).mp hdiscovers⟩
    | some resolved =>
      obtain ⟨final, hloop⟩ := (exists_discoversChannels_iff (.only recipients) cursorMap nofun).mp hends
      exact (channelsFitFrom_of_resolved hresolve).mpr
        (fits_of_refresh_ends hresolve hlag hstored hreach hloop)

end Calls

/-! ### What the calls return -/

/-- What is accumulated lags behind: each channel has its key, and no report goes beyond the
notes that there are. -/
structure Accumulated.Lags (account : List StoredChannel) (acc : Accumulated) : Prop where
  created_nodup : (keys acc.created).Nodup
  nonCreated_nodup : (keys acc.nonCreated).Nodup
  created : ∀ entry ∈ acc.created, ∃ stored ∈ account,
    ContractAddress.toFelt stored.peerAddr = entry.1 ∧ entry.2.2 = stored.channelKey
  reports_nodup : ∀ entry ∈ acc.subchannels, (keys entry.2).Nodup
  reports : ∀ entry ∈ acc.subchannels, ∀ stored ∈ account,
    ContractAddress.toFelt stored.peerAddr = entry.1 → ∀ report ∈ entry.2,
      ∃ subchannel ∈ stored.subchannels, ContractAddress.toFelt subchannel.token = report.1 ∧
        report.2.elim 0 (· + 1) ≤ subchannel.notes.length

theorem Accumulated.lags_default : Accumulated.Lags account {} :=
  ⟨List.nodup_nil, List.nodup_nil, nofun, nofun, nofun⟩

variable {acc : Accumulated}

/-- What is accumulated about the subchannels toward an address lags behind. -/
theorem Accumulated.Lags.reportsOn (hacc : acc.Lags account) (addr : Felt) :
    (keys ((AddressMap.get acc.subchannels addr).getD [])).Nodup ∧ ∀ stored ∈ account,
      ContractAddress.toFelt stored.peerAddr = addr →
        ∀ report ∈ (AddressMap.get acc.subchannels addr).getD [],
          ∃ subchannel ∈ stored.subchannels, ContractAddress.toFelt subchannel.token = report.1 ∧
            report.2.elim 0 (· + 1) ≤ subchannel.notes.length := by
  cases hget : AddressMap.get acc.subchannels addr with
  | none => exact ⟨List.nodup_nil, fun _ _ _ _ h => nomatch h⟩
  | some tokenMap =>
    have hmem := AddressMap.mem_of_get hget
    exact ⟨hacc.reports_nodup _ hmem, hacc.reports _ hmem⟩

theorem accumulateChannel_lags (hacc : acc.Lags account) {channel : OutgoingChannel}
    (hchannel : channel.precomputed = false → ∃ stored ∈ account,
      ContractAddress.toFelt stored.peerAddr = channel.recipientAddr ∧
        channel.channelKey = stored.channelKey) : (accumulateChannel acc channel).Lags account := by
  unfold accumulateChannel
  dsimp only
  split_ifs with hprecomputed
  · exact hacc
  · exact ⟨hacc.created_nodup, AddressMap.nodup_keys_set hacc.nonCreated_nodup, hacc.created,
      hacc.reports_nodup, hacc.reports⟩
  · refine ⟨AddressMap.nodup_keys_set hacc.created_nodup,
      hacc.nonCreated_nodup.sublist (List.filter_sublist.map _), fun entry hentry => ?_,
      hacc.reports_nodup, hacc.reports⟩
    rcases AddressMap.mem_of_mem_set hentry with rfl | hold
    · exact hchannel (Bool.eq_false_iff.mpr hprecomputed)
    · exact hacc.created entry hold

theorem accumulateSubchannel_lags (hacc : acc.Lags account) {report : OutgoingSubchannel}
    (hreport : ∀ stored ∈ account, ContractAddress.toFelt stored.peerAddr = report.recipientAddr →
      ∃ subchannel ∈ stored.subchannels, ContractAddress.toFelt subchannel.token = report.token ∧
        report.lastNoteIndex.elim 0 (· + 1) ≤ subchannel.notes.length) :
    (accumulateSubchannel acc report).Lags account := by
  obtain ⟨hnodup, hentries⟩ := hacc.reportsOn report.recipientAddr
  unfold accumulateSubchannel
  dsimp only
  refine ⟨hacc.created_nodup, hacc.nonCreated_nodup, hacc.created, fun entry hentry => ?_,
    fun entry hentry stored hmem hpeer => ?_⟩
  · rcases AddressMap.mem_of_mem_set hentry with rfl | hkept
    · dsimp only
      split_ifs
      · exact AddressMap.nodup_keys_set hnodup
      · exact hnodup
    · exact hacc.reports_nodup entry hkept
  · rcases AddressMap.mem_of_mem_set hentry with rfl | hkept
    · intro entry hentry'
      dsimp only at hpeer hentry'
      split_ifs at hentry'
      · rcases AddressMap.mem_of_mem_set hentry' with rfl | hkept
        · exact hreport stored hmem hpeer
        · exact hentries stored hmem hpeer entry hkept
      · exact hentries stored hmem hpeer entry hentry'
    · exact hacc.reports entry hkept stored hmem hpeer

theorem accumulateOutgoingResponse_lags (hacc : acc.Lags account) {resp : SyncOutgoingStateResult}
    (hchannels : ∀ channel ∈ resp.channels, channel.precomputed = false → ∃ stored ∈ account,
      ContractAddress.toFelt stored.peerAddr = channel.recipientAddr ∧
        channel.channelKey = stored.channelKey)
    (hreports : ∀ report ∈ resp.subchannels, ∀ stored ∈ account,
      ContractAddress.toFelt stored.peerAddr = report.recipientAddr →
        ∃ subchannel ∈ stored.subchannels, ContractAddress.toFelt subchannel.token = report.token ∧
          report.lastNoteIndex.elim 0 (· + 1) ≤ subchannel.notes.length) :
    (accumulateOutgoingResponse resp acc).Lags account := by
  unfold accumulateOutgoingResponse
  refine List.foldlRecOn resp.subchannels accumulateSubchannel ?_
    fun acc hacc report hreport => accumulateSubchannel_lags hacc (hreports report hreport)
  exact List.foldlRecOn resp.channels accumulateChannel hacc
    fun acc hacc channel hchannel => accumulateChannel_lags hacc (hchannels channel hchannel)

/-- What a page returns lags behind. -/
theorem outgoingPaged_lags {filter : Option (List Felt)} {cursorLimits : CursorLimits}
    {cursor : DiscoveryCursor} {resp : SyncOutgoingStateResult}
    (hstored : SenderStored sn backend.pool sender viewingKey account)
    (hcursor : cursor.TracksOutgoing sn backend (ContractAddress.toFelt sender) viewingKey
      (contentsOf account) (recipientsOf account) filter cursorLimits)
    (h : OutgoingPaged False sn backend (ContractAddress.toFelt sender) viewingKey
      (contentsOf account) (recipientsOf account) filter cursorLimits cursor resp)
    (hacc : acc.Lags account) : (accumulateOutgoingResponse resp acc).Lags account := by
  refine accumulateOutgoingResponse_lags hacc (fun channel hchannel hcreated => ?_)
    fun report hreport stored hmem hpeer => ?_
  · have honChain : channel ∈ onChain resp.channels :=
      List.mem_filter.mpr ⟨hchannel, by rw [hcreated]; rfl⟩
    have hfound := List.mem_append_right (((recipientsOf account).take
      (nextIndex cursor.lastChannelIndex)).filter (passes filter) |>.map
        (channelToward sn backend (ContractAddress.toFelt sender) viewingKey · false)) honChain
    rw [h.onChain_eq] at hfound
    obtain ⟨addr, haddr, rfl⟩ := List.mem_map.mp hfound
    obtain ⟨stored, hmem, rfl⟩ := List.mem_map.mp (List.mem_of_mem_take (List.mem_of_mem_filter haddr))
    exact ⟨stored, hmem, rfl, hstored.channelToward_key hmem⟩
  · obtain ⟨-, htoken, hlast⟩ := h.reports_le hstored.senderHeld hcursor hreport
    rw [← hpeer, hstored.channelToward_key hmem] at htoken hlast
    rw [tokens_of_mem hstored.keys_nodup hmem] at htoken
    obtain ⟨subchannel, hsub, hsame⟩ := List.mem_map.mp htoken
    rw [← hsame, count_of_mem (subchannelsAt_of_mem hstored.keys_nodup hmem)
      (hstored.stored stored hmem).nodup hsub] at hlast
    exact ⟨subchannel, hsub, hsame, hlast⟩

/-- The channels that are built from what lags behind lag behind. -/
theorem channelsLag_buildChannelMap (hacc : acc.Lags account) :
    ChannelsLag account (buildChannelMap acc) := by
  have hkeys : keys (buildChannelMap acc) = keys acc.created ++
      keys (acc.nonCreated.filter fun entry => entry.1 ∉ keys acc.created) := by
    rw [buildChannelMap, keys_append, keys, keys, List.map_map, List.map_map]
    rfl
  constructor
  · rw [hkeys, List.nodup_append]
    refine ⟨hacc.created_nodup, hacc.nonCreated_nodup.sublist (List.filter_sublist.map _), ?_⟩
    rintro addr hmem _ hmem' rfl
    obtain ⟨entry, hentry, rfl⟩ := List.mem_map.mp hmem'
    exact of_decide_eq_true (List.mem_filter.mp hentry).2 hmem
  · intro entry hentry hkey
    rcases List.mem_append.mp hentry with hentry | hentry
    · obtain ⟨⟨recipient, publicKey, channelKey⟩, hmem, rfl⟩ := List.mem_map.mp hentry
      obtain ⟨stored, hstored, hpeer, hsame⟩ := hacc.created _ hmem
      obtain ⟨hnodup, hentries⟩ := hacc.reportsOn recipient
      refine ⟨stored, hstored, hpeer, congrArg some hsame, ?_, fun token htoken => ?_⟩
      · dsimp only
        rwa [keys_buildTokens]
      · obtain ⟨last, hlast, hnonce⟩ := of_mem_buildTokens htoken
        rw [hnonce]
        exact hentries stored hstored hpeer _ hlast
    · obtain ⟨old, -, rfl⟩ := List.mem_map.mp hentry
      cases hkey

/-- The first request of `discoverChannels` tracks the pool. -/
theorem discoverChannelsStart_tracking
    (hstored : SenderStored sn backend.pool sender viewingKey account)
    (hlag : ChannelsLag account cursorMap) (recipients : RecipientsFilter)
    (cursorLimits : CursorLimits) :
    ChannelsState.Tracking sn backend (ContractAddress.toFelt sender) viewingKey
      (contentsOf account) (recipientsOf account) (requestRecipients recipients) cursorLimits
        ⟨discoverChannelsStart recipients cursorMap, {}⟩ := by
  cases recipients with
  | all => exact (knownRequest_all hlag).1.tracking hstored cursorLimits
  | totalOnly => exact tracking_default
  | only recipients =>
    cases hresolve : resolve cursorMap recipients with
    | none =>
      rw [discoverChannelsStart_of_unresolved hresolve]
      exact tracking_default
    | some resolved => exact (knownRequest_only hlag hresolve).1.tracking hstored cursorLimits

/-- The channels that a call returns lag behind, if those that it starts from do. -/
theorem channelsLag_of_discovers
    (hstored : SenderStored sn backend.pool sender viewingKey account)
    (hlag : ChannelsLag account cursorMap) {recipients : RecipientsFilter}
    {schedules : ℕ → Schedule} {result : ChannelsResult}
    (h : DiscoversChannels sn backend limits (ContractAddress.toFelt sender) viewingKey recipients
      cursorMap schedules result) {channels : List (Felt × Channel)}
    (hchannels : result.channels = some channels) : ChannelsLag account channels := by
  obtain ⟨final, hends, hresult⟩ := h
  have hstep : ∀ round (state next : ChannelsState) ended,
      state.Tracking sn backend (ContractAddress.toFelt sender) viewingKey (contentsOf account)
          (recipientsOf account) (requestRecipients recipients) limits.cursorLimits ∧
        state.acc.Lags account →
      discoverChannelsPage sn backend limits (ContractAddress.toFelt sender) viewingKey
        (requestRecipients recipients) schedules round state = .ok (next, ended) →
      next.acc.Lags account := by
    rintro round state next ended ⟨hstate, hacc⟩ hok
    obtain ⟨-, resp, hsync, rfl, -⟩ := discoverChannelsPage_eq_ok hok
    exact outgoingPaged_lags hstored hstate.tracks
      ((syncOutgoingState_within hstored.senderHeld hstate.tracks.toLagsOutgoing).of_ok hsync) hacc
  -- Along the pages, the request and what they have reported lag behind.
  obtain ⟨round, last, hlast, hok⟩ := hends.last
    (fun state : ChannelsState => state.Tracking sn backend (ContractAddress.toFelt sender)
      viewingKey (contentsOf account) (recipientsOf account) (requestRecipients recipients)
        limits.cursorLimits ∧ state.acc.Lags account)
    ⟨discoverChannelsStart_tracking hstored hlag recipients limits.cursorLimits,
      Accumulated.lags_default⟩
    fun round state next hstate hok => ⟨(discoverChannelsPage_tracking
      (nodup_toFelt hstored.peers_nodup) hstored.senderHeld hstate.1 hok).2.1 rfl,
        hstep round state next false hstate hok⟩
  have hmap := channelsLag_buildChannelMap (hstep round last final true hlast hok)
  cases recipients with
  | all =>
    obtain rfl := Except.ok.inj hresult
    obtain rfl := Option.some.inj hchannels
    exact hmap
  | totalOnly =>
    unfold discoverChannelsResult at hresult
    dsimp only at hresult
    split_ifs at hresult
    obtain rfl := Except.ok.inj hresult
    cases hchannels
  | only recipients =>
    obtain rfl := Except.ok.inj hresult
    obtain rfl := Option.some.inj hchannels
    exact ⟨hmap.nodup.sublist (List.filter_sublist.map _),
      fun entry hentry => hmap.known entry (List.mem_of_mem_filter hentry)⟩

/-- Channels that lag behind one pool lag behind every later one. -/
theorem ChannelsLag.later {D : Domain} {later : Pool} {account' : List StoredChannel}
    (hlag : ChannelsLag account cursorMap)
    (hstored : SenderStored sn backend.pool sender viewingKey account)
    (hstored' : SenderStored sn later sender viewingKey account')
    (hkept : Kept sn D backend.pool later) (hcovered : OutgoingCovered D sender viewingKey account)
    (hrecipients : RecipientsCovered sn D backend.pool account)
    (hcontents : IncomingCovered D account) : ChannelsLag account' cursorMap := by
  obtain ⟨kept, added, rfl, hkept⟩ :=
    hstored.grows hstored' hkept hcovered hrecipients hcontents
  refine ⟨hlag.nodup, fun entry hentry hkey => ?_⟩
  obtain ⟨stored, hmem, hpeer, hlags⟩ := hlag.known entry hentry hkey
  obtain ⟨stored', hmem', hgrows⟩ := exists_right_of_forall₂ hkept hmem
  refine ⟨stored', List.mem_append_left _ hmem', by rw [hgrows.peer_eq, hpeer],
    by rw [hlags.key_eq, hgrows.key_eq], hlags.nodup, fun token htoken => ?_⟩
  obtain ⟨subchannel, hsub, hsame, hnonce⟩ := hlags.tokens token htoken
  obtain ⟨keptSubs, addedSubs, hsubs, hkeptSubs⟩ := hgrows.subchannels
  obtain ⟨subchannel', hsub', hgrows'⟩ := exists_right_of_forall₂ hkeptSubs hsub
  refine ⟨subchannel', ?_, by rw [hgrows'.token_eq, hsame], hnonce.trans hgrows'.length_le⟩
  rw [hsubs]
  exact List.mem_append_left _ hsub'

end PrivacyPool.Sdk
