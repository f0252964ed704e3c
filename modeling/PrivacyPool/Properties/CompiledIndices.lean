import PrivacyPool.Properties.ChannelRefresh
import PrivacyPool.Sdk.IndexTracking
import PrivacyPool.Sdk.Selections

/-!
# The indices of a compile

The contract takes a record only at the next free index. The compiler knows the counts of
subchannels and notes from the entries of the registry and of discovery. It asks for the
number of channels only when discovery finds that one is missing, and counts from zero
otherwise; and an entry of the registry without a key has no counts, though the recipient
may have a channel.

## Main definitions

* `EntryAccurate`, `DiscoveryProvider.Accurate` — what the SDK knows of the channels is right
* `ChannelCountKnown`, `Overlooked` — what the indices depend on

## Main results

* `compile_indices_iff` — when the emitted indices are the next free ones
-/

namespace PrivacyPool.Sdk

open Discovery Fallible HashMap

/-! ### Counts of the stored channels -/

/-- The stored channel toward a recipient. -/
def channelTo (account : List StoredChannel) (recipient : Felt) : Option StoredChannel :=
  account.find? fun stored => ContractAddress.toFelt stored.peerAddr = recipient

/-- How many subchannels the channel toward a recipient has. -/
def subchannelCount (account : List StoredChannel) (recipient : Felt) : ℕ :=
  (channelTo account recipient).elim 0 fun stored => stored.subchannels.length

/-- How many notes there are for a recipient and a token. -/
def noteCount (account : List StoredChannel) (recipient token : Felt) : ℕ :=
  (channelTo account recipient).elim 0 fun stored =>
    (stored.subchannels.find? fun subchannel => ContractAddress.toFelt subchannel.token = token).elim
      0 fun subchannel => subchannel.notes.length

/-- What the SDK knows of the channel toward a recipient is right: its key, its tokens and
their note counts. Of a channel without a key it knows nothing. -/
inductive EntryAccurate (account : List StoredChannel) (recipient : Felt) (channel : Channel) : Prop
  | opened {stored : StoredChannel} (mem : stored ∈ account)
      (peer : ContractAddress.toFelt stored.peerAddr = recipient) (key : stored.channelKey ≠ 0)
      (accurate : channel.Accurate stored)
      (tokens : (keys channel.tokens).Perm
        (stored.subchannels.map fun subchannel => ContractAddress.toFelt subchannel.token))
  | keyless (key : channel.key = none)

/-- What the SDK knows of each recipient is right. -/
def EntriesAccurate (account : List StoredChannel) (channels : List (Felt × Channel)) : Prop :=
  ∀ entry ∈ channels, EntryAccurate account entry.1 entry.2

/-- A registry with an accurate entry for each of its recipients. -/
structure PrivateRegistry.Accurate (registry : PrivateRegistry) (account : List StoredChannel) :
    Prop where
  nodup : (keys registry.channels).Nodup
  entries : EntriesAccurate account registry.channels

/-- The provider returns accurate entries, one for each requested recipient that has a
channel, with its key, and the number of channels. -/
structure DiscoveryProvider.Accurate (provider : DiscoveryProvider) (account : List StoredChannel) :
    Prop where
  entries : ∀ recipients result, provider.discoverChannels (.only recipients) = .ok result →
    EntriesAccurate account (result.channels.getD [])
  keyless : ∀ recipients result, provider.discoverChannels (.only recipients) = .ok result →
    ∀ entry ∈ result.channels.getD [], entry.2.key = none → entry.1 ∉ recipientsOf account
  complete : ∀ recipients result, provider.discoverChannels (.only recipients) = .ok result →
    ∀ recipient ∈ recipients, recipient ∈ recipientsOf account →
      recipient ∈ keys (result.channels.getD [])
  total : ∀ recipients result total, provider.discoverChannels (.only recipients) = .ok result →
    result.total = some total → total = account.length
  totalOnly : ∀ result, provider.discoverChannels .totalOnly = .ok result →
    result.total = some account.length

/-! ### Conditions -/

section Conditions

variable (account : List StoredChannel) (userAddress : Felt) (attempt : Attempt)

/-- The recipients of which an attempt discovers the channels. -/
def Attempt.asked : List Felt :=
  recipientsToDiscover attempt.actions attempt.options attempt.options.startRegistry
    (getRecipientsNeeded userAddress attempt.actions)

/-- The recipients of which the discovery returns an entry. -/
def Attempt.discovered : List Felt :=
  if attempt.asked userAddress = [] then []
  else keys ((valueOr {} (attempt.provider.discoverChannels
    (.only (attempt.asked userAddress)))).channels.getD [])

/-- The compiler has no counts for a recipient: no entry is discovered, and that of the
registry has no key, or the user has none there. -/
def CountsFromZero (recipient : Felt) : Prop :=
  recipient ∉ attempt.discovered userAddress ∧
    ((∃ entry ∈ attempt.options.startRegistry.channels, entry.1 = recipient ∧ entry.2.key = none) ∨
      recipient = userAddress ∧ recipient ∉ keys attempt.options.startRegistry.channels)

instance (recipient : Felt) : Decidable (CountsFromZero userAddress attempt recipient) :=
  inferInstanceAs (Decidable (_ ∧ _))

/-- A channel is to be opened: one that is given, or with `autoSetup` that of a recipient
that has none, or of which the compiler does not know it. -/
def OpensChannel : Prop :=
  attempt.actions.openChannels ≠ [] ∨ attempt.options.autoSetup = true ∧
    ∃ recipient ∈ getRecipientsNeeded userAddress attempt.actions,
      recipient ∉ recipientsOf account ∨ CountsFromZero userAddress attempt recipient

/-- The compiler counts the channels from their number: there are none, or one of the
discovered recipients has none, so that the number is asked for. -/
def ChannelCountKnown : Prop :=
  account = [] ∨ ∃ recipient ∈ attempt.asked userAddress, recipient ∉ recipientsOf account

/-- The notes that an attempt creates. -/
def Attempt.Creates (c : CreateNoteAction) : Prop :=
  NoteCreated userAddress attempt.options (attempt.selections userAddress) attempt.actions c

/-- A subchannel or a note is to be created, counted from zero, for a recipient that has
subchannels, or notes in the subchannel, already. -/
def Overlooked : Prop :=
  ∃ recipient, CountsFromZero userAddress attempt recipient ∧
    (OpensSubchannel attempt.options attempt.actions.openTokenChannels (attempt.Creates userAddress)
        recipient ∧ subchannelCount account recipient ≠ 0 ∨
      ∃ c, attempt.Creates userAddress c ∧ c.recipient = recipient ∧
        noteCount account recipient c.token ≠ 0)

end Conditions

section Accurate

variable {sn : Starknet} {pool : Pool} {sender : ContractAddress} {viewingKey : Felt}
  {account : List StoredChannel} {recipient : Felt} {channel : Channel}

theorem channelTo_of_mem (hstored : SenderStored sn pool sender viewingKey account)
    {stored : StoredChannel} (hmem : stored ∈ account) :
    channelTo account (ContractAddress.toFelt stored.peerAddr) = some stored :=
  find?_eq_some_of_mem (nodup_toFelt hstored.peers_nodup) hmem

theorem channelTo_eq_none (h : recipient ∉ recipientsOf account) :
    channelTo account recipient = none := by
  rw [channelTo, List.find?_eq_none]
  intro stored hmem hsame
  exact h (List.mem_map.mpr ⟨stored, hmem, of_decide_eq_true hsame⟩)

theorem counts_eq_zero (h : recipient ∉ recipientsOf account) :
    subchannelCount account recipient = 0 ∧ ∀ token, noteCount account recipient token = 0 := by
  unfold subchannelCount noteCount
  rw [channelTo_eq_none h]
  exact ⟨rfl, fun _ => rfl⟩

/-- A channel of the simulator: it has the counts and the key of the stored one, unless it is
counted from zero. -/
structure Channel.SetUp (account : List StoredChannel) (zero : Felt → Prop) [DecidablePred zero]
    (recipient : Felt) (channel : Channel) : Prop where
  counted : channel.Counted (if zero recipient then 0 else subchannelCount account recipient)
    fun token => if zero recipient then 0 else noteCount account recipient token
  openKey : channel.openKey.isSome ↔ recipient ∈ recipientsOf account ∧ ¬zero recipient

section SetUp

variable {zero : Felt → Prop} [DecidablePred zero]

/-- The simulator takes the counts of an accurate entry. -/
theorem EntryAccurate.setUp (hstored : SenderStored sn pool sender viewingKey account)
    (h : EntryAccurate account recipient channel)
    (hkeyless : channel.key = none → zero recipient ∨ recipient ∉ recipientsOf account)
    (hzero : zero recipient → channel.key = none) :
    Channel.SetUp account zero recipient
      { channel with tokens := if channel.openKey.isSome then channel.tokens else [] } := by
  cases h with
  -- The entry has the key and the counts of the stored channel.
  | @opened stored hmem hpeer hkey haccurate htokens =>
    have hopen : channel.openKey = some stored.channelKey := by
      rw [Channel.openKey, haccurate.key_eq]
      simp [hkey]
    have hnot : ¬zero recipient := fun h => by
      have hnone := hzero h
      rw [haccurate.key_eq] at hnone
      cases hnone
    rw [hopen, Option.isSome_some, if_pos rfl]
    subst hpeer
    refine ⟨⟨?_, fun token => ?_⟩, ?_⟩
    · rw [if_neg hnot, subchannelCount, channelTo_of_mem hstored hmem, Option.elim_some]
      have hlength := htokens.length_eq
      rwa [keys, List.length_map, List.length_map] at hlength
    · rw [if_neg hnot, noteCount, channelTo_of_mem hstored hmem, Option.elim_some]
      change (channel.tokenChannel token).noteNonce = _
      cases hfound : stored.subchannels.find? fun subchannel =>
          ContractAddress.toFelt subchannel.token = token with
      | none =>
        rw [Channel.tokenChannel_of_not_mem, Option.elim_none]
        rw [htokens.mem_iff, List.mem_map]
        rintro ⟨subchannel, hsubchannel, htoken⟩
        exact List.find?_eq_none.mp hfound subchannel hsubchannel (decide_eq_true htoken)
      | some subchannel =>
        have hsome := List.find?_some hfound
        have htoken := of_decide_eq_true hsome
        obtain ⟨tokenIndex, hget⟩ :=
          haccurate.tokens subchannel (List.mem_of_find?_eq_some hfound)
        rw [Option.elim_some, Channel.tokenChannel, ← htoken, hget]
        rfl
    · refine iff_of_true ?_ ⟨List.mem_map_of_mem hmem, hnot⟩
      exact Option.isSome_iff_exists.mpr ⟨_, hopen⟩
  -- Without a key the tokens are dropped, so that all counts are 0.
  | keyless hkey =>
    have hclosed : channel.openKey = none := by rw [Channel.openKey, hkey, Option.filter_none]
    have hnone := hkeyless hkey
    rw [hclosed, Option.isSome_none, if_neg Bool.false_ne_true]
    refine ⟨⟨?_, fun token => ?_⟩, ?_⟩
    · split_ifs with h
      · rfl
      · exact (counts_eq_zero (hnone.resolve_left h)).1.symm
    · split_ifs with h
      · rfl
      · exact ((counts_eq_zero (hnone.resolve_left h)).2 token).symm
    · refine iff_of_false ?_ fun h => hnone.elim h.2 fun hmissing => hmissing h.1
      change ¬channel.openKey.isSome
      rw [hclosed]
      exact Bool.false_ne_true

/-! ### The simulator of a compile -/

/-- The simulator has been set up with accurate entries for these recipients. -/
structure PoolSimulator.SetUp (account : List StoredChannel) (zero : Felt → Prop)
    [DecidablePred zero] (recipients : List Felt) (start simulator : PoolSimulator) : Prop where
  channels : ∀ recipient channel, simulator.getChannel recipient = some channel →
    channel.SetUp account zero recipient
  known : ∀ recipient, (simulator.getChannel recipient).isSome ↔ recipient ∈ recipients
  nextChannelIndex : simulator.nextChannelIndex = start.nextChannelIndex
  userAddress : simulator.userAddress = start.userAddress

theorem foldl_setupChannel {recipients : List Felt} {start simulator : PoolSimulator}
    {entries : List (Felt × Channel)} (hsetup : start.SetUp account zero recipients simulator)
    (hentries : ∀ entry ∈ entries, Channel.SetUp account zero entry.1
      { entry.2 with tokens := if entry.2.openKey.isSome then entry.2.tokens else [] }) :
    start.SetUp account zero (recipients ++ keys entries)
      (entries.foldl (fun pool entry => pool.setupChannel entry.1 entry.2) simulator) := by
  induction entries generalizing recipients simulator with
  | nil =>
    rw [keys, List.map_nil, List.append_nil]
    exact hsetup
  | cons entry entries ih =>
    have hentry := hentries entry List.mem_cons_self
    -- A later entry for a recipient replaces the earlier one.
    have hnext : start.SetUp account zero (recipients ++ [entry.1])
        (simulator.setupChannel entry.1 entry.2) := by
      refine ⟨fun recipient channel hchannel => ?_, fun recipient => ?_, hsetup.nextChannelIndex,
        hsetup.userAddress⟩
      · rw [PoolSimulator.setupChannel, PoolSimulator.getChannel_setChannel] at hchannel
        by_cases hrecipient : recipient = entry.1
        · rw [if_pos hrecipient] at hchannel
          obtain rfl := Option.some.inj hchannel
          rw [hrecipient]
          exact hentry
        · rw [if_neg hrecipient] at hchannel
          exact hsetup.channels recipient channel hchannel
      · rw [PoolSimulator.setupChannel, PoolSimulator.getChannel_setChannel, List.mem_append,
          List.mem_singleton, ← hsetup.known]
        by_cases hrecipient : recipient = entry.1
        · rw [if_pos hrecipient]
          exact iff_of_true rfl (.inr hrecipient)
        · rw [if_neg hrecipient]
          exact (or_iff_left hrecipient).symm
    have hrest := ih hnext fun entry' hentry' => hentries entry' (List.mem_cons_of_mem _ hentry')
    rwa [List.append_assoc] at hrest

theorem setupNote_eq_ok {simulator simulator' : PoolSimulator} {token : Felt} {note : Note}
    (h : simulator.setupNote token note = .ok simulator') :
    ∃ notes, simulator' = { simulator with notes } := by
  simp only [PoolSimulator.setupNote, bind_eq_ok, pure_eq_ok] at h
  obtain ⟨_, -, rfl⟩ := h
  exact ⟨_, rfl⟩

/-- The simulator of a compile has the entries that are discovered, and those of the
registry. -/
theorem createPool_setUp {userAddress userViewingKey : Felt} {registry : PrivateRegistry}
    {resolved : ChannelsResult} {simulator : PoolSimulator}
    (h : createPool userAddress userViewingKey registry resolved = .ok simulator)
    (hresolved : ∀ entry ∈ resolved.channels.getD [], Channel.SetUp account zero entry.1
      { entry.2 with tokens := if entry.2.openKey.isSome then entry.2.tokens else [] })
    (hregistry : ∀ entry ∈ registry.channels, entry.1 ∉ keys (resolved.channels.getD []) →
      Channel.SetUp account zero entry.1
        { entry.2 with tokens := if entry.2.openKey.isSome then entry.2.tokens else [] }) :
    PoolSimulator.SetUp account zero
      (keys (resolved.channels.getD []) ++ keys (registry.channels.filter fun entry =>
        entry.1 ∉ keys (resolved.channels.getD [])))
      { userAddress, userViewingKey, nextChannelIndex := resolved.total.getD 0 } simulator := by
  have hstart : PoolSimulator.SetUp account zero []
      { userAddress, userViewingKey, nextChannelIndex := resolved.total.getD 0 }
      { userAddress, userViewingKey, nextChannelIndex := resolved.total.getD 0 } :=
    ⟨fun _ _ hnone => absurd hnone nofun, fun _ => iff_of_false Bool.false_ne_true List.not_mem_nil,
      rfl, rfl⟩
  have hchannels := foldl_setupChannel (foldl_setupChannel hstart hresolved)
    fun entry hentry => hregistry entry (List.mem_filter.mp hentry).1
      (of_decide_eq_true (List.mem_filter.mp hentry).2)
  rw [List.nil_append] at hchannels
  -- The notes change nothing of this.
  refine foldlM_invariant (PoolSimulator.SetUp account zero _ _) ?_ hchannels h
  intro entry _ s s' hs hstep
  refine foldlM_invariant (PoolSimulator.SetUp account zero _ _) ?_ hs hstep
  intro note _ t t' ht hnote
  obtain ⟨notes, rfl⟩ := setupNote_eq_ok hnote
  exact ⟨ht.channels, ht.known, ht.nextChannelIndex, ht.userAddress⟩

end SetUp

/-! ### Discovered channels -/

theorem allOpen_iff {provider : DiscoveryProvider} (hprovider : provider.Accurate account)
    {recipients : List Felt} {result : ChannelsResult}
    (h : provider.discoverChannels (.only recipients) = .ok result) :
    allOpen result.channels recipients = true ↔
      ∀ recipient ∈ recipients, recipient ∈ recipientsOf account := by
  have hget : ∀ recipient, (result.channels.bind fun channels => AddressMap.get channels recipient) =
      AddressMap.get (result.channels.getD []) recipient := by
    intro recipient
    cases result.channels <;> rfl
  unfold allOpen
  rw [List.all_eq_true]
  refine forall₂_congr fun recipient hrecipient => ?_
  rw [hget, Option.any_eq_true]
  constructor
  · rintro ⟨channel, hchannel, hkey⟩
    cases hprovider.entries recipients result h _ (AddressMap.mem_of_get hchannel) with
    | opened hmem hpeer _ _ _ => exact List.mem_map.mpr ⟨_, hmem, hpeer⟩
    | keyless hnone =>
      rw [hnone] at hkey
      cases hkey
  · intro hmem
    have hknown := hprovider.complete recipients result h recipient hrecipient hmem
    obtain ⟨channel, hchannel⟩ := Option.ne_none_iff_exists'.mp
      (mt AddressMap.get_eq_none_iff.mp (not_not.mpr hknown))
    refine ⟨channel, hchannel, ?_⟩
    cases hprovider.entries recipients result h _ (AddressMap.mem_of_get hchannel) with
    | opened _ _ _ haccurate _ =>
      rw [haccurate.key_eq]
      rfl
    | keyless hnone =>
      exact absurd hmem (hprovider.keyless recipients result h _ (AddressMap.mem_of_get hchannel) hnone)

/-- What an attempt knows of the channels after their discovery. -/
structure ChannelsResolved (account : List StoredChannel) (userAddress : Felt) (attempt : Attempt)
    (resolved : ChannelsResult) : Prop where
  discovered : keys (resolved.channels.getD []) = attempt.discovered userAddress
  entries : EntriesAccurate account (resolved.channels.getD [])
  keyless : ∀ entry ∈ resolved.channels.getD [], entry.2.key = none → entry.1 ∉ recipientsOf account
  complete : ∀ recipient ∈ attempt.asked userAddress, recipient ∈ recipientsOf account →
    recipient ∈ attempt.discovered userAddress
  total : resolved.total.getD 0 = account.length ↔ ChannelCountKnown account userAddress attempt

theorem resolveRecipientChannels_eq_ok {userAddress : Felt} {attempt : Attempt}
    {resolved : ChannelsResult} (hprovider : attempt.provider.Accurate account)
    (h : resolveRecipientChannels attempt.provider attempt.actions attempt.options
      attempt.options.startRegistry (getRecipientsNeeded userAddress attempt.actions) =
      .ok resolved) :
    ChannelsResolved account userAddress attempt resolved := by
  have hzero : 0 = account.length ↔ account = [] := by rw [eq_comm, List.length_eq_zero_iff]
  unfold resolveRecipientChannels at h
  rw [show recipientsToDiscover attempt.actions attempt.options attempt.options.startRegistry
    (getRecipientsNeeded userAddress attempt.actions) = attempt.asked userAddress from rfl] at h
  dsimp only at h
  split_ifs at h with hnone
  -- Nothing is asked for, so that the total falls back to 0.
  · obtain rfl := Except.ok.inj h
    have hdiscovered : attempt.discovered userAddress = [] := if_pos hnone
    refine ⟨hdiscovered.symm, nofun, nofun, ?_, hzero.trans (or_iff_left ?_).symm⟩
    · rw [hnone]
      exact nofun
    · rw [hnone]
      rintro ⟨_, hmem, -⟩
      cases hmem
  · simp only [bind_eq_ok] at h
    obtain ⟨result, hresult, h⟩ := h
    have hopen := allOpen_iff hprovider hresult
    have hdiscovered : keys (result.channels.getD []) = attempt.discovered userAddress := by
      rw [Attempt.discovered, if_neg hnone, hresult]
      rfl
    have hcomplete := hprovider.complete _ result hresult
    rw [hdiscovered] at hcomplete
    split_ifs at h with hall
    · obtain rfl := Except.ok.inj h
      refine ⟨hdiscovered, hprovider.entries _ result hresult, hprovider.keyless _ result hresult,
        hcomplete, hzero.trans (or_iff_left ?_).symm⟩
      rintro ⟨recipient, hrecipient, hmissing⟩
      exact hmissing (hopen.mp hall recipient hrecipient)
    -- A recipient without a channel: the total comes with the answer, or is asked for.
    · have hmissing : ∃ recipient ∈ attempt.asked userAddress, recipient ∉ recipientsOf account := by
        have := mt hopen.mpr hall
        push Not at this
        exact this
      split at h
      · obtain rfl := Except.ok.inj h
        rename_i total htotal
        exact ⟨hdiscovered, hprovider.entries _ result hresult, hprovider.keyless _ result hresult,
          hcomplete, iff_of_true (hprovider.total _ result total hresult htotal) (.inr hmissing)⟩
      · simp only [bind_eq_ok] at h
        obtain ⟨again, hagain, h⟩ := h
        obtain rfl := Except.ok.inj h
        refine ⟨hdiscovered, hprovider.entries _ result hresult, hprovider.keyless _ result hresult,
          hcomplete, iff_of_true ?_ (.inr hmissing)⟩
        rw [hprovider.totalOnly again hagain]
        rfl

end Accurate

/-! ### Compiles -/

theorem mem_getRecipientsNeeded_user (userAddress : Felt) (actions : Actions) :
    userAddress ∈ getRecipientsNeeded userAddress actions := by
  refine (AddressMap.mem_keys_foldl_set _ (fun recipient => recipient) fun _ => true).mpr (.inr ?_)
  exact ⟨userAddress, by simp, rfl⟩

section Compile

variable {sn : Starknet} {random : Randomness} {pool : Pool} {sender : ContractAddress}
  {userAddress viewingKey poolAddress : Felt} {account : List StoredChannel} {attempt : Attempt}
  {actions : Actions} {options : ExecuteOptions} {result : CompileResult}
  {recipientsNeeded : List Felt} {recipient : Felt}

/-- A recipient that is neither in the registry nor discovered, though it is needed, is left
out because no channels are discovered, and none are opened. -/
theorem recipientsToDiscover_of_overlooked {registry : PrivateRegistry}
    (hneeded : recipient ∈ recipientsNeeded) (hregistry : recipient ∉ keys registry.channels)
    (hdiscover : recipient ∉ recipientsToDiscover actions options registry recipientsNeeded) :
    options.autoSetup = false := by
  unfold recipientsToDiscover at hdiscover
  split_ifs at hdiscover with hnone hrefresh
  · exact hnone.2.2
  · exact absurd hneeded hdiscover
  · exact absurd (List.mem_filter.mpr ⟨hneeded, decide_eq_true hregistry⟩) hdiscover

theorem foldl_addOpenChannel_eq_nil_iff {recipients openChannels : List Felt} :
    recipients.foldl addOpenChannel openChannels = [] ↔ openChannels = [] ∧ recipients = [] := by
  induction recipients generalizing openChannels with
  | nil => simp
  | cons recipient recipients ih =>
    rw [List.foldl_cons, ih, addOpenChannel]
    split_ifs with hmem
    · simp [List.ne_nil_of_mem hmem]
    · simp

/-- The channels that are opened at all. -/
theorem setupActions_openChannels_eq_nil_iff {zero : Felt → Prop} [DecidablePred zero]
    {simulator : PoolSimulator}
    (hchannels : ∀ recipient channel, simulator.getChannel recipient = some channel →
      channel.SetUp account zero recipient)
    (hknown : options.autoSetup = true → ∀ recipient ∈ recipientsNeeded,
      recipient ∈ recipientsOf account → (simulator.getChannel recipient).isSome)
    (huser : simulator.userAddress ∈ recipientsNeeded)
    (hregisters : (setupActions simulator recipientsNeeded options actions).setViewingKey = true →
      simulator.getChannel simulator.userAddress = none) :
    (setupActions simulator recipientsNeeded options actions).openChannels = [] ↔
      actions.openChannels = [] ∧ (options.autoSetup = true → ∀ recipient ∈ recipientsNeeded,
        recipient ∈ recipientsOf account ∧ ¬zero recipient) := by
  have hopen : options.autoSetup = true → ∀ recipient ∈ recipientsNeeded,
      (((simulator.getChannel recipient).bind Channel.openKey).isNone ↔
        ¬(recipient ∈ recipientsOf account ∧ ¬zero recipient)) := by
    intro hsetup recipient hneeded
    cases hchannel : simulator.getChannel recipient with
    | none =>
      refine iff_of_true rfl fun hmem => ?_
      have hsome := hknown hsetup recipient hneeded hmem.1
      rw [hchannel] at hsome
      cases hsome
    | some channel =>
      rw [Option.bind_some, ← (hchannels recipient channel hchannel).openKey,
        Option.isNone_iff_eq_none, Option.not_isSome_iff_eq_none]
  unfold setupActions at hregisters ⊢
  dsimp only at hregisters ⊢
  rw [foldl_addOpenChannel_eq_nil_iff]
  refine and_congr_right fun _ => ?_
  unfold channelsToOpen
  cases hsetup : options.autoSetup with
  | false => simp
  | true =>
    rw [if_pos rfl, List.append_eq_nil_iff, List.filter_eq_nil_iff]
    constructor
    · rintro ⟨-, hall⟩ - recipient hneeded
      have hclosed := hall recipient hneeded
      rwa [hopen hsetup recipient hneeded, not_not] at hclosed
    · intro hall
      refine ⟨?_, fun recipient hneeded => ?_⟩
      · -- The channel of a user that registers would be missing.
        refine if_neg fun hregister => ?_
        have hnone := hregisters hregister
        refine (hopen hsetup _ huser).mp ?_ (hall rfl _ huser)
        rw [hnone]
        rfl
      · rw [hopen hsetup recipient hneeded, not_not]
        exact hall rfl recipient hneeded

theorem not_opensChannel_iff : ¬OpensChannel account userAddress attempt ↔
    attempt.actions.openChannels = [] ∧ (attempt.options.autoSetup = true →
      ∀ recipient ∈ getRecipientsNeeded userAddress attempt.actions,
        recipient ∈ recipientsOf account ∧ ¬CountsFromZero userAddress attempt recipient) := by
  unfold OpensChannel
  push Not
  rfl

theorem mem_keys_or_filter (discovered channels : List (Felt × Channel)) :
    recipient ∈ keys discovered ++ keys (channels.filter fun entry => entry.1 ∉ keys discovered) ↔
      recipient ∈ keys discovered ∨ recipient ∈ keys channels := by
  rw [List.mem_append]
  by_cases hmem : recipient ∈ keys discovered
  · exact iff_of_true (.inl hmem) (.inl hmem)
  · rw [or_iff_right hmem, or_iff_right hmem]
    constructor
    · intro hfilter
      obtain ⟨entry, hentry, rfl⟩ := List.mem_map.mp hfilter
      exact mem_keys_of_mem (List.mem_of_mem_filter hentry)
    · intro hkeys
      obtain ⟨entry, hentry, rfl⟩ := List.mem_map.mp hkeys
      exact mem_keys_of_mem (List.mem_filter.mpr ⟨hentry, decide_eq_true hmem⟩)

/-- The simulator of an attempt counts from zero where the compiler has no counts, and knows
the discovered recipients and those of the registry. -/
theorem createPool_countsFromZero (hstored : SenderStored sn pool sender viewingKey account)
    {registry : PrivateRegistry} {resolved : ChannelsResult} {simulator : PoolSimulator}
    (hregistry : attempt.options.startRegistry.Accurate account)
    (hresolved : ChannelsResolved account userAddress attempt resolved)
    (hchannels : registry.channels = attempt.options.startRegistry.channels)
    (h : createPool userAddress viewingKey registry resolved = .ok simulator) :
    PoolSimulator.SetUp account (CountsFromZero userAddress attempt)
      (keys (resolved.channels.getD []) ++ keys (registry.channels.filter fun entry =>
        entry.1 ∉ keys (resolved.channels.getD [])))
      { userAddress, userViewingKey := viewingKey, nextChannelIndex := resolved.total.getD 0 }
      simulator := by
  refine createPool_setUp h (fun entry hentry => ?_) fun entry hentry hnew => ?_
  · refine (hresolved.entries entry hentry).setUp hstored
      (fun hkey => .inr (hresolved.keyless entry hentry hkey)) fun hzero => ?_
    exact absurd (hresolved.discovered ▸ mem_keys_of_mem hentry) hzero.1
  · rw [hchannels] at hentry
    refine (hregistry.entries entry hentry).setUp hstored
      (fun hkey => .inl ⟨hresolved.discovered ▸ hnew, .inl ⟨entry, hentry, rfl, hkey⟩⟩) ?_
    rintro ⟨-, ⟨entry', hentry', hsame, hkey⟩ | ⟨-, hmissing⟩⟩
    · rwa [List.inj_on_of_nodup_map hregistry.nodup hentry' hentry hsame] at hkey
    · exact absurd (mem_keys_of_mem hentry) hmissing

/-- The counts of the simulator agree with the stored ones, where they are used, unless a
recipient is overlooked. -/
theorem counts_agree_iff {actions' : Actions} {openChannels : List Felt} {channels : ℕ}
    {out : ClientActions}
    (hemit : Emitted attempt.options actions' openChannels channels
      (fun r => if CountsFromZero userAddress attempt r then 0 else subchannelCount account r)
      (fun r token => if CountsFromZero userAddress attempt r then 0 else noteCount account r token)
      out)
    (hopenTokenChannels : actions'.openTokenChannels = attempt.actions.openTokenChannels)
    (hcreateNotes : ∀ c, c ∈ actions'.createNotes ↔ attempt.Creates userAddress c) :
    ((∀ r, out.subchannelIndices r = [] ∨
        (if CountsFromZero userAddress attempt r then 0 else subchannelCount account r) =
          subchannelCount account r) ∧
      ∀ r token, out.noteIndices r token = [] ∨
        (if CountsFromZero userAddress attempt r then 0 else noteCount account r token) =
          noteCount account r token) ↔
    ¬Overlooked account userAddress attempt := by
  have hcreates : (· ∈ actions'.createNotes) = attempt.Creates userAddress :=
    funext fun c => propext (hcreateNotes c)
  have hopened := hemit.opened
  have hrecipients := hemit.recipients
  rw [hcreates, hopenTokenChannels] at hopened hrecipients
  -- A count that is taken for 0 shows just where an index is emitted.
  constructor
  · rintro ⟨hsubs, hnoted⟩ ⟨r, hzero, ⟨hopens, hcount⟩ | ⟨c, hc, rfl, hcount⟩⟩
    · have hsame := (hsubs r).resolve_left (hopened r (if_pos hzero) hopens)
      rw [if_pos hzero] at hsame
      exact hcount hsame.symm
    · have hfound := mt (hemit.notes c.recipient c.token).mp
        fun hno => hno c ((hcreateNotes c).mpr hc) ⟨rfl, rfl⟩
      have hsame := (hnoted c.recipient c.token).resolve_left hfound
      rw [if_pos hzero] at hsame
      exact hcount hsame.symm
  · intro hno
    refine ⟨fun r => ?_, fun r token => ?_⟩
    · by_cases hzero : CountsFromZero userAddress attempt r
      · rw [if_pos hzero, or_iff_not_imp_left]
        intro hfound
        by_contra hcount
        exact hno ⟨r, hzero, .inl ⟨hrecipients r hfound, Ne.symm hcount⟩⟩
      · exact .inr (if_neg hzero)
    · by_cases hzero : CountsFromZero userAddress attempt r
      · rw [if_pos hzero, or_iff_not_imp_left, hemit.notes]
        intro hfound
        push Not at hfound
        obtain ⟨c, hc, hrecipient, rfl⟩ := hfound
        by_contra hcount
        exact hno ⟨r, hzero, .inr ⟨c, (hcreateNotes c).mp hc, hrecipient, Ne.symm hcount⟩⟩
      · exact .inr (if_neg hzero)

/-- The indices of an attempt are the next free ones exactly when the number of channels is
known where one is opened, and no recipient is overlooked. -/
theorem compileOnce_indices_iff (hstored : SenderStored sn pool sender viewingKey account)
    (hregistry : attempt.options.startRegistry.Accurate account)
    (hprovider : attempt.provider.Accurate account)
    (h : compileOnce sn random userAddress viewingKey poolAddress attempt = .ok result) :
    IndicesFollow account.length (subchannelCount account) (noteCount account)
        result.clientActions ↔
      (OpensChannel account userAddress attempt → ChannelCountKnown account userAddress attempt) ∧
      ¬Overlooked account userAddress attempt := by
  obtain ⟨resolved, registry, simulator, state, hresolve, hnotes, hpool, hstate, hemitted, -⟩ :=
    compileOnce_eq_ok h
  have hresolved := resolveRecipientChannels_eq_ok hprovider hresolve
  have hchannels := resolveNotes_channels hnotes
  have hadds := (resolveNotes_resolved hnotes).1
  obtain ⟨_, _, _, _, hfields⟩ := hadds.fields
  -- What the simulator starts from, then what it emits, then which channels it opens.
  have hsetup := createPool_countsFromZero hstored hregistry hresolved hchannels hpool
  have huser : simulator.userAddress = userAddress := hsetup.userAddress
  have hknown : ∀ recipient, simulator.getChannel recipient = none ↔
      recipient ∉ attempt.discovered userAddress ∧
        recipient ∉ keys attempt.options.startRegistry.channels := by
    intro recipient
    rw [← Option.not_isSome_iff_eq_none, hsetup.known, mem_keys_or_filter, hchannels,
      hresolved.discovered, not_or]
  have hemit := transformToClientActions_emitted hstate hsetup.nextChannelIndex
    (fun r channel hchannel => (hsetup.channels r channel hchannel).counted)
    (fun _ hunknown => by
      rw [huser] at hunknown ⊢
      obtain ⟨hdiscovered, hregistered⟩ := (hknown userAddress).mp hunknown
      have hzero : CountsFromZero userAddress attempt userAddress :=
        ⟨hdiscovered, .inr ⟨rfl, hregistered⟩⟩
      exact ⟨if_pos hzero, fun _ => if_pos hzero⟩)
  have hopens : (setupActions simulator (getRecipientsNeeded userAddress attempt.actions)
      attempt.options result.actions).openChannels = [] ↔ _ :=
    setupActions_openChannels_eq_nil_iff hsetup.channels
    (fun hauto r hr hmem => by
      by_contra hunknown
      obtain ⟨hdiscovered, hregistered⟩ :=
        (hknown r).mp (Option.not_isSome_iff_eq_none.mp hunknown)
      have hclosed := recipientsToDiscover_of_overlooked hr hregistered
        fun hasked => hdiscovered (hresolved.complete r hasked hmem)
      rw [hauto] at hclosed
      cases hclosed)
    (huser ▸ mem_getRecipientsNeeded_user userAddress attempt.actions)
    (getChannel_of_registers hstate)
  have hopenChannels : result.actions.openChannels = attempt.actions.openChannels := by
    rw [hfields]
  rw [hemitted, indicesFollow_values_iff, hemit.follow.iff, hemit.channels, hopens, hopenChannels,
    ← not_opensChannel_iff]
  refine and_congr ?_ (counts_agree_iff hemit (by rw [hfields]) hadds.createNotes)
  rw [← imp_iff_not_or]
  exact imp_congr_right fun _ => hresolved.total

/-- The indices that a compile emits are the next free ones exactly when, in the attempt that
it returns, the number of channels is known where one is opened, and no recipient is
overlooked. -/
theorem compile_indices_iff (sn : Starknet) (random : Randomness) (pool : Pool)
    (sender : ContractAddress) (viewingKey poolAddress : Felt) (account : List StoredChannel)
    (provider provider' : DiscoveryProvider) (timing : Timing) (actions : Actions)
    (options : ExecuteOptions) (result : CompileResult)
    (hstored : SenderStored sn pool sender viewingKey account)
    (hregistry : ∀ registry, options.registry = some registry → registry.Accurate account)
    (hprovider : provider.Accurate account) (hprovider' : provider'.Accurate account)
    (h : compile sn random (ContractAddress.toFelt sender) viewingKey poolAddress provider provider'
      timing actions options = .ok result) :
    let attempt := lastAttempt sn random (ContractAddress.toFelt sender) viewingKey poolAddress
      provider provider' timing actions options
    IndicesFollow account.length (subchannelCount account) (noteCount account)
        result.clientActions ↔
      (OpensChannel account (ContractAddress.toFelt sender) attempt →
        ChannelCountKnown account (ContractAddress.toFelt sender) attempt) ∧
      ¬Overlooked account (ContractAddress.toFelt sender) attempt := by
  intro attempt
  have hstart : ∀ options : ExecuteOptions, (∀ registry, options.registry = some registry →
      registry.Accurate account) → options.startRegistry.Accurate account := by
    intro options hregistry
    have haccurate : (options.registry.getD {}).Accurate account := by
      cases hgiven : options.registry with
      | none => exact ⟨List.nodup_nil, nofun⟩
      | some registry => exact hregistry registry hgiven
    exact ⟨by rw [startRegistry_channels]; exact haccurate.nodup,
      by rw [startRegistry_channels]; exact haccurate.entries⟩
  -- The attempt that returns starts with the registry as given, or after a reorganisation with an
  -- empty one.
  have hattempt : attempt.options.startRegistry.Accurate account ∧
      attempt.provider.Accurate account := by
    refine lastAttempt_induction (motive := fun attempt =>
      attempt.options.startRegistry.Accurate account ∧ attempt.provider.Accurate account)
      ⟨hstart options hregistry, hprovider⟩ fun _ => ⟨hstart _ fun registry hgiven => ?_, hprovider'⟩
    obtain rfl := registry_afterReorg hgiven
    exact ⟨List.nodup_nil, nofun⟩
  rw [compile_eq] at h
  exact compileOnce_indices_iff hstored hattempt.1 hattempt.2 h

end Compile

/-! ### Two compiles

User 5 has a channel to itself, with two notes of token 77. It creates a note for itself, or
one for user 6, to which it has no channel. -/

namespace Sample

/-- A provider that knows one channel, and that there is one. -/
def countingProvider : DiscoveryProvider where
  discoverNotes _ _ := .ok ([], [])
  discoverChannels
    | .only recipients =>
      .ok { channels := some (if 5 ∈ recipients then [(5, knownChannel)] else []) }
    | _ => .ok { total := some 1 }

/-- User 6 is in the registry, without a channel. -/
def keylessRegistry : PrivateRegistry :=
  { channels := [(5, knownChannel), (6, { publicKey := 4 })] }

/-- Channels are opened as they are needed. -/
def settingUp : ExecuteOptions :=
  { autoSetup := true, autoSelectNotes := some .naive, registry := some keylessRegistry }

/-- Deposit 100 and create a note of it. -/
def noteFor (recipient : Felt) : Actions :=
  { deposits := [{ token := 77, amount := 100 }], createNotes := [⟨recipient, 77, some 100⟩] }

theorem knownChannel_accurate : EntryAccurate Discovery.Sample.stored 5 knownChannel :=
  .opened List.mem_cons_self rfl (by decide) ⟨rfl, fun subchannel hsubchannel =>
    ⟨0, by obtain rfl := List.mem_singleton.mp hsubchannel; rfl⟩⟩ (.refl _)

theorem keylessRegistry_accurate : keylessRegistry.Accurate Discovery.Sample.stored where
  nodup := by decide
  entries := by
    intro entry hentry
    rcases List.mem_cons.mp hentry with rfl | hentry
    · exact knownChannel_accurate
    · obtain rfl := List.mem_singleton.mp hentry
      exact .keyless rfl

theorem countingProvider_accurate : countingProvider.Accurate Discovery.Sample.stored where
  entries := by
    rintro recipients result hresult entry hentry
    obtain rfl := Except.ok.inj hresult
    dsimp only [Option.getD_some] at hentry
    split_ifs at hentry
    · obtain rfl := List.mem_singleton.mp hentry
      exact knownChannel_accurate
    · cases hentry
  keyless := by
    rintro recipients result hresult entry hentry hkey
    obtain rfl := Except.ok.inj hresult
    dsimp only [Option.getD_some] at hentry
    split_ifs at hentry
    · obtain rfl := List.mem_singleton.mp hentry
      cases hkey
    · cases hentry
  complete := by
    rintro recipients result hresult recipient hrecipient hmem
    obtain rfl := Except.ok.inj hresult
    obtain rfl : recipient = 5 := List.mem_singleton.mp hmem
    dsimp only [Option.getD_some]
    rw [if_pos hrecipient]
    exact List.mem_cons_self
  total := by
    rintro recipients result total hresult htotal
    obtain rfl := Except.ok.inj hresult
    cases htotal
  totalOnly := by
    rintro result hresult
    obtain rfl := Except.ok.inj hresult
    rfl

theorem registry_accurate : ∀ registry, settingUp.registry = some registry →
    registry.Accurate Discovery.Sample.stored := by
  rintro registry hregistry
  obtain rfl := Option.some.inj hregistry
  exact keylessRegistry_accurate

end Sample

/-- The note for user 5 itself is the third of its subchannel. -/
theorem compile_indices_iff_sample : ∃ result,
    compile Starknet.sample Sample.random 5 3 0 Sample.countingProvider Sample.countingProvider
      Sample.inTurn (Sample.noteFor 5) Sample.settingUp = .ok result ∧
    IndicesFollow 1 (subchannelCount Discovery.Sample.stored) (noteCount Discovery.Sample.stored)
      result.clientActions := by
  refine ⟨_, rfl, (compile_indices_iff Starknet.sample Sample.random _ 5 3 0 _
    Sample.countingProvider Sample.countingProvider Sample.inTurn
    (Sample.noteFor 5) Sample.settingUp _
    Discovery.Sample.senderStored Sample.registry_accurate Sample.countingProvider_accurate
    Sample.countingProvider_accurate rfl).mpr ⟨?_, ?_⟩⟩
  · rintro (hopen | ⟨-, recipient, hneeded, hmissing | ⟨-, hzero⟩⟩)
    · exact absurd rfl hopen
    · obtain rfl : recipient = 5 := List.mem_singleton.mp hneeded
      exact absurd List.mem_cons_self hmissing
    · obtain rfl : recipient = 5 := List.mem_singleton.mp hneeded
      exact absurd hzero (by decide)
  · -- Only user 6 is counted from zero, and rightly so.
    rintro ⟨recipient, ⟨-, ⟨entry, hentry, rfl, hkey⟩ | ⟨rfl, hmissing⟩⟩, hcount⟩
    · rcases List.mem_cons.mp hentry with rfl | hentry
      · cases hkey
      · obtain rfl := List.mem_singleton.mp hentry
        obtain ⟨hsubs, hnoted⟩ := counts_eq_zero
          (show (6 : Felt) ∉ recipientsOf Discovery.Sample.stored by decide)
        rcases hcount with ⟨-, hcount⟩ | ⟨c, -, -, hcount⟩
        · exact hcount hsubs
        · exact hcount (hnoted c.token)
    · exact hmissing List.mem_cons_self

/-- User 6 is in the registry, so that nothing is discovered, and the channel to it, the second
one, is opened at index 0. -/
theorem second_channel_at_zero :
    SenderStored Starknet.sample Discovery.Sample.backend.pool 5 3 Discovery.Sample.stored ∧
    (∀ registry, Sample.settingUp.registry = some registry →
      registry.Accurate Discovery.Sample.stored) ∧
    Sample.countingProvider.Accurate Discovery.Sample.stored ∧
    ∃ result, compile Starknet.sample Sample.random 5 3 0 Sample.countingProvider
        Sample.countingProvider Sample.inTurn (Sample.noteFor 6) Sample.settingUp = .ok result ∧
      ¬IndicesFollow 1 (subchannelCount Discovery.Sample.stored)
        (noteCount Discovery.Sample.stored) result.clientActions :=
  ⟨Discovery.Sample.senderStored, Sample.registry_accurate, Sample.countingProvider_accurate, _,
    rfl, fun h => absurd h.channels (by decide)⟩

end PrivacyPool.Sdk
