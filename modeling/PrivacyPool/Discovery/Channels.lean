import PrivacyPool.Discovery.Cursor

/-!
# Channel and subchannel discovery

`incoming_channels.rs`, `subchannels.rs` and `outgoing_channels.rs`: each scan
resumes where the cursor says, adds what it finds to the cursor while there is a
slot left and the budget pays, and marks the scan as complete at the end. The views
read one slot for a count or a public key, two for a subchannel or an outgoing channel
and three for an incoming channel.

## Main definitions

* `discoverIncomingChannelsPaginated` — the channels toward a recipient
* `discoverSubchannelsPaginated` — the subchannels of a channel
* `discoverOutgoingChannelsPaginated`, `precomputeChannels` — the channels of a sender
-/

namespace PrivacyPool.Discovery

open Budget.Task

variable (sn : Starknet) (newFromX : Felt → Option sn.EcPoint) (backend : Backend)

/-- The cursor entry of a newly discovered channel. -/
def newChannelCursor (channelKey : Felt) : ChannelCursor := { channelKey }

/-! ### Incoming channels -/

/-- A discovered channel toward the user. -/
structure IncomingChannel where
  channelKey : Felt
  senderAddr : Felt
  deriving DecidableEq, Repr

/-- What a batch of incoming channels comes to. -/
structure ChannelDiscoveryResult where
  channels : List IncomingChannel
  lastIndex : Option ℕ
  hasMore : Bool
  deriving DecidableEq, Repr

/-- The number of channels, or nothing when the budget is exhausted. -/
def getIncomingChannelCount (recipientAddr : ContractAddress) : Task (Option ℕ) := do
  if !(← consume costNumChannels) then
    return none
  read 1
  return some (backend.getNumOfChannels recipientAddr)

/-- The loop over a batch of encrypted channels, from an index on. -/
def decryptChannels (privateKey : Felt) :
    ℕ → List EncChannelInfo → Except DiscoveryError (List IncomingChannel)
  | _, [] => .ok []
  | index, enc :: rest => do
    let info ← (decryptChannelInfo sn newFromX enc privateKey).mapError (.decryption index)
    let channels ← decryptChannels privateKey (index + 1) rest
    return ⟨info.channelKey, info.senderAddr⟩ :: channels

/-- Discover and decrypt incoming channels for a recipient. -/
def discoverIncomingChannels (recipientAddr : ContractAddress) (privateKey : Felt)
    (startIndex numChannels : ℕ) : Task ChannelDiscoveryResult := do
  let (batchSize, _) ← consumeUpTo numChannels costChannelInfo
  let hasMore := decide (batchSize < numChannels)
  -- Nothing is affordable, or nothing is left to look at.
  if batchSize = 0 then
    return ⟨[], none, hasMore⟩
  read (3 * batchSize)
  let encryptedBatch := backend.getChannelInfoBatch recipientAddr startIndex batchSize
  let channels ← (decryptChannels sn newFromX privateKey startIndex encryptedBatch)
  return ⟨channels, some (startIndex + batchSize - 1), hasMore⟩

/-- The cached number of channels, or the one that the storage has. -/
def cachedChannelCount (recipientAddr : ContractAddress) (cursor : DiscoveryCursor) :
    Task (Option ℕ) :=
  match cursor.totalNChannels with
  | some count => return some count
  | none => getIncomingChannelCount backend recipientAddr

/-- Discover incoming channels with cursor-based pagination. -/
def discoverIncomingChannelsPaginated (recipient : ContractAddress) (privateKey : Felt)
    (cursor : DiscoveryCursor) (maxCursorChannels : ℕ) :
    Task (DiscoveryCursor × List IncomingChannel) := do
  if cursor.channelDiscoveryComplete then
    return (cursor, [])
  let cursorSlots := maxCursorChannels - cursor.channels.length
  if cursorSlots = 0 then
    return (cursor, [])
  match ← cachedChannelCount backend recipient cursor with
  | none => return (cursor, [])
  | some totalChannels =>
    let cursor := { cursor with totalNChannels := some totalChannels }
    let startIndex := wrappingNext cursor.lastChannelIndex
    let remainingChannels := totalChannels - startIndex
    if remainingChannels = 0 then
      return ({ cursor with channelDiscoveryComplete := true }, [])
    let numChannels := min remainingChannels cursorSlots
    let result ←
      discoverIncomingChannels sn newFromX backend recipient privateKey startIndex numChannels
    let channels := result.channels.foldl
      (fun m channel =>
        HashMap.orInsert m channel.senderAddr (newChannelCursor channel.channelKey))
      cursor.channels
    let lastChannelIndex := result.lastIndex.or cursor.lastChannelIndex
    let complete := !result.hasMore && decide (numChannels = remainingChannels)
    return ({ cursor with channels, lastChannelIndex, channelDiscoveryComplete := complete },
      result.channels)

/-! ### Subchannels -/

/-- A discovered subchannel: its index and its token. -/
structure Subchannel where
  index : ℕ
  token : Felt
  deriving DecidableEq, Repr

/-- What a scan of subchannels comes to. -/
structure SubchannelDiscoveryResult where
  subchannels : List Subchannel
  lastIndex : Option ℕ
  hasMore : Bool
  deriving DecidableEq, Repr

/-- The loop over subchannel indices: at most as many as there are slots, until the budget
is exhausted or an index without a subchannel is reached. -/
def scanSubchannels (channelKey : Felt) : ℕ → ℕ → Task (List Subchannel × Bool)
  | 0, _ => return ([], true)
  | slots + 1, index => do
    if !(← consume costSubchannelInfo) then
      return ([], true)
    read 2
    let encrypted := backend.getSubchannelInfo sn (computeSubchannelId sn channelKey index)
    -- An empty record ends the subchannels of the channel.
    if encrypted.salt = 0 then
      return ([], false)
    let token := decryptSubchannelToken sn encrypted channelKey index
    let (subchannels, hasMore) ← scanSubchannels channelKey slots (index + 1)
    return (⟨index, token⟩ :: subchannels, hasMore)

/-- Discover and decrypt subchannels for a given channel key. -/
def discoverSubchannels (channelKey : Felt) (startIndex numSubchannels : ℕ) :
    Task SubchannelDiscoveryResult := do
  let (subchannels, hasMore) ← scanSubchannels sn backend channelKey numSubchannels startIndex
  return ⟨subchannels, subchannels.getLast?.map (·.index), hasMore⟩

/-- Discover subchannels with cursor-based pagination. -/
def discoverSubchannelsPaginated (channelKey : Felt) (cursor : ChannelCursor)
    (maxCursorSubchannels : ℕ) : Task (ChannelCursor × List Subchannel) := do
  if cursor.subchannelDiscoveryComplete then
    return (cursor, [])
  let cursorSlots := maxCursorSubchannels - cursor.subchannels.length
  -- Without a slot the end of the subchannels is not looked for, so that the scan stays open.
  if cursorSlots = 0 then
    return (cursor, [])
  let startIndex := wrappingNext cursor.lastSubchannelIndex
  let result ← discoverSubchannels sn backend channelKey startIndex cursorSlots
  let subchannels := result.subchannels.foldl
    (fun m sub => HashMap.orInsert m sub.token {}) cursor.subchannels
  let lastSubchannelIndex := result.lastIndex.or cursor.lastSubchannelIndex
  return ({ cursor with
    subchannels, lastSubchannelIndex, subchannelDiscoveryComplete := !result.hasMore },
    result.subchannels)

/-! ### Outgoing channels -/

/-- A channel from the user, which is on chain or precomputed. -/
structure OutgoingChannel where
  recipientAddr : Felt
  recipientPublicKey : Felt
  channelKey : Felt
  precomputed : Bool
  deriving DecidableEq, Repr

/-- An outgoing channel with its key computed from both identities. -/
def OutgoingChannel.new (senderAddr viewingKey recipientAddr recipientPublicKey : Felt)
    (precomputed : Bool) : OutgoingChannel :=
  { recipientAddr, recipientPublicKey, precomputed
    channelKey := computeChannelKey sn senderAddr viewingKey recipientAddr recipientPublicKey }

/-- What a scan of outgoing channels comes to. -/
structure OutgoingChannelDiscoveryResult where
  channels : List OutgoingChannel
  lastIndex : Option ℕ
  hasMore : Bool
  deriving DecidableEq, Repr

/-- The loop over outgoing channel indices, with the same three ways to stop. -/
def scanOutgoingChannels (senderAddr viewingKey : Felt) :
    ℕ → ℕ → Task (List OutgoingChannel × Option ℕ × Bool)
  | 0, _ => return ([], none, true)
  | slots + 1, index => do
    if !(← consume costOutgoingChannelInfo) then
      return ([], none, true)
    read 2
    let encrypted :=
      backend.getOutgoingChannelInfo sn (computeOutgoingChannelId sn senderAddr viewingKey index)
    -- An empty record ends the channels of the sender.
    if encrypted.salt = 0 then
      return ([], none, false)
    let recipientAddr := decryptOutgoingRecipientAddr sn encrypted senderAddr viewingKey index
    read 1
    let recipientPublicKey := backend.getPublicKey sn recipientAddr
    let channel :=
      OutgoingChannel.new sn senderAddr viewingKey recipientAddr recipientPublicKey false
    let (channels, lastIndex, hasMore) ←
      scanOutgoingChannels senderAddr viewingKey slots (index + 1)
    return (channel :: channels, lastIndex.or (some index), hasMore)

/-- Discover and decrypt outgoing channels for a given sender. -/
def discoverOutgoingChannels (senderAddr viewingKey : Felt) (startIndex maxChannels : ℕ) :
    Task OutgoingChannelDiscoveryResult := do
  let (channels, lastIndex, hasMore) ←
    scanOutgoingChannels sn backend senderAddr viewingKey maxChannels startIndex
  return ⟨channels, lastIndex, hasMore⟩

/-- Whether an address passes the recipients filter. -/
def passes (recipients : Option (List Felt)) (addr : Felt) : Bool :=
  recipients.all fun filter => filter.contains addr

/-- Discover outgoing channels with cursor-based pagination. -/
def discoverOutgoingChannelsPaginated (senderAddr viewingKey : Felt) (cursor : DiscoveryCursor)
    (maxCursorChannels : ℕ) (recipients : Option (List Felt)) :
    Task (DiscoveryCursor × List OutgoingChannel) := do
  if cursor.channelDiscoveryComplete then
    return (cursor, [])
  let cursorSlots := maxCursorChannels - cursor.channels.length
  if cursorSlots = 0 then
    return (cursor, [])
  let startIndex := wrappingNext cursor.lastChannelIndex
  let result ← discoverOutgoingChannels sn backend senderAddr viewingKey startIndex cursorSlots
  -- Channels toward other recipients are scanned, too, but not kept in the cursor.
  let found := result.channels.filter fun channel => passes recipients channel.recipientAddr
  let channels := found.foldl
    (fun m channel =>
      HashMap.orInsert m channel.recipientAddr (newChannelCursor channel.channelKey))
    cursor.channels
  let lastChannelIndex := result.lastIndex.or cursor.lastChannelIndex
  let cursor := { cursor with channels, lastChannelIndex }
  if result.hasMore then
    return (cursor, found)
  return ({ cursor with
    channelDiscoveryComplete := true, totalNChannels := some (wrappingNext lastChannelIndex) },
    found)

/-- The future channels toward registered recipients. The draw may fail: the public keys
are read all the same. -/
def precomputeChannels (senderAddr viewingKey : Felt) (recipientAddrs : List Felt) :
    Task (List OutgoingChannel) := do
  if recipientAddrs.isEmpty then
    return []
  let _ ← consume (recipientAddrs.length * costPublicKey)
  read recipientAddrs.length
  return (recipientAddrs.map fun addr => (addr, backend.getPublicKey sn addr)).filterMap
    fun (addr, pk) => if pk ≠ 0 then some (OutgoingChannel.new sn senderAddr viewingKey addr pk true)
      else none

end PrivacyPool.Discovery
