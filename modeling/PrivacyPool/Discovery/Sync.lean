import PrivacyPool.Discovery.Channels
import PrivacyPool.Discovery.Notes

/-!
# Sync orchestrators

`incoming_state.rs` and `outgoing_state.rs`: one request advances a cursor at all
three levels. New channels are looked for when the channels of the cursor are
complete; then the incomplete channels are processed side by side, and in each of
them the incomplete subchannels. The tasks share the budget of the request, and a
schedule says in which order they draw from it.

## Main definitions

* `syncIncomingState` — channels, subchannels and unspent notes of a recipient
* `syncOutgoingState` — channels and subchannels of a sender, with the last note indices
-/

namespace PrivacyPool.Discovery

open Budget.Task

variable (sn : Starknet) (newFromX : Felt → Option sn.EcPoint) (backend : Backend)

/-- The turns of the channel tasks, and in each channel those of its subchannel tasks. -/
structure Schedule where
  channels : List ℕ
  subchannels : Felt → List ℕ

/-! ### Incoming -/

/-- A subchannel toward the user, by its sender and its token. -/
structure IncomingSubchannel where
  senderAddr : Felt
  token : Felt
  deriving DecidableEq, Repr

/-- What an incoming sync returns. -/
structure SyncIncomingStateResult where
  channels : List IncomingChannel
  subchannels : List IncomingSubchannel
  notes : List DecryptedNote
  cursor : DiscoveryCursor
  deriving DecidableEq, Repr

/-- What the task of a subchannel comes to. -/
structure ProcessSubchannelResult where
  token : Felt
  notes : List DecryptedNote
  cursor : SubchannelCursor
  deriving DecidableEq, Repr

/-- What the task of a channel comes to. -/
structure ProcessChannelResult where
  senderAddr : Felt
  subchannels : List IncomingSubchannel
  notes : List DecryptedNote
  cursor : ChannelCursor
  deriving DecidableEq, Repr

/-- Process a single subchannel: discover its notes. -/
def processSubchannel (channelKey token : Felt) (cursor : SubchannelCursor) (viewingKey : Felt)
    (maxNoteLogIndex : ℕ) : Task ProcessSubchannelResult := do
  if cursor.noteDiscoveryComplete then
    return ⟨token, [], cursor⟩
  let (cursor, notes) ←
    discoverNotesPaginated sn backend channelKey token cursor viewingKey maxNoteLogIndex
  return ⟨token, notes, cursor⟩

/-- The futures of `process_channel`: the incomplete subchannels are taken out of the
cursor, and put back as they finish. -/
def processSubchannels (senderAddr channelKey : Felt) (cursor : ChannelCursor) (viewingKey : Felt)
    (maxNoteLogIndex : ℕ) (turns : List ℕ) : Task ProcessChannelResult := do
  let (kept, pending) :=
    HashMap.extractIf cursor.subchannels fun sc => !sc.noteDiscoveryComplete
  let results ← parallel turns (pending.map fun (token, scCursor) =>
    processSubchannel sn backend channelKey token scCursor viewingKey maxNoteLogIndex)
  let subchannels := results.foldl (fun m result => HashMap.insert m result.token result.cursor) kept
  return {
    senderAddr
    subchannels := results.map fun result => ⟨senderAddr, result.token⟩
    -- The notes get the sender and the token that they were found under.
    notes := results.flatMap fun result =>
      result.notes.map fun note => { note with senderAddr, token := result.token }
    cursor := { cursor with subchannels } }

/-- Process a single channel: discover subchannels, then the notes of each. -/
def processChannel (senderAddr : Felt) (cursor : ChannelCursor) (viewingKey : Felt)
    (maxCursorSubchannels maxNoteLogIndex : ℕ) (turns : List ℕ) : Task ProcessChannelResult := do
  let channelKey := cursor.channelKey
  let (cursor, _) ←
    discoverSubchannelsPaginated sn backend channelKey cursor maxCursorSubchannels
  processSubchannels sn backend senderAddr channelKey cursor viewingKey maxNoteLogIndex turns

/-- New channels are discovered when there is no pending work in the cursor. -/
def newIncomingChannels (recipient : ContractAddress) (viewingKey : Felt)
    (cursor : DiscoveryCursor) (maxChannels : ℕ) : Task (DiscoveryCursor × List IncomingChannel) :=
  if cursor.allChannelsProcessed then
    discoverIncomingChannelsPaginated sn newFromX backend recipient viewingKey cursor maxChannels
  else return (cursor, [])

/-- The futures of `sync_incoming_state`: the incomplete channels are taken out of the
cursor, and put back as they finish. -/
def processChannels (cursor : DiscoveryCursor) (newChannels : List IncomingChannel)
    (viewingKey : Felt) (cursorLimits : CursorLimits) (schedule : Schedule) :
    Task SyncIncomingStateResult := do
  -- Complete channels stay as they are; the others are processed in parallel.
  let (kept, pending) := HashMap.extractIf cursor.channels fun ch => !ch.isComplete
  let results ← parallel schedule.channels (pending.map fun (senderAddr, chCursor) =>
    processChannel sn backend senderAddr chCursor viewingKey cursorLimits.maxSubchannels
      cursorLimits.maxNoteLogIndex (schedule.subchannels senderAddr))
  let channels :=
    results.foldl (fun m result => HashMap.insert m result.senderAddr result.cursor) kept
  return {
    channels := newChannels
    subchannels := results.flatMap (·.subchannels)
    notes := results.flatMap (·.notes)
    cursor := { cursor with channels } }

/-- Hierarchical discovery: channels, subchannels, notes. -/
def syncIncomingState (recipient : ContractAddress) (viewingKey : Felt) (cursor : DiscoveryCursor)
    (cursorLimits : CursorLimits) (schedule : Schedule) : Task SyncIncomingStateResult := do
  let (cursor, newChannels) ←
    newIncomingChannels sn newFromX backend recipient viewingKey cursor cursorLimits.maxChannels
  processChannels sn backend cursor newChannels viewingKey cursorLimits schedule

/-! ### Outgoing -/

/-- A subchannel from the user, with the last index of its notes. -/
structure OutgoingSubchannel where
  recipientAddr : Felt
  token : Felt
  lastNoteIndex : Option ℕ
  deriving DecidableEq, Repr

/-- What an outgoing sync returns. -/
structure SyncOutgoingStateResult where
  channels : List OutgoingChannel
  subchannels : List OutgoingSubchannel
  cursor : DiscoveryCursor
  deriving DecidableEq, Repr

/-- What the task of an outgoing subchannel comes to. -/
structure ProcessOutgoingSubchannelResult where
  token : Felt
  lastNoteIndex : Option ℕ
  cursor : SubchannelCursor
  deriving DecidableEq, Repr

/-- What the task of an outgoing channel comes to. -/
structure ProcessOutgoingChannelResult where
  recipientAddr : Felt
  subchannels : List OutgoingSubchannel
  cursor : ChannelCursor
  deriving DecidableEq, Repr

/-- Process a single outgoing subchannel: probe for the last note index. -/
def processOutgoingSubchannel (channelKey token : Felt) (cursor : SubchannelCursor)
    (maxNoteLogIndex : ℕ) : Task ProcessOutgoingSubchannelResult := do
  if cursor.noteDiscoveryComplete then
    return ⟨token, cursor.lastExistingIndex, cursor⟩
  let (cursor, _, hasMore) ←
    findLastNoteIndex sn backend channelKey token cursor maxNoteLogIndex
  let cursor := { cursor with noteDiscoveryComplete := !hasMore }
  return ⟨token, cursor.lastExistingIndex, cursor⟩

/-- The futures of `process_outgoing_channel`. -/
def processOutgoingSubchannels (recipientAddr channelKey : Felt) (cursor : ChannelCursor)
    (maxNoteLogIndex : ℕ) (turns : List ℕ) : Task ProcessOutgoingChannelResult := do
  let (kept, pending) :=
    HashMap.extractIf cursor.subchannels fun sc => !sc.noteDiscoveryComplete
  let results ← parallel turns (pending.map fun (token, scCursor) =>
    processOutgoingSubchannel sn backend channelKey token scCursor maxNoteLogIndex)
  let subchannels := results.foldl (fun m result => HashMap.insert m result.token result.cursor) kept
  return {
    recipientAddr
    subchannels := results.map fun result => ⟨recipientAddr, result.token, result.lastNoteIndex⟩
    cursor := { cursor with subchannels } }

/-- Process a single outgoing channel: discover subchannels, then probe each. -/
def processOutgoingChannel (recipientAddr : Felt) (cursor : ChannelCursor)
    (maxCursorSubchannels maxNoteLogIndex : ℕ) (turns : List ℕ) :
    Task ProcessOutgoingChannelResult := do
  let channelKey := cursor.channelKey
  let (cursor, _) ←
    discoverSubchannelsPaginated sn backend channelKey cursor maxCursorSubchannels
  processOutgoingSubchannels sn backend recipientAddr channelKey cursor maxNoteLogIndex turns

/-- New channels are discovered when there is no pending work in the cursor. -/
def newOutgoingChannels (senderAddr viewingKey : Felt) (cursor : DiscoveryCursor)
    (maxChannels : ℕ) (recipients : Option (List Felt)) :
    Task (DiscoveryCursor × List OutgoingChannel) :=
  if cursor.allChannelsProcessed then
    discoverOutgoingChannelsPaginated sn backend senderAddr viewingKey cursor maxChannels recipients
  else return (cursor, [])

/-- The requested recipients that are not in the cursor. -/
def missingRecipients (cursor : DiscoveryCursor) (recipients : Option (List Felt)) : List Felt :=
  (recipients.getD []).filter fun addr => !(HashMap.keys cursor.channels).contains addr

/-- Once all channels are known, those toward requested recipients that are not in the
cursor are precomputed. -/
def missingChannels (senderAddr viewingKey : Felt) (cursor : DiscoveryCursor)
    (recipients : Option (List Felt)) : Task (List OutgoingChannel) :=
  if cursor.channelDiscoveryComplete then
    precomputeChannels sn backend senderAddr viewingKey (missingRecipients cursor recipients)
  else return []

/-- The futures of `sync_outgoing_state`. -/
def processOutgoingChannels (cursor : DiscoveryCursor) (cursorLimits : CursorLimits)
    (schedule : Schedule) : Task (DiscoveryCursor × List OutgoingSubchannel) := do
  let (kept, pending) := HashMap.extractIf cursor.channels fun ch => !ch.isComplete
  let results ← parallel schedule.channels (pending.map fun (recipientAddr, chCursor) =>
    processOutgoingChannel sn backend recipientAddr chCursor cursorLimits.maxSubchannels
      cursorLimits.maxNoteLogIndex (schedule.subchannels recipientAddr))
  let channels :=
    results.foldl (fun m result => HashMap.insert m result.recipientAddr result.cursor) kept
  return ({ cursor with channels }, results.flatMap (·.subchannels))

/-- Hierarchical outgoing discovery: channels, subchannels, note index probing. -/
def syncOutgoingState (senderAddr viewingKey : Felt) (cursor : DiscoveryCursor)
    (cursorLimits : CursorLimits) (recipients : Option (List Felt)) (schedule : Schedule) :
    Task SyncOutgoingStateResult := do
  let (cursor, newChannels) ←
    newOutgoingChannels sn backend senderAddr viewingKey cursor cursorLimits.maxChannels recipients
  let (cursor, newSubchannels) ← processOutgoingChannels sn backend cursor cursorLimits schedule
  let precomputedChannels ← missingChannels sn backend senderAddr viewingKey cursor recipients
  return {
    channels := newChannels ++ precomputedChannels
    subchannels := newSubchannels
    cursor }

end PrivacyPool.Discovery
