import PrivacyPool.Base.AddressMap
import PrivacyPool.Base.Loop
import PrivacyPool.Discovery.Service
import PrivacyPool.Sdk.NoteId
import Mathlib.Data.List.Dedup

/-!
# The discovery provider over the service

`indexer-discovery.ts`: the SDK asks the service page by page until the cursor is
complete. `discoverNotes` keeps the whole cursor between the pages and gives it to the
caller in its own form; `discoverChannels` drops complete entries from it.

## Main definitions

* `discoverNotes` — the unspent notes of a recipient, and a cursor for the next call
* `discoverChannels` — the channels of a sender, and their number
-/

namespace PrivacyPool.Sdk

open Discovery

variable (sn : Starknet) (newFromX : Felt → Option sn.EcPoint) (backend : Backend)
  (limits : ValidationLimits)

/-! ### Types -/

/-- What it takes to use a note. -/
structure Witness where
  channelKey : Felt
  index : ℕ
  salt : ℕ
  deriving DecidableEq, Repr

/-- A note as the SDK hands it out. -/
structure Note where
  id : NoteId
  amount : ℤ
  created : Option ℕ := none
  witness : Witness
  sender : Felt
  isOpen : Bool := false
  deriving DecidableEq, Repr

/-- What is known of the channel from one sender. -/
structure IncomingChannelCursor where
  channelKey : Felt
  subchannelIdIndex : ℕ
  /-- Per token, the next note index. -/
  noteIndexes : List (Felt × ℕ)
  /-- Per token, the number of notes that the boundary search found. -/
  totalNoteCounts : List (Felt × ℕ)
  deriving DecidableEq, Repr

/-- The cursor between two calls, per sender. -/
abbrev NotesCursor := List (Felt × IncomingChannelCursor)

/-- The place of a token in a channel and of its next note. -/
structure TokenChannel where
  tokenIndex : ℕ
  noteNonce : ℕ
  deriving DecidableEq, Repr

/-- A channel toward a recipient, which has no key before it is opened. -/
structure Channel where
  publicKey : Felt
  key : Option Felt := none
  tokens : List (Felt × TokenChannel) := []
  deriving DecidableEq, Repr

/-- Which channels are asked for: all, their number only, or those of some recipients. -/
inductive RecipientsFilter
  | all
  | totalOnly
  | only (recipients : List Felt)
  deriving DecidableEq, Repr

/-- What the SDK throws. -/
inductive SdkError
  | api (source : ApiError)
  /-- "Missing channel_key for sender …: not found in current response or previous pages" -/
  | missingChannelKey (sender : Felt)
  /-- "outgoing_state reported complete without total_n_channels" -/
  | missingTotal
  deriving DecidableEq, Repr

/-! ### Cursors -/

/-- Mirrors `DiscoveryCursor::is_complete()`. -/
def isApiCursorComplete (cursor : DiscoveryCursor) : Bool :=
  cursor.channelDiscoveryComplete && cursor.channels.all fun entry =>
    entry.2.subchannelDiscoveryComplete &&
      entry.2.subchannels.all fun sub => sub.2.noteDiscoveryComplete

/-- Whether a token passes the filter. -/
def inFilter (tokenFilter : Option (List Felt)) (token : Felt) : Bool :=
  tokenFilter.all fun tokens => tokens.contains token

/-- The subchannel cursors for pairs of a token and the next note index. -/
def buildSubchannelCursors (noteIndexes : List (Felt × ℕ)) (tokenFilter : Option (List Felt))
    (totalNoteCounts : List (Felt × ℕ)) : List (Felt × SubchannelCursor) :=
  (noteIndexes.filter fun entry => inFilter tokenFilter entry.1).foldl
    (fun m entry => AddressMap.set m entry.1
      { lastNoteIndex := if 0 < entry.2 then some (entry.2 - 1) else none
        totalNNotes := AddressMap.get totalNoteCounts entry.1 })
    []

/-- The cursor of the SDK as a cursor for an incoming sync request. -/
def notesCursorToApiCursor (cursor : NotesCursor) (tokenFilter : Option (List Felt)) :
    DiscoveryCursor where
  channelDiscoveryComplete := false
  lastChannelIndex := if 0 < cursor.length then some (cursor.length - 1) else none
  channels := cursor.map fun (sender, icc) =>
    let subchannels := buildSubchannelCursors icc.noteIndexes tokenFilter icc.totalNoteCounts
    (sender,
      { channelKey := icc.channelKey
        subchannelDiscoveryComplete :=
          tokenFilter.any fun tokens => tokens.length = subchannels.length
        lastSubchannelIndex :=
          if 0 < icc.subchannelIdIndex then some (icc.subchannelIdIndex - 1) else none
        subchannels })

/-- The cursor of an incoming sync response as a cursor of the SDK. -/
def apiCursorToNotesCursor (apiCursor : DiscoveryCursor) : NotesCursor :=
  apiCursor.channels.map fun (sender, ch) =>
    (sender,
      { channelKey := ch.channelKey
        subchannelIdIndex := nextIndex ch.lastSubchannelIndex
        noteIndexes := ch.subchannels.map fun (token, sc) => (token, nextIndex sc.lastNoteIndex)
        totalNoteCounts := ch.subchannels.filterMap fun (token, sc) =>
          sc.totalNNotes.map fun total => (token, total) })

/-- The channels of the SDK as a cursor for an outgoing sync request. -/
def channelMapToApiCursor (channels : List (Felt × Channel)) (channelDiscoveryComplete : Bool) :
    DiscoveryCursor where
  channelDiscoveryComplete
  channels := channels.filterMap fun (recipient, channel) =>
    (channel.key.filter (· ≠ 0)).map fun key =>
      (recipient,
        { channelKey := key
          subchannels := buildSubchannelCursors
            (channel.tokens.map fun (token, nonces) => (token, nonces.noteNonce)) none [] })

/-- The complete subchannels of a channel are dropped once all are known, and then the
channel, if none is left. A channel without subchannels stays: its `subchannels` are absent
in the response. -/
def pruneChannel (entry : Felt × ChannelCursor) : Option (Felt × ChannelCursor) :=
  if entry.2.subchannelDiscoveryComplete && !entry.2.subchannels.isEmpty then
    let subchannels := entry.2.subchannels.filter fun sub => !sub.2.noteDiscoveryComplete
    if subchannels.isEmpty then none else some (entry.1, { entry.2 with subchannels })
  else some entry

/-- Drop the complete entries of a cursor. -/
def pruneCompleteCursor (cursor : DiscoveryCursor) : DiscoveryCursor :=
  { cursor with channels := cursor.channels.filterMap pruneChannel }

/-! ### Notes -/

/-- A note of the service as a note of the SDK. -/
def convertNote (channelKey : Felt) (n : DecryptedNote) : Note where
  id := .ofFelt n.noteId
  amount := n.amount
  created := some n.blockNumber
  witness := ⟨channelKey, n.index, n.salt⟩
  sender := n.senderAddr
  isOpen := n.salt = 1

/-- `get(token)!.push(...notes)`, where an absent entry starts empty. -/
def push (m : List (Felt × List Note)) (token : Felt) (notes : List Note) :
    List (Felt × List Note) :=
  AddressMap.set m token ((AddressMap.get m token).getD [] ++ notes)

/-- The notes of a response, by token. The channel key is that of the response or of an
earlier page. -/
def convertIncomingNotes (channelKeyMap : List (Felt × Felt)) (existingChannels : NotesCursor)
    (tokenFilter : Option (List Felt)) (apiNotes : List DecryptedNote) :
    Except SdkError (List (Felt × List Note)) :=
  apiNotes.foldlM
    (fun result n =>
      if !inFilter tokenFilter n.token then .ok result
      else
        match (AddressMap.get channelKeyMap n.senderAddr).or
            ((AddressMap.get existingChannels n.senderAddr).map (·.channelKey)) with
        | none => .error (.missingChannelKey n.senderAddr)
        | some channelKey => .ok (push result n.token [convertNote channelKey n]))
    []

/-- The variables of the loop of `discoverNotes`. -/
structure NotesState where
  apiCursor : DiscoveryCursor
  allNotes : List (Felt × List Note) := []
  incomingChannels : NotesCursor := []
  deriving DecidableEq, Repr

/-- One page of `discoverNotes`. -/
def discoverNotesPage (address : ContractAddress) (viewingKey : Felt)
    (tokenFilter : Option (List Felt)) (schedules : ℕ → Schedule) (round : ℕ) (state : NotesState) :
    Except SdkError (NotesState × Bool) := do
  let resp ← (incomingSync sn newFromX backend limits address viewingKey state.apiCursor
    (schedules round)).mapError .api
  -- Keys of channels that this page has found; the others come from the cursor.
  let channelKeyMap := resp.channels.foldl
    (fun m ch => AddressMap.set m ch.senderAddr ch.channelKey) []
  let notesByToken ←
    convertIncomingNotes channelKeyMap state.incomingChannels tokenFilter resp.notes
  let allNotes := notesByToken.foldl (fun m entry => push m entry.1 entry.2) state.allNotes
  let incomingChannels := (apiCursorToNotesCursor resp.cursor).foldl
    (fun m entry => AddressMap.set m entry.1 entry.2) state.incomingChannels
  return ({ apiCursor := resp.cursor, allNotes, incomingChannels },
    isApiCursorComplete resp.cursor)

/-- The loop of `discoverNotes` starts from the cursor of an earlier call, if there is one. -/
def discoverNotesStart (cursor : Option NotesCursor) (tokenFilter : Option (List Felt)) :
    NotesState where
  apiCursor := cursor.elim {} fun cursor => notesCursorToApiCursor cursor tokenFilter

/-- `discoverNotes` returns with these notes and this cursor. -/
def DiscoversNotes (address : ContractAddress) (viewingKey : Felt) (cursor : Option NotesCursor)
    (tokens : Option (List Felt)) (schedules : ℕ → Schedule) (notes : List (Felt × List Note))
    (cursor' : NotesCursor) : Prop :=
  let tokenFilter := tokens.map List.dedup
  ∃ apiCursor, Loop.Ends
    (discoverNotesPage sn newFromX backend limits address viewingKey tokenFilter schedules) 0
    (discoverNotesStart cursor tokenFilter) ⟨apiCursor, notes, cursor'⟩

/-! ### Channels -/

/-- The maps that `discoverChannels` accumulates. -/
structure Accumulated where
  created : List (Felt × Felt × Felt) := []
  subchannels : List (Felt × List (Felt × Option ℕ)) := []
  nonCreated : List (Felt × Felt × Felt) := []
  deriving DecidableEq, Repr

/-- A precomputed channel does not replace a created one, and a created one replaces it. -/
def accumulateChannel (acc : Accumulated) (ch : OutgoingChannel) : Accumulated :=
  let info := (ch.recipientPublicKey, ch.channelKey)
  if ch.precomputed then
    if ch.recipientAddr ∈ HashMap.keys acc.created then acc
    else { acc with nonCreated := AddressMap.set acc.nonCreated ch.recipientAddr info }
  else
    { acc with
      created := AddressMap.set acc.created ch.recipientAddr info
      nonCreated := AddressMap.delete acc.nonCreated ch.recipientAddr }

/-- A report with an index replaces what was there, and one without only starts it. -/
def accumulateSubchannel (acc : Accumulated) (sc : OutgoingSubchannel) : Accumulated :=
  let tokenMap := (AddressMap.get acc.subchannels sc.recipientAddr).getD []
  let tokenMap :=
    if sc.token ∉ HashMap.keys tokenMap ∨ sc.lastNoteIndex.isSome then
      AddressMap.set tokenMap sc.token sc.lastNoteIndex
    else tokenMap
  { acc with subchannels := AddressMap.set acc.subchannels sc.recipientAddr tokenMap }

/-- A page adds its channels, and then its subchannels. -/
def accumulateOutgoingResponse (resp : SyncOutgoingStateResult) (acc : Accumulated) : Accumulated :=
  resp.subchannels.foldl accumulateSubchannel (resp.channels.foldl accumulateChannel acc)

/-- The tokens of a channel, numbered as they were reported. -/
def buildTokens (subs : List (Felt × Option ℕ)) : List (Felt × TokenChannel) :=
  subs.zipIdx.map fun ((token, lastIndex), tokenIndex) =>
    (token, ⟨tokenIndex, lastIndex.elim 0 (· + 1)⟩)

/-- The channels by recipient: the created ones, and those that can be opened. -/
def buildChannelMap (acc : Accumulated) : List (Felt × Channel) :=
  let created := acc.created.map fun (recipient, publicKey, channelKey) =>
    (recipient, { publicKey, key := some channelKey
                  tokens := buildTokens ((AddressMap.get acc.subchannels recipient).getD []) })
  created ++ (acc.nonCreated.filter fun entry => entry.1 ∉ HashMap.keys acc.created).map
    fun (recipient, publicKey, _) => (recipient, ⟨publicKey, none, []⟩)

/-- The variables of the loops of `discoverChannels`. -/
structure ChannelsState where
  apiCursor : DiscoveryCursor
  acc : Accumulated := {}
  deriving DecidableEq, Repr

/-- One page of `discoverChannels`; an incomplete cursor is pruned. What is accumulated is
not used for the total alone. -/
def discoverChannelsPage (address viewingKey : Felt) (recipients : Option (List Felt))
    (schedules : ℕ → Schedule) (round : ℕ) (state : ChannelsState) :
    Except SdkError (ChannelsState × Bool) := do
  let resp ← (outgoingSync sn backend limits address viewingKey state.apiCursor recipients
    (schedules round)).mapError .api
  let complete := isApiCursorComplete resp.cursor
  return (
    { apiCursor := if complete then resp.cursor else pruneCompleteCursor resp.cursor
      acc := accumulateOutgoingResponse resp state.acc },
    complete)

/-- The recipients of which the key is known, when it is known of all. -/
def resolve (cursorMap : List (Felt × Channel)) (recipients : List Felt) :
    Option (List (Felt × Felt × Channel)) :=
  recipients.mapM fun r => (AddressMap.get cursorMap r).bind fun existing =>
    (existing.key.filter (· ≠ 0)).map fun key => (r, key, existing)

/-- The cursor of the first request. With a list of recipients that are all known, channel
discovery is skipped and only the subchannels are refreshed. -/
def discoverChannelsStart (recipients : RecipientsFilter) (cursorMap : List (Felt × Channel)) :
    DiscoveryCursor :=
  match recipients with
  | .all => channelMapToApiCursor cursorMap false
  | .totalOnly => {}
  | .only recipients =>
    -- When the key of every recipient is known, only their subchannels are refreshed.
    match resolve cursorMap recipients with
    | none => {}
    | some resolved =>
      { channelDiscoveryComplete := true
        channels := resolved.foldl
          (fun m (r, key, existing) => AddressMap.set m r
            { channelKey := key
              subchannels := buildSubchannelCursors
                (existing.tokens.map fun (token, nonces) => (token, nonces.noteNonce)) none [] })
          [] }

/-- The recipients of a request: a set, or none for all channels. -/
def requestRecipients : RecipientsFilter → Option (List Felt)
  | .all | .totalOnly => none
  | .only recipients => some recipients.dedup

/-- What `discoverChannels` returns. -/
structure ChannelsResult where
  channels : Option (List (Felt × Channel)) := none
  total : Option ℕ := none
  deriving DecidableEq, Repr

/-- What `discoverChannels` makes of the end of its loop. -/
def discoverChannelsResult (recipients : RecipientsFilter) (state : ChannelsState) :
    Except SdkError ChannelsResult :=
  match recipients with
  | .totalOnly =>
    if state.apiCursor.totalNChannels.isNone then .error .missingTotal
    else .ok { total := state.apiCursor.totalNChannels }
  | .all =>
    .ok { channels := some (buildChannelMap state.acc), total := state.apiCursor.totalNChannels }
  | .only recipients =>
    .ok { channels := some ((buildChannelMap state.acc).filter
            fun entry => recipients.contains entry.1)
          total := state.apiCursor.totalNChannels }

/-- `discoverChannels` returns with this result. -/
def DiscoversChannels (address viewingKey : Felt) (recipients : RecipientsFilter)
    (cursorMap : List (Felt × Channel)) (schedules : ℕ → Schedule) (result : ChannelsResult) : Prop :=
  ∃ state, Loop.Ends (discoverChannelsPage sn backend limits address viewingKey
      (requestRecipients recipients) schedules) 0 ⟨discoverChannelsStart recipients cursorMap, {}⟩
    state ∧ discoverChannelsResult recipients state = .ok result

end PrivacyPool.Sdk
