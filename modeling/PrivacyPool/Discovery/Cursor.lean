import PrivacyPool.Base.HashMap
import PrivacyPool.Base.Task
import PrivacyPool.Contract.Storage
import PrivacyPool.Discovery.Decryption

/-!
# Cursors of the discovery service

A client holds a cursor between two requests. It says how far the channels, the
subchannels of each channel and the notes of each subchannel have been scanned,
and which of these scans are over. Every scan draws its reads from a budget that
all scans of a request share.

## Main definitions

* `DiscoveryCursor`, `ChannelCursor`, `SubchannelCursor` — progress at three levels
* `CursorLimits` — how large a cursor may grow
* `Backend` — the storage that a request reads
* the costs of the reads, and `minServerBudget`
-/

namespace PrivacyPool.Discovery

/-! ### Errors and costs -/

/-- Errors that can occur during discovery. -/
inductive DiscoveryError
  | decryption (index : ℕ) (source : DecryptionError)
  | invalidCursor (message : String)
  | insufficientBudget (needed available : ℕ)
  | eventError (message : String)
  deriving DecidableEq, Repr

/-- A step of the service, which draws on the budget of its request. -/
abbrev Task := Budget.Task DiscoveryError

/-- Cost for `get_num_of_channels`. -/
def costNumChannels : ℕ := 1

/-- Cost for `get_channel_info`. -/
def costChannelInfo : ℕ := 3

/-- Cost for `get_subchannel_info`. -/
def costSubchannelInfo : ℕ := 2

/-- Cost for `get_note_with_block` and `nullifier_exists`. -/
def costNote : ℕ := 2

/-- Cost for outgoing channel info, with the public key of the recipient. -/
def costOutgoingChannelInfo : ℕ := 3

/-- Cost for a note existence probe. -/
def costNoteProbing : ℕ := 1

/-- Cost for a single `get_public_key`. -/
def costPublicKey : ℕ := 1

/-- Maximum budget for a single boundary search. -/
def boundaryBudget (maxNoteLogIndex : ℕ) : ℕ := (2 * maxNoteLogIndex + 1) * costNoteProbing

/-- Minimum server budget to make progress through one step at each level. -/
def minServerBudget (maxNoteLogIndex : ℕ) : ℕ :=
  costNumChannels + costChannelInfo + 2 * costSubchannelInfo + boundaryBudget maxNoteLogIndex +
    10 * costNote

/-! ### Cursors -/

/-- Capacity limits for cursor growth. -/
structure CursorLimits where
  maxChannels : ℕ
  maxSubchannels : ℕ
  maxNoteLogIndex : ℕ
  deriving DecidableEq, Repr

instance : Inhabited CursorLimits := ⟨256, 64, 30⟩

/-- Cursor state for a single subchannel. -/
structure SubchannelCursor where
  noteDiscoveryComplete : Bool := false
  lastNoteIndex : Option ℕ := none
  totalNNotes : Option ℕ := none
  deriving DecidableEq, Repr, Inhabited

/-- Cursor state for a single channel. -/
structure ChannelCursor where
  channelKey : Felt
  subchannelDiscoveryComplete : Bool := false
  lastSubchannelIndex : Option ℕ := none
  /-- Keyed by token. -/
  subchannels : List (Felt × SubchannelCursor) := []
  deriving DecidableEq, Repr

/-- Cursor for channel discovery. -/
structure DiscoveryCursor where
  channelDiscoveryComplete : Bool := false
  totalNChannels : Option ℕ := none
  lastChannelIndex : Option ℕ := none
  /-- Keyed by sender for incoming and by recipient for outgoing channels. -/
  channels : List (Felt × ChannelCursor) := []
  deriving DecidableEq, Repr, Inhabited

/-- The index after the last one that was processed. -/
def nextIndex (last : Option ℕ) : ℕ := last.elim 0 (· + 1)

/-- `last.map_or(0, |i| i + 1)` on `u64`: after the greatest index a release build starts anew.
The loops of the scans count on from there without reaching that index again, since a pool
holds no records so far out. -/
def wrappingNext (last : Option ℕ) : ℕ := if nextIndex last < 2 ^ 64 then nextIndex last else 0

theorem wrappingNext_of_lt {last : Option ℕ} (h : nextIndex last < 2 ^ 64) :
    wrappingNext last = nextIndex last := if_pos h

theorem wrappingNext_of_le {last : Option ℕ} (h : 2 ^ 64 ≤ nextIndex last) :
    wrappingNext last = 0 := if_neg (not_lt.mpr h)

namespace SubchannelCursor

/-- The next note index to scan from. Validation keeps it within 64 bits. -/
def startIndex (cursor : SubchannelCursor) : ℕ := nextIndex cursor.lastNoteIndex

/-- The last existing note index, derived from the cached total. -/
def lastExistingIndex (cursor : SubchannelCursor) : Option ℕ :=
  cursor.totalNNotes.bind fun n => if 1 ≤ n then some (n - 1) else none

@[simp] theorem lastExistingIndex_zero (complete : Bool) (last : Option ℕ) :
    lastExistingIndex ⟨complete, last, some 0⟩ = none := rfl

@[simp] theorem lastExistingIndex_succ (complete : Bool) (last : Option ℕ) (n : ℕ) :
    lastExistingIndex ⟨complete, last, some (n + 1)⟩ = some n := by
  simp [lastExistingIndex]

end SubchannelCursor

/-- All subchannels are known, and all of their notes. -/
def ChannelCursor.isComplete (cursor : ChannelCursor) : Bool :=
  cursor.subchannelDiscoveryComplete &&
    cursor.subchannels.all fun entry => entry.2.noteDiscoveryComplete

namespace DiscoveryCursor

/-- No channel of the cursor has work left. -/
def allChannelsProcessed (cursor : DiscoveryCursor) : Bool :=
  cursor.channels.all fun entry => entry.2.isComplete

/-- There is nothing left to discover. -/
def isComplete (cursor : DiscoveryCursor) : Bool :=
  cursor.channelDiscoveryComplete && cursor.allChannelsProcessed

end DiscoveryCursor

/-! ### Views -/

/-- The storage at one block, with the block in which each word was last written. -/
structure Backend where
  pool : Pool
  lastUpdateBlock : ℕ → ℕ

/-- A storage value, with the block of its last update. -/
structure StorageResult where
  value : Felt
  lastUpdateBlock : ℕ
  deriving DecidableEq, Repr

namespace Backend

variable (sn : Starknet) (backend : Backend)

/-- The number of channels toward a recipient. -/
def getNumOfChannels (recipientAddr : ContractAddress) : ℕ :=
  (backend.pool.recipientChannels recipientAddr).length

/-- Beyond the end of the vector the storage is zero. -/
def getChannelInfo (recipientAddr : ContractAddress) (index : ℕ) : EncChannelInfo :=
  (backend.pool.recipientChannels recipientAddr).getD index ⟨0, 0, 0⟩

/-- Some of the channels toward a recipient, from an index on. -/
def getChannelInfoBatch (recipientAddr : ContractAddress) (startIndex count : ℕ) :
    List EncChannelInfo :=
  (List.range count).map fun offset => backend.getChannelInfo recipientAddr (startIndex + offset)

/-- The two words of a subchannel. -/
def getSubchannelInfo (subchannelId : Felt) : EncSubchannelInfo :=
  ⟨backend.pool.read sn .subchannelTokens subchannelId 0,
    backend.pool.read sn .subchannelTokens subchannelId 1⟩

/-- The two words of an outgoing channel. -/
def getOutgoingChannelInfo (outgoingChannelId : Felt) : EncOutgoingChannelInfo :=
  ⟨backend.pool.read sn .outgoingChannels outgoingChannelId 0,
    backend.pool.read sn .outgoingChannels outgoingChannelId 1⟩

/-- The packed value of a note, with the block of its last update. -/
def getNoteWithBlock (noteId : Felt) : StorageResult :=
  ⟨backend.pool.read sn .notes noteId 0, backend.lastUpdateBlock (sn.entry .notes noteId).val⟩

/-- Whether a nullifier is written. -/
def nullifierExists (nullifier : Felt) : Bool :=
  backend.pool.read sn .nullifiers nullifier 0 ≠ 0

/-- The public key of a user, or zero. -/
def getPublicKey (userAddr : Felt) : Felt := backend.pool.read sn .publicKey userAddr 0

end Backend

end PrivacyPool.Discovery
