import PrivacyPool.Sdk.IndexerDiscovery

/-!
# The pool simulator

`pool-simulator.ts`: the compiler executes its actions on a state of its own, which has the
channels from the user and the notes of the user, and neither encryption nor balances.

## Main definitions

* `ClientAction` — the actions that the compiler emits
* `PoolSimulator.execute` — what an action changes
-/

namespace PrivacyPool.Sdk

open Discovery

/-! ### Client actions -/

/-- The input of `SetViewingKey`. -/
structure SetViewingKeyInput where
  random : Felt
  deriving DecidableEq, Repr

/-- The input of `OpenChannel`. -/
structure OpenChannelInput where
  recipientAddr : Felt
  index : ℕ
  random : Felt
  salt : Felt
  deriving DecidableEq, Repr

/-- The input of `OpenSubchannel`. -/
structure OpenSubchannelInput where
  recipientAddr : Felt
  recipientPublicKey : Felt
  /-- `channel.key as bigint`, which can be undefined. -/
  channelKey : Option Felt
  index : ℕ
  token : Felt
  salt : Felt
  deriving DecidableEq, Repr

/-- The input of `CreateEncNote`. -/
structure CreateEncNoteInput where
  recipientAddr : Felt
  recipientPublicKey : Felt
  token : Felt
  amount : ℤ
  index : ℕ
  salt : ℕ
  deriving DecidableEq, Repr

/-- The input of `CreateOpenNote`. -/
structure CreateOpenNoteInput where
  recipientAddr : Felt
  recipientPublicKey : Felt
  token : Felt
  index : ℕ
  random : Felt
  deriving DecidableEq, Repr

/-- The input of `Deposit`. -/
structure DepositInput where
  token : Felt
  amount : ℤ
  deriving DecidableEq, Repr

/-- The input of `UseNote`. -/
structure UseNoteInput where
  channelKey : Felt
  token : Felt
  index : ℕ
  deriving DecidableEq, Repr

/-- The input of `Withdraw`. -/
structure WithdrawInput where
  toAddr : Felt
  token : Felt
  amount : ℤ
  random : Felt
  deriving DecidableEq, Repr

/-- The input of `InvokeExternal`. -/
structure InvokeExternalInput where
  contractAddress : Felt
  calldata : List Felt
  deriving DecidableEq, Repr

/-- The input of `ComputeAndInvoke`. -/
structure ComputeAndInvokeInput where
  contractAddress : Felt
  computeAdditionalData : List Felt
  invokeAdditionalData : List Felt
  deriving DecidableEq, Repr

/-- The actions that the SDK compiles to. -/
inductive ClientAction
  | setViewingKey (input : SetViewingKeyInput)
  | openChannel (input : OpenChannelInput)
  | openSubchannel (input : OpenSubchannelInput)
  | createEncNote (input : CreateEncNoteInput)
  | createOpenNote (input : CreateOpenNoteInput)
  | deposit (input : DepositInput)
  | useNote (input : UseNoteInput)
  | withdraw (input : WithdrawInput)
  | invokeExternal (input : InvokeExternalInput)
  | computeAndInvoke (input : ComputeAndInvokeInput)
  deriving DecidableEq, Repr

/-! ### Errors -/

/-- Why a compile fails. -/
inductive CompileError
  /-- `ReorgError` -/
  | reorg
  /-- Any other error of the discovery provider. -/
  | discovery (source : SdkError)
  /-- "Channel already exists for …" -/
  | channelExists (addr : Felt)
  /-- "Channel not found for recipient … — setupChannel must be called first" -/
  | setupChannelFirst (recipient : Felt)
  /-- "Missing channel context for recipient …" -/
  | missingChannelContext (recipient : Felt)
  /-- "Channel not found for recipient …" -/
  | channelNotFound (recipient : Felt)
  /-- "Missing channel key for open note recipient" -/
  | missingOpenNoteKey
  /-- "At most one invoke-phase action (.invoke() / .computeAndInvoke()) per transaction;
  already set." -/
  | multipleInvokes
  /-- "Deposit amount must be positive" -/
  | depositNotPositive
  /-- "Note …: amount must be positive" -/
  | noteNotPositive (id : NoteId)
  /-- "Withdraw amount must be positive" -/
  | withdrawNotPositive
  /-- "Created note amount must be positive (token: …)" -/
  | createdNoteNotPositive (token : Felt)
  /-- "Insufficient balance for token …: need … more (total available: …)" -/
  | insufficientBalance (token : Felt) (need totalAvailable : ℤ)
  /-- "Surplus of … found for token … but no surplus action found" -/
  | surplusWithoutAction (balance : ℤ) (token : Felt)
  /-- The `SyntaxError` of `BigInt` on a text that it cannot read. -/
  | invalidId (id : NoteId)
  /-- The error of the curve library on a viewing key out of range. -/
  | invalidViewingKey
  /-- The `TypeError` of a field of `undefined`. -/
  | undefinedChannel
  deriving DecidableEq, Repr

/-! ### Channels -/

/-- `channel.key`, where zero counts as no key. -/
def Channel.openKey (channel : Channel) : Option Felt := channel.key.filter (· ≠ 0)

/-- The entry of a token, which a read creates. -/
def Channel.tokenChannel (channel : Channel) (token : Felt) : TokenChannel :=
  (AddressMap.get channel.tokens token).getD ⟨0, 0⟩

/-- One more note of a token. -/
def Channel.incrementNoteNonce (channel : Channel) (token : Felt) : Channel :=
  let current := channel.tokenChannel token
  { channel with
    tokens := AddressMap.set channel.tokens token
      { current with noteNonce := current.noteNonce + 1 } }

/-! ### The simulator -/

/-- What a compile knows of the pool: its channels and the notes that it uses. -/
structure PoolSimulator where
  userAddress : Felt
  userViewingKey : Felt
  nextChannelIndex : ℕ
  channels : List (Felt × Channel) := []
  /-- Per token, the notes by their numeric ids. -/
  notes : List (Felt × List (ℤ × Note)) := []

namespace PoolSimulator

/-- The channel toward a recipient. -/
def getChannel (pool : PoolSimulator) (recipient : Felt) : Option Channel :=
  AddressMap.get pool.channels recipient

/-- The channel toward a recipient is set. -/
def setChannel (pool : PoolSimulator) (recipient : Felt) (channel : Channel) : PoolSimulator :=
  { pool with channels := AddressMap.set pool.channels recipient channel }

/-- The notes of a token, which start empty. -/
def notesOf (pool : PoolSimulator) (token : Felt) : List (ℤ × Note) :=
  (AddressMap.get pool.notes token).getD []

/-- The notes of a token are set. -/
def setNotes (pool : PoolSimulator) (token : Felt) (notes : List (ℤ × Note)) : PoolSimulator :=
  { pool with notes := AddressMap.set pool.notes token notes }

/-- The tokens of a channel are copied when it has a key. -/
def setupChannel (pool : PoolSimulator) (recipient : Felt) (channel : Channel) : PoolSimulator :=
  pool.setChannel recipient
    { channel with tokens := if channel.openKey.isSome then channel.tokens else [] }

/-- A note is known by its id. -/
def setupNote (pool : PoolSimulator) (token : Felt) (note : Note) :
    Except CompileError PoolSimulator := do
  let id ← Fallible.expect note.id.toBigInt (.invalidId note.id)
  return pool.setNotes token (AddressMap.set (pool.notesOf token) id note)

variable (sn : Starknet)

/-- The user gets a channel to itself, without a key. -/
def handleSetViewingKey (pool : PoolSimulator) : Except CompileError PoolSimulator := do
  let publicKey ←
    (sn.derivePublicKey pool.userViewingKey).mapError fun _ => CompileError.invalidViewingKey
  Fallible.require ((pool.getChannel pool.userAddress).isNone) (.channelExists pool.userAddress)
  return pool.setChannel pool.userAddress { publicKey }

/-- The channel gets its key, and one more index is taken. -/
def handleOpenChannel (pool : PoolSimulator) (input : OpenChannelInput) :
    Except CompileError PoolSimulator := do
  let existingChannel ← Fallible.expect (pool.getChannel input.recipientAddr)
    (.setupChannelFirst input.recipientAddr)
  let channelKey := computeChannelKey sn pool.userAddress pool.userViewingKey input.recipientAddr
    existingChannel.publicKey
  return { pool.setChannel input.recipientAddr { existingChannel with key := some channelKey } with
           nextChannelIndex := pool.nextChannelIndex + 1 }

/-- The token gets its place in the channel, with no notes. -/
def handleOpenSubchannel (pool : PoolSimulator) (input : OpenSubchannelInput) :
    Except CompileError PoolSimulator := do
  let channel ← Fallible.expect (pool.getChannel input.recipientAddr) .undefinedChannel
  return pool.setChannel input.recipientAddr
    { channel with tokens := AddressMap.set channel.tokens input.token ⟨input.index, 0⟩ }

/-- The note with the computed id is no longer tracked. -/
def handleUseNote (pool : PoolSimulator) (input : UseNoteInput) : PoolSimulator :=
  let noteId := computeNoteId sn input.channelKey input.token input.index
  pool.setNotes input.token (AddressMap.delete (pool.notesOf input.token) noteId.val)

/-- A note that the user creates for itself is tracked, by a number as its id. -/
def handleCreateEncNote (pool : PoolSimulator) (input : CreateEncNoteInput) :
    Except CompileError PoolSimulator := do
  let senderChannel ← Fallible.expect (pool.getChannel input.recipientAddr) .undefinedChannel
  let pool := pool.setChannel input.recipientAddr (senderChannel.incrementNoteNonce input.token)
  if input.recipientAddr = pool.userAddress ∧ pool.userViewingKey ≠ 0 then
    let channelKey := computeChannelKey sn pool.userAddress pool.userViewingKey
      input.recipientAddr input.recipientPublicKey
    let noteId := computeNoteId sn channelKey input.token input.index
    return pool.setNotes input.token (AddressMap.set (pool.notesOf input.token) noteId.val
      { id := .bigint noteId.val
        amount := input.amount
        witness := ⟨channelKey, input.index, input.salt⟩
        sender := pool.userAddress })
  else return pool

/-- An open note takes an index and is not stored. -/
def handleCreateOpenNote (pool : PoolSimulator) (input : CreateOpenNoteInput) :
    Except CompileError PoolSimulator := do
  let senderChannel ← Fallible.expect (pool.getChannel input.recipientAddr) .undefinedChannel
  return pool.setChannel input.recipientAddr (senderChannel.incrementNoteNonce input.token)

/-- Execute a client action: no encryption, no hashing, no balance checks. -/
def execute (pool : PoolSimulator) : ClientAction → Except CompileError PoolSimulator
  | .setViewingKey _ => pool.handleSetViewingKey sn
  | .openChannel input => pool.handleOpenChannel sn input
  | .openSubchannel input => pool.handleOpenSubchannel input
  | .useNote input => .ok (pool.handleUseNote sn input)
  | .createEncNote input => pool.handleCreateEncNote sn input
  | .createOpenNote input => pool.handleCreateOpenNote input
  | .deposit _ | .withdraw _ | .invokeExternal _ | .computeAndInvoke _ => .ok pool

end PoolSimulator

end PrivacyPool.Sdk
