import PrivacyPool.Contract.Storage

/-!
# Compiling client actions

The client half of `privacy.cairo`. `main` goes through the user's actions in
order: each is checked against the current storage, turned into server actions,
and these are applied to the simulated storage before the next client action is
looked at. Token balances are tracked over the whole list and must end at zero.
-/

namespace PrivacyPool

open Fallible

/-! ### Running token balances -/

/-- A `Felt252Dict<u128>`: the entries written so far, one for each key. -/
structure TokenBalances where
  entries : List (Felt × U128)
  deriving DecidableEq, Repr

namespace TokenBalances

/-- The value of a key, zero when it was never written. -/
def entry (balances : TokenBalances) (key : Felt) : U128 := (balances.entries.lookup key).getD 0

/-- The dictionary with a new value for a key. -/
def finalize (balances : TokenBalances) (key : Felt) (newValue : U128) : TokenBalances :=
  ⟨(key, newValue) :: balances.entries.filter fun e => e.1 ≠ key⟩

/-- Add to the balance of a token. The sum is checked. -/
def addBalance (balances : TokenBalances) (token : ContractAddress) (amount : U128) :
    Except Error TokenBalances := do
  let key := ContractAddress.toFelt token
  let newValue ← checkedAdd (balances.entry key) amount
  return balances.finalize key newValue

/-- Take from the balance of a token, which does not become negative in between. -/
def subtractBalance (balances : TokenBalances) (token : ContractAddress) (amount : U128) :
    Except Error TokenBalances := do
  let key := ContractAddress.toFelt token
  let newValue ← expect (checkedSub (balances.entry key) amount) .negativeIntermediateBalance
  return balances.finalize key newValue

/-- `squash().assert_valid()`: every entry is back at zero. -/
def assertValid (balances : TokenBalances) : Except Error Unit :=
  forM balances.entries fun e => require (e.2 = 0) .finalBalanceMustBeZero

theorem assertValid_eq_ok {balances : TokenBalances} :
    balances.assertValid = .ok () ↔ ∀ e ∈ balances.entries, e.2 = 0 := by
  rw [assertValid, forM_eq_ok]
  simp only [require_eq_ok]

end TokenBalances

/-! ### Client actions -/

/-- `PRIVACY_COMPUTE_SELECTOR`, the selector of `privacy_compute`. -/
def privacyComputeSelector : Felt :=
  0x3c4448a75b7a87893c55b626c211bff463d0673333047c3f3fd2996cc54db46

/-- `call_contract_syscall` as the client meets it: an address, a selector and
calldata give return data, or the panic data of the callee. -/
abbrev CallContract := ContractAddress → Felt → List Felt → Except (List Felt) (Span Felt)

section Client

variable (sn : Starknet) (pool : Pool)

/-- Register a user: its public key, and its private key for the auditor. -/
def setViewingKey (userAddr : ContractAddress) (userPrivateKey : Felt)
    (input : SetViewingKeyInput) : Except Error (List ServerAction) := do
  input.assertValid
  let userPublicKey ← sn.derivePublicKey userPrivateKey
  let encPrivateKey ← sn.encryptPrivateKey input.random pool.auditorPublicKey userPrivateKey
  let key := ContractAddress.toFelt userAddr
  return [
    toWriteOnceAction (storagePathToFelt252 sn .publicKey key) userPublicKey,
    toWriteOnceAction (storagePathToFelt252 sn .encPrivateKey key) encPrivateKey,
    .emitViewingKeySet ⟨userAddr, userPublicKey, encPrivateKey⟩]

/-- Open a channel from a registered sender to a registered recipient. -/
def openChannel (senderAddr : ContractAddress) (senderPrivateKey : Felt)
    (input : OpenChannelInput) : Except Error (List ServerAction) := do
  input.assertValid
  -- The sender is registered with the given private key.
  let senderPublicKey := pool.read sn .publicKey (ContractAddress.toFelt senderAddr) 0
  require (senderPublicKey ≠ 0) .senderNotRegistered
  let derived ← sn.derivePublicKey senderPrivateKey
  require (senderPublicKey = derived) .senderNotAuthenticated
  let recipientPublicKey := pool.read sn .publicKey (ContractAddress.toFelt input.recipientAddr) 0
  require (recipientPublicKey ≠ 0) .recipientNotRegistered
  -- The previous outgoing channel exists.
  require (input.index = 0 ∨ pool.read sn .outgoingChannels
    (sn.computeOutgoingChannelId senderAddr senderPrivateKey (input.index - 1)) 0 ≠ 0)
    .indexNotSequential
  let channelKey :=
    sn.computeChannelKey senderAddr senderPrivateKey input.recipientAddr recipientPublicKey
  let encChannelInfo ←
    sn.encryptChannelInfo input.random recipientPublicKey channelKey senderAddr
  let channelMarker :=
    sn.computeChannelMarker channelKey senderAddr input.recipientAddr recipientPublicKey
  let outgoingChannelId := sn.computeOutgoingChannelId senderAddr senderPrivateKey input.index
  let encOutgoingChannelInfo := sn.encryptOutgoingChannelInfo senderAddr senderPrivateKey
    input.index input.recipientAddr input.salt
  return [
    .append ⟨input.recipientAddr, encChannelInfo⟩,
    toWriteOnceAction (storagePathToFelt252 sn .channelExists channelMarker) true,
    toWriteOnceAction (storagePathToFelt252 sn .outgoingChannels outgoingChannelId)
      encOutgoingChannelInfo]

/-- Open the subchannel of a token in a channel. -/
def openSubchannel (senderAddr : ContractAddress) (input : OpenSubchannelInput) :
    Except Error (List ServerAction) := do
  input.assertValid
  -- The channel key is valid for the given sender and recipient.
  let channelMarker := sn.computeChannelMarker input.channelKey senderAddr input.recipientAddr
    input.recipientPublicKey
  require (pool.read sn .channelExists channelMarker 0 ≠ 0) .invalidChannel
  -- The previous subchannel exists.
  require (input.index = 0 ∨ pool.read sn .subchannelTokens
    (sn.computeSubchannelId input.channelKey (input.index - 1)) 0 ≠ 0) .indexNotSequential
  let subchannelId := sn.computeSubchannelId input.channelKey input.index
  let encSubchannelInfo :=
    sn.encryptSubchannelInfo input.channelKey input.index input.token input.salt
  let subchannelMarker := sn.computeSubchannelMarker input.channelKey input.recipientAddr
    input.recipientPublicKey input.token
  return [
    toWriteOnceAction (storagePathToFelt252 sn .subchannelTokens subchannelId) encSubchannelInfo,
    toWriteOnceAction (storagePathToFelt252 sn .subchannelExists subchannelMarker) true]

/-- Take tokens from the user into its balance. -/
def deposit (userAddr : ContractAddress) (input : DepositInput) (balances : TokenBalances) :
    Except Error (List ServerAction × TokenBalances) := do
  input.assertValid
  let balances ← balances.addBalance input.token input.amount
  return ([
    .transferFrom ⟨userAddr, input.token, input.amount⟩,
    .emitDeposit ⟨userAddr, input.token, input.amount⟩], balances)

/-- Pay tokens out of the balance of the user. -/
def withdraw (userAddr : ContractAddress) (input : WithdrawInput) (balances : TokenBalances) :
    Except Error (List ServerAction × TokenBalances) := do
  input.assertValid
  let balances ← balances.subtractBalance input.token input.amount
  let encUserAddr ← sn.encryptUserAddr input.random pool.auditorPublicKey userAddr
  return ([
    .transferTo ⟨input.toAddr, input.token, input.amount⟩,
    .emitWithdrawal ⟨encUserAddr, input.toAddr, input.token, input.amount⟩], balances)

/-- Have a contract invoked. -/
def invokeExternal (input : InvokeExternalInput) : Except Error (List ServerAction) := do
  input.assertValid
  return [.invoke ⟨input.contractAddress, input.calldata⟩]

/-- Call a contract for the identity key of the user, and have it invoked with what it computes. -/
def computeAndInvoke (call : CallContract) (userAddr : ContractAddress) (userPrivateKey : Felt)
    (input : ComputeAndInvokeInput) : Except Error (List ServerAction) := do
  input.assertValid
  let identityKey := sn.computeIdentityKey userAddr userPrivateKey input.contractAddress
  -- The other contract is called with the identity key in front; its panic is passed on.
  let computeResult ← (call input.contractAddress privacyComputeSelector
    (identityKey :: input.computeAdditionalData.1)).mapError .propagatedPanic
  require (computeResult.1 ≠ []) .emptyComputeResult
  let invokeCalldata ← appendSpan computeResult input.invokeAdditionalData
  return [.invokeWithComputation ⟨input.contractAddress, invokeCalldata⟩]

/-- Spend a note: its amount goes to the balance, and its nullifier is written. -/
def useNote (ownerAddr : ContractAddress) (ownerPrivateKey : Felt) (input : UseNoteInput)
    (balances : TokenBalances) : Except Error (List ServerAction × TokenBalances) := do
  input.assertValid
  -- The owner owns the note's subchannel.
  let ownerPublicKey ← sn.derivePublicKey ownerPrivateKey
  let subchannelMarker :=
    sn.computeSubchannelMarker input.channelKey ownerAddr ownerPublicKey input.token
  require (pool.read sn .subchannelExists subchannelMarker 0 ≠ 0) .subchannelNotFound
  let noteId := sn.computeNoteId input.channelKey input.token input.index
  let packedValue := pool.read sn .notes noteId 0
  require (packedValue ≠ 0) .noteNotFound
  let amount ← sn.decodeNoteAmount packedValue input.channelKey input.token input.index
  require (amount ≠ 0) .zeroNoteAmountUsage
  let nullifier := sn.computeNullifier input.channelKey input.token input.index ownerPrivateKey
  let balances ← balances.addBalance input.token amount
  return ([
    toWriteOnceAction (storagePathToFelt252 sn .nullifiers nullifier) true,
    .emitNoteUsed ⟨nullifier⟩], balances)

/-- The checks and values shared by the creation of encrypted and open notes:
the channel key, the storage address and the id of the note. -/
def prepareNoteCreation (senderAddr : ContractAddress) (senderPrivateKey : Felt)
    (recipientAddr : ContractAddress) (recipientPublicKey : Felt) (token : ContractAddress)
    (index : Usize) : Except Error (Felt × Felt × Felt) := do
  let channelKey :=
    sn.computeChannelKey senderAddr senderPrivateKey recipientAddr recipientPublicKey
  let subchannelMarker :=
    sn.computeSubchannelMarker channelKey recipientAddr recipientPublicKey token
  require (pool.read sn .subchannelExists subchannelMarker 0 ≠ 0) .subchannelNotFound
  -- The previous note exists.
  require (index = 0 ∨ pool.read sn .notes (sn.computeNoteId channelKey token (index - 1)) 0 ≠ 0)
    .indexNotSequential
  let noteId := sn.computeNoteId channelKey token index
  return (channelKey, storagePathToFelt252 sn .notes noteId, noteId)

/-- Create a note with an encrypted amount, out of the balance. -/
def createEncNote (senderAddr : ContractAddress) (senderPrivateKey : Felt)
    (input : CreateEncNoteInput) (balances : TokenBalances) :
    Except Error (List ServerAction × TokenBalances) := do
  input.assertValid
  let (channelKey, storageAddress, noteId) ← prepareNoteCreation sn pool senderAddr
    senderPrivateKey input.recipientAddr input.recipientPublicKey input.token input.index
  let packedValue ←
    sn.encNotePackedValue channelKey input.token input.index input.salt input.amount
  require (packedValue ≠ 0) .zeroNoteValue
  let balances ← balances.subtractBalance input.token input.amount
  return ([
    toWriteOnceAction storageAddress packedValue,
    .emitEncNoteCreated ⟨noteId, packedValue⟩], balances)

/-- Create a note that a contract will fill. -/
def createOpenNote (senderAddr : ContractAddress) (senderPrivateKey : Felt)
    (input : CreateOpenNoteInput) : Except Error (List ServerAction) := do
  input.assertValid
  let (_, storageAddress, noteId) ← prepareNoteCreation sn pool senderAddr
    senderPrivateKey input.recipientAddr input.recipientPublicKey input.token input.index
  let note := openNote input.token
  require (note.packedValue ≠ 0) .zeroNoteValue
  let encRecipientAddr ←
    sn.encryptUserAddr input.random pool.auditorPublicKey input.recipientAddr
  return [
    toWriteOnceAction storageAddress note,
    .emitOpenNoteCreated ⟨encRecipientAddr, input.token, noteId⟩]

/-- The server actions of one client action, with the balances after it. -/
def compileAction (call : CallContract) (userAddr : ContractAddress) (userPrivateKey : Felt)
    (balances : TokenBalances) :
    ClientAction → Except Error (List ServerAction × TokenBalances)
  | .setViewingKey input => do
    let actions ← setViewingKey sn pool userAddr userPrivateKey input
    return (actions, balances)
  | .openChannel input => do
    let actions ← openChannel sn pool userAddr userPrivateKey input
    return (actions, balances)
  | .openSubchannel input => do
    let actions ← openSubchannel sn pool userAddr input
    return (actions, balances)
  | .deposit input => deposit userAddr input balances
  | .createEncNote input => createEncNote sn pool userAddr userPrivateKey input balances
  | .createOpenNote input => do
    let actions ← createOpenNote sn pool userAddr userPrivateKey input
    return (actions, balances)
  | .useNote input => useNote sn pool userAddr userPrivateKey input balances
  | .withdraw input => withdraw sn pool userAddr input balances
  | .invokeExternal input => do
    let actions ← invokeExternal input
    return (actions, balances)
  | .computeAndInvoke input => do
    let actions ← computeAndInvoke sn call userAddr userPrivateKey input
    return (actions, balances)

end Client

/-! ### The compile loop -/

/-- One step of `_client_apply_actions`: only storage is simulated. -/
def clientApplyAction (state : Pool × Bool) : ServerAction → Except Error (Pool × Bool)
  | .writeOnce input => do
    let pool ← state.1.applyWriteOnce input
    return (pool, true)
  | .append input => return (state.1.applyAppend input, state.2)
  | .transferFrom _ | .transferTo _ | .invoke _ | .invokeWithComputation _
  | .emitViewingKeySet _ | .emitWithdrawal _ | .emitDeposit _ | .emitOpenNoteCreated _
  | .emitEncNoteCreated _ | .emitNoteUsed _ => return state

/-- Apply server actions to the simulated storage, one after the other. -/
def clientApplyActions (pool : Pool) (hasReplayProtection : Bool) (actions : List ServerAction) :
    Except Error (Pool × Bool) :=
  actions.foldlM clientApplyAction (pool, hasReplayProtection)

/-- The variables of the loop of `main`. -/
structure CompileState where
  pool : Pool
  serverActions : List ServerAction
  currPhase : ℕ
  tokenBalances : TokenBalances
  hasReplayProtection : Bool

/-- One step of the loop over the client actions: the phase, the server actions and their
effects. -/
def compileStep (sn : Starknet) (call : CallContract) (userAddr : ContractAddress)
    (userPrivateKey : Felt) (state : CompileState) (action : ClientAction) :
    Except Error CompileState := do
  let currPhase ← action.assertAndAdvancePhase state.currPhase
  let (actions, tokenBalances) ←
    compileAction sn state.pool call userAddr userPrivateKey state.tokenBalances action
  -- The writes are simulated at once, so that the next action sees them.
  let (pool, hasReplayProtection) ←
    clientApplyActions state.pool state.hasReplayProtection actions
  return { pool, serverActions := state.serverActions ++ actions, currPhase, tokenBalances,
           hasReplayProtection }

/-- The state in which the loop of `main` starts. -/
def CompileState.start (pool : Pool) : CompileState :=
  { pool, serverActions := [], currPhase := accountPhase, tokenBalances := ⟨[]⟩,
    hasReplayProtection := false }

/-- Compile a list of client actions: the server actions, and the storage the
simulation leaves. -/
def main (sn : Starknet) (call : CallContract) (pool : Pool) (userAddr : ContractAddress)
    (userPrivateKey : Felt) (clientActions : List ClientAction) :
    Except Error (List ServerAction × Pool) := do
  require (userAddr ≠ 0) .zeroUserAddr
  require (userPrivateKey ≠ 0) .zeroPrivateKey
  require (isCanonicalKey userPrivateKey) .privateKeyNotCanonical
  let state ← clientActions.foldlM (compileStep sn call userAddr userPrivateKey)
    (CompileState.start pool)
  require (state.hasReplayProtection = true) .noReplayProtection
  state.tokenBalances.assertValid
  return (state.serverActions, state.pool)

end PrivacyPool
