import PrivacyPool.Contract.Client
import PrivacyPool.Contract.Message

/-!
# Applying server actions

The server half of `privacy.cairo`. `applyActions` is the entry point: it checks
the proof that a client execution produced exactly these actions, collects the
fee, applies the actions in order and verifies the screening attestation that
they call for.

The external contract of an `Invoke` is a parameter: it may move tokens and
returns data of its choice. The pool's own state cannot be touched by it, since
every entry point that writes user data is guarded against reentrancy.
-/

namespace PrivacyPool

open Fallible

/-! ### Constants -/

/-- `INVOKE_SELECTOR`, the selector of `privacy_invoke`. -/
def invokeSelector : Felt :=
  0x402925cce9218828b3ac9a72ac249103f8448a1e1d73c3efaf5da992625043

/-- `INVOKE_WITH_COMPUTATION_SELECTOR`, the selector of
`privacy_invoke_with_computation`. -/
def invokeWithComputationSelector : Felt :=
  0xd7dcfbab5157247251535943d20090fb50187f80535f739fbacc8febab767

/-- `'VIRTUAL_SNOS'` -/
def virtualSnos : Felt := 0x5649525455414c5f534e4f53

/-- `'VIRTUAL_SNOS0'` -/
def virtualSnos0 : Felt := 0x5649525455414c5f534e4f5330

/-- The token of the fee. -/
def strkTokenAddress : ContractAddress :=
  0x04718f5a0fc34cc1af16a1cdee98ffb20c31f5cd61d6ab07201858f4287c938d

/-- `DEPOSITOR_VALIDATION_MAX_AGE`, in seconds. -/
def depositorValidationMaxAge : U64 := 300

/-- `DEPOSITOR_VALIDATION_MAX_FUTURE`, in seconds. -/
def depositorValidationMaxFuture : U64 := 60

/-! ### The world of a transaction -/

/-- What a transaction of the pool can change: the contract state, the ERC20
contracts and the event log, together with the block it runs in. -/
structure World (sn : Starknet) where
  pool : Pool
  tokens : sn.Tokens
  events : List Event
  blockNumber : U64
  blockTimestamp : U64

/-- A call of an external contract: its effect on the tokens and its return
data, or its panic data. Of the state it changes the tokens only: the pool refuses a nested
`apply_actions`, and nested calls of its setters, the `set_*` functions, are left out. -/
abbrev Invocation (sn : Starknet) :=
  World sn → ContractAddress → Felt → Span Felt → Except (List Felt) (sn.Tokens × List Felt)

/-- The facts of the transaction that the pool reads. -/
structure TxInfo where
  callerAddress : ContractAddress
  proofFacts : List Felt

/-- Off-chain screening attestation relayed into `apply_actions`. -/
structure ScreeningAttestation where
  issuedAt : U64
  signature : Felt × Felt
  deriving DecidableEq, Repr

/-- `ProofFacts`, in the order of its serialization. -/
structure ProofFacts where
  proofVersion : Felt
  programVariant : Felt
  virtualProgramHash : Felt
  starknetOsOutputVersion : Felt
  baseBlockNumber : U64
  baseBlockHash : Felt
  starknetOsConfigHash : Felt
  messageToL1Hashes : Span Felt

instance : Serde ProofFacts where
  codec := (Serde.codec (α := Felt × Felt × Felt × Felt × U64 × Felt × Felt × Span Felt)).imap
    (fun p => ⟨p.1, p.2.1, p.2.2.1, p.2.2.2.1, p.2.2.2.2.1, p.2.2.2.2.2.1, p.2.2.2.2.2.2.1,
      p.2.2.2.2.2.2.2⟩)
    (fun f => (f.proofVersion, f.programVariant, f.virtualProgramHash, f.starknetOsOutputVersion,
      f.baseBlockNumber, f.baseBlockHash, f.starknetOsConfigHash, f.messageToL1Hashes))
    (fun _ => rfl) (fun _ => rfl)

section Server

variable (sn : Starknet)

/-- The world with one more event. -/
def World.emit {sn : Starknet} (world : World sn) (event : Event) : World sn :=
  { world with events := world.events ++ [event] }

/-- The return value of a token call, which panics when the transfer fails. -/
def transferred {sn : Starknet} (tokens : Option sn.Tokens) : Except Error sn.Tokens :=
  expect tokens .tokenTransferFailed

/-! ### Proof, fee and screening -/

/-- The proof is of the virtual block program, recent, and about this list of actions. -/
def validateProof (world : World sn) (tx : TxInfo) (actions : Span ServerAction) :
    Except Error Unit := do
  require (tx.proofFacts ≠ []) .emptyProofFacts
  let (proofFacts, rest) ←
    expect (deserialize (α := ProofFacts) tx.proofFacts) .proofFactsDeserializeError
  require (rest = []) .invalidProofFacts
  require (proofFacts.programVariant = virtualSnos) .invalidProgramVariant
  require (proofFacts.starknetOsOutputVersion = virtualSnos0) .invalidOsOutputVersion
  -- The base block is recent.
  require (proofFacts.baseBlockNumber < world.blockNumber) .invalidBaseBlockNumber
  let lastValidBlock ← checkedAdd proofFacts.baseBlockNumber world.pool.proofValidityBlocks
  require (world.blockNumber ≤ lastValidBlock) .proofExpired
  let messageHash := computeMessageHash sn actions sn.contractAddress
  require (proofFacts.messageToL1Hashes.1 = [messageHash]) .invalidProofMsg

/-- The caller pays the fee, if there is one. -/
def collectFee (world : World sn) (tx : TxInfo) : Except Error (World sn) :=
  if world.pool.feeAmount ≠ 0 then do
    let tokens ← transferred (sn.checkedTransferFrom world.tokens strkTokenAddress
      tx.callerAddress world.pool.feeCollector world.pool.feeAmount.val)
    return { world with tokens }
  else return world

/-- `'StarkNet Message'` -/
def starknetMessage : Felt := 0x537461726b4e6574204d657373616765

/-- `'Screening'` -/
def screeningSnip12Name : Felt := 0x53637265656e696e67

/-- The version of the domain of attestations. -/
def screeningSnip12Version : Felt := 2

/-- The selector of the type string of `DepositorValidation`. -/
def depositorValidationTypeHash : Felt :=
  0x32d43b7372c9ea8a35daf12b02c5f6f74837910ecbaf2a3ecfe71fec901913d

/-- The message that the screener signs for a depositor. -/
def computeScreeningMessageHash (depositor : ContractAddress) (issuedAt : U64) (signer : Felt) :
    Felt :=
  let structHash := sn.poseidonHashSpan
    [depositorValidationTypeHash, ContractAddress.toFelt depositor, U64.toFelt issuedAt]
  sn.poseidonHashSpan [starknetMessage,
    sn.starknetDomainHash screeningSnip12Name screeningSnip12Version, signer, structHash]

/-- The signature of an attestation is that of the screener. -/
def isScreeningAttestationValid (depositor : ContractAddress)
    (attestation : ScreeningAttestation) (signerPublicKey : Felt) : Bool :=
  let messageHash := computeScreeningMessageHash sn depositor attestation.issuedAt signerPublicKey
  sn.checkEcdsaSignature messageHash signerPublicKey attestation.signature.1
    attestation.signature.2

/-- The attestation is neither future-dated nor expired, and it is for the subject. -/
def verifyScreening (world : World sn) (attestation : ScreeningAttestation)
    (screeningSubject : ContractAddress) : Except Error Unit := do
  let now := world.blockTimestamp
  -- The sums are of 64-bit words, and panic when they overflow.
  let latest ← checkedAdd now depositorValidationMaxFuture
  require (attestation.issuedAt ≤ latest) .screeningFutureDated
  let expiry ← checkedAdd attestation.issuedAt depositorValidationMaxAge
  require (now ≤ expiry) .screeningExpired
  require (isScreeningAttestationValid sn screeningSubject attestation
    world.pool.screenerPublicKey = true) .screeningInvalidSignature

/-! ### Open-note deposits -/

/-- Fill an open note, and pull its amount from the depositor. -/
def depositToOpenNote (depositor : ContractAddress) (world : World sn)
    (deposit : OpenNoteDeposit) : Except Error (World sn) := do
  require (deposit.token ≠ 0) .zeroToken
  require (deposit.amount ≠ 0) .zeroAmount
  let packedValue := world.pool.read sn .notes deposit.noteId 0
  let noteToken ← expect (narrow (2 ^ 251) (world.pool.read sn .notes deposit.noteId 1))
    .invalidStoredAddress
  require (packedValue ≠ 0) .noteNotFound
  let (salt, currentAmount) ← unpack packedValue
  -- Only a note that was created open and is not filled takes a deposit.
  require (salt = openNoteSalt) .noteNotOpen
  require (currentAmount = 0) .noteAlreadyDeposited
  require (deposit.token = noteToken) .tokenMismatch
  let newPackedValue ← pack openNoteSalt deposit.amount
  require (newPackedValue ≠ 0) .zeroNoteValue
  -- The word is overwritten, the one exception to writing once.
  let words := Function.update world.pool.words (sn.entry .notes deposit.noteId).val newPackedValue
  let tokens ← transferred (sn.checkedTransferFrom world.tokens deposit.token depositor
    sn.contractAddress deposit.amount.val)
  let world := { world with pool := { world.pool with words }, tokens }
  return world.emit
    (.openNoteDeposited ⟨depositor, deposit.token, deposit.noteId, deposit.amount⟩)

/-- The variables of the loop of `_apply_actions`. -/
structure ApplyState where
  world : World sn
  undepositedOpenNotes : Usize
  screeningSubject : Option ContractAddress

/-- The screening subjects that an invoke with deposits adds. -/
def unifyDepositor (policy : OpenNoteScreeningPolicy) (contractAddress : ContractAddress)
    (selector : Felt) (associatedAddresses : Option (Span ContractAddress))
    (subject : Option ContractAddress) : Except Error (Option ContractAddress) :=
  match policy with
  | .required => unifyAddress subject contractAddress
  | .exempt => return subject
  -- A delegated depositor is replaced by the addresses that it names, which only a call with
  -- computation can do.
  | .delegated =>
    if selector = invokeWithComputationSelector then do
      let addresses ← expect associatedAddresses .invalidAssociatedAddresses
      require (addresses.1 ≠ []) .noAssociatedAddress
      addresses.1.foldlM unifyAddress subject
    else return subject

/-- Call the external contract and apply the deposits it returns. -/
def applyInvokeAndDeposits (invocation : Invocation sn) (state : ApplyState sn)
    (input : InvokeInput) (selector : Felt) : Except Error (ApplyState sn) := do
  let (tokens, returnData) ←
    (invocation state.world input.contractAddress selector input.calldata).mapError .callFailed
  let world := { state.world with tokens }.emit
    (.externalContractInvoked ⟨input.contractAddress, selector⟩)
  let (deposits, associatedAddresses) ← deserializeInvokeReturnData returnData
  -- A call that deposits nothing adds no subject and fills no note.
  if deposits.1 = [] then return { state with world } else
    let screeningSubject ← unifyDepositor (world.pool.screeningPolicies input.contractAddress)
      input.contractAddress selector associatedAddresses state.screeningSubject
    let world ← deposits.1.foldlM (depositToOpenNote sn input.contractAddress) world
    let undepositedOpenNotes ← expect
      (checkedSub state.undepositedOpenNotes ⟨deposits.1.length, deposits.length_lt⟩)
      .tooManyOpenNotesDeposited
    return { world, undepositedOpenNotes, screeningSubject }

/-! ### Applying actions -/

/-- Tokens go from an address to the pool. -/
def applyTransferFrom (world : World sn) (input : TransferFromInput) :
    Except Error (World sn) := do
  let tokens ← transferred (sn.checkedTransferFrom world.tokens input.token input.fromAddr
    sn.contractAddress input.amount.val)
  return { world with tokens }

/-- Tokens go from the pool to an address. -/
def applyTransferTo (world : World sn) (input : TransferToInput) : Except Error (World sn) := do
  let tokens ← transferred
    (sn.checkedTransfer world.tokens input.token input.toAddr input.amount.val)
  return { world with tokens }

/-- One step of the loop of `_apply_actions`. -/
def applyAction (invocation : Invocation sn) (state : ApplyState sn) :
    ServerAction → Except Error (ApplyState sn)
  | .writeOnce input => do
    let pool ← state.world.pool.applyWriteOnce input
    return { state with world := { state.world with pool } }
  | .append input =>
    return { state with world := { state.world with pool := state.world.pool.applyAppend input } }
  -- The user who pays in is a subject of screening.
  | .transferFrom input => do
    let screeningSubject ← unifyAddress state.screeningSubject input.fromAddr
    let world ← applyTransferFrom sn state.world input
    return { state with world, screeningSubject }
  | .transferTo input => do
    let world ← applyTransferTo sn state.world input
    return { state with world }
  | .invoke input => applyInvokeAndDeposits sn invocation state input invokeSelector
  | .invokeWithComputation input =>
    applyInvokeAndDeposits sn invocation state input invokeWithComputationSelector
  | .emitViewingKeySet event => return { state with world := state.world.emit (.viewingKeySet event) }
  | .emitWithdrawal event => return { state with world := state.world.emit (.withdrawal event) }
  | .emitDeposit event => return { state with world := state.world.emit (.deposit event) }
  -- An open note has to be filled before the list ends.
  | .emitOpenNoteCreated event => do
    let undepositedOpenNotes ← checkedAdd state.undepositedOpenNotes 1
    return { state with world := state.world.emit (.openNoteCreated event), undepositedOpenNotes }
  | .emitEncNoteCreated event =>
    return { state with world := state.world.emit (.encNoteCreated event) }
  | .emitNoteUsed event => return { state with world := state.world.emit (.noteUsed event) }

/-- `_apply_actions`: apply all actions, check that no open note is left
undeposited, and return the screening subject. -/
def applyAllActions (invocation : Invocation sn) (world : World sn)
    (actions : List ServerAction) : Except Error (World sn × Option ContractAddress) := do
  let state ← actions.foldlM (applyAction sn invocation) ⟨world, 0, none⟩
  require (state.undepositedOpenNotes = 0) .undepositedOpenNotes
  return (state.world, state.screeningSubject)

/-- The reentrancy guard: enter, unless a guarded call is already running. -/
def guardStart (world : World sn) : Except Error (World sn) := do
  require (world.pool.entered = false) .reentrantCall
  return { world with pool := { world.pool with entered := true } }

/-- The end of the reentrancy guard. -/
def guardEnd (world : World sn) : World sn :=
  { world with pool := { world.pool with entered := false } }

/-- The attestation must be given exactly when a subject requires screening. -/
def checkScreening (world : World sn) (screening : Option ScreeningAttestation) :
    Option ContractAddress → Except Error Unit
  | some screeningSubject => do
    let attestation ← expect screening .screeningRequired
    verifyScreening sn world attestation screeningSubject
  | none => require (screening = none) .unexpectedScreening

/-- The `apply_actions` entry point. -/
def applyActions (invocation : Invocation sn) (tx : TxInfo) (world : World sn)
    (actions : Span ServerAction) (screening : Option ScreeningAttestation) :
    Except Error (World sn) := do
  let world ← guardStart sn world
  require (world.pool.paused = false) .contractPaused
  validateProof sn world tx actions
  let world ← collectFee sn world tx
  let (world, screeningSubject) ← applyAllActions sn invocation world actions.1
  checkScreening sn world screening screeningSubject
  return guardEnd sn world

end Server

end PrivacyPool
