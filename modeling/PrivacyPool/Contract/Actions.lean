import PrivacyPool.Contract.Errors
import PrivacyPool.Contract.Objects

/-!
# Client and server actions

The two action languages of `actions.cairo`. A user compiles a list of client
actions into a list of server actions, which anyone may then submit to the
contract. Each client input has its validity check, and client actions are
grouped into phases that a list must go through in order.
-/

namespace PrivacyPool

open Fallible

/-- The salt of an open note. -/
def openNoteSalt : U128 := 1

/-- Salts are below this bound. -/
def twoPow120 : U128 := ⟨2 ^ 120, by decide⟩

/-! ### Inputs of client actions -/

/-- The input of `SetViewingKey`. -/
structure SetViewingKeyInput where
  random : Felt
  deriving DecidableEq, Repr

/-- The randomness is not zero. -/
def SetViewingKeyInput.assertValid (input : SetViewingKeyInput) : Except Error Unit :=
  require (input.random ≠ 0) .zeroRandom

/-- The input of `OpenChannel`. -/
structure OpenChannelInput where
  recipientAddr : ContractAddress
  index : Usize
  random : Felt
  salt : Felt
  deriving DecidableEq, Repr

/-- The recipient, the randomness and the salt are not zero. -/
def OpenChannelInput.assertValid (input : OpenChannelInput) : Except Error Unit := do
  require (input.recipientAddr ≠ 0) .zeroRecipientAddr
  require (input.random ≠ 0) .zeroRandom
  require (input.salt ≠ 0) .zeroSalt

/-- The input of `OpenSubchannel`. -/
structure OpenSubchannelInput where
  recipientAddr : ContractAddress
  recipientPublicKey : Felt
  channelKey : Felt
  index : Usize
  token : ContractAddress
  salt : Felt
  deriving DecidableEq, Repr

/-- The recipient, its public key, the token and the salt are not zero. -/
def OpenSubchannelInput.assertValid (input : OpenSubchannelInput) : Except Error Unit := do
  require (input.recipientAddr ≠ 0) .zeroRecipientAddr
  require (input.recipientPublicKey ≠ 0) .zeroRecipientPublicKey
  require (input.token ≠ 0) .zeroToken
  require (input.salt ≠ 0) .zeroSalt

/-- The input of `CreateEncNote`. -/
structure CreateEncNoteInput where
  recipientAddr : ContractAddress
  recipientPublicKey : Felt
  token : ContractAddress
  amount : U128
  index : Usize
  salt : U128
  deriving DecidableEq, Repr

/-- A zero amount is allowed, so that an index whose transaction was reverted can
be filled again. -/
def CreateEncNoteInput.assertValid (input : CreateEncNoteInput) : Except Error Unit := do
  require (input.recipientAddr ≠ 0) .zeroRecipientAddr
  require (input.recipientPublicKey ≠ 0) .zeroRecipientPublicKey
  require (input.token ≠ 0) .zeroToken
  require (input.salt ≠ 0) .zeroSalt
  require (openNoteSalt < input.salt) .saltTooSmall
  require (input.salt < twoPow120) .saltExceeds120Bits

/-- The input of `CreateOpenNote`. -/
structure CreateOpenNoteInput where
  recipientAddr : ContractAddress
  recipientPublicKey : Felt
  token : ContractAddress
  index : Usize
  random : Felt
  deriving DecidableEq, Repr

/-- The recipient, its public key, the token and the randomness are not zero. -/
def CreateOpenNoteInput.assertValid (input : CreateOpenNoteInput) : Except Error Unit := do
  require (input.recipientAddr ≠ 0) .zeroRecipientAddr
  require (input.recipientPublicKey ≠ 0) .zeroRecipientPublicKey
  require (input.token ≠ 0) .zeroToken
  require (input.random ≠ 0) .zeroRandom

/-- The input of `Deposit`. -/
structure DepositInput where
  token : ContractAddress
  amount : U128
  deriving DecidableEq, Repr

/-- The token and the amount are not zero. -/
def DepositInput.assertValid (input : DepositInput) : Except Error Unit := do
  require (input.token ≠ 0) .zeroToken
  require (input.amount ≠ 0) .zeroAmount

/-- The input of `UseNote`. -/
structure UseNoteInput where
  channelKey : Felt
  token : ContractAddress
  index : Usize
  deriving DecidableEq, Repr

/-- The token is not zero. -/
def UseNoteInput.assertValid (input : UseNoteInput) : Except Error Unit :=
  require (input.token ≠ 0) .zeroToken

/-- The input of `Withdraw`. -/
structure WithdrawInput where
  toAddr : ContractAddress
  token : ContractAddress
  amount : U128
  random : Felt
  deriving DecidableEq, Repr

/-- The address, the token, the amount and the randomness are not zero. -/
def WithdrawInput.assertValid (input : WithdrawInput) : Except Error Unit := do
  require (input.toAddr ≠ 0) .zeroToAddr
  require (input.token ≠ 0) .zeroToken
  require (input.amount ≠ 0) .zeroAmount
  require (input.random ≠ 0) .zeroRandom

/-- The input of `InvokeExternal`. -/
structure InvokeExternalInput where
  contractAddress : ContractAddress
  calldata : Span Felt
  deriving DecidableEq, Repr

/-- The contract is not zero. -/
def InvokeExternalInput.assertValid (input : InvokeExternalInput) : Except Error Unit :=
  require (input.contractAddress ≠ 0) .zeroContractAddress

/-- The input of `ComputeAndInvoke`. -/
structure ComputeAndInvokeInput where
  contractAddress : ContractAddress
  computeAdditionalData : Span Felt
  invokeAdditionalData : Span Felt
  deriving DecidableEq, Repr

/-- The contract is not zero. -/
def ComputeAndInvokeInput.assertValid (input : ComputeAndInvokeInput) : Except Error Unit :=
  require (input.contractAddress ≠ 0) .zeroContractAddress

/-- An action to be executed by the client. -/
inductive ClientAction
  | setViewingKey (input : SetViewingKeyInput)
  | openChannel (input : OpenChannelInput)
  | openSubchannel (input : OpenSubchannelInput)
  | createEncNote (input : CreateEncNoteInput)
  | createOpenNote (input : CreateOpenNoteInput)
  | deposit (input : DepositInput)
  | useNote (input : UseNoteInput)
  | withdraw (input : WithdrawInput)
  | invokeExternal (input : InvokeExternalInput)
  | computeAndInvoke (input : ComputeAndInvokeInput)
  deriving DecidableEq, Repr

/-! ### Phases

The phases are the constants `ACCOUNT_PHASE = 0`, `CHANNEL_PHASE = 1`,
`SUBCHANNEL_PHASE = 2`, `DEPOSIT_PHASE = 3`, `USE_NOTES_PHASE = 4`,
`CREATE_NOTES_PHASE = 5`, `WITHDRAW_PHASE = 6` and `INVOKE_PHASE = 7` of the
source. -/

/-- The first phase, in which a viewing key may be set. -/
def accountPhase : ℕ := 0

/-- The last phase, in which one contract may be invoked. -/
def invokePhase : ℕ := 7

/-- The phase associated with an action. -/
def ClientAction.phase : ClientAction → ℕ
  | .setViewingKey _ => accountPhase
  | .openChannel _ => 1
  | .openSubchannel _ => 2
  | .deposit _ => 3
  | .createEncNote _ => 5
  | .createOpenNote _ => 5
  | .useNote _ => 4
  | .withdraw _ => 6
  | .invokeExternal _ => invokePhase
  | .computeAndInvoke _ => invokePhase

/-- Check that the action does not go back to an earlier phase, and return the
phase to advance to: past the invoke phase after an invoke, so that at most one
is allowed. -/
def ClientAction.assertAndAdvancePhase (action : ClientAction) (currPhase : ℕ) :
    Except Error ℕ := do
  require (currPhase ≤ action.phase) .actionsOutOfOrder
  return if action.phase = invokePhase then action.phase + 1 else action.phase

/-! ### Server actions -/

/-- A value to be written to storage that is empty. -/
structure WriteOnceInput where
  storageAddress : Felt
  value : Span Felt
  deriving DecidableEq, Repr

/-- A channel to be appended to those of a recipient. -/
structure AppendInput where
  recipientAddr : ContractAddress
  encChannelInfo : EncChannelInfo
  deriving DecidableEq, Repr

/-- Tokens to be taken from an address. -/
structure TransferFromInput where
  fromAddr : ContractAddress
  token : ContractAddress
  amount : U128
  deriving DecidableEq, Repr

/-- Tokens to be paid to an address. -/
structure TransferToInput where
  toAddr : ContractAddress
  token : ContractAddress
  amount : U128
  deriving DecidableEq, Repr

/-- A contract to be invoked, with its calldata. -/
structure InvokeInput where
  contractAddress : ContractAddress
  calldata : Span Felt
  deriving DecidableEq, Repr

/-- An action to be executed by the server. -/
inductive ServerAction
  | writeOnce (input : WriteOnceInput)
  | append (input : AppendInput)
  | transferFrom (input : TransferFromInput)
  | transferTo (input : TransferToInput)
  | emitViewingKeySet (event : Events.ViewingKeySet)
  | emitWithdrawal (event : Events.Withdrawal)
  | emitDeposit (event : Events.Deposit)
  | emitOpenNoteCreated (event : Events.OpenNoteCreated)
  | emitEncNoteCreated (event : Events.EncNoteCreated)
  | emitNoteUsed (event : Events.NoteUsed)
  | invoke (input : InvokeInput)
  | invokeWithComputation (input : InvokeInput)
  deriving DecidableEq, Repr

/-! ### Serialization of server actions

The derived `Serde` of the enumeration writes the index of the variant, in the
order of declaration, and then its payload. -/

instance : Serde WriteOnceInput where
  codec := (Serde.codec (α := Felt × Span Felt)).imap (fun p => ⟨p.1, p.2⟩)
    (fun e => (e.storageAddress, e.value)) (fun _ => rfl) (fun _ => rfl)

instance : Serde AppendInput where
  codec := (Serde.codec (α := ContractAddress × EncChannelInfo)).imap (fun p => ⟨p.1, p.2⟩)
    (fun e => (e.recipientAddr, e.encChannelInfo)) (fun _ => rfl) (fun _ => rfl)

instance : Serde TransferFromInput where
  codec := (Serde.codec (α := ContractAddress × ContractAddress × U128)).imap
    (fun p => ⟨p.1, p.2.1, p.2.2⟩) (fun e => (e.fromAddr, e.token, e.amount))
    (fun _ => rfl) (fun _ => rfl)

instance : Serde TransferToInput where
  codec := (Serde.codec (α := ContractAddress × ContractAddress × U128)).imap
    (fun p => ⟨p.1, p.2.1, p.2.2⟩) (fun e => (e.toAddr, e.token, e.amount))
    (fun _ => rfl) (fun _ => rfl)

instance : Serde InvokeInput where
  codec := (Serde.codec (α := ContractAddress × Span Felt)).imap (fun p => ⟨p.1, p.2⟩)
    (fun e => (e.contractAddress, e.calldata)) (fun _ => rfl) (fun _ => rfl)

namespace ServerAction

/-- The variant index followed by the payload. -/
def encode : ServerAction → List Felt
  | writeOnce input => 0 :: serialize input
  | append input => 1 :: serialize input
  | transferFrom input => 2 :: serialize input
  | transferTo input => 3 :: serialize input
  | emitViewingKeySet event => 4 :: serialize event
  | emitWithdrawal event => 5 :: serialize event
  | emitDeposit event => 6 :: serialize event
  | emitOpenNoteCreated event => 7 :: serialize event
  | emitEncNoteCreated event => 8 :: serialize event
  | emitNoteUsed event => 9 :: serialize event
  | invoke input => 10 :: serialize input
  | invokeWithComputation input => 11 :: serialize input

/-- Read the payload of a variant. -/
def payload {α : Type} [Serde α] (variant : α → ServerAction) (input : List Felt) :
    Option (ServerAction × List Felt) :=
  (deserialize input).map fun p => (variant p.1, p.2)

/-- Read a server action by its index. -/
def decode : List Felt → Option (ServerAction × List Felt)
  | [] => none
  | index :: rest =>
    match index.val with
    | 0 => payload writeOnce rest
    | 1 => payload append rest
    | 2 => payload transferFrom rest
    | 3 => payload transferTo rest
    | 4 => payload emitViewingKeySet rest
    | 5 => payload emitWithdrawal rest
    | 6 => payload emitDeposit rest
    | 7 => payload emitOpenNoteCreated rest
    | 8 => payload emitEncNoteCreated rest
    | 9 => payload emitNoteUsed rest
    | 10 => payload invoke rest
    | 11 => payload invokeWithComputation rest
    | _ => none

theorem payload_serialize {α : Type} [Serde α] (variant : α → ServerAction) (a : α)
    (rest : List Felt) : payload variant (serialize a ++ rest) = some (variant a, rest) := by
  simp [payload]

theorem payload_eq_some {α : Type} [Serde α] {variant : α → ServerAction} {input rest : List Felt}
    {action : ServerAction} (h : payload variant input = some (action, rest)) :
    ∃ a, action = variant a ∧ input = serialize a ++ rest := by
  obtain ⟨⟨a, tail⟩, hread, hpair⟩ := Option.map_eq_some_iff.mp h
  obtain ⟨rfl, rfl⟩ := Prod.mk.inj hpair
  exact ⟨a, rfl, (Serde.codec (α := α)).encode_of_decode hread⟩

theorem decode_encode (action : ServerAction) (rest : List Felt) :
    decode (encode action ++ rest) = some (action, rest) := by
  cases action <;> exact payload_serialize _ _ rest

/-- A decoded variant was written with its own index. -/
theorem encode_of_decode {input rest : List Felt} {action : ServerAction}
    (h : decode input = some (action, rest)) : input = encode action ++ rest := by
  cases input with
  | nil => cases h
  | cons index tail =>
    unfold decode at h
    dsimp only at h
    split at h
    case h_13 => cases h
    all_goals
      next hindex =>
        obtain ⟨a, rfl, rfl⟩ := payload_eq_some h
        exact congrArg (· :: (serialize a ++ rest)) (Fin.ext hindex)

end ServerAction

instance : Serde ServerAction where
  codec := ⟨ServerAction.encode, ServerAction.decode, ServerAction.decode_encode,
    ServerAction.encode_of_decode⟩

end PrivacyPool
