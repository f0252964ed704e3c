import PrivacyPool.Contract.Server
import PrivacyPool.Interceptor.PoolTransaction

/-!
# The address that a transaction is screened for

Before a transaction is proved the interceptor predicts, from its client actions alone,
which address the pool will ask an attestation for: the user of a deposit, and what the
screening policy of the contract that funds the open notes derives.

## Main definitions

* `getShadowAccountAddress` — the shadow account that an interaction runs through
* `getOpenNoteDepositor`, `getDelegatedAddress` — the contract that funds open notes, and the
  address it puts up
* `getScreenedAddress` — the prediction
-/

namespace PrivacyPool.Interceptor

open Hex

/-! ### Shadow accounts -/

section ShadowAccount

variable (sn : Starknet) (address : AddressFormula) (decoder : AbiDecoder)

/-- A shadow account interaction: the arguments of `privacy_compute` after the identity key. -/
structure ShadowAccountInteraction where
  dappName : Felt
  nonce : Felt
  deriving DecidableEq, Repr

/-- The interaction of the arguments, absent when there are not two that decode. -/
def shadowAccountInteraction (input : ComputeAndInvokeInput) : Option ShadowAccountInteraction :=
  if input.computeAdditionalData.1.length ≠ 2 then none else
    (decoder.computeArguments
      (input.computeAdditionalData.1.map fun felt => writeText felt.val)).map
        fun arguments => ⟨arguments.1, arguments.2⟩

/-- The interaction of the first compute-invoke of the anonymizer. -/
def getShadowAccountInteraction (anonymizerAddress : String) :
    List ClientAction → Option ShadowAccountInteraction
  | [] => none
  | .computeAndInvoke input :: actions =>
    if normalizeFelt (addressHex input.contractAddress) ≠ normalizeFelt anonymizerAddress then
      getShadowAccountInteraction anonymizerAddress actions
    else shadowAccountInteraction decoder input
  | _ :: actions => getShadowAccountInteraction anonymizerAddress actions

/-- `shadowAccountPartialCommitment` of the SDK. -/
def shadowAccountPartialCommitment (user viewingKey anonymizerAddress : ℕ) (dappName : Felt) :
    Felt :=
  let identityKey := sn.poseidonHashSpan [identityKeyTag, Fin.ofNat feltPrime user,
    Fin.ofNat feltPrime viewingKey, Fin.ofNat feltPrime anonymizerAddress]
  sn.poseidonHashSpan [identityKey, dappName]

/-- `shadowAccountCommitment` of the SDK. -/
def shadowAccountCommitment (partialCommitment nonce : Felt) : Felt :=
  sn.poseidonHashSpan [partialCommitment, nonce]

/-- The address of the shadow account of an interaction, as the user derives it. -/
def getShadowAccountAddress (poolCall : PoolCallActions) (anonymizerAddress : String) :
    Option String := do
  let viewingKey ← poolCall.viewingKey
  let interaction ← getShadowAccountInteraction decoder anonymizerAddress poolCall.actions
  let userAddress ← parseFelt poolCall.userAddress
  let anonymizer ← parseFelt (normalizeFelt anonymizerAddress)
  let commitment := shadowAccountCommitment sn
    (shadowAccountPartialCommitment sn userAddress viewingKey anonymizer interaction.dappName)
    interaction.nonce
  return addressHex
    (address commitment primerClassHash [] (Fin.ofNat (2 ^ 251) anonymizer))

/-- Whether a compute-invoke creates open notes. -/
def createsOpenNotes (input : ComputeAndInvokeInput) : Bool :=
  match decoder.invokeArguments
      (input.invokeAdditionalData.1.map fun felt => writeText felt.val) with
  | some (_, openNotes) => !openNotes.isEmpty
  | none => false

end ShadowAccount

/-! ### Screened addresses -/

/-- The address that a prove request is screened for, or why there is none. -/
inductive ScreenedAddress
  | none
  | one (address : String)
  | conflict
  | unreadablePolicy
  | undeterminedShadowAccount
  deriving DecidableEq, Repr

/-- The contract whose invoke funds the open notes of a transaction: its address, and the
input of the compute-invoke it is driven through unless it is a plain invoke. -/
structure OpenNoteDepositor where
  address : String
  computeInput : Option ComputeAndInvokeInput
  deriving DecidableEq, Repr

/-- The action creates an open note. -/
def ClientAction.createsOpenNote : ClientAction → Bool
  | .createOpenNote _ => true
  | _ => false

/-- The action is a deposit. -/
def ClientAction.isDeposit : ClientAction → Bool
  | .deposit _ => true
  | _ => false

/-- The target of an invoke action. -/
def ClientAction.depositor : ClientAction → Option OpenNoteDepositor
  | .invokeExternal input =>
    some ⟨normalizeFelt (addressHex input.contractAddress), Option.none⟩
  | .computeAndInvoke input =>
    some ⟨normalizeFelt (addressHex input.contractAddress), some input⟩
  | _ => Option.none

/-- The contract that will fill the open notes, if there are any. -/
def getOpenNoteDepositor (actions : List ClientAction) : Option OpenNoteDepositor :=
  if actions.any ClientAction.createsOpenNote then actions.findSome? ClientAction.depositor
  else Option.none

section Screened

variable (sn : Starknet) (address : AddressFormula) (decoder : AbiDecoder)

/-- The address that a delegated depositor puts up for the deposits of its invoke. -/
def getDelegatedAddress (poolCall : PoolCallActions) (depositor : OpenNoteDepositor) :
    ScreenedAddress :=
  match depositor.computeInput with
  | Option.none => .none
  | some input =>
    -- Without open notes nothing is deposited, and nobody is screened for it.
    if createsOpenNotes decoder input then
      match getShadowAccountAddress sn address decoder poolCall depositor.address with
      | Option.none => .undeterminedShadowAccount
      | some shadowAccount => .one shadowAccount
    else .none

/-- The one address of a set, or a conflict. -/
def unifyScreened : List String → ScreenedAddress
  | [] => .none
  | [address] => .one address
  | _ => .conflict

/-- The switch over the policy of the open-note depositor. -/
def screenPolicy (addresses : List String) (depositor : String) (delegated : ScreenedAddress) :
    OpenNoteScreeningPolicy → ScreenedAddress
  | .exempt => unifyScreened addresses
  | .required => unifyScreened (addresses.insert depositor)
  | .delegated =>
    match delegated with
    | .one shadowAccount => unifyScreened (addresses.insert shadowAccount)
    | .none => unifyScreened addresses
    | undetermined => undetermined

/-- The address that the pool call is screened for, with the policies as read. -/
def getScreenedAddress (transaction : ProveTxn) (poolAddress : String)
    (getPolicy : String → Option OpenNoteScreeningPolicy) : ScreenedAddress :=
  match decodeClientActions decoder transaction poolAddress with
  | Option.none => .none
  | some poolCall =>
    -- The user is screened when the list deposits.
    let addresses := if poolCall.actions.any ClientAction.isDeposit then [poolCall.userAddress]
      else []
    match getOpenNoteDepositor poolCall.actions with
    | Option.none => unifyScreened addresses
    | some depositor =>
      match getPolicy depositor.address with
      | some policy => screenPolicy addresses depositor.address
        (getDelegatedAddress sn address decoder poolCall depositor) policy
      | Option.none => .unreadablePolicy

end Screened

end PrivacyPool.Interceptor
