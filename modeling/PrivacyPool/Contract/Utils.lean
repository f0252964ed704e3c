import Mathlib.Algebra.Group.Fin.Basic
import PrivacyPool.Contract.Actions
import PrivacyPool.Contract.Hashes

/-!
# Encryption, packing and other helpers of the pool

The functions of `utils.cairo` that the client and the server part share: the
ECDH-based encryptions, the packing of a salt and an amount into one felt, and
the construction of `WriteOnce` actions.

## Main results

* `decodeNoteAmount_encNotePackedValue`, `decodeNoteAmount_pack_open` — a packed
  note decodes to the amount it was made from
-/

namespace PrivacyPool

open Fallible

/-! ### Curve constants and keys -/

/-- The order of the Stark curve. -/
def curveOrder : ℕ := 0x800000000000010ffffffffffffffffb781126dcae7b2321e66a241adc64d2f

/-- Half the order of the Stark curve. -/
def halfOrder : ℕ := curveOrder / 2

/-- Whether the key is less than half the curve order. -/
def isCanonicalKey (key : Felt) : Prop := key.val < halfOrder

instance (key : Felt) : Decidable (isCanonicalKey key) := inferInstanceAs (Decidable (_ < _))

namespace Starknet

variable (sn : Starknet)

/-- The public key of a private key. -/
def derivePublicKey (privateKey : Felt) : Except Error Felt :=
  expect (sn.x (sn.mul sn.genP privateKey)) .zeroDerivedPublicKey

/-! ### Encryption -/

/-- The ephemeral public key and the shared secret of an ECDH exchange, both as
`x` coordinates. -/
def computeSharedX (ephemeralSecret publicKey : Felt) : Except Error (Felt × Felt) := do
  let ephemeralPubX ← expect (sn.x (sn.mul sn.genP ephemeralSecret)) .zeroEphemeralPublic
  let publicPoint ← expect (sn.newFromX publicKey) .invalidPublicKey
  let sharedX ← expect (sn.x (sn.mul publicPoint ephemeralSecret)) .zeroShared
  return (ephemeralPubX, sharedX)

/-- Hide the token of a subchannel. -/
def encryptSubchannelInfo (channelKey : Felt) (index : Usize) (token : ContractAddress)
    (salt : Felt) : EncSubchannelInfo :=
  ⟨salt, sn.computeEncTokenHash channelKey index salt + ContractAddress.toFelt token⟩

/-- Hide the recipient of an outgoing channel, for its sender. -/
def encryptOutgoingChannelInfo (senderAddr : ContractAddress) (senderPrivateKey : Felt)
    (index : Usize) (recipientAddr : ContractAddress) (salt : Felt) : EncOutgoingChannelInfo :=
  ⟨salt, sn.computeEncRecipientAddrHash senderAddr senderPrivateKey index salt +
    ContractAddress.toFelt recipientAddr⟩

/-- Hide the key and the sender of a channel, for its recipient. -/
def encryptChannelInfo (ephemeralSecret recipientPublicKey channelKey : Felt)
    (senderAddr : ContractAddress) : Except Error EncChannelInfo := do
  let (ephemeralPubX, sharedX) ← sn.computeSharedX ephemeralSecret recipientPublicKey
  return ⟨ephemeralPubX, sn.computeEncChannelKeyHash sharedX + channelKey,
    sn.computeEncSenderAddrHash sharedX + ContractAddress.toFelt senderAddr⟩

/-- Hide a private key, for the auditor. -/
def encryptPrivateKey (ephemeralSecret auditorPublicKey privateKey : Felt) :
    Except Error EncPrivateKey := do
  let (ephemeralPubX, sharedX) ← sn.computeSharedX ephemeralSecret auditorPublicKey
  return ⟨auditorPublicKey, ephemeralPubX, sn.computeEncPrivateKeyHash sharedX + privateKey⟩

/-- Hide an address, for the auditor. -/
def encryptUserAddr (ephemeralSecret auditorPublicKey : Felt) (userAddr : ContractAddress) :
    Except Error EncUserAddr := do
  let (ephemeralPubX, sharedX) ← sn.computeSharedX ephemeralSecret auditorPublicKey
  return ⟨auditorPublicKey, ephemeralPubX,
    sn.computeEncUserAddrHash sharedX + ContractAddress.toFelt userAddr⟩

end Starknet

/-! ### Packed notes -/

/-- Pack two `u128` values into one felt, `value1 * 2 ^ 128 + value2`. -/
def pack (value1 value2 : U128) : Except Error Felt :=
  expect (ofU256 value1 value2) .packOverflow

/-- The inverse of `pack`, for a first value of 120 bits. -/
def unpack (packedValue : Felt) : Except Error (U128 × U128) := do
  let (high, low) := toU256 packedValue
  require (high < twoPow120) .unpack1OutOfBounds
  return (high, low)

/-- `pack(OPEN_NOTE_SALT, 0)`. -/
def openNotePackedValue : Felt := ⟨2 ^ 128, by decide⟩

/-- An open note awaiting its deposit. -/
def openNote (token : ContractAddress) : Note := ⟨openNotePackedValue, token⟩

namespace Starknet

variable (sn : Starknet)

/-- The amount masked with the low half of its hash, modulo `2 ^ 128`. -/
def encryptNoteAmount (channelKey : Felt) (token : ContractAddress) (index : Usize)
    (salt amount : U128) : U128 :=
  (toU256 (sn.computeEncAmountHash channelKey token index salt)).2 + amount

/-- The salt of a note, packed with its hidden amount. -/
def encNotePackedValue (channelKey : Felt) (token : ContractAddress) (index : Usize)
    (salt amount : U128) : Except Error Felt :=
  pack salt (sn.encryptNoteAmount channelKey token index salt amount)

/-- The amount that a note hides. -/
def decryptNoteAmount (encAmount salt : U128) (channelKey : Felt) (token : ContractAddress)
    (index : Usize) : U128 :=
  encAmount - (toU256 (sn.computeEncAmountHash channelKey token index salt)).2

/-- The actual amount of a note, from its packed value. -/
def decodeNoteAmount (packedValue channelKey : Felt) (token : ContractAddress) (index : Usize) :
    Except Error U128 := do
  let (salt, amount) ← unpack packedValue
  require (salt ≠ 0) .unexpectedZeroSalt
  return if salt = openNoteSalt then amount
    else sn.decryptNoteAmount amount salt channelKey token index

end Starknet

/-! ### Actions and addresses -/

/-- A `WriteOnce` of a value at a storage address. -/
def toWriteOnceAction {α : Type} [Store α] (storageAddress : Felt) (value : α) : ServerAction :=
  .writeOnce ⟨storageAddress, ⟨serialize value,
    (Store.length_le value).trans_lt (by decide)⟩⟩

/-- Bind `subject` on its first use, and require equality on every later one. -/
def unifyAddress (subject : Option ContractAddress) (reference : ContractAddress) :
    Except Error (Option ContractAddress) := do
  require (reference ≠ 0) .zeroContractAddress
  match subject with
  | some alreadySet =>
    require (alreadySet = reference) .multipleScreeningSubjects
    return subject
  | none => return some reference

/-- The deposits an invoked contract returned, and the addresses that may follow
them. -/
def deserializeInvokeReturnData (returnData : List Felt) :
    Except Error (Span OpenNoteDeposit × Option (Span ContractAddress)) := do
  let (deposits, returnData) ←
    expect (deserialize (α := Span OpenNoteDeposit) returnData) .invalidInvokeReturnData
  -- The addresses may be left out.
  if returnData = [] then return (deposits, none) else
    let (associatedAddresses, returnData) ←
      expect (deserialize (α := Span ContractAddress) returnData) .invalidAssociatedAddresses
    require (returnData = []) .invalidInvokeReturnData
    return (deposits, some associatedAddresses)

/-! ### Decoding packed notes -/

section Packing

variable {salt amount : U128} {packedValue : Felt}

theorem unpack_of_pack (hsalt : salt < twoPow120) (h : pack salt amount = .ok packedValue) :
    unpack packedValue = .ok (salt, amount) := by
  unfold unpack
  rw [toU256_of_ofU256 (expect_eq_ok.mp h), bind_eq_ok]
  exact ⟨(), require_of _ hsalt, rfl⟩

theorem pack_ne_zero (hsalt : salt ≠ 0) (h : pack salt amount = .ok packedValue) :
    packedValue ≠ 0 := by
  rintro rfl
  have hhigh := congrArg Prod.fst (toU256_of_ofU256 (expect_eq_ok.mp h))
  exact hsalt (hhigh.symm.trans rfl)

theorem pack_injective {salt' amount' : U128} (h : pack salt amount = .ok packedValue)
    (h' : pack salt' amount' = .ok packedValue) : salt = salt' ∧ amount = amount' := by
  have hsame := (toU256_of_ofU256 (expect_eq_ok.mp h)).symm.trans
    (toU256_of_ofU256 (expect_eq_ok.mp h'))
  exact Prod.mk.inj hsame

theorem pack_open_zero : pack openNoteSalt 0 = .ok openNotePackedValue := by decide +kernel

/-- Only `pack(OPEN_NOTE_SALT, 0)` unpacks to an open note without an amount. -/
theorem eq_openNotePackedValue_of_unpack (h : unpack packedValue = .ok (openNoteSalt, 0)) :
    packedValue = openNotePackedValue := by
  simp only [unpack, bind_eq_ok, require_eq_ok, exists_and_left, exists_const, pure_eq_ok] at h
  obtain ⟨-, hhalves⟩ := h
  have hhigh : packedValue.val / 2 ^ 128 = 1 := congrArg (fun p => p.1.val) hhalves
  have hlow : packedValue.val % 2 ^ 128 = 0 := congrArg (fun p => p.2.val) hhalves
  refine Fin.ext ?_
  change packedValue.val = 2 ^ 128
  omega

theorem openNotePackedValue_ne_zero : openNotePackedValue ≠ 0 :=
  pack_ne_zero (by decide) pack_open_zero

variable (sn : Starknet) {channelKey : Felt} {token : ContractAddress} {index : Usize}

/-- An encrypted note decodes to the amount it was made from. -/
theorem decodeNoteAmount_encNotePackedValue (hsmall : openNoteSalt < salt)
    (hlarge : salt < twoPow120)
    (h : sn.encNotePackedValue channelKey token index salt amount = .ok packedValue) :
    sn.decodeNoteAmount packedValue channelKey token index = .ok amount := by
  have hzero : salt ≠ 0 := fun heq => absurd hsmall (by rw [heq]; decide)
  unfold Starknet.decodeNoteAmount
  rw [unpack_of_pack hlarge h, bind_eq_ok]
  refine ⟨_, rfl, ?_⟩
  rw [bind_eq_ok]
  refine ⟨(), require_of _ hzero, ?_⟩
  rw [if_neg hsmall.ne', pure_eq_ok, Starknet.decryptNoteAmount, Starknet.encryptNoteAmount]
  exact add_sub_cancel_left _ _

/-- An open note decodes to its packed amount. -/
theorem decodeNoteAmount_pack_open (h : pack openNoteSalt amount = .ok packedValue) :
    sn.decodeNoteAmount packedValue channelKey token index = .ok amount := by
  unfold Starknet.decodeNoteAmount
  rw [unpack_of_pack (by decide) h, bind_eq_ok]
  exact ⟨_, rfl, rfl⟩

end Packing

end PrivacyPool
