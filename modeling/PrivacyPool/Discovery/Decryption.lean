import Mathlib.Data.Nat.Bitwise
import PrivacyPool.Contract.Utils

/-!
# Hashes and decryption of the discovery service

The Rust side of `hashes.rs` and `decryption.rs`: the identifiers and masks are
hashed from felts and 64-bit indices, and a packed note is taken apart by its
64-bit digits. A point is recovered from its `x` coordinate by a function of
another library than the contract's, which may choose the other sign.

## Main results

* `joinDigits_eq` — two digits make the number they are digits of
* `unpackNoteAmount_eq` — the digits are the halves that the contract unpacks
-/

namespace PrivacyPool

/-- `Felt::from` of an integer. -/
def feltOfNat (n : ℕ) : Felt := Fin.ofNat feltPrime n

@[simp] theorem feltOfNat_usize (index : Usize) : feltOfNat index.val = Usize.toFelt index := by
  refine Fin.ext (Nat.mod_eq_of_lt ?_)
  exact index.isLt.trans_le two_pow_32_le

@[simp] theorem feltOfNat_u128 (n : U128) : feltOfNat n.val = U128.toFelt n := by
  refine Fin.ext (Nat.mod_eq_of_lt ?_)
  exact n.isLt.trans_le two_pow_128_le

namespace Discovery

variable (sn : Starknet)

/-! ### Hashes -/

/-- The hash that hides the channel key in `EncChannelInfo`. -/
def computeEncChannelKeyHash (sharedX : Felt) : Felt :=
  sn.poseidonHashSpan [encChannelKeyTag, sharedX]

/-- The hash that hides the sender in `EncChannelInfo`. -/
def computeEncSenderAddrHash (sharedX : Felt) : Felt :=
  sn.poseidonHashSpan [encSenderAddrTag, sharedX]

/-- The id of the subchannel with an index. -/
def computeSubchannelId (channelKey : Felt) (index : ℕ) : Felt :=
  sn.poseidonHashSpan [subchannelIdTag, channelKey, feltOfNat index, 0]

/-- The hash that hides the token in `EncSubchannelInfo`. -/
def computeEncTokenHash (channelKey : Felt) (index : ℕ) (salt : Felt) : Felt :=
  sn.poseidonHashSpan [encTokenTag, channelKey, feltOfNat index, 0, salt]

/-- The id of the note with an index. -/
def computeNoteId (channelKey token : Felt) (index : ℕ) : Felt :=
  sn.poseidonHashSpan [noteIdTag, channelKey, token, feltOfNat index, 0]

/-- The hash that hides the amount of a note. -/
def computeEncAmountHash (channelKey token : Felt) (index salt : ℕ) : Felt :=
  sn.poseidonHashSpan [encAmountTag, channelKey, token, feltOfNat index, 0, feltOfNat salt]

/-- The nullifier of a note, for its owner. -/
def computeNullifier (channelKey token : Felt) (index : ℕ) (privateKey : Felt) : Felt :=
  sn.poseidonHashSpan [nullifierTag, channelKey, token, feltOfNat index, 0, privateKey]

/-- The key of a channel. -/
def computeChannelKey (senderAddr privateKey recipientAddr recipientPublicKey : Felt) : Felt :=
  sn.poseidonHashSpan [channelKeyTag, senderAddr, privateKey, recipientAddr, recipientPublicKey]

/-- The marker of a channel. -/
def computeChannelMarker (channelKey senderAddr recipientAddr recipientPublicKey : Felt) : Felt :=
  sn.poseidonHashSpan
    [channelMarkerTag, channelKey, senderAddr, recipientAddr, recipientPublicKey]

/-- The marker of the subchannel of a token. -/
def computeSubchannelMarker (channelKey recipientAddr recipientPublicKey token : Felt) : Felt :=
  sn.poseidonHashSpan
    [subchannelMarkerTag, channelKey, recipientAddr, recipientPublicKey, token]

/-- The id of the outgoing channel with an index. -/
def computeOutgoingChannelId (senderAddr privateKey : Felt) (index : ℕ) : Felt :=
  sn.poseidonHashSpan [outgoingChannelIdTag, senderAddr, privateKey, feltOfNat index, 0]

/-- The hash that hides the recipient in `EncOutgoingChannelInfo`. -/
def computeEncRecipientAddrHash (senderAddr privateKey : Felt) (index : ℕ) (salt : Felt) : Felt :=
  sn.poseidonHashSpan [encRecipientAddrTag, senderAddr, privateKey, feltOfNat index, 0, salt]

variable {sn} in
/-- At the indices of the contract, the identifiers are those of the contract. -/
theorem computeSubchannelId_usize (channelKey : Felt) (index : Usize) :
    computeSubchannelId sn channelKey index.val = sn.computeSubchannelId channelKey index := by
  rw [computeSubchannelId, feltOfNat_usize]
  rfl

variable {sn} in
theorem computeNoteId_usize (channelKey : Felt) (token : ContractAddress) (index : Usize) :
    computeNoteId sn channelKey (ContractAddress.toFelt token) index.val =
      sn.computeNoteId channelKey token index := by
  rw [computeNoteId, feltOfNat_usize]
  rfl

variable {sn} in
theorem computeOutgoingChannelId_usize (senderAddr : ContractAddress) (privateKey : Felt)
    (index : Usize) :
    computeOutgoingChannelId sn (ContractAddress.toFelt senderAddr) privateKey index.val =
      sn.computeOutgoingChannelId senderAddr privateKey index := by
  rw [computeOutgoingChannelId, feltOfNat_usize]
  rfl

/-! ### Decryption -/

/-- Errors that can occur during decryption. -/
inductive DecryptionError
  | invalidEphemeralPubkey
  deriving DecidableEq, Repr

/-- What the recipient of a channel decrypts. -/
structure ChannelInfo where
  channelKey : Felt
  senderAddr : Felt
  deriving DecidableEq, Repr

/-- `newFromX` is `AffinePoint::new_from_x` of the service's own library. -/
def decryptChannelInfo (newFromX : Felt → Option sn.EcPoint) (enc : EncChannelInfo)
    (privateKey : Felt) : Except DecryptionError ChannelInfo := do
  let ephemeralPoint ← Fallible.expect (newFromX enc.ephemeralPubkey) .invalidEphemeralPubkey
  -- The point at infinity has the coordinate zero.
  let sharedX := (sn.x (sn.mul ephemeralPoint privateKey)).getD 0
  return ⟨enc.encChannelKey - computeEncChannelKeyHash sn sharedX,
    enc.encSenderAddr - computeEncSenderAddrHash sn sharedX⟩

/-- The token that a subchannel hides. -/
def decryptSubchannelToken (enc : EncSubchannelInfo) (channelKey : Felt) (index : ℕ) : Felt :=
  enc.encToken - computeEncTokenHash sn channelKey index enc.salt

/-- `Felt::to_le_digits`: the four 64-bit digits, the lowest first. -/
def toLeDigits (x : Felt) : ℕ × ℕ × ℕ × ℕ :=
  (x.val % 2 ^ 64, x.val / 2 ^ 64 % 2 ^ 64, x.val / 2 ^ 128 % 2 ^ 64, x.val / 2 ^ 192 % 2 ^ 64)

/-- `low | high << 64`, as a `u128`. -/
def joinDigits (low high : ℕ) : ℕ := low ||| high <<< 64 % 2 ^ 128

/-- The lower half of a felt. -/
def feltLowU128 (felt : Felt) : ℕ :=
  let d := toLeDigits felt
  joinDigits d.1 d.2.1

/-- The salt and the hidden amount of a packed note. -/
def unpackNoteAmount (packedAmount : Felt) : ℕ × ℕ :=
  let d := toLeDigits packedAmount
  let encAmount := joinDigits d.1 d.2.1
  let salt := joinDigits d.2.2.1 d.2.2.2
  (salt, encAmount)

/-- `u128::wrapping_sub`. -/
def wrappingSub (a b : ℕ) : ℕ := (a + (2 ^ 128 - b)) % 2 ^ 128

/-- The amount that a note hides. -/
def decryptNoteAmount (encAmount salt : ℕ) (channelKey token : Felt) (index : ℕ) : ℕ :=
  let encAmountHash := computeEncAmountHash sn channelKey token index salt
  wrappingSub encAmount (feltLowU128 encAmountHash)

/-- The amount and the salt of a packed note. -/
def decryptPackedValue (packed channelKey token : Felt) (index : ℕ) : ℕ × ℕ :=
  let (salt, encAmount) := unpackNoteAmount packed
  let amount := if salt = openNoteSalt.val then encAmount
    else decryptNoteAmount sn encAmount salt channelKey token index
  (amount, salt)

/-- The recipient that an outgoing channel hides. -/
def decryptOutgoingRecipientAddr (enc : EncOutgoingChannelInfo) (senderAddr privateKey : Felt)
    (index : ℕ) : Felt :=
  enc.encRecipientAddr - computeEncRecipientAddrHash sn senderAddr privateKey index enc.salt

/-! ### Digits -/

/-- Two digits make the number that they are digits of. -/
theorem joinDigits_eq (n : ℕ) : joinDigits (n % 2 ^ 64) (n / 2 ^ 64 % 2 ^ 64) = n % 2 ^ 128 := by
  have hhigh : (n / 2 ^ 64 % 2 ^ 64) <<< 64 < 2 ^ 128 := by
    rw [Nat.shiftLeft_eq]
    omega
  unfold joinDigits
  rw [Nat.mod_eq_of_lt hhigh, Nat.or_comm, Nat.shiftLeft_eq,
    Nat.mul_comm, ← Nat.two_pow_add_eq_or_of_lt (Nat.mod_lt n (Nat.two_pow_pos 64))]
  omega

theorem feltLowU128_eq (felt : Felt) : feltLowU128 felt = (toU256 felt).2.val :=
  joinDigits_eq felt.val

/-- The digits are the halves that the contract unpacks. -/
theorem unpackNoteAmount_eq (packed : Felt) :
    unpackNoteAmount packed = ((toU256 packed).1.val, (toU256 packed).2.val) := by
  have hsmall : packed.val / 2 ^ 128 % 2 ^ 128 = packed.val / 2 ^ 128 := by
    have := packed.isLt
    refine Nat.mod_eq_of_lt (Nat.div_lt_of_lt_mul (this.trans ?_))
    decide
  have hhigh : joinDigits (packed.val / 2 ^ 128 % 2 ^ 64) (packed.val / 2 ^ 192 % 2 ^ 64) =
      packed.val / 2 ^ 128 := by
    have hjoin := joinDigits_eq (packed.val / 2 ^ 128)
    rwa [Nat.div_div_eq_div_mul, ← pow_add, hsmall] at hjoin
  exact Prod.ext hhigh (joinDigits_eq packed.val)

theorem wrappingSub_eq (a b : U128) : wrappingSub a.val b.val = (a - b).val := by
  rw [wrappingSub, Fin.sub_def, Nat.add_comm]

end Discovery

end PrivacyPool
