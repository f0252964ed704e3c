import PrivacyPool.Contract.Utils

/-!
# Hashes and decryption of the SDK

The TypeScript side of `hashes.ts` and `encryptions.ts`, on integers without a
bound: differences are reduced by hand, with the remainder that takes the sign of
its dividend. As in the discovery service, a point is recovered from its `x`
coordinate by a library of its own.

## Main results

* `fieldDifference_eq` — the reduced difference is the difference of felts
-/

namespace PrivacyPool.Sdk

open Fallible

variable (sn : Starknet)

/-- The modulus of the arithmetic. -/
def fieldPrime : ℤ := feltPrime

/-- The modulus of an encrypted amount. -/
def twoPow128 : ℤ := 2 ^ 128

/-- A tag or an address as a number. -/
def toBigInt (x : Felt) : ℤ := x.val

/-- `poseidonHashMany`, which reads its arguments as field elements. -/
def hash (values : List ℤ) : ℤ :=
  toBigInt (sn.poseidonHashSpan (values.map fun v => Fin.ofNat feltPrime (v % fieldPrime).toNat))

/-! ### Hashes -/

/-- The mask of an encrypted channel key. -/
def computeEncChannelKeyHash (sharedX : ℤ) : ℤ := hash sn [toBigInt encChannelKeyTag, sharedX]

/-- The mask of an encrypted sender. -/
def computeEncSenderAddrHash (sharedX : ℤ) : ℤ := hash sn [toBigInt encSenderAddrTag, sharedX]

/-- The mask of an encrypted token. -/
def computeEncTokenHash (channelKey : ℤ) (index : ℕ) (salt : ℤ) : ℤ :=
  hash sn [toBigInt encTokenTag, channelKey, index, 0, salt]

/-- The mask of an encrypted recipient. -/
def computeEncRecipientAddrHash (senderAddr senderPrivateKey : ℤ) (index : ℕ) (salt : ℤ) : ℤ :=
  hash sn [toBigInt encRecipientAddrTag, senderAddr, senderPrivateKey, index, 0, salt]

/-- The mask of an encrypted amount. -/
def computeEncAmountHash (channelKey token : ℤ) (index : ℕ) (salt : ℤ) : ℤ :=
  hash sn [toBigInt encAmountTag, channelKey, token, index, 0, salt]

/-! ### Decryption -/

/-- The ways the libraries under a decryption throw. -/
inductive CurveError
  | notOnCurve
  | invalidPrivateKey
  | pointAtInfinity
  deriving DecidableEq, Repr

/-- `(((a - b) % FIELD_PRIME) + FIELD_PRIME) % FIELD_PRIME`. -/
def fieldDifference (a b : ℤ) : ℤ :=
  (((a - b).tmod fieldPrime) + fieldPrime).tmod fieldPrime

/-- `getSharedSecret` of the curve library, as an `x` coordinate: a private key
must lie below the order of the curve. -/
def getSharedSecret (privateKey : Felt) (publicPoint : sn.EcPoint) : Except CurveError ℤ := do
  require (0 < privateKey.val ∧ privateKey.val < curveOrder) .invalidPrivateKey
  let sharedX ← expect (sn.x (sn.mul publicPoint privateKey)) .pointAtInfinity
  return toBigInt sharedX

/-- The key and the sender of a channel. `recoverPointFromX` takes a square root of
the curve equation. -/
def decryptChannelInfo (recoverPointFromX : Felt → Option sn.EcPoint) (encrypted : EncChannelInfo)
    (recipientPrivateKey : Felt) : Except CurveError (ℤ × ℤ) := do
  let ephemeralPub ← expect (recoverPointFromX encrypted.ephemeralPubkey) .notOnCurve
  let sharedX ← getSharedSecret sn recipientPrivateKey ephemeralPub
  let key := fieldDifference (toBigInt encrypted.encChannelKey) (computeEncChannelKeyHash sn sharedX)
  let sender :=
    fieldDifference (toBigInt encrypted.encSenderAddr) (computeEncSenderAddrHash sn sharedX)
  return (key, sender)

/-- The token and the salt of a subchannel. -/
def decryptSubchannelInfo (encrypted : EncSubchannelInfo) (channelKey : ℤ) (index : ℕ) : ℤ × ℤ :=
  let salt := toBigInt encrypted.salt
  let encToken := toBigInt encrypted.encToken
  let encTokenHash := computeEncTokenHash sn channelKey index salt
  (fieldDifference encToken encTokenHash, salt)

/-- The amount and the salt of an encrypted note. -/
def decryptNoteAmount (encNoteValue channelKey token : ℤ) (index : ℕ) : ℤ × ℤ :=
  let salt := encNoteValue.tdiv twoPow128
  let encAmount := encNoteValue.tmod twoPow128
  let pad := (computeEncAmountHash sn channelKey token index salt).tmod twoPow128
  ((encAmount + twoPow128 - pad).tmod twoPow128, salt)

/-- The recipient and the salt of an outgoing channel. -/
def decryptOutgoingChannelInfo (encrypted : EncOutgoingChannelInfo)
    (senderAddr senderPrivateKey : ℤ) (index : ℕ) : ℤ × ℤ :=
  let salt := toBigInt encrypted.salt
  let encRecipientAddr := toBigInt encrypted.encRecipientAddr
  let encRecipientAddrHash :=
    computeEncRecipientAddrHash sn senderAddr senderPrivateKey index salt
  (fieldDifference encRecipientAddr encRecipientAddrHash, salt)

/-- The amount and the salt of a note, as `addNoteIfNotSpent` reads them: open notes
are told apart by their salt. -/
def readNoteAmount (packedValue : ℕ) (channelKey token : ℤ) (index : ℕ) : ℤ × ℤ :=
  let packedSalt := packedValue >>> 128
  if packedSalt = 1 then (↑(packedValue &&& (1 <<< 128 - 1)), 1)
  else decryptNoteAmount sn packedValue channelKey token index

/-! ### Integers and felts -/

theorem ofNat_toBigInt (x : Felt) :
    Fin.ofNat feltPrime (toBigInt x % fieldPrime).toNat = x := by
  have hx : (x.val : ℤ) % fieldPrime = x.val := Int.emod_eq_of_lt (by omega) (by
    unfold fieldPrime
    exact_mod_cast x.isLt)
  rw [toBigInt, hx, Int.toNat_natCast]
  exact Fin.ext (Nat.mod_eq_of_lt x.isLt)

/-- The reduced difference is the difference of the felts. -/
theorem fieldDifference_eq (a b : Felt) :
    fieldDifference (toBigInt a) (toBigInt b) = toBigInt (a - b) := by
  have ha : (a.val : ℤ) < fieldPrime := Int.ofNat_lt.mpr a.isLt
  have hb : (b.val : ℤ) < fieldPrime := Int.ofNat_lt.mpr b.isLt
  have hdifference : ((a.val : ℤ) - b.val).tmod fieldPrime = a.val - b.val := by
    rcases le_total b.val a.val with hle | hle
    · exact Int.tmod_eq_of_lt (by omega) (by omega)
    · rw [← neg_sub, Int.neg_tmod, Int.tmod_eq_of_lt (by omega) (by omega), neg_sub]
  rw [fieldDifference, toBigInt, toBigInt, hdifference, Int.tmod_eq_emod_of_nonneg (by omega),
    toBigInt, Fin.sub_def]
  unfold fieldPrime at *
  push_cast [Nat.cast_sub b.isLt.le]
  congr 1
  omega

end PrivacyPool.Sdk
