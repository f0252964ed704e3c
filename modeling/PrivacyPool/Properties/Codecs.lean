import PrivacyPool.Discovery.Decryption
import PrivacyPool.Sdk.Encryptions
import PrivacyPool.System.Assumptions

/-!
# Three implementations of one format

The contract, the discovery service and the SDK each read the records of the pool
with code of their own. They take a packed note apart differently and subtract the
masks in different arithmetics, and still they recover what the contract
encrypted. Only `decryptNoteAmount` of the SDK is not meant for open notes, whose
amount its caller reads off without it.

## Main results

* `computeSharedX_recover` — both sides of a key exchange find the same secret
* `codecs_agree` — all three decode what the contract encrypts
-/

namespace PrivacyPool

open Fallible

variable {sn : Starknet} {salt amount : U128} {packed channelKey : Felt}
  {token : ContractAddress} {index : Usize}

/-! ### Packed notes -/

/-- A salt of 120 bits can be packed with any amount. -/
theorem exists_pack (hsalt : salt < twoPow120) (amount : U128) :
    ∃ packed, pack salt amount = .ok packed := by
  have hsmall : salt.val < 2 ^ 120 := hsalt
  have hlow := amount.isLt
  have hfits : salt.val * 2 ^ 128 + amount.val < feltPrime := by
    unfold feltPrime
    omega
  exact ⟨⟨_, hfits⟩, by rw [pack, ofU256, dif_pos hfits]; rfl⟩

theorem openNoteSalt_lt : openNoteSalt < twoPow120 := by decide

theorem val_eq_of_pack (h : pack salt amount = .ok packed) :
    packed.val = salt.val * 2 ^ 128 + amount.val := by
  have hhalves := toU256_of_ofU256 (expect_eq_ok.mp h)
  have hhigh : packed.val / 2 ^ 128 = salt.val := congrArg (fun p => p.1.val) hhalves
  have hlow : packed.val % 2 ^ 128 = amount.val := congrArg (fun p => p.2.val) hhalves
  omega

namespace Discovery

theorem decryptNoteAmount_eq (encAmount salt : U128) :
    decryptNoteAmount sn encAmount.val salt.val channelKey (ContractAddress.toFelt token)
      index.val = (sn.decryptNoteAmount encAmount salt channelKey token index).val := by
  rw [decryptNoteAmount, feltLowU128_eq, wrappingSub_eq, computeEncAmountHash, feltOfNat_usize,
    feltOfNat_u128]
  rfl

/-- The service reads a note as the contract does. -/
theorem decryptPackedValue_of_pack (h : pack salt amount = .ok packed) :
    decryptPackedValue sn packed channelKey (ContractAddress.toFelt token) index.val =
      (if salt = openNoteSalt then amount.val
        else (sn.decryptNoteAmount amount salt channelKey token index).val, salt.val) := by
  unfold decryptPackedValue
  rw [unpackNoteAmount_eq, toU256_of_ofU256 (expect_eq_ok.mp h)]
  simp only [decryptNoteAmount_eq, Fin.val_inj]

end Discovery

namespace Sdk

theorem hash_eq (span : List Felt) :
    hash sn (span.map toBigInt) = toBigInt (sn.poseidonHashSpan span) := by
  rw [hash, List.map_map]
  congr 2
  exact (List.map_congr_left fun x _ => ofNat_toBigInt x).trans (List.map_id span)

theorem computeEncAmountHash_eq (salt : U128) :
    computeEncAmountHash sn (toBigInt channelKey) (toBigInt (ContractAddress.toFelt token))
      index.val salt.val = toBigInt (sn.computeEncAmountHash channelKey token index salt) :=
  hash_eq (encAmountSpan channelKey token index salt)

/-- The SDK subtracts the mask of a packed note as the contract does. -/
theorem decryptNoteAmount_of_pack (h : pack salt amount = .ok packed) :
    decryptNoteAmount sn (toBigInt packed) (toBigInt channelKey)
        (toBigInt (ContractAddress.toFelt token)) index.val =
      (((sn.decryptNoteAmount amount salt channelKey token index).val : ℤ), (salt.val : ℤ)) := by
  have hpacked : toBigInt packed = (salt.val * 2 ^ 128 + amount.val : ℕ) := by
    rw [toBigInt, val_eq_of_pack h]
  have hlow := amount.isLt
  have hsalt : (toBigInt packed).tdiv twoPow128 = salt.val := by
    rw [hpacked, twoPow128, Int.tdiv_eq_ediv_of_nonneg (Int.natCast_nonneg _)]
    omega
  have hamount : (toBigInt packed).tmod twoPow128 = amount.val := by
    rw [hpacked, twoPow128, Int.tmod_eq_emod_of_nonneg (Int.natCast_nonneg _)]
    omega
  simp only [decryptNoteAmount, hsalt, hamount, computeEncAmountHash_eq]
  refine Prod.ext ?_ rfl
  -- The pad is the low half of the mask.
  have hpad : (toBigInt (sn.computeEncAmountHash channelKey token index salt)).tmod twoPow128 =
      (toU256 (sn.computeEncAmountHash channelKey token index salt)).2.val := by
    rw [toBigInt, twoPow128, Int.tmod_eq_emod_of_nonneg (Int.natCast_nonneg _)]
    rfl
  have hmask := (toU256 (sn.computeEncAmountHash channelKey token index salt)).2.isLt
  change ((amount.val : ℤ) + twoPow128 - _).tmod twoPow128 = _
  rw [hpad, Starknet.decryptNoteAmount, Fin.sub_def, twoPow128,
    Int.tmod_eq_emod_of_nonneg (by omega)]
  push_cast [Nat.cast_sub hmask.le]
  congr 1
  omega

/-- The SDK reads an open note off without the mask. -/
theorem readNoteAmount_of_pack_open (h : pack openNoteSalt amount = .ok packed) :
    readNoteAmount sn packed.val (toBigInt channelKey)
      (toBigInt (ContractAddress.toFelt token)) index.val = ((amount.val : ℤ), 1) := by
  have hpacked := val_eq_of_pack h
  have hone : openNoteSalt.val = 1 := rfl
  have hlow := amount.isLt
  have hsalt : packed.val >>> 128 = 1 := by
    rw [Nat.shiftRight_eq_div_pow]
    omega
  have hamount : packed.val &&& (1 <<< 128 - 1) = amount.val := by
    rw [Nat.one_shiftLeft, Nat.and_two_pow_sub_one_eq_mod]
    omega
  rw [readNoteAmount, if_pos hsalt, hamount]

/-- The SDK reads other notes with the mask. -/
theorem readNoteAmount_of_pack (hsmall : openNoteSalt < salt) (h : pack salt amount = .ok packed) :
    readNoteAmount sn packed.val (toBigInt channelKey)
        (toBigInt (ContractAddress.toFelt token)) index.val =
      decryptNoteAmount sn (toBigInt packed) (toBigInt channelKey)
        (toBigInt (ContractAddress.toFelt token)) index.val := by
  have hpacked := val_eq_of_pack h
  have hone : 1 < salt.val := hsmall
  have hlow := amount.isLt
  have hsalt : packed.val >>> 128 ≠ 1 := by
    rw [Nat.shiftRight_eq_div_pow]
    omega
  rw [readNoteAmount, if_neg hsalt]
  rfl

end Sdk

/-! ### Channels -/

/-- Both sides of the key exchange of a channel find the same shared secret, however
they recover points from coordinates. -/
theorem computeSharedX_recover (hcurve : CurveLaw sn) {recover : Felt → Option sn.EcPoint}
    (hrecover : RecoversPoints sn recover)
    {ephemeralSecret privateKey publicKey ephemeralPubX sharedX : Felt}
    (hkey : sn.derivePublicKey privateKey = .ok publicKey)
    (h : sn.computeSharedX ephemeralSecret publicKey = .ok (ephemeralPubX, sharedX)) :
    ∃ point, recover ephemeralPubX = some point ∧ sn.x (sn.mul point privateKey) = some sharedX := by
  simp only [Starknet.computeSharedX, bind_eq_ok, expect_eq_ok, pure_eq_ok, Prod.mk.injEq] at h
  obtain ⟨_, hephemeral, publicPoint, hpublic, _, hshared, rfl, rfl⟩ := h
  obtain ⟨point, hpoint⟩ := Option.isSome_iff_exists.mp (hrecover.isSome hephemeral)
  refine ⟨point, hpoint, ?_⟩
  -- `k • (± r G)` and `r • (± k G)` have the same coordinate.
  calc sn.x (sn.mul point privateKey)
      = sn.x (sn.mul (sn.mul sn.genP ephemeralSecret) privateKey) :=
        hcurve.x_mul privateKey (hrecover.x_eq hpoint) hephemeral
    _ = sn.x (sn.mul (sn.mul sn.genP privateKey) ephemeralSecret) := by
        rw [hcurve.mul_mul_comm]
    _ = sn.x (sn.mul publicPoint ephemeralSecret) :=
        hcurve.x_mul ephemeralSecret (expect_eq_ok.mp hkey) (hcurve.newFromX_x hpublic)
    _ = some _ := hshared

section Channel

variable {newFromX recoverPointFromX : Felt → Option sn.EcPoint}
  {ephemeralSecret privateKey publicKey : Felt} {senderAddr : ContractAddress}
  {enc : EncChannelInfo}

theorem Discovery.decryptChannelInfo_encryptChannelInfo (hcurve : CurveLaw sn)
    (hrecover : RecoversPoints sn newFromX) (hkey : sn.derivePublicKey privateKey = .ok publicKey)
    (h : sn.encryptChannelInfo ephemeralSecret publicKey channelKey senderAddr = .ok enc) :
    decryptChannelInfo sn newFromX enc privateKey =
      .ok ⟨channelKey, ContractAddress.toFelt senderAddr⟩ := by
  obtain ⟨⟨ephemeralPubX, sharedX⟩, hshared, h⟩ := bind_eq_ok.mp h
  obtain rfl := pure_eq_ok.mp h
  obtain ⟨point, hpoint, hx⟩ := computeSharedX_recover hcurve hrecover hkey hshared
  refine bind_eq_ok.mpr ⟨point, expect_eq_ok.mpr hpoint, ?_⟩
  rw [hx, Option.getD_some, pure_eq_ok]
  exact congrArg₂ ChannelInfo.mk (add_sub_cancel_left _ _) (add_sub_cancel_left _ _)

theorem Sdk.decryptChannelInfo_encryptChannelInfo (hcurve : CurveLaw sn)
    (hrecover : RecoversPoints sn recoverPointFromX) (hzero : privateKey ≠ 0)
    (hcanonical : isCanonicalKey privateKey)
    (hkey : sn.derivePublicKey privateKey = .ok publicKey)
    (h : sn.encryptChannelInfo ephemeralSecret publicKey channelKey senderAddr = .ok enc) :
    decryptChannelInfo sn recoverPointFromX enc privateKey =
      .ok (toBigInt channelKey, toBigInt (ContractAddress.toFelt senderAddr)) := by
  obtain ⟨⟨ephemeralPubX, sharedX⟩, hshared, h⟩ := bind_eq_ok.mp h
  obtain rfl := pure_eq_ok.mp h
  obtain ⟨point, hpoint, hx⟩ := computeSharedX_recover hcurve hrecover hkey hshared
  have hpos : 0 < privateKey.val := Nat.pos_of_ne_zero fun h => hzero (Fin.ext h)
  have hlt : privateKey.val < curveOrder :=
    lt_of_lt_of_le hcanonical (Nat.div_le_self curveOrder 2)
  have hsecret : getSharedSecret sn privateKey point = .ok (toBigInt sharedX) := by
    simp only [getSharedSecret, bind_eq_ok, require_eq_ok, expect_eq_ok, pure_eq_ok]
    exact ⟨(), ⟨hpos, hlt⟩, sharedX, hx, rfl⟩
  refine bind_eq_ok.mpr ⟨point, expect_eq_ok.mpr hpoint, bind_eq_ok.mpr ⟨_, hsecret, ?_⟩⟩
  have hkeyHash : computeEncChannelKeyHash sn (toBigInt sharedX) =
      toBigInt (sn.computeEncChannelKeyHash sharedX) := hash_eq [encChannelKeyTag, sharedX]
  have hsenderHash : computeEncSenderAddrHash sn (toBigInt sharedX) =
      toBigInt (sn.computeEncSenderAddrHash sharedX) := hash_eq [encSenderAddrTag, sharedX]
  rw [hkeyHash, hsenderHash, fieldDifference_eq, fieldDifference_eq, add_sub_cancel_left,
    add_sub_cancel_left]
  rfl

end Channel

theorem Sdk.decryptSubchannelInfo_encryptSubchannelInfo (salt : Felt) :
    decryptSubchannelInfo sn (sn.encryptSubchannelInfo channelKey index token salt)
        (toBigInt channelKey) index.val =
      (toBigInt (ContractAddress.toFelt token), toBigInt salt) := by
  have hmask : computeEncTokenHash sn (toBigInt channelKey) index.val (toBigInt salt) =
      toBigInt (sn.computeEncTokenHash channelKey index salt) :=
    hash_eq (encTokenSpan channelKey index salt)
  simp only [decryptSubchannelInfo, Starknet.encryptSubchannelInfo]
  rw [hmask, fieldDifference_eq, add_sub_cancel_left]

theorem Sdk.decryptOutgoingChannelInfo_encryptOutgoingChannelInfo
    (senderAddr recipientAddr : ContractAddress) (senderPrivateKey salt : Felt) :
    decryptOutgoingChannelInfo sn
        (sn.encryptOutgoingChannelInfo senderAddr senderPrivateKey index recipientAddr salt)
        (toBigInt (ContractAddress.toFelt senderAddr)) (toBigInt senderPrivateKey) index.val =
      (toBigInt (ContractAddress.toFelt recipientAddr), toBigInt salt) := by
  have hmask : computeEncRecipientAddrHash sn (toBigInt (ContractAddress.toFelt senderAddr))
      (toBigInt senderPrivateKey) index.val (toBigInt salt) =
        toBigInt (sn.computeEncRecipientAddrHash senderAddr senderPrivateKey index salt) :=
    hash_eq (encRecipientAddrSpan senderAddr senderPrivateKey index salt)
  simp only [decryptOutgoingChannelInfo, Starknet.encryptOutgoingChannelInfo]
  rw [hmask, fieldDifference_eq, add_sub_cancel_left]

theorem Discovery.decryptSubchannelToken_encryptSubchannelInfo (salt : Felt) :
    decryptSubchannelToken sn (sn.encryptSubchannelInfo channelKey index token salt) channelKey
      index.val = ContractAddress.toFelt token := by
  have hmask : computeEncTokenHash sn channelKey index.val salt =
      sn.computeEncTokenHash channelKey index salt := by
    rw [computeEncTokenHash, feltOfNat_usize]
    rfl
  rw [decryptSubchannelToken, Starknet.encryptSubchannelInfo, hmask, add_sub_cancel_left]

theorem Discovery.decryptOutgoingRecipientAddr_encryptOutgoingChannelInfo
    (senderAddr recipientAddr : ContractAddress) (senderPrivateKey salt : Felt) :
    decryptOutgoingRecipientAddr sn
        (sn.encryptOutgoingChannelInfo senderAddr senderPrivateKey index recipientAddr salt)
        (ContractAddress.toFelt senderAddr) senderPrivateKey index.val =
      ContractAddress.toFelt recipientAddr := by
  have hmask : computeEncRecipientAddrHash sn (ContractAddress.toFelt senderAddr) senderPrivateKey
      index.val salt = sn.computeEncRecipientAddrHash senderAddr senderPrivateKey index salt := by
    rw [computeEncRecipientAddrHash, feltOfNat_usize]
    rfl
  rw [decryptOutgoingRecipientAddr, Starknet.encryptOutgoingChannelInfo, hmask,
    add_sub_cancel_left]

/-! ### Agreement -/

/-- **Agreement of the codecs.** The packed value of an encrypted note decodes to
its amount, and where the salt is returned to its salt, in the contract, in the
discovery service and in the SDK. The value of an open note decodes to its amount
in the contract, in the service and in the note reading of the SDK. With the right
key the service and the SDK recover the key and sender of a channel, the token of
a subchannel and the recipient of an outgoing channel. -/
theorem codecs_agree (hcurve : CurveLaw sn) {newFromX recoverPointFromX : Felt → Option sn.EcPoint}
    (hservice : RecoversPoints sn newFromX) (hsdk : RecoversPoints sn recoverPointFromX) :
    (∀ channelKey token (index : Usize) (salt amount : U128), openNoteSalt < salt →
      salt < twoPow120 → ∃ packed,
        sn.encNotePackedValue channelKey token index salt amount = .ok packed ∧
        sn.decodeNoteAmount packed channelKey token index = .ok amount ∧
        Discovery.decryptPackedValue sn packed channelKey (ContractAddress.toFelt token) index.val =
          (amount.val, salt.val) ∧
        Sdk.decryptNoteAmount sn (Sdk.toBigInt packed) (Sdk.toBigInt channelKey)
          (Sdk.toBigInt (ContractAddress.toFelt token)) index.val =
            ((amount.val : ℤ), (salt.val : ℤ)) ∧
        Sdk.readNoteAmount sn packed.val (Sdk.toBigInt channelKey)
          (Sdk.toBigInt (ContractAddress.toFelt token)) index.val =
            ((amount.val : ℤ), (salt.val : ℤ))) ∧
    (∀ channelKey token (index : Usize) (amount : U128), ∃ packed,
      pack openNoteSalt amount = .ok packed ∧
      sn.decodeNoteAmount packed channelKey token index = .ok amount ∧
      Discovery.decryptPackedValue sn packed channelKey (ContractAddress.toFelt token) index.val =
        (amount.val, openNoteSalt.val) ∧
      Sdk.readNoteAmount sn packed.val (Sdk.toBigInt channelKey)
        (Sdk.toBigInt (ContractAddress.toFelt token)) index.val = ((amount.val : ℤ), 1)) ∧
    (∀ ephemeralSecret privateKey publicKey channelKey senderAddr enc, privateKey ≠ 0 →
      isCanonicalKey privateKey → sn.derivePublicKey privateKey = .ok publicKey →
      sn.encryptChannelInfo ephemeralSecret publicKey channelKey senderAddr = .ok enc →
        Discovery.decryptChannelInfo sn newFromX enc privateKey =
          .ok ⟨channelKey, ContractAddress.toFelt senderAddr⟩ ∧
        Sdk.decryptChannelInfo sn recoverPointFromX enc privateKey =
          .ok (Sdk.toBigInt channelKey, Sdk.toBigInt (ContractAddress.toFelt senderAddr))) ∧
    (∀ channelKey (index : Usize) token salt,
      Discovery.decryptSubchannelToken sn (sn.encryptSubchannelInfo channelKey index token salt)
        channelKey index.val = ContractAddress.toFelt token ∧
      Sdk.decryptSubchannelInfo sn (sn.encryptSubchannelInfo channelKey index token salt)
        (Sdk.toBigInt channelKey) index.val =
          (Sdk.toBigInt (ContractAddress.toFelt token), Sdk.toBigInt salt)) ∧
    (∀ senderAddr senderPrivateKey (index : Usize) recipientAddr salt,
      Discovery.decryptOutgoingRecipientAddr sn
        (sn.encryptOutgoingChannelInfo senderAddr senderPrivateKey index recipientAddr salt)
        (ContractAddress.toFelt senderAddr) senderPrivateKey index.val =
          ContractAddress.toFelt recipientAddr ∧
      Sdk.decryptOutgoingChannelInfo sn
        (sn.encryptOutgoingChannelInfo senderAddr senderPrivateKey index recipientAddr salt)
        (Sdk.toBigInt (ContractAddress.toFelt senderAddr)) (Sdk.toBigInt senderPrivateKey)
        index.val = (Sdk.toBigInt (ContractAddress.toFelt recipientAddr), Sdk.toBigInt salt)) := by
  refine ⟨?_, ?_, ?_, ?_, ?_⟩
  · intro channelKey token index salt amount hsmall hlarge
    obtain ⟨packed, hpacked⟩ :=
      exists_pack hlarge (sn.encryptNoteAmount channelKey token index salt amount)
    have hdecrypt : sn.decryptNoteAmount (sn.encryptNoteAmount channelKey token index salt amount)
        salt channelKey token index = amount := add_sub_cancel_left _ _
    refine ⟨packed, hpacked, decodeNoteAmount_encNotePackedValue sn hsmall hlarge hpacked, ?_, ?_,
      ?_⟩
    · rw [Discovery.decryptPackedValue_of_pack hpacked, if_neg hsmall.ne', hdecrypt]
    · rw [Sdk.decryptNoteAmount_of_pack hpacked, hdecrypt]
    · rw [Sdk.readNoteAmount_of_pack hsmall hpacked, Sdk.decryptNoteAmount_of_pack hpacked, hdecrypt]
  · intro channelKey token index amount
    obtain ⟨packed, hpacked⟩ := exists_pack openNoteSalt_lt amount
    refine ⟨packed, hpacked, decodeNoteAmount_pack_open sn hpacked, ?_,
      Sdk.readNoteAmount_of_pack_open hpacked⟩
    rw [Discovery.decryptPackedValue_of_pack hpacked, if_pos rfl]
  · intro ephemeralSecret privateKey publicKey channelKey senderAddr enc hzero hcanonical hkey henc
    exact ⟨Discovery.decryptChannelInfo_encryptChannelInfo hcurve hservice hkey henc,
      Sdk.decryptChannelInfo_encryptChannelInfo hcurve hsdk hzero hcanonical hkey henc⟩
  · intro channelKey index token salt
    exact ⟨Discovery.decryptSubchannelToken_encryptSubchannelInfo salt,
      Sdk.decryptSubchannelInfo_encryptSubchannelInfo salt⟩
  · intro senderAddr senderPrivateKey index recipientAddr salt
    exact ⟨Discovery.decryptOutgoingRecipientAddr_encryptOutgoingChannelInfo _ _ _ _,
      Sdk.decryptOutgoingChannelInfo_encryptOutgoingChannelInfo _ _ _ _⟩

/-- On the sample platform, user 5 has the private key 3 and a channel with key 1,
and the two other libraries recover points of the other sign. -/
theorem codecs_agree_sample :
    ∃ enc, Starknet.sample.encryptChannelInfo 2 3 1 5 = .ok enc ∧
      Discovery.decryptChannelInfo Starknet.sample Starknet.sampleRecover enc 3 = .ok ⟨1, 5⟩ ∧
      Sdk.decryptChannelInfo Starknet.sample Starknet.sampleRecover enc 3 = .ok (1, 5) := by
  have henc : Starknet.sample.encryptChannelInfo 2 3 1 5 =
      .ok (valueOr ⟨0, 0, 0⟩ (Starknet.sample.encryptChannelInfo 2 3 1 5)) :=
    eq_ok_valueOr _ (by decide +kernel)
  exact ⟨_, henc, (codecs_agree Starknet.sample_curveLaw Starknet.sample_recoversPoints
    Starknet.sample_recoversPoints).2.2.1 2 3 3 1 5 _ (by decide) (by decide +kernel)
    (by decide +kernel) henc⟩

/-- The SDK's `decryptNoteAmount` subtracts the mask from the plain amount of an
open note: it does not return the amount 40. -/
theorem sdk_decryptNoteAmount_open_note :
    ∃ packed, pack openNoteSalt 40 = .ok packed ∧
      (Sdk.decryptNoteAmount Starknet.sample (Sdk.toBigInt packed) 1 77 1).1 ≠ 40 :=
  ⟨⟨2 ^ 128 + 40, by decide⟩, by decide +kernel, by decide +kernel⟩

end PrivacyPool
