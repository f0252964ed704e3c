import Mathlib.Data.ZMod.Basic
import PrivacyPool.Base.Bytes
import PrivacyPool.Signers.Numbers
import PrivacyPool.System.Assumptions

/-!
# Viewing keys from passphrases

`viewing-key.ts` of the client: a passphrase is packed into felts, hashed many times with
the address, and the hash is folded into the lower half of the scalars of the curve.

## Main definitions

* `passphraseToFelts` — the length of a passphrase and its bytes, 31 in a felt
* `canonicalViewingKey` — a scalar and its opposite have one key
* `deriveViewingKey` — the viewing key of a passphrase and an address
* `CurveGroup` — the points of the curve as a group

## Main results

* `passphraseToFelts_injective` — passphrases have different felts
* `canonicalViewingKey_canonical` — the key is one that the contract takes
* `derivePublicKey_canonicalViewingKey` — it has the public key of the scalar
-/

namespace PrivacyPool.Client

open Signers

/-- The output of one hash is folded in this many rounds. -/
def KDF_ROUNDS : ℕ := 1000

/-- A felt holds 31 bytes, whatever they are. -/
def BYTES_PER_FELT : ℕ := 31

/-- The code units of a character. -/
def codeUnits (c : Char) : ℕ := if c.val ≤ 0xffff then 1 else 2

/-- A string of the language, which is well-formed and has at most `2 ^ 53 - 1` code
units. -/
structure JsString where
  text : String
  length_lt : (text.toList.map codeUnits).sum < 2 ^ 53

/-- `new TextEncoder().encode`, of a well-formed string -/
def encode (s : String) : List UInt8 := s.toList.flatMap String.utf8EncodeChar

/-- Bytes of a limb, most significant first. -/
def limbOf (bytes : List UInt8) : ℕ :=
  bytes.foldl (fun limb byte => (limb <<< 8) ||| byte.toNat) 0

/-- The offsets below a length, a limb apart. -/
def offsets (length : ℕ) : List ℕ :=
  List.range' 0 ((length + BYTES_PER_FELT - 1) / BYTES_PER_FELT) BYTES_PER_FELT

/-- The length of the bytes of a passphrase, and then its limbs. -/
def passphraseToFelts (passphrase : String) : List ℕ :=
  let bytes := encode passphrase
  bytes.length :: (offsets bytes.length).map fun offset =>
    limbOf ((bytes.drop offset).take BYTES_PER_FELT)

/-- The hash that a viewing key is folded from. -/
def hashPassphrase (poseidonHashMany : List ℕ → ℕ) (passphrase : String) (salt : ℕ) : ℕ :=
  (fun key => poseidonHashMany [key, salt])^[KDF_ROUNDS - 1]
    (poseidonHashMany (passphraseToFelts passphrase ++ [salt]))

/-- A scalar, folded into the lower half of the scalars. The three that have no fold there become
one. -/
def canonicalViewingKey (key : ℕ) : ℕ :=
  let scalar := key % curveOrder
  let scalar := if scalar ≥ halfOrder then curveOrder - scalar else scalar
  if scalar = 0 ∨ scalar ≥ halfOrder then 1 else scalar

/-- Absent where the address cannot be read. -/
def deriveViewingKey (poseidonHashMany : List ℕ → ℕ) (passphrase : String)
    (address : BigNumberish) : Option ℕ :=
  (toFelt address).map fun salt =>
    canonicalViewingKey (hashPassphrase poseidonHashMany passphrase salt)

/-! ### Bytes -/

theorem encode_injective : Function.Injective encode := by
  intro s t h
  apply String.toByteArray_inj.mp
  rw [← String.utf8Encode_toList, ← String.utf8Encode_toList]
  exact congrArg List.toByteArray h

/-- A character has at most three bytes for each of its code units. -/
theorem length_utf8EncodeChar_le (c : Char) :
    (String.utf8EncodeChar c).length ≤ 3 * codeUnits c := by
  rw [String.length_utf8EncodeChar]
  unfold codeUnits
  split_ifs with hsmall
  · have hfour : c.utf8Size ≠ 4 := fun h =>
      absurd (Char.utf8Size_eq_four_iff.mp h) (UInt32.not_lt.mpr hsmall)
    have hle := c.utf8Size_le_four
    omega
  · have hle := c.utf8Size_le_four
    omega

theorem length_encode_le (s : String) :
    (encode s).length ≤ 3 * (s.toList.map codeUnits).sum := by
  unfold encode
  induction s.toList with
  | nil => exact le_rfl
  | cons c chars ih =>
    have hchar := length_utf8EncodeChar_le c
    rw [List.flatMap_cons, List.length_append, List.map_cons, List.sum_cons]
    omega

/-- A limb is the number of its bytes. -/
theorem limbOf_eq (bytes : List UInt8) : limbOf bytes = Bytes.digest bytes := by
  unfold limbOf Bytes.digest
  congr 1
  funext limb byte
  rw [← Nat.shiftLeft_add_eq_or_of_lt (i := 8) byte.toNat_lt, Nat.shiftLeft_eq]

theorem mem_offsets {length offset : ℕ} :
    offset ∈ offsets length ↔ BYTES_PER_FELT ∣ offset ∧ offset < length := by
  unfold offsets BYTES_PER_FELT
  rw [List.mem_range']
  constructor
  · rintro ⟨i, hi, rfl⟩
    exact ⟨⟨i, zero_add _⟩, by omega⟩
  · rintro ⟨⟨i, rfl⟩, hlt⟩
    exact ⟨i, by omega, (zero_add _).symm⟩

/-- Byte strings of one length with the same limbs are the same. -/
theorem eq_of_limbs {bytes bytes' : List UInt8} (hlength : bytes.length = bytes'.length)
    (hlimbs : ∀ offset ∈ offsets bytes.length,
      limbOf ((bytes.drop offset).take BYTES_PER_FELT) =
        limbOf ((bytes'.drop offset).take BYTES_PER_FELT)) : bytes = bytes' := by
  refine List.ext_getElem hlength fun i hi hi' => ?_
  -- The byte is in the limb at the multiple of 31 below it.
  let offset := BYTES_PER_FELT * (i / BYTES_PER_FELT)
  have hdiv := Nat.div_add_mod i BYTES_PER_FELT
  have hmod : i % BYTES_PER_FELT < BYTES_PER_FELT := Nat.mod_lt i (by decide)
  have hoffset : offset ∈ offsets bytes.length :=
    mem_offsets.mpr ⟨Nat.dvd_mul_right _ _, by omega⟩
  have hchunk : (bytes.drop offset).take BYTES_PER_FELT =
      (bytes'.drop offset).take BYTES_PER_FELT := by
    have hlimb := hlimbs offset hoffset
    rw [limbOf_eq, limbOf_eq] at hlimb
    refine Bytes.digest_inj ?_ hlimb
    rw [List.length_take, List.length_take, List.length_drop, List.length_drop, hlength]
  have hat : ∀ bytes : List UInt8,
      ((bytes.drop offset).take BYTES_PER_FELT)[i % BYTES_PER_FELT]? = bytes[i]? := by
    intro bytes
    rw [List.getElem?_take_of_lt hmod, List.getElem?_drop, hdiv]
  have hbyte : bytes[i]? = bytes'[i]? := by
    rw [← hat bytes, ← hat bytes', hchunk]
  rwa [List.getElem?_eq_getElem hi, List.getElem?_eq_getElem hi', Option.some_inj] at hbyte

/-- Passphrases have different felts. -/
theorem passphraseToFelts_injective : Function.Injective passphraseToFelts := by
  intro s t h
  obtain ⟨hlength, hlimbs⟩ := List.cons.inj h
  refine encode_injective (eq_of_limbs hlength fun offset hoffset => ?_)
  rw [← hlength] at hlimbs
  exact List.map_inj_left.mp hlimbs offset hoffset

/-- The limbs are felts. -/
theorem passphraseToFelts_lt (passphrase : JsString) :
    ∀ limb ∈ passphraseToFelts passphrase.text, limb < feltPrime := by
  intro limb hlimb
  rcases List.mem_cons.mp hlimb with rfl | hlimb
  · have hle := length_encode_le passphrase.text
    have hlt := passphrase.length_lt
    have hprime : 3 * 2 ^ 53 < feltPrime := by decide
    omega
  · obtain ⟨offset, -, rfl⟩ := List.mem_map.mp hlimb
    rw [limbOf_eq]
    refine (Bytes.digest_lt _).trans_le ?_
    have hlength : (((encode passphrase.text).drop offset).take BYTES_PER_FELT).length ≤
        BYTES_PER_FELT := List.length_take_le _ _
    exact (Nat.pow_le_pow_right (by decide) hlength).trans (by decide)

/-! ### Keys -/

/-- The order of the curve is odd, and one more than twice its half. -/
theorem curveOrder_eq : curveOrder = 2 * halfOrder + 1 := by decide +kernel

theorem halfOrder_lt : 1 < halfOrder ∧ halfOrder < feltPrime := by decide +kernel

/-- The scalars whose keys fall back. -/
def IsFixedPoint (scalar : ℕ) : Prop :=
  scalar = 0 ∨ scalar = halfOrder ∨ scalar = halfOrder + 1

/-- The key is the scalar or its opposite, whichever is in the lower half, and else one. -/
theorem canonicalViewingKey_eq (key : ℕ) :
    IsFixedPoint (key % curveOrder) ∧ canonicalViewingKey key = 1 ∨
      ¬IsFixedPoint (key % curveOrder) ∧ 0 < canonicalViewingKey key ∧
        canonicalViewingKey key < halfOrder ∧
        (canonicalViewingKey key = key % curveOrder ∨
          canonicalViewingKey key = curveOrder - key % curveOrder) := by
  have horder := curveOrder_eq
  have hhalf := halfOrder_lt.1
  have hlt : key % curveOrder < curveOrder := Nat.mod_lt _ (by omega)
  unfold canonicalViewingKey IsFixedPoint
  dsimp only
  generalize key % curveOrder = scalar at hlt
  split_ifs <;> omega

/-- The key is in the lower half of the scalars, and not zero. -/
theorem canonicalViewingKey_bounds (key : ℕ) :
    0 < canonicalViewingKey key ∧ canonicalViewingKey key < halfOrder := by
  have hone := halfOrder_lt.1
  rcases canonicalViewingKey_eq key with ⟨-, h⟩ | ⟨-, hpos, hlt, -⟩
  · omega
  · exact ⟨hpos, hlt⟩

/-- The key is one that the contract takes. -/
theorem canonicalViewingKey_canonical (key : ℕ) :
    Fin.ofNat feltPrime (canonicalViewingKey key) ≠ 0 ∧
      isCanonicalKey (Fin.ofNat feltPrime (canonicalViewingKey key)) := by
  obtain ⟨hpos, hlt⟩ := canonicalViewingKey_bounds key
  have hval : (Fin.ofNat feltPrime (canonicalViewingKey key)).val = canonicalViewingKey key :=
    Nat.mod_eq_of_lt (hlt.trans halfOrder_lt.2)
  refine ⟨fun hzero => ?_, ?_⟩
  · rw [hzero] at hval
    exact absurd hval.symm hpos.ne'
  · unfold isCanonicalKey
    rw [hval]
    exact hlt

/-- The points of the curve as elements of a group: the contract multiplies in the group, the
generator has the order of the curve, and opposite points have the same coordinate. -/
structure CurveGroup (sn : Starknet) {G : Type} [AddCommGroup G] (toGroup : sn.EcPoint → G) :
    Prop where
  mul : ∀ point scalar, toGroup (sn.mul point scalar) = scalar.val • toGroup point
  order : curveOrder • toGroup sn.genP = 0
  x_neg : ∀ point point', toGroup point = -toGroup point' → sn.x point = sn.x point'

section PublicKey

variable {sn : Starknet} {G : Type} [AddCommGroup G] {toGroup : sn.EcPoint → G}

/-- Opposite scalars have the same public key. -/
theorem derivePublicKey_opposite (hgroup : CurveGroup sn toGroup) {scalar : ℕ}
    (hlt : scalar ≤ curveOrder) :
    sn.derivePublicKey (Fin.ofNat feltPrime (curveOrder - scalar)) =
      sn.derivePublicKey (Fin.ofNat feltPrime scalar) := by
  have horder : curveOrder < feltPrime := by decide
  have hval : (Fin.ofNat feltPrime (curveOrder - scalar)).val = curveOrder - scalar :=
    Nat.mod_eq_of_lt (by omega)
  have hval' : (Fin.ofNat feltPrime scalar).val = scalar := Nat.mod_eq_of_lt (by omega)
  unfold Starknet.derivePublicKey
  refine congrArg₂ Fallible.expect (hgroup.x_neg _ _ ?_) rfl
  rw [hgroup.mul, hgroup.mul, hval, hval', sub_nsmul _ hlt, hgroup.order, zero_add]

/-- The key has the public key of the scalar, except for three scalars. -/
theorem derivePublicKey_canonicalViewingKey (hgroup : CurveGroup sn toGroup) {key : ℕ}
    (hkey : ¬IsFixedPoint (key % curveOrder)) :
    sn.derivePublicKey (Fin.ofNat feltPrime (canonicalViewingKey key)) =
      sn.derivePublicKey (Fin.ofNat feltPrime (key % curveOrder)) := by
  rcases canonicalViewingKey_eq key with ⟨hfixed, -⟩ | ⟨-, -, -, hsame | hopposite⟩
  · exact absurd hfixed hkey
  · rw [hsame]
  · rw [hopposite]
    exact derivePublicKey_opposite hgroup (Nat.mod_lt _ (by decide)).le

end PublicKey

/-! ### The sample platform -/

/-- The points of the sample platform are multiples of its generator. -/
theorem sample_curveGroup :
    CurveGroup Starknet.sample (fun point : ℕ => (point : ZMod curveOrder)) where
  mul := by
    intro (point : ℕ) scalar
    change ((point * scalar.val % curveOrder : ℕ) : ZMod curveOrder) = _
    rw [ZMod.natCast_mod, Nat.cast_mul, nsmul_eq_mul, mul_comm]
  order := by
    rw [nsmul_eq_mul, ZMod.natCast_self, zero_mul]
  x_neg := by
    intro (point : ℕ) (point' : ℕ) h
    refine Starknet.sample_x_congr (.inr ?_)
    have hsum : ((point + point' : ℕ) : ZMod curveOrder) = 0 := by
      rw [Nat.cast_add, h, neg_add_cancel]
    exact Nat.mod_eq_zero_of_dvd ((ZMod.natCast_eq_zero_iff _ _).mp hsum)

end PrivacyPool.Client
