import PrivacyPool.Client.ViewingKey

/-!
# Viewing keys of the client

Passphrases are told apart by the felts that are hashed, and whatever the hash function is, a
viewing key is one that the contract takes.

## Main results

* `viewing_keys_usable` — viewing keys are usable and separated
-/

namespace PrivacyPool.Client

open Signers

variable {sn : Starknet} {G : Type} [AddCommGroup G] {toGroup : sn.EcPoint → G}

/-- **Viewing keys.** Different passphrases have different felts, all below the prime of the
field. Whatever the hash function is, the key of a passphrase and an address is a number in the
lower half of the scalars. As a felt it is not zero and canonical, and it has the public key of
the hash as a scalar, except for three scalars that have the key one. -/
theorem viewing_keys_usable (hgroup : CurveGroup sn toGroup) :
    Function.Injective passphraseToFelts ∧
    (∀ passphrase : JsString, ∀ limb ∈ passphraseToFelts passphrase.text, limb < feltPrime) ∧
    ∀ (poseidonHashMany : List ℕ → ℕ) (passphrase : JsString) (address : BigNumberish) (salt : ℕ),
      toFelt address = some salt →
      ∃ key, deriveViewingKey poseidonHashMany passphrase.text address = some key ∧
        0 < key ∧ key < halfOrder ∧
        Fin.ofNat feltPrime key ≠ 0 ∧ isCanonicalKey (Fin.ofNat feltPrime key) ∧
        let scalar := hashPassphrase poseidonHashMany passphrase.text salt % curveOrder
        if scalar = 0 ∨ scalar = halfOrder ∨ scalar = halfOrder + 1 then key = 1
        else sn.derivePublicKey (Fin.ofNat feltPrime key) =
          sn.derivePublicKey (Fin.ofNat feltPrime scalar) := by
  refine ⟨passphraseToFelts_injective, passphraseToFelts_lt,
    fun poseidonHashMany passphrase address salt haddress => ?_⟩
  have hkey : deriveViewingKey poseidonHashMany passphrase.text address =
      some (canonicalViewingKey (hashPassphrase poseidonHashMany passphrase.text salt)) := by
    rw [deriveViewingKey, haddress, Option.map_some]
  -- Nothing is known of the hash.
  generalize hashPassphrase poseidonHashMany passphrase.text salt = hash at hkey ⊢
  obtain ⟨hpos, hlt⟩ := canonicalViewingKey_bounds hash
  obtain ⟨hzero, hcanonical⟩ := canonicalViewingKey_canonical hash
  refine ⟨canonicalViewingKey hash, hkey, hpos, hlt, hzero, hcanonical, ?_⟩
  dsimp only
  split_ifs with hfixed
  · rcases canonicalViewingKey_eq hash with ⟨-, hone⟩ | ⟨hother, -⟩
    · exact hone
    · exact absurd hfixed hother
  · exact derivePublicKey_canonicalViewingKey hgroup hfixed

/-- With sums in place of the hash function, a passphrase of one letter and address 5 have a
usable key. -/
theorem viewing_keys_usable_sample :
    ∃ key, deriveViewingKey List.sum "a" (.bigint 5) = some key ∧ key = 5098 ∧
      isCanonicalKey (Fin.ofNat feltPrime key) := by
  obtain ⟨key, hkey, -, -, -, hcanonical, -⟩ := (viewing_keys_usable sample_curveGroup).2.2 List.sum
    ⟨"a", by decide⟩ (.bigint 5) 5 rfl
  refine ⟨key, hkey, ?_, hcanonical⟩
  have hvalue : deriveViewingKey List.sum "a" (.bigint 5) = some 5098 := by decide +kernel
  exact Option.some.inj (hkey.symm.trans hvalue)

end PrivacyPool.Client
