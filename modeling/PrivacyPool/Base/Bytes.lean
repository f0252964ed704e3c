import Mathlib.Algebra.Group.Nat.Defs
import Mathlib.Data.List.Induction
import Mathlib.Data.List.OfFn

/-!
# Bytes

Numbers as big-endian byte strings of a fixed width.

## Main definitions

* `word` — the big-endian bytes of a number, each by its position
* `digest` — the number a byte string stands for
* `Keccak` — a hash of byte strings into 32 bytes

## Main results

* `digest_inj` — byte strings of one length are determined by their numbers
-/

namespace Bytes

/-- The bytes of a number, most significant first. -/
def word (width n : ℕ) : List UInt8 :=
  List.ofFn fun i : Fin width => UInt8.ofNat (n / 256 ^ (width - 1 - i))

/-- The number that a byte string stands for, most significant byte first. -/
def digest (bytes : List UInt8) : ℕ :=
  bytes.foldl (fun n byte => n * 256 + byte.toNat) 0

@[simp] theorem length_word (width n : ℕ) : (word width n).length = width :=
  List.length_ofFn

/-- The last byte of a word comes off the end. -/
theorem word_succ (width n : ℕ) :
    word (width + 1) n = word width (n / 256) ++ [UInt8.ofNat n] := by
  rw [word, List.ofFn_succ', word, List.concat_eq_append]
  congr 1
  · refine congrArg List.ofFn (funext fun i => ?_)
    have hi := i.isLt
    have hexp : width + 1 - 1 - i.castSucc.val = width - 1 - i.val + 1 := by
      rw [Fin.val_castSucc]
      omega
    rw [hexp, Nat.pow_succ', Nat.div_div_eq_div_mul]
  · simp

@[simp] theorem digest_append_singleton (bytes : List UInt8) (byte : UInt8) :
    digest (bytes ++ [byte]) = digest bytes * 256 + byte.toNat := by
  simp [digest, List.foldl_append]

/-- The bytes of the number that a byte string stands for are that string. -/
theorem word_digest (bytes : List UInt8) : word bytes.length (digest bytes) = bytes := by
  induction bytes using List.reverseRecOn with
  | nil => rfl
  | append_singleton bytes byte ih =>
    have hbyte := byte.toNat_lt
    have hdiv : (digest bytes * 256 + byte.toNat) / 256 = digest bytes := by omega
    have hlast : UInt8.ofNat (digest bytes * 256 + byte.toNat) = byte := by
      apply UInt8.toNat_inj.mp
      rw [UInt8.toNat_ofNat']
      omega
    rw [List.length_append, List.length_singleton, digest_append_singleton, word_succ, hdiv,
      hlast, ih]

/-- Byte strings of one length are determined by their numbers. -/
theorem digest_inj {bytes bytes' : List UInt8} (hlength : bytes.length = bytes'.length)
    (h : digest bytes = digest bytes') : bytes = bytes' := by
  rw [← word_digest bytes, ← word_digest bytes', hlength, h]

theorem digest_lt (bytes : List UInt8) : digest bytes < 256 ^ bytes.length := by
  induction bytes using List.reverseRecOn with
  | nil => exact Nat.one_pos
  | append_singleton bytes byte ih =>
    have hbyte := byte.toNat_lt
    rw [digest_append_singleton, List.length_append, List.length_singleton, Nat.pow_succ]
    omega

/-- A hash of byte strings with results of 32 bytes. -/
structure Keccak where
  hash : List UInt8 → List UInt8
  length_hash (bytes : List UInt8) : (hash bytes).length = 32

theorem Keccak.word_digest (keccak : Keccak) (bytes : List UInt8) :
    word 32 (digest (keccak.hash bytes)) = keccak.hash bytes := by
  have h := Bytes.word_digest (keccak.hash bytes)
  rwa [keccak.length_hash] at h

end Bytes
