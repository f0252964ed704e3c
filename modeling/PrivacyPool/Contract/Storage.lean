import Mathlib.Logic.Function.Basic
import PrivacyPool.Base.WriteOnce
import PrivacyPool.Contract.Utils

/-!
# Storage of the pool

The contract's state. The user-data maps are kept as raw words, since the server
writes them through storage syscalls at addresses it is handed; a record of a map
starts at the base address of its entry and takes consecutive words. The
vectors `recipient_channels` are only ever appended to and are kept as lists, and
the configuration variables are fields of their own.

## Main definitions

* `Pool` — the contract state
* `Pool.applyWriteOnce`, `Pool.applyAppend` — the two ways user data is written
* `wordsAt` — the words a span occupies from a base address on

## Main results

* `applyWriteOnce_eq_ok` — a write succeeds exactly when its first word is not
  zero and all words it covers are blank, and then overlays the span
-/

namespace PrivacyPool

open Fallible WriteOnce

/-- The roles of the access-control component that the pool asks for. -/
inductive Role
  | appGovernor
  | securityGovernor
  | securityAgent
  | securityAdmin
  deriving DecidableEq, Repr

/-- The contract state. -/
structure Pool where
  words : ℕ → Felt
  recipientChannels : ContractAddress → List EncChannelInfo
  screeningPolicies : ContractAddress → OpenNoteScreeningPolicy
  auditorPublicKey : Felt
  screenerPublicKey : Felt
  feeAmount : U128
  feeCollector : ContractAddress
  proofValidityBlocks : U64
  paused : Bool
  entered : Bool
  roles : Role → ContractAddress → Bool

/-- The word at an offset of an entry of a map. -/
def Pool.read (sn : Starknet) (pool : Pool) (var : StorageVar) (key : Felt) (offset : ℕ) : Felt :=
  pool.words ((sn.entry var key).val + offset)

/-! ### `WriteOnce` and `Append` -/

/-- `storage_base_address_from_felt252`. -/
def storageBaseAddressFromFelt252 (addr : Felt) : ℕ := addr.val % (2 ^ 251 - 256)

/-- The loop of `_apply_write_once`: each word must be zero before it is
written, and the offset is a `u8`. -/
def writeWords (base : ℕ) : ℕ → List Felt → (ℕ → Felt) → Except Error (ℕ → Felt)
  | _, [], words => .ok words
  | offset, felt :: rest, words => do
    require (words (base + offset) = 0) .nonZeroValue
    require (offset + 1 < 2 ^ 8) .addOverflow
    writeWords base (offset + 1) rest (Function.update words (base + offset) felt)

/-- Write a non-empty span to blank storage. -/
def Pool.applyWriteOnce (pool : Pool) (input : WriteOnceInput) : Except Error Pool := do
  require (input.value.1 ≠ []) .unexpectedEmptyValue
  require (input.value.1.headD 0 ≠ 0) .unexpectedZeroValue
  let base := storageBaseAddressFromFelt252 input.storageAddress
  let words ← writeWords base 0 input.value.1 pool.words
  return { pool with words }

/-- Push a channel info to the vector of its recipient. -/
def Pool.applyAppend (pool : Pool) (input : AppendInput) : Pool :=
  { pool with
    recipientChannels := Function.update pool.recipientChannels input.recipientAddr
      (pool.recipientChannels input.recipientAddr ++ [input.encChannelInfo]) }

/-! ### What a write does -/

/-- The cells a span takes from a base address on. -/
def wordsAt (base : ℕ) (value : List Felt) : ℕ → Option Felt :=
  fun address => if base ≤ address then value[address - base]? else none

/-- The words a `WriteOnce` covers. -/
def WriteOnceInput.cells (input : WriteOnceInput) : ℕ → Option Felt :=
  wordsAt (storageBaseAddressFromFelt252 input.storageAddress) input.value.1

theorem wordsAt_eq_some {base address : ℕ} {value : List Felt} {w : Felt} :
    wordsAt base value address = some w ↔
      ∃ i, address = base + i ∧ value[i]? = some w := by
  unfold wordsAt
  split_ifs with h
  · constructor
    · intro hw
      exact ⟨address - base, by omega, hw⟩
    · rintro ⟨i, rfl, hw⟩
      rwa [Nat.add_sub_cancel_left]
  · simp only [false_iff, not_exists, not_and]
    rintro i rfl
    omega

theorem overlay_wordsAt_cons (words : ℕ → Felt) (base : ℕ) (w : Felt) (rest : List Felt) :
    overlay (Function.update words base w) (wordsAt (base + 1) rest) =
      overlay words (wordsAt base (w :: rest)) := by
  funext address
  unfold overlay wordsAt
  rcases lt_trichotomy address base with h | rfl | h
  · rw [if_neg (by omega), if_neg (by omega), Option.getD_none, Option.getD_none,
      Function.update_of_ne (by omega)]
  · rw [if_neg (by omega), if_pos le_rfl, Nat.sub_self, Option.getD_none,
      Function.update_self, List.getElem?_cons_zero, Option.getD_some]
  · rw [if_pos (by omega), if_pos (by omega), Function.update_of_ne (by omega),
      show address - base = address - (base + 1) + 1 by omega, List.getElem?_cons_succ]

/-- The write loop checks that the words it covers are blank, and overlays them. -/
theorem writeWords_eq_ok {base offset : ℕ} {value : List Felt} {words words' : ℕ → Felt} :
    writeWords base offset value words = .ok words' ↔
      (value ≠ [] → offset + value.length < 2 ^ 8) ∧
      (∀ i < value.length, words (base + offset + i) = 0) ∧
      words' = overlay words (wordsAt (base + offset) value) := by
  induction value generalizing offset words with
  | nil =>
    have hsame : overlay words (wordsAt (base + offset) []) = words := by
      funext address
      exact overlay_of_none (by simp [wordsAt])
    simp [writeWords, hsame, eq_comm]
  | cons w rest ih =>
    simp only [writeWords, bind_eq_ok, require_eq_ok, exists_and_left, exists_const, ih,
      List.length_cons, ne_eq, reduceCtorEq, not_false_eq_true, forall_const, ← Nat.add_assoc,
      overlay_wordsAt_cons]
    constructor
    · rintro ⟨hfirst, hoffset, hlength, hblank, rfl⟩
      refine ⟨?_, ?_, rfl⟩
      -- The offset is checked at each word, so that the last check implies the others.
      · by_cases hrest : rest = []
        · subst hrest; simpa using hoffset
        · have := hlength hrest; omega
      · intro i hi
        cases i with
        | zero => exact hfirst
        | succ i =>
          have hcell := hblank i (by omega)
          rw [Function.update_of_ne (by omega)] at hcell
          rwa [show base + offset + (i + 1) = base + offset + 1 + i by omega]
    · rintro ⟨hlength, hblank, rfl⟩
      refine ⟨hblank 0 (by omega), by omega, fun _ => by omega, ?_, rfl⟩
      intro i hi
      rw [Function.update_of_ne (by omega)]
      have hcell := hblank (i + 1) (by omega)
      rwa [show base + offset + (i + 1) = base + offset + 1 + i by omega] at hcell

/-- A span is blank when the words it covers are zero. -/
theorem blank_wordsAt_iff {base : ℕ} {value : List Felt} {words : ℕ → Felt} :
    Blank words (wordsAt base value) ↔ ∀ i < value.length, words (base + i) = 0 := by
  constructor
  · intro h i hi
    exact h _ value[i] (wordsAt_eq_some.mpr ⟨i, rfl, List.getElem?_eq_getElem hi⟩)
  · intro h address w hw
    obtain ⟨i, rfl, hi⟩ := wordsAt_eq_some.mp hw
    exact h i (List.getElem?_eq_some_iff.mp hi).1

/-- A `WriteOnce` succeeds exactly when its first word is not zero, it has at
most 255 words, and the words it covers are blank; it then overlays them. -/
theorem applyWriteOnce_eq_ok {pool pool' : Pool} {input : WriteOnceInput} :
    pool.applyWriteOnce input = .ok pool' ↔
      input.value.1.headD 0 ≠ 0 ∧ input.value.1.length < 2 ^ 8 ∧
      Blank pool.words input.cells ∧
      pool' = { pool with words := overlay pool.words input.cells } := by
  simp only [Pool.applyWriteOnce, bind_eq_ok, require_eq_ok, exists_and_left, exists_const,
    writeWords_eq_ok, pure_eq_ok, Nat.add_zero, WriteOnceInput.cells, blank_wordsAt_iff]
  constructor
  · rintro ⟨hne, hhead, _, ⟨hlength, hblank, rfl⟩, rfl⟩
    exact ⟨hhead, by simpa using hlength hne, hblank, rfl⟩
  · rintro ⟨hhead, hlength, hblank, rfl⟩
    have hne : input.value.1 ≠ [] := fun hnil => hhead (by rw [hnil]; rfl)
    exact ⟨hne, hhead, _, ⟨fun _ => by simpa using hlength, hblank, rfl⟩, rfl⟩

/-- An entry's address, handed around as a felt, is its base address. -/
theorem storageBaseAddress_entry (sn : Starknet) (var : StorageVar) (key : Felt) :
    storageBaseAddressFromFelt252 (storagePathToFelt252 sn var key) = (sn.entry var key).val :=
  Nat.mod_eq_of_lt (sn.entry var key).isLt

end PrivacyPool
