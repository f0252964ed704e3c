import Mathlib.Algebra.Order.Ring.Int
import Mathlib.Data.Fintype.Basic
import Mathlib.Data.ZMod.Defs

/-!
# Cairo's value types

Field elements, contract addresses and the unsigned integers of the contract,
each as the finite type of its values, with the conversions the source writes
as `into` and `try_into`. Arithmetic on `Felt` is modular; the integer types
wrap, and the checked operations that panic on overflow are in
`PrivacyPool.Contract.Errors`.

A `Span` is an array as the virtual machine can hold it: its length is a
`usize`.
-/

namespace PrivacyPool

/-- The modulus of `felt252`. -/
def feltPrime : ℕ := 2 ^ 251 + 17 * 2 ^ 192 + 1

instance : NeZero feltPrime := ⟨by decide⟩

/-- Cairo's `felt252`. -/
abbrev Felt := Fin feltPrime

instance lawfulBEqFelt : LawfulBEq Felt := inferInstance

/-- A Starknet contract address: a field element below `2 ^ 251`. -/
abbrev ContractAddress := Fin (2 ^ 251)

/-- A Starknet class hash: a field element below `2 ^ 251`. -/
abbrev ClassHash := Fin (2 ^ 251)

/-- `u128` -/
abbrev U128 := Fin (2 ^ 128)

/-- `u64` -/
abbrev U64 := Fin (2 ^ 64)

/-- Cairo's `usize`, which is `u32`. -/
abbrev Usize := Fin (2 ^ 32)

/-- The base address of a storage record, leaving room for 256 words after it. -/
abbrev StorageBaseAddress := Fin (2 ^ 251 - 256)

/-- An array as a Cairo program holds it: its length fits a `usize`. -/
abbrev Span (α : Type*) := {elems : List α // elems.length < 2 ^ 32}

instance neZeroTwoPow251 : NeZero (2 ^ 251) := ⟨by decide⟩

instance neZeroTwoPow128 : NeZero (2 ^ 128) := ⟨by decide⟩

instance neZeroTwoPow64 : NeZero (2 ^ 64) := ⟨by decide⟩

instance neZeroTwoPow32 : NeZero (2 ^ 32) := ⟨by decide⟩

theorem Span.length_lt {α : Type*} (span : Span α) : span.1.length < 2 ^ 32 := span.2

theorem nil_length_lt {α : Type*} : ([] : List α).length < 2 ^ 32 := Nat.two_pow_pos 32

/-- The empty array. -/
def Span.empty {α : Type*} : Span α := ⟨[], nil_length_lt⟩

/-! ### Conversions -/

/-- Read a bounded integer as a field element. -/
def widen {n : ℕ} (h : n ≤ feltPrime) (x : Fin n) : Felt := Fin.castLE h x

/-- Read a field element as a bounded integer, if it is in range. -/
def narrow (n : ℕ) (x : Felt) : Option (Fin n) :=
  if h : x.val < n then some ⟨x.val, h⟩ else none

variable {n : ℕ}

theorem widen_injective (h : n ≤ feltPrime) : Function.Injective (widen h) :=
  Fin.castLE_injective h

@[simp] theorem widen_inj (h : n ≤ feltPrime) {x y : Fin n} : widen h x = widen h y ↔ x = y :=
  (widen_injective h).eq_iff

theorem narrow_widen (h : n ≤ feltPrime) (x : Fin n) : narrow n (widen h x) = some x := by
  rw [narrow, dif_pos (show (widen h x).val < n from x.isLt)]
  rfl

theorem widen_of_narrow (h : n ≤ feltPrime) {x : Felt} {y : Fin n} (hy : narrow n x = some y) :
    widen h y = x := by
  unfold narrow at hy
  split at hy
  · obtain rfl := Option.some.inj hy
    rfl
  · cases hy

theorem two_pow_251_le : 2 ^ 251 ≤ feltPrime := by decide

theorem two_pow_128_le : 2 ^ 128 ≤ feltPrime := by decide

theorem two_pow_64_le : 2 ^ 64 ≤ feltPrime := by decide

theorem two_pow_32_le : 2 ^ 32 ≤ feltPrime := by decide

theorem two_pow_251_sub_le : 2 ^ 251 - 256 ≤ feltPrime := by decide

/-- `ContractAddress::into`. -/
def ContractAddress.toFelt (a : ContractAddress) : Felt := widen two_pow_251_le a

/-- `ClassHash::into`. -/
def ClassHash.toFelt (a : ClassHash) : Felt := widen two_pow_251_le a

/-- `u128::into`. -/
def U128.toFelt (a : U128) : Felt := widen two_pow_128_le a

/-- `u64::into`. -/
def U64.toFelt (a : U64) : Felt := widen two_pow_64_le a

/-- `usize::into`. -/
def Usize.toFelt (a : Usize) : Felt := widen two_pow_32_le a

/-- `StorageBaseAddress` as a field element. -/
def StorageBaseAddress.toFelt (a : StorageBaseAddress) : Felt := widen two_pow_251_sub_le a

@[simp] theorem ContractAddress.toFelt_inj {a b : ContractAddress} :
    ContractAddress.toFelt a = ContractAddress.toFelt b ↔ a = b := widen_inj _

@[simp] theorem Usize.toFelt_inj {a b : Usize} : Usize.toFelt a = Usize.toFelt b ↔ a = b :=
  widen_inj _

/-- The high and low halves of a field element read as a `u256`. -/
def toU256 (x : Felt) : U128 × U128 :=
  (⟨x.val / 2 ^ 128, by
    have hx := x.isLt
    have hp : feltPrime ≤ 2 ^ 128 * 2 ^ 128 := by decide
    exact Nat.div_lt_of_lt_mul (hx.trans_le hp)⟩,
   ⟨x.val % 2 ^ 128, Nat.mod_lt _ (by decide)⟩)

/-- A `u256` as a field element, if it is below the modulus. -/
def ofU256 (high low : U128) : Option Felt :=
  if h : high.val * 2 ^ 128 + low.val < feltPrime then some ⟨_, h⟩ else none

theorem toU256_of_ofU256 {high low : U128} {x : Felt} (h : ofU256 high low = some x) :
    toU256 x = (high, low) := by
  unfold ofU256 at h
  split at h
  · obtain rfl := Option.some.inj h
    have hlow := low.isLt
    refine Prod.ext (Fin.ext ?_) (Fin.ext ?_)
    · change (high.val * 2 ^ 128 + low.val) / 2 ^ 128 = high.val
      omega
    · change (high.val * 2 ^ 128 + low.val) % 2 ^ 128 = low.val
      omega
  · cases h

end PrivacyPool
