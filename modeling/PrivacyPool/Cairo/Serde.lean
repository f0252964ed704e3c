import PrivacyPool.Base.Codec
import PrivacyPool.Cairo.Types

/-!
# `Serde` and `Store`

Cairo's serialization into field elements, as a codec attached to each type:
one felt for a felt, an integer, an address or a boolean, the fields in order
for a structure, and the length followed by the elements for a span.

A type with `Store` has a serialization that is also its layout in storage, so
it takes at most 255 consecutive words.
-/

namespace PrivacyPool

/-- Cairo's `Serde`. -/
class Serde (α : Type) where
  codec : Codec Felt α

/-- `Serde::serialize`, as the list of felts it appends. -/
def serialize {α : Type} [Serde α] (a : α) : List Felt := (Serde.codec (α := α)).encode a

/-- `Serde::deserialize`: the value read, and the span left after it. -/
def deserialize {α : Type} [Serde α] (input : List Felt) : Option (α × List Felt) :=
  (Serde.codec (α := α)).decode input

/-- Cairo's `Store`, for the types whose layout in storage is their
serialization. -/
class Store (α : Type) extends Serde α where
  length_le : ∀ a : α, (serialize a).length ≤ 255

/-- A bounded integer is one felt; a felt out of range is rejected. -/
def boundedCodec {n : ℕ} (h : n ≤ feltPrime) : Codec Felt (Fin n) :=
  Codec.symbol (widen h) (narrow n) (narrow_widen h) fun _ _ hread => widen_of_narrow h hread

instance : Store Felt where
  codec := Codec.symbol id some (fun _ => rfl) fun _ _ h => (Option.some.inj h).symm
  length_le _ := by simp [serialize, Codec.symbol]

/-- `Serde<bool>`: `false` is 0 and `true` is 1. -/
instance : Store Bool where
  codec := Codec.symbol (fun b => if b then 1 else 0)
    (fun x => if x = 0 then some false else if x = 1 then some true else none)
    (by decide)
    (by
      intro s a h
      split_ifs at h with h0 h1
      · obtain rfl := Option.some.inj h
        exact h0.symm
      · obtain rfl := Option.some.inj h
        exact h1.symm)
  length_le _ := by simp [serialize, Codec.symbol]

instance : Store ContractAddress where
  codec := boundedCodec two_pow_251_le
  length_le _ := by simp [serialize, boundedCodec, Codec.symbol]

instance : Store U128 where
  codec := boundedCodec two_pow_128_le
  length_le _ := by simp [serialize, boundedCodec, Codec.symbol]

instance : Serde U64 where
  codec := boundedCodec two_pow_64_le

instance : Serde Usize where
  codec := boundedCodec two_pow_32_le

instance {α : Type} [Serde α] : Serde (Span α) where
  codec := Codec.counted (Serde.codec (α := Usize)) Serde.codec

instance {α β : Type} [Serde α] [Serde β] : Serde (α × β) where
  codec := Codec.pair Serde.codec Serde.codec

/-! ### Reading serializations back -/

variable {α : Type} [Serde α]

@[simp] theorem deserialize_serialize (a : α) (rest : List Felt) :
    deserialize (serialize a ++ rest) = some (a, rest) :=
  (Serde.codec (α := α)).decode_encode a rest

theorem serialize_append_inj {a b : α} {r r' : List Felt}
    (h : serialize a ++ r = serialize b ++ r') : a = b ∧ r = r' :=
  (Serde.codec (α := α)).encode_append_inj h

theorem serialize_injective : Function.Injective (serialize (α := α)) :=
  (Serde.codec (α := α)).encode_injective

@[simp] theorem serialize_felt (x : Felt) : serialize x = [x] := rfl

@[simp] theorem serialize_true : serialize true = [1] := rfl

end PrivacyPool
