import PrivacyPool.Base.Hex

/-!
# Numbers and calls of the client

The client takes numbers in any form starknet.js accepts and turns each into a
`bigint` where it uses it. A number is a natural number here: no field of a message
is negative.

## Main definitions

* `BigNumberish`, `toFelt` — a number in one of its forms, and `num.toBigInt`
* `toHex` — `num.toHex`
* `Call` — a call as the application writes it

## Main results

* `toFelt_toHex` — a number written in hexadecimal reads back
-/

namespace PrivacyPool.Signers

/-- `BigNumberish`: a `bigint` or integral `number`, or a text. -/
inductive BigNumberish
  | bigint (n : ℕ)
  | text (s : String)
  deriving DecidableEq, Repr

/-- `num.toBigInt`, absent where `BigInt` throws, or the number is negative. -/
def toFelt : BigNumberish → Option ℕ
  | .bigint n => some n
  | .text s => Hex.readText s

/-- `num.toHex` -/
def toHex (n : ℕ) : String := Hex.writeText n

theorem toFelt_toHex (n : ℕ) : toFelt (.text (toHex n)) = some n :=
  Hex.readText_writeText n

/-- The felt that `shortString.encodeShortString` makes of an ASCII text. -/
def encodeShortString (str : String) : ℕ :=
  str.toList.foldl (fun felt c => felt * 256 + c.toNat) 0

/-- `Call` of starknet.js. -/
structure Call where
  contractAddress : BigNumberish
  entrypoint : String
  calldata : Option (List BigNumberish)
  deriving DecidableEq, Repr

end PrivacyPool.Signers
