import PrivacyPool.Base.Hex
import PrivacyPool.Cairo.Types

/-!
# Note ids

The SDK holds the id of a note as a `BigNumberish`: as a number, or as a text of its
digits. Two ids with different texts can be the same number.

## Main definitions

* `NoteId.toText`, `NoteId.toBigInt` — `String(id)` and `toBigInt(id)`
* `NoteId.ofFelt` — the text that the discovery service sends

## Main results

* `toBigInt_ofFelt` — the text of the service is read back as the number
-/

namespace PrivacyPool.Sdk

instance lawfulBEqListChar : LawfulBEq (List Char) := inferInstance

/-- A `BigNumberish`. -/
inductive NoteId
  | bigint (value : ℕ)
  | text (chars : List Char)
  deriving DecidableEq, Repr

namespace NoteId

/-- `String(id)` -/
def toText : NoteId → List Char
  | bigint value => Nat.toDigits 10 value
  | text chars => chars

/-- `toBigInt(id)`; `BigInt` throws when it cannot read the text. -/
def toBigInt : NoteId → Option ℤ
  | bigint value => some value
  | text chars => Hex.readBigInt chars

/-- The id of a note in a response of the service. -/
def ofFelt (noteId : Felt) : NoteId := text ('0' :: 'x' :: Nat.toDigits 16 noteId.val)

/-- The SDK reads the text of the service as the number. -/
theorem toBigInt_ofFelt (noteId : Felt) : (ofFelt noteId).toBigInt = some (noteId.val : ℤ) :=
  Hex.readBigInt_marker rfl (by decide) Nat.toDigits_ne_nil
    (Hex.readNumeral_toDigits (by decide) (by decide) noteId.val)

end NoteId

end PrivacyPool.Sdk
