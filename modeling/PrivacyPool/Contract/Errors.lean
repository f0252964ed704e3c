import PrivacyPool.Base.Fallible
import PrivacyPool.Cairo.Types

/-!
# Panics of the pool

One constructor for each error text of `errors.cairo`, in the order of that
file, then the internal errors, then the panics of the core library and of the
contracts the pool calls. A computation of the pool is an `Except Error`: a panic
reverts the whole transaction, so an error carries no state.
-/

namespace PrivacyPool

open Fallible

/-- The ways a call of the pool can panic. -/
inductive Error
  | zeroRecipientAddr
  | zeroToken
  | zeroRandom
  | saltExceeds120Bits
  | privateKeyNotCanonical
  | senderNotRegistered
  | senderNotAuthenticated
  | zeroAmount
  | subchannelNotFound
  | indexNotSequential
  | noteNotFound
  | zeroToAddr
  | zeroPrivateKey
  | zeroUserAddr
  | invalidChannel
  | nonZeroValue
  | zeroRecipientPublicKey
  | actionsOutOfOrder
  | negativeIntermediateBalance
  | finalBalanceMustBeZero
  | noReplayProtection
  | saltTooSmall
  | zeroAuditorPublicKey
  | invalidAuditorPublicKey
  | zeroNoteAmountUsage
  | noteNotOpen
  | noteAlreadyDeposited
  | zeroSalt
  | zeroContractAddress
  | proofFactsDeserializeError
  | invalidProgramVariant
  | invalidOsOutputVersion
  | invalidBaseBlockNumber
  | proofExpired
  | invalidProofMsg
  | tokenMismatch
  | zeroFeeCollector
  | emptyProofFacts
  | invalidProofFacts
  | zeroProofValidityBlocks
  | recipientNotRegistered
  | invalidInvokeReturnData
  | emptyComputeResult
  | undepositedOpenNotes
  | invalidPublicKey
  | screeningRequired
  | unexpectedScreening
  | screeningFutureDated
  | screeningExpired
  | screeningInvalidSignature
  | multipleScreeningSubjects
  | invalidAssociatedAddresses
  | noAssociatedAddress
  -- `internal_errors`
  | zeroNoteValue
  | zeroDerivedPublicKey
  | packOverflow
  | unpack1OutOfBounds
  | unexpectedZeroSalt
  | zeroEphemeralPublic
  | zeroShared
  | unexpectedEmptyValue
  | unexpectedZeroValue
  | tooManyOpenNotesDeposited
  -- core library and components
  | addOverflow
  | arrayTooLong
  | invalidStoredAddress
  | reentrantCall
  | contractPaused
  | missingRole
  -- called contracts
  | tokenTransferFailed
  | propagatedPanic (data : List Felt)
  | callFailed (data : List Felt)
  deriving DecidableEq, Repr

/-- Addition of Cairo's unsigned integers, which panics on overflow. -/
def checkedAdd {n : ℕ} (a b : Fin n) : Except Error (Fin n) :=
  if h : a.val + b.val < n then .ok ⟨a.val + b.val, h⟩ else .error .addOverflow

/-- `CheckedSub::checked_sub`. -/
def checkedSub {n : ℕ} (a b : Fin n) : Option (Fin n) :=
  if b.val ≤ a.val then some ⟨a.val - b.val, (Nat.sub_le _ _).trans_lt a.isLt⟩ else none

/-- Append one span to another. -/
def appendSpan {α : Type} (a b : Span α) : Except Error (Span α) :=
  if h : (a.1 ++ b.1).length < 2 ^ 32 then .ok ⟨a.1 ++ b.1, h⟩ else .error .arrayTooLong

variable {n : ℕ} {a b c : Fin n}

theorem checkedAdd_eq_ok : checkedAdd a b = .ok c ↔ c.val = a.val + b.val := by
  unfold checkedAdd
  split_ifs with h
  · simp [Fin.ext_iff, eq_comm]
  · simp only [false_iff]
    intro hc
    exact h (hc ▸ c.isLt)

theorem checkedSub_eq_some : checkedSub a b = some c ↔ c.val + b.val = a.val := by
  unfold checkedSub
  split_ifs with h
  · rw [Option.some.injEq, Fin.ext_iff]
    change a.val - b.val = c.val ↔ _
    omega
  · simp only [false_iff]
    omega

end PrivacyPool
