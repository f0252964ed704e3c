import PrivacyPool.Contract.Client

/-!
# Panic data

`compile_actions` calls the contract itself, and gets the compiled actions back as
the panic data of `compile_and_panic`, between two markers. What an external
contract panics with while the actions are compiled comes between markers of its
own. This file has the texts that the pool panics with and the two ends of that
channel.
-/

namespace PrivacyPool

open Fallible

/-- A short string: the felt whose bytes are its characters. -/
def shortString (s : String) : Felt :=
  s.toList.foldl (fun felt c => felt * 256 + Fin.ofNat feltPrime c.toNat) 0

/-- What the system appends to the panic data of a failed call. -/
def entrypointFailed : Felt := shortString "ENTRYPOINT_FAILED"

/-- What marks panic data that carry server actions. -/
def okWrapper : Felt := shortString "PRIVACY_OK_WRAPPER"

/-- What marks panic data that carry an error. -/
def errWrapper : Felt := shortString "PRIVACY_ERR_WRAPPER"

/-- The text of an error of `errors.cairo`. The other errors come from the core
library, from components and from called contracts. -/
def Error.text : Error → Option String
  | zeroRecipientAddr => "ZERO_RECIPIENT_ADDR"
  | zeroToken => "ZERO_TOKEN"
  | zeroRandom => "ZERO_RANDOM"
  | saltExceeds120Bits => "SALT_EXCEEDS_120_BITS"
  | privateKeyNotCanonical => "PRIVATE_KEY_NOT_CANONICAL"
  | senderNotRegistered => "SENDER_NOT_REGISTERED"
  | senderNotAuthenticated => "SENDER_NOT_AUTHENTICATED"
  | zeroAmount => "ZERO_AMOUNT"
  | subchannelNotFound => "SUBCHANNEL_NOT_FOUND"
  | indexNotSequential => "INDEX_NOT_SEQUENTIAL"
  | noteNotFound => "NOTE_NOT_FOUND"
  | zeroToAddr => "ZERO_TO_ADDR"
  | zeroPrivateKey => "ZERO_PRIVATE_KEY"
  | zeroUserAddr => "ZERO_USER_ADDR"
  | invalidChannel => "INVALID_CHANNEL"
  | nonZeroValue => "NON_ZERO_VALUE"
  | zeroRecipientPublicKey => "ZERO_RECIPIENT_PUBLIC_KEY"
  | actionsOutOfOrder => "ACTIONS_OUT_OF_ORDER"
  | negativeIntermediateBalance => "NEGATIVE_INTERMEDIATE_BALANCE"
  | finalBalanceMustBeZero => "FINAL_BALANCE_MUST_BE_ZERO"
  | noReplayProtection => "NO_REPLAY_PROTECTION"
  | saltTooSmall => "SALT_TOO_SMALL"
  | zeroAuditorPublicKey => "ZERO_AUDITOR_PUBLIC_KEY"
  | invalidAuditorPublicKey => "INVALID_AUDITOR_PUBLIC_KEY"
  | zeroNoteAmountUsage => "ZERO_NOTE_AMOUNT_USAGE"
  | noteNotOpen => "NOTE_NOT_OPEN"
  | noteAlreadyDeposited => "NOTE_ALREADY_DEPOSITED"
  | zeroSalt => "ZERO_SALT"
  | zeroContractAddress => "ZERO_CONTRACT_ADDRESS"
  | proofFactsDeserializeError => "PROOF_FACTS_DESERIALIZE_ERROR"
  | invalidProgramVariant => "INVALID_PROGRAM_VARIANT"
  | invalidOsOutputVersion => "INVALID_OS_OUTPUT_VERSION"
  | invalidBaseBlockNumber => "INVALID_BASE_BLOCK_NUMBER"
  | proofExpired => "PROOF_EXPIRED"
  | invalidProofMsg => "INVALID_PROOF_MSG"
  | tokenMismatch => "TOKEN_MISMATCH"
  | zeroFeeCollector => "ZERO_FEE_COLLECTOR"
  | emptyProofFacts => "EMPTY_PROOF_FACTS"
  | invalidProofFacts => "INVALID_PROOF_FACTS"
  | zeroProofValidityBlocks => "ZERO_PROOF_VALIDITY_BLOCKS"
  | recipientNotRegistered => "RECIPIENT_NOT_REGISTERED"
  | invalidInvokeReturnData => "INVALID_INVOKE_RETURN_DATA"
  | emptyComputeResult => "EMPTY_COMPUTE_RESULT"
  | undepositedOpenNotes => "UNDEPOSITED_OPEN_NOTES"
  | invalidPublicKey => "INVALID_PUBLIC_KEY"
  | screeningRequired => "SCREENING_REQUIRED"
  | unexpectedScreening => "UNEXPECTED_SCREENING"
  | screeningFutureDated => "SCREENING_FUTURE_DATED"
  | screeningExpired => "SCREENING_EXPIRED"
  | screeningInvalidSignature => "SCREENING_INVALID_SIGNATURE"
  | multipleScreeningSubjects => "MULTIPLE_SCREENING_SUBJECTS"
  | invalidAssociatedAddresses => "INVALID_ASSOCIATED_ADDRESSES"
  | noAssociatedAddress => "NO_ASSOCIATED_ADDRESS"
  | zeroNoteValue => "ZERO_NOTE_VALUE"
  | zeroDerivedPublicKey => "ZERO_DERIVED_PUBLIC_KEY"
  | packOverflow => "PACK_OVERFLOW"
  | unpack1OutOfBounds => "UNPACK1_OUT_OF_BOUNDS"
  | unexpectedZeroSalt => "UNEXPECTED_ZERO_SALT"
  | zeroEphemeralPublic => "ZERO_EPHEMERAL_PUBLIC"
  | zeroShared => "ZERO_SHARED"
  | unexpectedEmptyValue => "UNEXPECTED_EMPTY_VALUE"
  | unexpectedZeroValue => "UNEXPECTED_ZERO_VALUE"
  | tooManyOpenNotesDeposited => "TOO_MANY_OPEN_NOTES_DEPOSITED"
  | addOverflow | arrayTooLong | invalidStoredAddress | reentrantCall | contractPaused
  | missingRole | tokenTransferFailed | propagatedPanic _ | callFailed _ => none

/-- `propagate_external_panic`: the panic data of an external contract, between
markers. -/
def propagateExternalPanic (panicData : List Felt) : List Felt :=
  errWrapper :: panicData ++ [errWrapper]

/-- `panic_with_server_actions`: the panic data that carries compiled actions. -/
def panicWithServerActions (serverActions : Span ServerAction) : List Felt :=
  okWrapper :: serialize serverActions ++ [okWrapper]

/-- The panic data of an error. A panic of the core library is one short string,
and one of a token or of an invoked contract is of that contract's choice. -/
inductive Error.PanicsWith : Error → List Felt → Prop
  | text {e : Error} {s : String} : e.text = some s → PanicsWith e [shortString s]
  | addOverflow {s : String} : s ∈ ["u8_add Overflow", "u32_add Overflow", "u64_add Overflow",
      "u128_add Overflow"] → PanicsWith .addOverflow [shortString s]
  -- The gas is used up long before an array has `2 ^ 32` items.
  | arrayTooLong : PanicsWith .arrayTooLong [shortString "Out of gas"]
  | propagated (data : List Felt) :
    PanicsWith (.propagatedPanic data) (propagateExternalPanic data)
  | called (data : List Felt) : PanicsWith (.callFailed data) data
  | foreign {e : Error} (data : List Felt) : e ∈ [.invalidStoredAddress, .reentrantCall,
      .contractPaused, .missingRole, .tokenTransferFailed] → PanicsWith e data

/-- `extract_server_actions_from_panic`: the compiled actions, or the panic data. -/
def extractServerActionsFromPanic (syscallResult : Except (List Felt) (List Felt)) :
    Except (List Felt) (Span ServerAction) :=
  match syscallResult with
  -- The entry point hands its result over by panicking, so a return is an error.
  | .ok _ => .error [shortString "EXPECTED_PANIC"]
  | .error originPanicData => do
    let panicData ← expect (popMarker okWrapper originPanicData) originPanicData
    let (serverActions, panicData) ←
      expect (deserialize (α := Span ServerAction) panicData) originPanicData
    let panicData ← expect (popMarker okWrapper panicData) originPanicData
    let panicData ← expect (popMarker entrypointFailed panicData) originPanicData
    -- Every other panic is passed on as it came.
    require (panicData = []) originPanicData
    return serverActions
where
  /-- The rest of the data, when its first felt is the marker. -/
  popMarker (marker : Felt) : List Felt → Option (List Felt)
    | [] => none
    | felt :: rest => if felt = marker then some rest else none

/-- `compile_and_panic` always panics: with the compiled actions, or as `main` did. -/
inductive CompileAndPanic (sn : Starknet) (call : CallContract) (pool : Pool)
    (userAddr : ContractAddress) (userPrivateKey : Felt) (clientActions : List ClientAction) :
    List Felt → Prop
  | compiled {serverActions : Span ServerAction} {simulated : Pool} :
    main sn call pool userAddr userPrivateKey clientActions = .ok (serverActions.1, simulated) →
    CompileAndPanic sn call pool userAddr userPrivateKey clientActions
      (panicWithServerActions serverActions)
  | failed {e : Error} {data : List Felt} :
    main sn call pool userAddr userPrivateKey clientActions = .error e → e.PanicsWith data →
    CompileAndPanic sn call pool userAddr userPrivateKey clientActions data

/-- `compile_actions` calls `compile_and_panic`, whose panic data the framework
closes with `ENTRYPOINT_FAILED`, and extracts the actions. -/
def CompileActions (sn : Starknet) (call : CallContract) (pool : Pool)
    (userAddr : ContractAddress) (userPrivateKey : Felt) (clientActions : List ClientAction)
    (result : Except (List Felt) (Span ServerAction)) : Prop :=
  ∃ data, CompileAndPanic sn call pool userAddr userPrivateKey clientActions data ∧
    extractServerActionsFromPanic (.error (data ++ [entrypointFailed])) = result

end PrivacyPool
