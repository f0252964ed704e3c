import PrivacyPool.Contract.Snip12

/-!
# The shadow-account anonymizer

The contract that runs dapp calls through one shadow account per identity
commitment and collects what they yield for the pool. What lies outside the pool,
the tokens, the dapps and the storage of this contract, is the state the pool's
model calls its tokens; the anonymizer reads and changes it through the operations
of an `AnonymizerPlatform`.

## Main definitions

* `CollectPolicy`, `OpenNote` — what to collect for an open note
* `getOrDeployShadowAccount`, `snapshotOpenNotes`, `collectOpenNotes` — the steps of an
  interaction
* `privacyInvokeWithComputation` — the interaction
* `privacyInvokeEntryPoint` — the entry point, on calldata and return data
-/

namespace PrivacyPool

open Fallible

/-! ### Objects -/

/-- How much of the shadow account's balance of a token to collect. -/
inductive CollectPolicy
  | all
  | diff
  | exact (amount : U128)
  deriving DecidableEq, Repr

/-- An open note to settle after an interaction. -/
structure OpenNote where
  noteId : Felt
  token : ContractAddress
  collectPolicy : CollectPolicy
  deriving DecidableEq, Repr

namespace CollectPolicy

/-- A policy as calldata. -/
def encode : CollectPolicy → List Felt
  | all => [0]
  | diff => [1]
  | exact amount => 2 :: serialize amount

/-- The policy at the front of calldata, with the rest. -/
def decode : List Felt → Option (CollectPolicy × List Felt)
  | [] => none
  | index :: rest =>
    match index.val with
    | 0 => some (all, rest)
    | 1 => some (diff, rest)
    | 2 => (deserialize (α := U128) rest).map fun p => (exact p.1, p.2)
    | _ => none

theorem decode_encode (policy : CollectPolicy) (rest : List Felt) :
    decode (policy.encode ++ rest) = some (policy, rest) := by
  cases policy with
  | all => rfl
  | diff => rfl
  | exact amount =>
    change (deserialize (serialize amount ++ rest)).map _ = _
    rw [deserialize_serialize, Option.map_some]

theorem encode_of_decode {input rest : List Felt} {policy : CollectPolicy}
    (h : decode input = some (policy, rest)) : input = policy.encode ++ rest := by
  cases input with
  | nil => cases h
  | cons index tail =>
    unfold decode at h
    dsimp only at h
    split at h
    case h_1 hindex =>
      obtain ⟨rfl, rfl⟩ := Prod.mk.inj (Option.some.inj h)
      exact congrArg (· :: tail) (Fin.ext hindex)
    case h_2 hindex =>
      obtain ⟨rfl, rfl⟩ := Prod.mk.inj (Option.some.inj h)
      exact congrArg (· :: tail) (Fin.ext hindex)
    case h_3 hindex =>
      obtain ⟨⟨amount, rest'⟩, hread, hpair⟩ := Option.map_eq_some_iff.mp h
      obtain ⟨rfl, rfl⟩ := Prod.mk.inj hpair
      have htail := (Serde.codec (α := U128)).encode_of_decode hread
      rw [htail]
      exact congrArg (· :: (serialize amount ++ rest')) (Fin.ext hindex)
    case h_4 => cases h

end CollectPolicy

instance : Serde CollectPolicy where
  codec := ⟨CollectPolicy.encode, CollectPolicy.decode, CollectPolicy.decode_encode,
    CollectPolicy.encode_of_decode⟩

instance : Serde OpenNote where
  codec := (Serde.codec (α := Felt × ContractAddress × CollectPolicy)).imap
    (fun p => ⟨p.1, p.2.1, p.2.2⟩) (fun n => (n.noteId, n.token, n.collectPolicy))
    (fun _ => rfl) (fun _ => rfl)

instance : Serde Call where
  codec := (Serde.codec (α := ContractAddress × Felt × Span Felt)).imap
    (fun p => ⟨p.1, p.2.1, p.2.2⟩) (fun c => (c.toAddr, c.selector, c.calldata))
    (fun _ => rfl) (fun _ => rfl)

/-! ### Error codes -/

namespace AnonymizerError

/-- `'UNAUTHORIZED_CALLER'` -/
def unauthorizedCaller : Felt := 0x554e415554484f52495a45445f43414c4c4552

/-- `'ZERO_BALANCE'` -/
def zeroBalance : Felt := 0x5a45524f5f42414c414e4345

/-- `'NEGATIVE_DIFF'` -/
def negativeDiff : Felt := 0x4e454741544956455f44494646

/-- `'INSUFFICIENT_BALANCE'` -/
def insufficientBalance : Felt := 0x494e53554646494349454e545f42414c414e4345

/-- `'AMOUNT_OVERFLOW'` -/
def amountOverflow : Felt := 0x414d4f554e545f4f564552464c4f57

/-- `'ZERO_ADDRESS'` -/
def zeroAddress : Felt := 0x5a45524f5f41444452455353

/-- `'Failed to deserialize param #1'` and its successors. -/
def failedToDeserialize (param : ℕ) : Felt :=
  Fin.ofNat feltPrime (0x4661696c656420746f20646573657269616c697a6520706172616d202330 + param)

/-- `'Input too long for arguments'` -/
def inputTooLong : Felt := 0x496e70757420746f6f206c6f6e6720666f7220617267756d656e7473

end AnonymizerError

/-! ### Constants -/

/-- `PRIMER_CLASS_HASH` -/
def primerClassHash : ClassHash :=
  0x00123e6bc1c14ae9934e933d3f64916a6116dd6b036a922b2b1f0815e0d1d300

/-- `selector!("transfer")` -/
def transferSelector : Felt :=
  0x83afd3f4caedc6eebf44246fe54e38c95e3179a5ec9ea81740eca5b482d12e

/-! ### The platform -/

/-- What the anonymizer reads and calls. A failing operation carries its panic data. -/
structure AnonymizerPlatform (sn : Starknet) where
  /-- `get_contract_address` -/
  contractAddress : ContractAddress
  /-- The storage variable `privacy_contract`, written by the constructor alone. -/
  privacyContract : ContractAddress
  /-- The storage variable `shadow_account_class_hash`, written by the constructor alone. -/
  shadowAccountClassHash : ClassHash
  /-- Reading the storage map `shadow_accounts`. -/
  shadowAccounts : sn.Tokens → Felt → Option ContractAddress
  /-- Writing an entry of `shadow_accounts`. -/
  writeShadowAccount : sn.Tokens → Felt → ContractAddress → sn.Tokens
  /-- `deploy_syscall` of a class hash and a salt, without calldata. -/
  deploy : sn.Tokens → ClassHash → Felt → Except (List Felt) (ContractAddress × sn.Tokens)
  /-- `set_class_hash` of a primer. -/
  setClassHash : sn.Tokens → ContractAddress → ClassHash → Except (List Felt) sn.Tokens
  /-- `initialize` of a shadow account. -/
  initializeAccount : sn.Tokens → ContractAddress → Except (List Felt) sn.Tokens
  /-- `approve` of a token by this contract, for a spender. -/
  approve : sn.Tokens → ContractAddress → ContractAddress → ℕ → Except (List Felt) sn.Tokens
  /-- `call_contract_syscall` by an account. -/
  callContract : sn.Tokens → ContractAddress → Call → Except (List Felt) sn.Tokens

section Anonymizer

variable {sn : Starknet} (platform : AnonymizerPlatform sn)

/-- `execute` of a shadow account: its calls one by one, each of which must succeed. -/
def execute (shadowAccount : ContractAddress) (calls : List Call) (state : sn.Tokens) :
    Except (List Felt) sn.Tokens :=
  calls.foldlM (fun state call => platform.callContract state shadowAccount call) state

/-- `partial_commitment` -/
def partialCommitment (sn : Starknet) (identityKey dappName : Felt) : Felt :=
  sn.poseidonHashSpan [identityKey, dappName]

/-- `commitment_from_partial` -/
def commitmentFromPartial (sn : Starknet) (partialCommitment nonce : Felt) : Felt :=
  sn.poseidonHashSpan [partialCommitment, nonce]

/-- The identity commitment of a user, an application and a nonce. -/
def privacyCompute (sn : Starknet) (identityKey dappName nonce : Felt) : Felt :=
  commitmentFromPartial sn (partialCommitment sn identityKey dappName) nonce

/-- The shadow account of a commitment, deployed on first use. -/
def getOrDeployShadowAccount (identityCommitment : Felt) (state : sn.Tokens) :
    Except (List Felt) (ContractAddress × sn.Tokens) :=
  match platform.shadowAccounts state identityCommitment with
  | some shadowAccount => return (shadowAccount, state)
  | none => do
    let (shadowAccount, state) ← platform.deploy state primerClassHash identityCommitment
    require (shadowAccount ≠ 0) [AnonymizerError.zeroAddress]
    let state ← platform.setClassHash state shadowAccount platform.shadowAccountClassHash
    let state ← platform.initializeAccount state shadowAccount
    return (shadowAccount, platform.writeShadowAccount state identityCommitment shadowAccount)

/-- Each note with the shadow account's balance before the calls, where it is used. -/
def snapshotOpenNotes (shadowAccount : ContractAddress) (openNotes : List OpenNote)
    (state : sn.Tokens) : List (OpenNote × ℕ) :=
  openNotes.map fun note =>
    match note.collectPolicy with
    | .diff => (note, sn.balanceOf state note.token shadowAccount)
    | _ => (note, 0)

/-- A call that transfers an amount, a `u256` written as its halves. -/
def buildTransferCall (token recipient : ContractAddress) (amount : ℕ) : Call :=
  ⟨token, transferSelector,
    ⟨[ContractAddress.toFelt recipient, Fin.ofNat feltPrime (amount % 2 ^ 128),
      Fin.ofNat feltPrime (amount / 2 ^ 128)], show 3 < 2 ^ 32 by decide⟩⟩

/-- The amount that a policy selects. -/
def collected (policy : CollectPolicy) (balance preBalance : ℕ) : Except (List Felt) ℕ :=
  match policy with
  | .all => return balance
  | .diff => do
    require (preBalance ≤ balance) [AnonymizerError.negativeDiff]
    return balance - preBalance
  | .exact amount => do
    require (amount.val ≤ balance) [AnonymizerError.insufficientBalance]
    return amount.val

/-- The variables of the loop of `collect_open_notes`. -/
structure CollectLoop (sn : Starknet) where
  state : sn.Tokens
  transferCalls : List Call
  deposits : List OpenNoteDeposit

/-- One step of the loop: choose the amount, note the transfer, approve the pool and
note the deposit. -/
def collectOpenNote (shadowAccount : ContractAddress) (loop : CollectLoop sn)
    (snapshot : OpenNote × ℕ) : Except (List Felt) (CollectLoop sn) := do
  let balance := sn.balanceOf loop.state snapshot.1.token shadowAccount
  let amount ← collected snapshot.1.collectPolicy balance snapshot.2
  require (amount ≠ 0) [AnonymizerError.zeroBalance]
  let transferCall := buildTransferCall snapshot.1.token platform.contractAddress amount
  let state ← platform.approve loop.state snapshot.1.token platform.privacyContract amount
  let deposit ← expect
    (if h : amount < 2 ^ 128 then some ⟨snapshot.1.noteId, snapshot.1.token, ⟨amount, h⟩⟩ else none)
    [AnonymizerError.amountOverflow]
  return ⟨state, loop.transferCalls ++ [transferCall], loop.deposits ++ [deposit]⟩

/-- What each open note is to collect, which the account then transfers to the pool. -/
def collectOpenNotes (shadowAccount : ContractAddress) (snapshots : List (OpenNote × ℕ))
    (state : sn.Tokens) : Except (List Felt) (List OpenNoteDeposit × sn.Tokens) := do
  let loop ← snapshots.foldlM (collectOpenNote platform shadowAccount) ⟨state, [], []⟩
  let state ← execute platform shadowAccount loop.transferCalls loop.state
  return (loop.deposits, state)

/-- An array of a run, whose length fits a `usize`. -/
def toSpan {α : Type} (elems : List α) : Except (List Felt) (Span α) :=
  expect (if h : elems.length < 2 ^ 32 then some ⟨elems, h⟩ else none) []

/-- The account is found or deployed, makes its calls, and fills its open notes. -/
def privacyInvokeWithComputation (caller : ContractAddress) (identityCommitment : Felt)
    (calls : Span Call) (openNotes : Span OpenNote) (state : sn.Tokens) :
    Except (List Felt) ((Span OpenNoteDeposit × Span ContractAddress) × sn.Tokens) := do
  require (caller = platform.privacyContract) [AnonymizerError.unauthorizedCaller]
  let (shadowAccount, state) ← getOrDeployShadowAccount platform identityCommitment state
  let snapshots := snapshotOpenNotes shadowAccount openNotes.1 state
  let state ← execute platform shadowAccount calls.1 state
  let (deposits, state) ← collectOpenNotes platform shadowAccount snapshots state
  let associatedAddresses := if deposits = [] then [] else [shadowAccount]
  let deposits ← toSpan deposits
  let associatedAddresses ← toSpan associatedAddresses
  return ((deposits, associatedAddresses), state)

/-- The entry point: arguments out of the calldata, results into the return data. -/
def privacyInvokeEntryPoint (caller : ContractAddress) (calldata : Span Felt)
    (state : sn.Tokens) : Except (List Felt) (sn.Tokens × List Felt) := do
  let (identityCommitment, rest) ← expect (deserialize (α := Felt) calldata.1)
    [AnonymizerError.failedToDeserialize 1]
  let (calls, rest) ← expect (deserialize (α := Span Call) rest)
    [AnonymizerError.failedToDeserialize 2]
  let (openNotes, rest) ← expect (deserialize (α := Span OpenNote) rest)
    [AnonymizerError.failedToDeserialize 3]
  require (rest = []) [AnonymizerError.inputTooLong]
  let (results, state) ← privacyInvokeWithComputation platform caller identityCommitment calls
    openNotes state
  return (state, serialize results)

variable {platform}

/-- The entry point reads its arguments from the whole calldata and returns the results. -/
theorem privacyInvokeEntryPoint_eq_ok {caller : ContractAddress} {calldata : Span Felt}
    {state state' : sn.Tokens} {returnData : List Felt}
    (h : privacyInvokeEntryPoint platform caller calldata state = .ok (state', returnData)) :
    ∃ identityCommitment calls openNotes results,
      calldata.1 = identityCommitment :: (serialize calls ++ serialize openNotes) ∧
      privacyInvokeWithComputation platform caller identityCommitment calls openNotes state =
        .ok (results, state') ∧
      returnData = serialize results := by
  simp only [privacyInvokeEntryPoint, bind_eq_ok, require_eq_ok, expect_eq_ok, pure_eq_ok,
    exists_const] at h
  obtain ⟨⟨identityCommitment, rest⟩, hcommitment, ⟨calls, rest'⟩, hcalls, ⟨openNotes, rest''⟩,
    hnotes, hrest, ⟨results, next⟩, hinvoke, hresult⟩ := h
  obtain ⟨rfl, rfl⟩ := Prod.mk.inj hresult
  dsimp only at hcalls hnotes hrest
  refine ⟨identityCommitment, calls, openNotes, results, ?_, hinvoke, rfl⟩
  rw [(Serde.codec (α := Felt)).encode_of_decode hcommitment,
    (Serde.codec (α := Span Call)).encode_of_decode hcalls,
    (Serde.codec (α := Span OpenNote)).encode_of_decode hnotes, hrest, List.append_nil]
  rfl

end Anonymizer

end PrivacyPool
