import PrivacyPool.Base.Eip712
import PrivacyPool.Signers.Snip12CallSetSigner

/-!
# The EIP-712 signers

The raw-key signer hashes a message itself, with literal type strings; the wallet
signer hands the wallet typed data whose numbers are hexadecimal texts. Hashes are
`bigint`s here, as in the source, and are written back to 32 bytes wherever they are
hashed again or signed.

## Main definitions

* `computeCallSet712Hash`, `callSetTypedData` — the two forms of a `CallSet`
* `computeOutsideExecution712Hash`, `outsideExecutionTypedData` — the two forms of an
  `OutsideExecution`
* `outsideExecutionHash` — the hash that the raw-key signer reads out of typed data
-/

namespace PrivacyPool.Signers

open Bytes (Keccak)
open Eip712 (Field Json TypedData Types)

/-- `MASK_128` -/
def mask128 : ℕ := 2 ^ 128 - 1

/-- The version of the domain. -/
def domainVersion : String := "2"

/-! ### Type tables -/

/-- The type of a domain. -/
def eip712DomainFields : List Field :=
  [⟨"name", "string"⟩, ⟨"version", "string"⟩, ⟨"chainId", "uint256"⟩,
    ⟨"verifyingContract", "address"⟩]

/-- The type of a call. -/
def callFields : List Field :=
  [⟨"address", "uint256"⟩, ⟨"selector", "uint256"⟩, ⟨"data", "uint256[]"⟩]

/-- `CALL_SET_EIP712_TYPES` -/
def callSetEip712Types : Types :=
  [("EIP712Domain", eip712DomainFields),
    ("CallSet", [⟨"calls", "Call[]"⟩, ⟨"additional_data", "uint256[]"⟩]),
    ("Call", callFields)]

/-- `OUTSIDE_EXECUTION_EIP712_TYPES` -/
def outsideExecutionEip712Types : Types :=
  [("EIP712Domain", eip712DomainFields),
    ("OutsideExecution", [⟨"calls", "Call[]"⟩, ⟨"caller", "uint256"⟩, ⟨"nonce", "uint256"⟩,
      ⟨"execute_after", "uint256"⟩, ⟨"execute_before", "uint256"⟩]),
    ("Call", callFields)]

/-! ### Hashing -/

/-- `bytesToBigInt` -/
def bytesToBigInt (b : List UInt8) : ℕ :=
  b.foldl (fun x byte => x <<< 8 ||| byte.toNat) 0

/-- The loop of `to32`, from the last byte to the first. -/
def toBytes : ℕ → ℕ → List UInt8
  | 0, _ => []
  | i + 1, x => toBytes i (x >>> 8) ++ [UInt8.ofNat (x &&& 0xff)]

/-- A number in 32 bytes. -/
def to32 (v : ℕ) : List UInt8 := toBytes 32 v

variable (k : Keccak) (js : StarknetJs)

/-- `keccak` -/
def keccak (b : List UInt8) : ℕ := bytesToBigInt (k.hash b)

/-- The hash of numbers, 32 bytes each. -/
def keccakFelts (vals : List ℕ) : ℕ := keccak k (vals.flatMap to32)

/-- The hash of a type. -/
def keccakType (encodeType : String) : ℕ := keccak k (Eip712.utf8 encodeType)

/-- The hash of the type of a domain. -/
def eip712DomainTypeHash : ℕ := keccakType k
  "EIP712Domain(string name,string version,uint256 chainId,address verifyingContract)"

/-- `CALL_TYPE_HASH` -/
def call712TypeHash : ℕ := keccakType k
  "Call(uint256 address,uint256 selector,uint256[] data)"

/-- `CALL_SET_TYPE_HASH` -/
def callSet712TypeHash : ℕ := keccakType k
  "CallSet(Call[] calls,uint256[] additional_data)Call(uint256 address,uint256 selector,uint256[] data)"

/-- The hash of the type of an outside execution. -/
def outsideExecutionTypeHash : ℕ := keccakType k
  "OutsideExecution(Call[] calls,uint256 caller,uint256 nonce,uint256 execute_after,uint256 execute_before)Call(uint256 address,uint256 selector,uint256[] data)"

/-- The digest of a structure under a domain. -/
def wrapEip712 (domainSep structHash : ℕ) : ℕ :=
  keccak k ([0x19, 0x01] ++ to32 domainSep ++ to32 structHash)

/-- The hash of an array, from those of its elements. -/
def hashArray {α : Type} (items : List α) (hashItem : α → Option ℕ) : Option ℕ := do
  let hashes ← items.mapM hashItem
  return keccak k (hashes.flatMap to32)

/-- The hash of a call. -/
def hashCallStruct (address selector : ℕ) (data : List ℕ) : ℕ :=
  keccakFelts k [call712TypeHash k, address, selector, keccak k (data.flatMap to32)]

/-- `hashCall` -/
def hashCall712 (call : Call) : Option ℕ := do
  let contractAddress ← toFelt call.contractAddress
  let selector ← toFelt (.text (js.getSelectorFromName call.entrypoint))
  let data ← (call.calldata.getD []).mapM toFelt
  return hashCallStruct k contractAddress selector data

/-- The hash of an array of calls. -/
def hashCallArray (calls : List Call) : Option ℕ := hashArray k calls (hashCall712 k js)

/-- The hash of an array of numbers. -/
def hashFeltArray (felts : List ℕ) : ℕ := keccak k (felts.flatMap to32)

/-- `hashCallSet` -/
def hashCallSet712 (calls : List Call) (additionalData : List ℕ) : Option ℕ := do
  let callArray ← hashCallArray k js calls
  return keccakFelts k [callSet712TypeHash k, callArray, hashFeltArray k additionalData]

/-- The hash of a domain. -/
def eip712DomainSeparator (name version : String) (chainId verifyingContract : ℕ) : ℕ :=
  keccakFelts k [eip712DomainTypeHash k, keccak k (Eip712.utf8 name),
    keccak k (Eip712.utf8 version), chainId, verifyingContract]

/-- The digest of a call set. -/
def computeCallSet712Hash (accountAddress : BigNumberish) (calls : List Call)
    (snChainName : String) (evmChainId : BigNumberish) (additionalData : List BigNumberish) :
    Option ℕ := do
  let chainId ← toFelt evmChainId
  let account ← toFelt accountAddress
  let ds := eip712DomainSeparator k snChainName domainVersion chainId (account &&& mask128)
  let data ← additionalData.mapM toFelt
  let sh ← hashCallSet712 k js calls data
  return wrapEip712 k ds sh

/-! ### Outside executions -/

/-- A call of an outside execution, its selector already a number. -/
structure OutsideExecutionCall where
  address : BigNumberish
  selector : BigNumberish
  data : List BigNumberish

/-- The hash of such a call. -/
def hashOutsideCall (call : OutsideExecutionCall) : Option ℕ := do
  let address ← toFelt call.address
  let selector ← toFelt call.selector
  let data ← call.data.mapM toFelt
  return hashCallStruct k address selector data

/-- The domain of an outside execution. -/
structure OutsideExecution712Domain where
  name : String
  version : String
  chainId : BigNumberish
  verifyingContract : BigNumberish

/-- The argument of `computeOutsideExecution712Hash`. -/
structure OutsideExecution712Input where
  domain : OutsideExecution712Domain
  calls : List OutsideExecutionCall
  caller : BigNumberish
  nonce : BigNumberish
  executeAfter : BigNumberish
  executeBefore : BigNumberish

/-- The digest of an outside execution. -/
def computeOutsideExecution712Hash (input : OutsideExecution712Input) : Option ℕ := do
  let callArray ← hashArray k input.calls (hashOutsideCall k)
  let caller ← toFelt input.caller
  let nonce ← toFelt input.nonce
  let executeAfter ← toFelt input.executeAfter
  let executeBefore ← toFelt input.executeBefore
  let structHash := keccakFelts k
    [outsideExecutionTypeHash k, callArray, caller, nonce, executeAfter, executeBefore]
  let chainId ← toFelt input.domain.chainId
  let verifyingContract ← toFelt input.domain.verifyingContract
  let ds := eip712DomainSeparator k input.domain.name input.domain.version chainId
    verifyingContract
  return wrapEip712 k ds structHash

/-! ### Typed data -/

/-- A number in typed data. -/
def hexJson (n : ℕ) : Json := .text (toHex n)

/-- The domain of both messages. -/
def typedDomain (snChainName version : String) (evmChainId accountAddress : ℕ) : Json :=
  .record [("name", .text snChainName), ("version", .text version),
    ("chainId", hexJson evmChainId), ("verifyingContract", hexJson (accountAddress &&& mask128))]

/-- A call in typed data. -/
def typedCall (address selector : ℕ) (data : List ℕ) : Json :=
  .record [("address", hexJson address), ("selector", hexJson selector),
    ("data", .array (data.map hexJson))]

/-- The typed data of a call set. -/
def callSetTypedData (accountAddress : BigNumberish) (calls : List Call) (snChainName : String)
    (evmChainId : BigNumberish) (additionalData : List BigNumberish) : Option TypedData := do
  let chainId ← toFelt evmChainId
  let account ← toFelt accountAddress
  -- The entry points are hashed to selectors, which the contract sees.
  let typedCalls ← calls.mapM fun call => do
    let contractAddress ← toFelt call.contractAddress
    let selector ← toFelt (.text (js.getSelectorFromName call.entrypoint))
    let data ← (call.calldata.getD []).mapM toFelt
    return typedCall contractAddress selector data
  let data ← additionalData.mapM toFelt
  return {
    types := callSetEip712Types
    primaryType := "CallSet"
    domain := typedDomain snChainName "2" chainId account
    message := .record [("calls", .array typedCalls),
      ("additional_data", .array (data.map hexJson))] }

/-- The argument of `outsideExecutionTypedData`. -/
structure OutsideExecutionTypedDataInput where
  accountAddress : BigNumberish
  snChainName : String
  evmChainId : BigNumberish
  calls : List OutsideExecutionCall
  caller : BigNumberish
  nonce : BigNumberish
  executeAfter : BigNumberish
  executeBefore : BigNumberish

/-- The typed data of an outside execution. -/
def outsideExecutionTypedData (input : OutsideExecutionTypedDataInput) : Option TypedData := do
  let chainId ← toFelt input.evmChainId
  let account ← toFelt input.accountAddress
  let typedCalls ← input.calls.mapM fun call => do
    let address ← toFelt call.address
    let selector ← toFelt call.selector
    let data ← call.data.mapM toFelt
    return typedCall address selector data
  let caller ← toFelt input.caller
  let nonce ← toFelt input.nonce
  let executeAfter ← toFelt input.executeAfter
  let executeBefore ← toFelt input.executeBefore
  return {
    types := outsideExecutionEip712Types
    primaryType := "OutsideExecution"
    domain := typedDomain input.snChainName domainVersion chainId account
    message := .record [("calls", .array typedCalls), ("caller", hexJson caller),
      ("nonce", hexJson nonce), ("execute_after", hexJson executeAfter),
      ("execute_before", hexJson executeBefore)] }

/-! ### Reading typed data -/

/-- A property of an object. -/
def property (value : Json) (name : String) : Option Json :=
  match value with
  | .record members => members.lookup name
  | _ => none

/-- A text property. -/
def textProperty (value : Json) (name : String) : Option String :=
  match property value name with
  | some (.text s) => some s
  | _ => none

/-- An array property, each element read on its own. -/
def arrayProperty {α : Type} (value : Json) (name : String) (read : Json → Option α) :
    Option (List α) :=
  match property value name with
  | some (.array elems) => elems.mapM read
  | _ => none

/-- A number of typed data, as `computeOutsideExecution712Hash` takes it. -/
def readNumberish : Json → Option BigNumberish
  | .text s => some (.text s)
  | _ => none

/-- A call of typed data. -/
def readOutsideExecutionCall (value : Json) : Option OutsideExecutionCall := do
  let address ← textProperty value "address"
  let selector ← textProperty value "selector"
  let data ← arrayProperty value "data" readNumberish
  return ⟨.text address, .text selector, data⟩

/-- `outsideExecutionHash`: the hash of the domain and the message as they stand in
the typed data. -/
def outsideExecutionHash (typedData : TypedData) : Option ℕ := do
  let name ← textProperty typedData.domain "name"
  let version ← textProperty typedData.domain "version"
  let chainId ← textProperty typedData.domain "chainId"
  let verifyingContract ← textProperty typedData.domain "verifyingContract"
  let calls ← arrayProperty typedData.message "calls" readOutsideExecutionCall
  let caller ← textProperty typedData.message "caller"
  let nonce ← textProperty typedData.message "nonce"
  let executeAfter ← textProperty typedData.message "execute_after"
  let executeBefore ← textProperty typedData.message "execute_before"
  computeOutsideExecution712Hash k {
    domain := ⟨name, version, .text chainId, .text verifyingContract⟩
    calls, caller := .text caller, nonce := .text nonce, executeAfter := .text executeAfter,
    executeBefore := .text executeBefore }

end PrivacyPool.Signers
