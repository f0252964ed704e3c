import PrivacyPool.Signers.Eip712CallSetSigner

/-!
# The two EIP-712 signers

A wallet computes the digest of typed data from the type tables, value by value; the
client computes a flattened hash from literal type strings. The values of the typed
data are numbers below `2 ^ 256` in hexadecimal, so the wallet encodes each as the
word that `to32` writes, and the two computations meet struct by struct.

## Main definitions

* `Uint256` — a number of the client in the range of a word
* `RawCall` — the numbers of a call, with its typed data and its struct hash

## Main results

* `to32_keccak` — a hash kept as a `bigint` is written back unchanged
* `encodeValue_callArray` — the wallet's encoding of the calls is `hashArray`
* `typedData_digests_agree` — both signers sign one digest, for both messages
-/

namespace PrivacyPool.Signers

open Bytes (Keccak word digest)
open Eip712 (Field Json TypedData Types)

variable {k : Keccak} {js : StarknetJs}

/-! ### Words -/

theorem bytesToBigInt_eq (b : List UInt8) : bytesToBigInt b = digest b := by
  refine congrArg (fun step => b.foldl step 0) (funext fun x => funext fun byte => ?_)
  rw [← Nat.shiftLeft_add_eq_or_of_lt byte.toNat_lt, Nat.shiftLeft_eq]

theorem toBytes_eq (width x : ℕ) : toBytes width x = word width x := by
  induction width generalizing x with
  | zero => rfl
  | succ width ih =>
    have hlast : UInt8.ofNat (x &&& 0xff) = UInt8.ofNat x := by
      apply UInt8.toNat_inj.mp
      rw [UInt8.toNat_ofNat', UInt8.toNat_ofNat', Nat.and_two_pow_sub_one_eq_mod x 8,
        Nat.mod_mod]
    rw [toBytes, ih, hlast, Nat.shiftRight_eq_div_pow, Bytes.word_succ]

theorem to32_eq (v : ℕ) : to32 v = word 32 v := toBytes_eq 32 v

/-- A hash kept as a `bigint` is written back to the bytes it was read from. -/
theorem to32_keccak (b : List UInt8) : to32 (keccak k b) = k.hash b := by
  rw [to32_eq, keccak, bytesToBigInt_eq, k.word_digest]

theorem to32_keccakFelts (vals : List ℕ) :
    to32 (keccakFelts k vals) = k.hash (vals.flatMap to32) :=
  to32_keccak _

/-! ### Atoms and arrays -/

theorem encodeValue_hexJson (types : Types) {n : ℕ} (hn : n < 2 ^ 256) :
    Eip712.encodeValue k types (hexJson n) "uint256" = some (to32 n) := by
  have hread : Hex.readText (toHex n) = some n := Hex.readText_writeText n
  simp only [hexJson, Eip712.encodeValue, Eip712.encodeAtom, hread, to32_eq, String.reduceEq,
    if_false, if_true, Option.bind_eq_bind, Option.bind_some, if_pos hn]

theorem encodeValue_address (types : Types) {n : ℕ} (hn : n < 2 ^ 160) :
    Eip712.encodeValue k types (hexJson n) "address" = some (to32 n) := by
  have hread : Hex.readText (toHex n) = some n := Hex.readText_writeText n
  simp only [hexJson, Eip712.encodeValue, Eip712.encodeAtom, hread, to32_eq, String.reduceEq,
    if_false, if_true, Option.bind_eq_bind, Option.bind_some, if_pos hn]

theorem encodeValue_string (types : Types) (s : String) :
    Eip712.encodeValue k types (.text s) "string" = some (to32 (keccak k (Eip712.utf8 s))) := by
  simp [Eip712.encodeValue, Eip712.encodeAtom, to32_keccak]

theorem elementType_uint256 : Eip712.elementType "uint256[]" = some "uint256" := by
  decide +kernel

theorem elementType_call : Eip712.elementType "Call[]" = some "Call" := by decide +kernel

theorem encodeValue_felts (types : Types) {felts : List ℕ} (h : ∀ n ∈ felts, n < 2 ^ 256) :
    Eip712.encodeValue k types (.array (felts.map hexJson)) "uint256[]" =
      some (to32 (hashFeltArray k felts)) := by
  rw [hashFeltArray, to32_keccak]
  exact Eip712.encodeValue_array elementType_uint256 fun n hn => encodeValue_hexJson types (h n hn)

/-! ### Calls -/

/-- The numbers of a call. -/
structure RawCall where
  address : ℕ
  selector : ℕ
  data : List ℕ

namespace RawCall

/-- The call in typed data. -/
def json (call : RawCall) : Json := typedCall call.address call.selector call.data

/-- The struct hash of the call. -/
def hash (k : Keccak) (call : RawCall) : ℕ :=
  hashCallStruct k call.address call.selector call.data

/-- The numbers of the call are words. -/
structure InRange (call : RawCall) : Prop where
  address : call.address < 2 ^ 256
  selector : call.selector < 2 ^ 256
  data : ∀ n ∈ call.data, n < 2 ^ 256

end RawCall

/-- What both type tables say about calls and domains. -/
structure HasCallTypes (types : Types) : Prop where
  domain : types.lookup "EIP712Domain" = some eip712DomainFields
  call : types.lookup "Call" = some callFields
  encodeDomain : Eip712.encodeType types "EIP712Domain" =
    "EIP712Domain(string name,string version,uint256 chainId,address verifyingContract)"
  encodeCall : Eip712.encodeType types "Call" =
    "Call(uint256 address,uint256 selector,uint256[] data)"

theorem callSetEip712Types_hasCallTypes : HasCallTypes callSetEip712Types where
  domain := by decide +kernel
  call := by decide +kernel
  encodeDomain := by decide +kernel
  encodeCall := by decide +kernel

theorem outsideExecutionEip712Types_hasCallTypes : HasCallTypes outsideExecutionEip712Types where
  domain := by decide +kernel
  call := by decide +kernel
  encodeDomain := by decide +kernel
  encodeCall := by decide +kernel

theorem typeHash_eq {types : Types} {type encoded : String}
    (h : Eip712.encodeType types type = encoded) :
    Eip712.typeHash k types type = to32 (keccakType k encoded) := by
  rw [Eip712.typeHash, h, keccakType, to32_keccak]

theorem encodeValue_call {types : Types} (htypes : HasCallTypes types) {call : RawCall}
    (hcall : call.InRange) :
    Eip712.encodeValue k types call.json "Call" = some (to32 (call.hash k)) := by
  have hdata := encodeValue_felts (k := k) types hcall.data
  have haddress := encodeValue_hexJson (k := k) types hcall.address
  have hselector := encodeValue_hexJson (k := k) types hcall.selector
  rw [RawCall.hash, hashCallStruct, to32_keccakFelts, RawCall.json, typedCall,
    Eip712.encodeValue_record htypes.call
      (.cons ⟨_, rfl, haddress⟩ (.cons ⟨_, rfl, hselector⟩ (.cons ⟨_, rfl, hdata⟩ .nil))),
    typeHash_eq htypes.encodeCall]
  rfl

theorem encodeValue_callArray {types : Types} (htypes : HasCallTypes types) {calls : List RawCall}
    (hcalls : ∀ call ∈ calls, call.InRange) :
    Eip712.encodeValue k types (.array (calls.map RawCall.json)) "Call[]" =
      some (to32 (keccak k (calls.flatMap fun call => to32 (call.hash k)))) := by
  rw [to32_keccak]
  exact Eip712.encodeValue_array elementType_call fun call hcall =>
    encodeValue_call htypes (hcalls call hcall)

theorem and_mask128 (n : ℕ) : n &&& mask128 = n % 2 ^ 128 := Nat.and_two_pow_sub_one_eq_mod n 128

theorem hashStruct_domain {types : Types} (htypes : HasCallTypes types) (name version : String)
    {chainId : ℕ} (account : ℕ) (hchain : chainId < 2 ^ 256) :
    Eip712.hashStruct k types "EIP712Domain" (typedDomain name version chainId account) =
      some (to32 (eip712DomainSeparator k name version chainId (account &&& mask128))) := by
  have haccount : account &&& mask128 < 2 ^ 160 := by
    rw [and_mask128]
    exact Nat.lt_trans (Nat.mod_lt _ (by decide)) (by decide)
  have hcontract := encodeValue_address (k := k) types haccount
  have hid := encodeValue_hexJson (k := k) types hchain
  rw [eip712DomainSeparator, to32_keccakFelts]
  change Eip712.encodeValue k types (.record _) "EIP712Domain" = _
  rw [Eip712.encodeValue_record htypes.domain
      (.cons ⟨_, rfl, encodeValue_string types name⟩
        (.cons ⟨_, rfl, encodeValue_string types version⟩
          (.cons ⟨_, rfl, hid⟩ (.cons ⟨_, rfl, hcontract⟩ .nil)))),
    typeHash_eq htypes.encodeDomain]
  rfl

/-! ### Messages -/

theorem encodeType_callSet : Eip712.encodeType callSetEip712Types "CallSet" =
    "CallSet(Call[] calls,uint256[] additional_data)Call(uint256 address,uint256 selector,uint256[] data)" := by
  decide +kernel

theorem encodeType_outsideExecution :
    Eip712.encodeType outsideExecutionEip712Types "OutsideExecution" =
    "OutsideExecution(Call[] calls,uint256 caller,uint256 nonce,uint256 execute_after,uint256 execute_before)Call(uint256 address,uint256 selector,uint256[] data)" := by
  decide +kernel

/-- The hashes of the calls of a message. -/
def callArrayHash (k : Keccak) (calls : List RawCall) : ℕ :=
  keccak k (calls.flatMap fun call => to32 (call.hash k))

theorem hashStruct_callSet {calls : List RawCall} {data : List ℕ}
    (hcalls : ∀ call ∈ calls, call.InRange) (hdata : ∀ n ∈ data, n < 2 ^ 256) :
    Eip712.hashStruct k callSetEip712Types "CallSet"
      (.record [("calls", .array (calls.map RawCall.json)),
        ("additional_data", .array (data.map hexJson))]) =
      some (to32 (keccakFelts k
        [callSet712TypeHash k, callArrayHash k calls, hashFeltArray k data])) := by
  have hencodedCalls := encodeValue_callArray (k := k) callSetEip712Types_hasCallTypes hcalls
  have hencodedData := encodeValue_felts (k := k) callSetEip712Types hdata
  rw [to32_keccakFelts]
  change Eip712.encodeValue k callSetEip712Types (.record _) "CallSet" = _
  rw [Eip712.encodeValue_record rfl
      (.cons ⟨_, rfl, hencodedCalls⟩ (.cons ⟨_, rfl, hencodedData⟩ .nil)),
    typeHash_eq encodeType_callSet]
  rfl

theorem hashStruct_outsideExecution {calls : List RawCall}
    {caller nonce executeAfter executeBefore : ℕ} (hcalls : ∀ call ∈ calls, call.InRange)
    (hcaller : caller < 2 ^ 256) (hnonce : nonce < 2 ^ 256) (hafter : executeAfter < 2 ^ 256)
    (hbefore : executeBefore < 2 ^ 256) :
    Eip712.hashStruct k outsideExecutionEip712Types "OutsideExecution"
      (.record [("calls", .array (calls.map RawCall.json)), ("caller", hexJson caller),
        ("nonce", hexJson nonce), ("execute_after", hexJson executeAfter),
        ("execute_before", hexJson executeBefore)]) =
      some (to32 (keccakFelts k [outsideExecutionTypeHash k, callArrayHash k calls, caller, nonce,
        executeAfter, executeBefore])) := by
  have hencodedCalls :=
    encodeValue_callArray (k := k) outsideExecutionEip712Types_hasCallTypes hcalls
  rw [to32_keccakFelts]
  change Eip712.encodeValue k outsideExecutionEip712Types (.record _) "OutsideExecution" = _
  rw [Eip712.encodeValue_record rfl
      (.cons ⟨_, rfl, hencodedCalls⟩ (.cons ⟨_, rfl, encodeValue_hexJson _ hcaller⟩
        (.cons ⟨_, rfl, encodeValue_hexJson _ hnonce⟩ (.cons ⟨_, rfl, encodeValue_hexJson _ hafter⟩
          (.cons ⟨_, rfl, encodeValue_hexJson _ hbefore⟩ .nil))))),
    typeHash_eq encodeType_outsideExecution]
  rfl

/-- The digest of the envelope is the wrapped hash, written to bytes. -/
theorem signingDigest_eq {typedData : TypedData} {domainSep structHash : ℕ}
    (hdomain : Eip712.hashStruct k typedData.types "EIP712Domain" typedData.domain =
      some (to32 domainSep))
    (hstruct : Eip712.hashStruct k typedData.types typedData.primaryType typedData.message =
      some (to32 structHash)) :
    Eip712.signingDigest k typedData = some (to32 (wrapEip712 k domainSep structHash)) := by
  rw [wrapEip712, to32_keccak, Eip712.signingDigest, hdomain, hstruct]
  rfl

theorem bytesToBigInt_to32_wrap (domainSep structHash : ℕ) :
    bytesToBigInt (to32 (wrapEip712 k domainSep structHash)) =
      wrapEip712 k domainSep structHash := by
  rw [wrapEip712, to32_keccak]
  rfl

/-! ### Reading the arguments -/

/-- A number of the client in the range of a word. -/
def Uint256 (v : BigNumberish) : Prop := ∃ n, toFelt v = some n ∧ n < 2 ^ 256

theorem exists_forall₂ {α β : Type} {R : α → β → Prop} {as : List α}
    (h : ∀ a ∈ as, ∃ b, R a b) : ∃ bs, List.Forall₂ R as bs := by
  induction as with
  | nil => exact ⟨[], .nil⟩
  | cons a as ih =>
    obtain ⟨b, hb⟩ := h a List.mem_cons_self
    obtain ⟨bs, hbs⟩ := ih fun a' ha => h a' (List.mem_cons_of_mem _ ha)
    exact ⟨b :: bs, .cons hb hbs⟩

theorem mapM_eq_some_map {α β γ : Type} {f : α → Option γ} {g : β → γ} {as : List α}
    {bs : List β} (h : List.Forall₂ (fun a b => f a = some (g b)) as bs) :
    as.mapM f = some (bs.map g) := by
  rw [Hex.mapM_eq_some_iff, List.forall₂_map_right_iff]
  exact h

theorem forall_of_forall₂ {α β : Type} {P : β → Prop} {R : α → β → Prop} {as : List α}
    {bs : List β} (h : List.Forall₂ (fun a b => R a b ∧ P b) as bs) : ∀ b ∈ bs, P b := by
  induction h with
  | nil => simp
  | cons hhead _ ih => exact List.forall_mem_cons.mpr ⟨hhead.2, ih⟩

theorem readFelts {vs : List BigNumberish} (h : ∀ v ∈ vs, Uint256 v) :
    ∃ ns, vs.mapM toFelt = some ns ∧ ∀ n ∈ ns, n < 2 ^ 256 := by
  obtain ⟨ns, hns⟩ := exists_forall₂ h
  exact ⟨ns, Hex.mapM_eq_some_iff.mpr (hns.imp fun _ _ hv => hv.1), forall_of_forall₂ hns⟩

/-- The numbers of a call are in range. -/
structure Call.Uint256 (js : StarknetJs) (call : Call) : Prop where
  contractAddress : Signers.Uint256 call.contractAddress
  selector : Signers.Uint256 (.text (js.getSelectorFromName call.entrypoint))
  calldata : ∀ v ∈ call.calldata.getD [], Signers.Uint256 v

/-- The numbers of a call fit into 256 bits. -/
structure OutsideExecutionCall.Uint256 (call : OutsideExecutionCall) : Prop where
  address : Signers.Uint256 call.address
  selector : Signers.Uint256 call.selector
  data : ∀ v ∈ call.data, Signers.Uint256 v

/-- A call reads as a raw call, in the message and in the hash. -/
def ReadsCall (k : Keccak) (js : StarknetJs) (call : Call) (raw : RawCall) : Prop :=
  hashCall712 k js call = some (raw.hash k) ∧ (do
    let contractAddress ← toFelt call.contractAddress
    let selector ← toFelt (.text (js.getSelectorFromName call.entrypoint))
    let data ← (call.calldata.getD []).mapM toFelt
    return typedCall contractAddress selector data) = some raw.json

theorem exists_readsCall {call : Call} (h : call.Uint256 js) :
    ∃ raw, ReadsCall k js call raw ∧ raw.InRange := by
  obtain ⟨address, haddress, haddress'⟩ := h.contractAddress
  obtain ⟨selector, hselector, hselector'⟩ := h.selector
  obtain ⟨data, hdata, hdata'⟩ := readFelts h.calldata
  refine ⟨⟨address, selector, data⟩, ⟨?_, ?_⟩, haddress', hselector', hdata'⟩
  · simp only [hashCall712, haddress, hselector, hdata, Option.bind_eq_bind, Option.bind_some]
    rfl
  · simp only [haddress, hselector, hdata, Option.bind_eq_bind, Option.bind_some]
    rfl

/-- The typed data of an outside call. -/
theorem exists_typedOutsideCall {call : OutsideExecutionCall} (h : call.Uint256) :
    ∃ raw : RawCall, (do
      let address ← toFelt call.address
      let selector ← toFelt call.selector
      let data ← call.data.mapM toFelt
      return typedCall address selector data) = some raw.json ∧ raw.InRange := by
  obtain ⟨address, haddress, haddress'⟩ := h.address
  obtain ⟨selector, hselector, hselector'⟩ := h.selector
  obtain ⟨data, hdata, hdata'⟩ := readFelts h.data
  refine ⟨⟨address, selector, data⟩, ?_, haddress', hselector', hdata'⟩
  simp only [haddress, hselector, hdata, Option.bind_eq_bind, Option.bind_some]
  rfl

/-- The call that typed data holds, as the raw-key signer reads it. -/
def RawCall.outsideCall (call : RawCall) : OutsideExecutionCall :=
  ⟨.text (toHex call.address), .text (toHex call.selector),
    call.data.map fun n => .text (toHex n)⟩

theorem readOutsideExecutionCall_json (call : RawCall) :
    readOutsideExecutionCall call.json = some call.outsideCall := by
  have hdata : arrayProperty call.json "data" readNumberish =
      some (call.data.map fun n => .text (toHex n)) := by
    change (call.data.map hexJson).mapM readNumberish = _
    rw [Hex.mapM_eq_some_iff, List.forall₂_map_left_iff, List.forall₂_map_right_iff]
    exact List.forall₂_same.mpr fun _ _ => rfl
  rw [readOutsideExecutionCall, hdata]
  rfl

theorem mapM_toFelt_toHex (ns : List ℕ) :
    (ns.map fun n => BigNumberish.text (toHex n)).mapM toFelt = some ns := by
  rw [Hex.mapM_eq_some_iff, List.forall₂_map_left_iff]
  exact List.forall₂_same.mpr fun n _ => toFelt_toHex n

theorem hashOutsideCall_outsideCall (call : RawCall) :
    hashOutsideCall k call.outsideCall = some (call.hash k) := by
  simp only [hashOutsideCall, RawCall.outsideCall, toFelt_toHex, mapM_toFelt_toHex,
    Option.bind_eq_bind, Option.bind_some]
  rfl

/-- The calls of typed data, read back and hashed. -/
theorem hashArray_outsideCalls (calls : List RawCall) :
    hashArray k (calls.map RawCall.outsideCall) (hashOutsideCall k) =
      some (callArrayHash k calls) := by
  have hhashes : (calls.map RawCall.outsideCall).mapM (hashOutsideCall k) =
      some (calls.map (RawCall.hash k)) := by
    rw [Hex.mapM_eq_some_iff, List.forall₂_map_left_iff, List.forall₂_map_right_iff]
    exact List.forall₂_same.mpr fun call _ => hashOutsideCall_outsideCall call
  rw [hashArray, hhashes, callArrayHash]
  simp only [Option.bind_eq_bind, Option.bind_some, List.flatMap_map]
  rfl

/-- The numbers of an outside execution are in range. -/
structure OutsideExecutionTypedDataInput.Uint256 (input : OutsideExecutionTypedDataInput) :
    Prop where
  accountAddress : Signers.Uint256 input.accountAddress
  evmChainId : Signers.Uint256 input.evmChainId
  calls : ∀ call ∈ input.calls, call.Uint256
  caller : Signers.Uint256 input.caller
  nonce : Signers.Uint256 input.nonce
  executeAfter : Signers.Uint256 input.executeAfter
  executeBefore : Signers.Uint256 input.executeBefore

theorem callSet_digests_agree (k : Keccak) {accountAddress evmChainId : BigNumberish}
    {calls : List Call} (snChainName : String) {additionalData : List BigNumberish}
    (haccount : Uint256 accountAddress) (hchain : Uint256 evmChainId)
    (hcalls : ∀ call ∈ calls, call.Uint256 js) (hdata : ∀ v ∈ additionalData, Uint256 v) :
    ∃ typedData digest,
      callSetTypedData js accountAddress calls snChainName evmChainId additionalData =
        some typedData ∧
      Eip712.signingDigest k typedData = some digest ∧
      computeCallSet712Hash k js accountAddress calls snChainName evmChainId additionalData =
        some (bytesToBigInt digest) ∧
      to32 (bytesToBigInt digest) = digest := by
  -- Every field reads as a number, which both sides encode as one word.
  obtain ⟨account, haccount, -⟩ := haccount
  obtain ⟨chainId, hchain, hchain'⟩ := hchain
  obtain ⟨data, hdata, hdata'⟩ := readFelts hdata
  obtain ⟨raws, hraws⟩ := exists_forall₂ fun call hcall =>
    exists_readsCall (k := k) (hcalls call hcall)
  have hjson := mapM_eq_some_map (hraws.imp fun _ _ hcall => hcall.1.2)
  have hhashes := mapM_eq_some_map (hraws.imp fun _ _ hcall => hcall.1.1)
  let typedData : TypedData := {
    types := callSetEip712Types
    primaryType := "CallSet"
    domain := typedDomain snChainName "2" chainId account
    message := .record [("calls", .array (raws.map RawCall.json)),
      ("additional_data", .array (data.map hexJson))] }
  have hdomain : Eip712.hashStruct k typedData.types "EIP712Domain" typedData.domain =
      some (to32 (eip712DomainSeparator k snChainName "2" chainId (account &&& mask128))) :=
    hashStruct_domain callSetEip712Types_hasCallTypes snChainName "2" account hchain'
  have hdigest := signingDigest_eq hdomain (hashStruct_callSet (forall_of_forall₂ hraws) hdata')
  refine ⟨typedData, _, ?_, hdigest, ?_, ?_⟩
  · simp only [callSetTypedData, hchain, haccount, hdata, Option.bind_eq_bind, Option.bind_some]
    simp only [Option.bind_eq_bind] at hjson
    rw [hjson]
    rfl
  · rw [bytesToBigInt_to32_wrap]
    simp only [computeCallSet712Hash, hashCallSet712, hashCallArray, hashArray, hchain, haccount,
      hdata, hhashes, Option.bind_eq_bind, Option.bind_some, Option.pure_def, List.flatMap_map]
    rfl
  · rw [bytesToBigInt_to32_wrap]

/-- What the raw-key signer reads out of the typed data of an outside execution. -/
theorem outsideExecutionHash_eq (k : Keccak) (snChainName : String) (calls : List RawCall)
    (chainId account caller nonce executeAfter executeBefore : ℕ) :
    outsideExecutionHash k {
      types := outsideExecutionEip712Types
      primaryType := "OutsideExecution"
      domain := typedDomain snChainName domainVersion chainId account
      message := .record [("calls", .array (calls.map RawCall.json)), ("caller", hexJson caller),
        ("nonce", hexJson nonce), ("execute_after", hexJson executeAfter),
        ("execute_before", hexJson executeBefore)] } =
    some (wrapEip712 k
      (eip712DomainSeparator k snChainName domainVersion chainId (account &&& mask128))
      (keccakFelts k [outsideExecutionTypeHash k, callArrayHash k calls, caller, nonce,
        executeAfter, executeBefore])) := by
  -- The members that the signer reads back are those of the raw calls.
  have hread : (calls.map RawCall.json).mapM readOutsideExecutionCall =
      some (calls.map RawCall.outsideCall) := by
    rw [Hex.mapM_eq_some_iff, List.forall₂_map_left_iff, List.forall₂_map_right_iff]
    exact List.forall₂_same.mpr fun call _ => readOutsideExecutionCall_json call
  have hcalls : arrayProperty (.record [("calls", .array (calls.map RawCall.json)),
      ("caller", hexJson caller), ("nonce", hexJson nonce),
      ("execute_after", hexJson executeAfter), ("execute_before", hexJson executeBefore)])
      "calls" readOutsideExecutionCall = some (calls.map RawCall.outsideCall) := hread
  simp only [outsideExecutionHash, hcalls]
  change computeOutsideExecution712Hash k {
    domain := ⟨snChainName, domainVersion, .text (toHex chainId),
      .text (toHex (account &&& mask128))⟩
    calls := calls.map RawCall.outsideCall, caller := .text (toHex caller),
    nonce := .text (toHex nonce), executeAfter := .text (toHex executeAfter),
    executeBefore := .text (toHex executeBefore) } = _
  simp only [computeOutsideExecution712Hash, hashArray_outsideCalls, toFelt_toHex,
    Option.bind_eq_bind, Option.bind_some]
  rfl

theorem outsideExecution_digests_agree (k : Keccak) {input : OutsideExecutionTypedDataInput}
    (h : input.Uint256) :
    ∃ typedData digest,
      outsideExecutionTypedData input = some typedData ∧
      Eip712.signingDigest k typedData = some digest ∧
      outsideExecutionHash k typedData = some (bytesToBigInt digest) ∧
      to32 (bytesToBigInt digest) = digest := by
  -- Every field reads as a number, which both sides encode as one word.
  obtain ⟨account, haccount, -⟩ := h.accountAddress
  obtain ⟨chainId, hchain, hchain'⟩ := h.evmChainId
  obtain ⟨caller, hcaller, hcaller'⟩ := h.caller
  obtain ⟨nonce, hnonce, hnonce'⟩ := h.nonce
  obtain ⟨executeAfter, hafter, hafter'⟩ := h.executeAfter
  obtain ⟨executeBefore, hbefore, hbefore'⟩ := h.executeBefore
  obtain ⟨raws, hraws⟩ := exists_forall₂ fun call hcall => exists_typedOutsideCall (h.calls call hcall)
  have hjson := mapM_eq_some_map (hraws.imp fun _ _ hcall => hcall.1)
  let typedData : TypedData := {
    types := outsideExecutionEip712Types
    primaryType := "OutsideExecution"
    domain := typedDomain input.snChainName domainVersion chainId account
    message := .record [("calls", .array (raws.map RawCall.json)), ("caller", hexJson caller),
      ("nonce", hexJson nonce), ("execute_after", hexJson executeAfter),
      ("execute_before", hexJson executeBefore)] }
  have hdomain : Eip712.hashStruct k typedData.types "EIP712Domain" typedData.domain =
      some (to32 (eip712DomainSeparator k input.snChainName domainVersion chainId
        (account &&& mask128))) :=
    hashStruct_domain outsideExecutionEip712Types_hasCallTypes input.snChainName domainVersion
      account hchain'
  have hdigest := signingDigest_eq hdomain (hashStruct_outsideExecution
    (forall_of_forall₂ hraws) hcaller' hnonce' hafter' hbefore')
  refine ⟨typedData, _, ?_, hdigest, ?_, ?_⟩
  · simp only [outsideExecutionTypedData, hchain, haccount, hcaller, hnonce, hafter, hbefore,
      Option.bind_eq_bind, Option.bind_some]
    simp only [Option.bind_eq_bind] at hjson
    rw [hjson]
    rfl
  · rw [bytesToBigInt_to32_wrap]
    exact outsideExecutionHash_eq k input.snChainName raws chainId account caller nonce
      executeAfter executeBefore
  · rw [bytesToBigInt_to32_wrap]

/-- A wallet that signs the typed data and a raw key that signs the computed hash sign
one digest, for every `CallSet` and every `OutsideExecution`. -/
theorem typedData_digests_agree (k : Keccak) (js : StarknetJs) :
    (∀ {accountAddress evmChainId : BigNumberish} {calls : List Call} (snChainName : String)
        {additionalData : List BigNumberish},
      Uint256 accountAddress → Uint256 evmChainId → (∀ call ∈ calls, call.Uint256 js) →
      (∀ v ∈ additionalData, Uint256 v) →
      ∃ typedData digest,
        callSetTypedData js accountAddress calls snChainName evmChainId additionalData =
          some typedData ∧
        Eip712.signingDigest k typedData = some digest ∧
        computeCallSet712Hash k js accountAddress calls snChainName evmChainId additionalData =
          some (bytesToBigInt digest) ∧
        to32 (bytesToBigInt digest) = digest) ∧
    (∀ {input : OutsideExecutionTypedDataInput}, input.Uint256 →
      ∃ typedData digest,
        outsideExecutionTypedData input = some typedData ∧
        Eip712.signingDigest k typedData = some digest ∧
        outsideExecutionHash k typedData = some (bytesToBigInt digest) ∧
        to32 (bytesToBigInt digest) = digest) := by
  constructor
  · intro accountAddress evmChainId calls snChainName additionalData haccount hchain hcalls hdata
    exact callSet_digests_agree k snChainName haccount hchain hcalls hdata
  · intro input hinput
    exact outsideExecution_digests_agree k hinput

/-- A polynomial of the bytes, in place of Keccak-256. -/
def sampleKeccak : Keccak where
  hash bytes := word 32 (bytes.foldl (fun h byte => h * 1000003 + byte.toNat + 1) 7)
  length_hash _ := Bytes.length_word 32 _

/-- A client whose selectors are all 47. -/
def sampleJs : StarknetJs where
  poseidonHashMany _ := 0
  getSelectorFromName _ := "0x2f"

theorem typedData_digests_agree_sample :
    (∃ typedData digest,
      callSetTypedData sampleJs (.text "0x5") [⟨.text "0x5", "transfer", some [.text "12"]⟩]
        "SN_SEPOLIA" (.bigint 1) [] = some typedData ∧
      Eip712.signingDigest sampleKeccak typedData = some digest ∧
      computeCallSet712Hash sampleKeccak sampleJs (.text "0x5")
        [⟨.text "0x5", "transfer", some [.text "12"]⟩] "SN_SEPOLIA" (.bigint 1) [] =
        some (bytesToBigInt digest) ∧
      to32 (bytesToBigInt digest) = digest) ∧
    ∃ typedData digest,
      outsideExecutionTypedData ⟨.bigint 5, "SN_MAIN", .bigint 1,
        [⟨.bigint 5, .bigint 47, [.bigint 12]⟩], .bigint 6, .bigint 0, .bigint 0, .bigint 9⟩ =
        some typedData ∧
      Eip712.signingDigest sampleKeccak typedData = some digest ∧
      outsideExecutionHash sampleKeccak typedData = some (bytesToBigInt digest) ∧
      to32 (bytesToBigInt digest) = digest := by
  have hbig : ∀ {n : ℕ}, n < 2 ^ 256 → Uint256 (.bigint n) := fun h => ⟨_, rfl, h⟩
  have haddress : Uint256 (.text "0x5") := ⟨5, by decide +kernel, by decide⟩
  have hselector : Uint256 (.text "0x2f") := ⟨47, by decide +kernel, by decide⟩
  have hfelt : Uint256 (.text "12") := ⟨12, by decide +kernel, by decide⟩
  obtain ⟨hcallSet, houtside⟩ := typedData_digests_agree sampleKeccak sampleJs
  constructor
  · refine hcallSet "SN_SEPOLIA" haddress (hbig (by decide)) ?_ (by simp)
    exact List.forall_mem_singleton.mpr ⟨haddress, hselector, List.forall_mem_singleton.mpr hfelt⟩
  · have hcall : OutsideExecutionCall.Uint256 ⟨.bigint 5, .bigint 47, [.bigint 12]⟩ :=
      ⟨hbig (by decide), hbig (by decide), List.forall_mem_singleton.mpr (hbig (by decide))⟩
    exact houtside ⟨hbig (by decide), hbig (by decide), List.forall_mem_singleton.mpr hcall,
      hbig (by decide), hbig (by decide), hbig (by decide), hbig (by decide)⟩

end PrivacyPool.Signers
