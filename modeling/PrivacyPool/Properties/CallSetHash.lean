import Mathlib.Data.Set.Function
import PrivacyPool.Contract.Snip12
import PrivacyPool.Signers.Snip12CallSetSigner
import PrivacyPool.System.Assumptions

/-!
# The CallSet hash

The client and the contract assemble the hash of a list of calls from the same
three levels: the calldata of a call, the call, and the list of calls under the
struct and the envelope. Each level hashes a span whose length or whose entries
are fixed by the level above, so on spans that do not collide the hash determines
everything it was computed from.

## Main definitions

* `Represents` — a call of the client and one of the contract are the same call
* `callSetSpans`, `screeningSpans` — the spans hashed for a message

## Main results

* `hashCallSet_eq` — the struct hashes of client and contract agree
* `hashStruct_inj` — the struct hash determines calls and additional data
* `callSetHash_shared_and_binding` — the message hashes agree, bind their
  arguments and are no screening message
-/

namespace PrivacyPool

open Signers (BigNumberish StarknetJs toFelt)

variable {sn : Starknet} {oz : OpenZeppelin} {js : StarknetJs} {D : Set (List Felt)}

/-! ### Client and contract -/

/-- The Poseidon of starknet.js, on felts, is the contract's. -/
def SamePoseidon (sn : Starknet) (js : StarknetJs) : Prop :=
  ∀ span : List Felt, js.poseidonHashMany (span.map Fin.val) = (sn.poseidonHashSpan span).val

/-- The numbers of the client are these felts. -/
def ReadsAs (numbers : List BigNumberish) (felts : List Felt) : Prop :=
  numbers.mapM toFelt = some (felts.map Fin.val)

/-- A call of the client and a call of the contract are the same call. -/
structure Represents (js : StarknetJs) (call : Signers.Call) (call' : Call) : Prop where
  contractAddress : toFelt call.contractAddress = some call'.toAddr.val
  entrypoint : toFelt (.text (js.getSelectorFromName call.entrypoint)) = some call'.selector.val
  calldata : ReadsAs (call.calldata.getD []) call'.calldata.1

theorem starknetMessage_eq : Signers.starknetMessage = starknetMessage.val := by decide +kernel

theorem callSetDomainName_eq : Signers.callSetDomainName = callSetSnip12Name.val := by
  decide +kernel

theorem hashCall_eq (hoz : Snip12Revision1 sn oz) (hposeidon : SamePoseidon sn js)
    {call : Signers.Call} {call' : Call} (h : Represents js call call') :
    Signers.hashCall js call = some (oz.callHashStruct call').val := by
  have hdata : (call.calldata.getD []).mapM toFelt = some (call'.calldata.1.map Fin.val) :=
    h.calldata
  rw [hoz.callHashStruct, ← hposeidon]
  simp only [Signers.hashCall, h.contractAddress, h.entrypoint, hdata, Option.bind_eq_bind,
    Option.bind_some, Option.pure_def, List.map_cons, List.map_nil]
  rw [hposeidon call'.calldata.1]
  rfl

theorem hashCallSet_eq (hoz : Snip12Revision1 sn oz) (hposeidon : SamePoseidon sn js)
    {calls : List Signers.Call} {additionalData : List BigNumberish} {callSet : CallSet}
    (hcalls : List.Forall₂ (Represents js) calls callSet.calls.1)
    (hdata : ReadsAs additionalData callSet.additionalData.1) :
    Signers.hashCallSet js calls additionalData = some (callSet.hashStruct sn oz).val := by
  have hhashes : calls.mapM (Signers.hashCall js) =
      some ((callSet.calls.1.map oz.callHashStruct).map Fin.val) := by
    rw [List.map_map, Hex.mapM_eq_some_iff, List.forall₂_map_right_iff]
    exact hcalls.imp fun _ _ hcall => hashCall_eq hoz hposeidon hcall
  rw [ReadsAs] at hdata
  rw [CallSet.hashStruct, ← hposeidon]
  simp only [Signers.hashCallSet, hhashes, hdata, Option.bind_eq_bind, Option.bind_some,
    Option.pure_def, List.map_cons, List.map_nil]
  rw [hposeidon, hposeidon]
  rfl

theorem domainHash_eq (hoz : Snip12Revision1 sn oz) (hposeidon : SamePoseidon sn js)
    (chainId : Felt) :
    js.poseidonHashMany [Signers.starknetDomainTypeHash, Signers.callSetDomainName,
      Signers.callSetDomainVersion, chainId.val, Signers.domainRevision] =
    (oz.starknetDomainHashStruct ⟨callSetSnip12Name, callSetSnip12Version, chainId, 1⟩).val := by
  rw [hoz.starknetDomainHashStruct, ← hposeidon, callSetDomainName_eq]
  rfl

/-! ### Binding -/

/-- The spans hashed for the calls of a message. -/
def callSpans (sn : Starknet) (call : Call) : List (List Felt) :=
  [[callTypeHash, ContractAddress.toFelt call.toAddr, call.selector,
    sn.poseidonHashSpan call.calldata.1], call.calldata.1]

/-- The spans hashed for the envelope of a message. -/
def envelopeSpans (sn : Starknet) (chainId name version signer structHash : Felt) :
    List (List Felt) :=
  let domain := [starknetDomainTypeHash, name, version, chainId, 1]
  [[starknetMessage, sn.poseidonHashSpan domain, signer, structHash], domain]

/-- The spans hashed for a `CallSet` message. -/
def callSetSpans (sn : Starknet) (oz : OpenZeppelin) (chainId : Felt) (signer : ContractAddress)
    (callSet : CallSet) : List (List Felt) :=
  let hashedCalls := callSet.calls.1.map oz.callHashStruct
  envelopeSpans sn chainId callSetSnip12Name callSetSnip12Version
      (ContractAddress.toFelt signer) (callSet.hashStruct sn oz) ++
    [[callSetTypeHash, sn.poseidonHashSpan hashedCalls,
      sn.poseidonHashSpan callSet.additionalData.1], hashedCalls, callSet.additionalData.1] ++
    callSet.calls.1.flatMap (callSpans sn)

/-- The spans hashed for the envelope of a screening message. -/
def screeningSpans (sn : Starknet) (chainId : Felt) (depositor : ContractAddress) (issuedAt : U64)
    (signer : Felt) : List (List Felt) :=
  envelopeSpans sn chainId screeningSnip12Name screeningSnip12Version signer
    (sn.poseidonHashSpan [depositorValidationTypeHash, ContractAddress.toFelt depositor,
      U64.toFelt issuedAt])

/-- Equal hashes of two envelopes have equal contents. -/
theorem snip12MessageHash_inj (hoz : Snip12Revision1 sn oz) (hD : Set.InjOn sn.poseidonHashSpan D)
    {chainId name version signer structHash chainId' name' version' signer' structHash' : Felt}
    (h : ∀ span ∈ envelopeSpans sn chainId name version signer structHash, span ∈ D)
    (h' : ∀ span ∈ envelopeSpans sn chainId' name' version' signer' structHash', span ∈ D)
    (heq : snip12MessageHash sn oz chainId name version signer structHash =
      snip12MessageHash sn oz chainId' name' version' signer' structHash') :
    (name = name' ∧ chainId = chainId') ∧ signer = signer' ∧ structHash = structHash' := by
  simp only [envelopeSpans, List.forall_mem_cons, List.not_mem_nil, false_implies, implies_true,
    and_true] at h h'
  simp only [snip12MessageHash, hoz.starknetDomainHashStruct] at heq
  have henvelope := hD h.1 h'.1 heq
  simp only [List.cons.injEq, true_and, and_true] at henvelope
  obtain ⟨hdomain, hsigner, hstruct⟩ := henvelope
  have hfields := hD h.2 h'.2 hdomain
  simp only [List.cons.injEq, true_and, and_true] at hfields
  exact ⟨⟨hfields.1, hfields.2.2⟩, hsigner, hstruct⟩

/-- Equal hashes of two calls are hashes of one call. -/
theorem callHashStruct_inj (hoz : Snip12Revision1 sn oz) (hD : Set.InjOn sn.poseidonHashSpan D)
    {call call' : Call} (h : ∀ span ∈ callSpans sn call, span ∈ D)
    (h' : ∀ span ∈ callSpans sn call', span ∈ D)
    (heq : oz.callHashStruct call = oz.callHashStruct call') : call = call' := by
  simp only [callSpans, List.forall_mem_cons, List.not_mem_nil, false_implies, implies_true,
    and_true] at h h'
  rw [hoz.callHashStruct, hoz.callHashStruct] at heq
  have hfields := hD h.1 h'.1 heq
  simp only [List.cons.injEq, true_and, and_true, ContractAddress.toFelt_inj] at hfields
  obtain ⟨hto, hselector, hdata⟩ := hfields
  have hcalldata := hD h.2 h'.2 hdata
  cases call
  cases call'
  simp only [Call.mk.injEq]
  exact ⟨hto, hselector, Subtype.ext hcalldata⟩

/-- A list is determined by its image where the function is injective. -/
theorem eq_of_map_eq {α β : Type*} {f : α → β} {as bs : List α}
    (hinj : ∀ a ∈ as, ∀ b ∈ bs, f a = f b → a = b) (heq : as.map f = bs.map f) : as = bs := by
  induction as generalizing bs with
  | nil => exact (List.map_eq_nil_iff.mp heq.symm).symm
  | cons a as ih =>
    cases bs with
    | nil => cases heq
    | cons b bs =>
      simp only [List.map_cons, List.cons.injEq] at heq
      rw [hinj a List.mem_cons_self b List.mem_cons_self heq.1, ih (fun c hc d hd =>
        hinj c (List.mem_cons_of_mem _ hc) d (List.mem_cons_of_mem _ hd)) heq.2]

/-- The struct hash determines the calls and the additional data. -/
theorem hashStruct_inj (hoz : Snip12Revision1 sn oz) (hD : Set.InjOn sn.poseidonHashSpan D)
    {chainId chainId' : Felt} {signer signer' : ContractAddress} {callSet callSet' : CallSet}
    (h : ∀ span ∈ callSetSpans sn oz chainId signer callSet, span ∈ D)
    (h' : ∀ span ∈ callSetSpans sn oz chainId' signer' callSet', span ∈ D)
    (heq : callSet.hashStruct sn oz = callSet'.hashStruct sn oz) : callSet = callSet' := by
  simp only [callSetSpans, List.forall_mem_append, List.forall_mem_cons, List.not_mem_nil,
    false_implies, implies_true, and_true, List.forall_mem_flatMap] at h h'
  obtain ⟨⟨-, hstruct, hhashes, hdata⟩, hcalls⟩ := h
  obtain ⟨⟨-, hstruct', hhashes', hdata'⟩, hcalls'⟩ := h'
  have hfields := hD hstruct hstruct' heq
  simp only [List.cons.injEq, true_and, and_true] at hfields
  have hmap := hD hhashes hhashes' hfields.1
  have hlist : callSet.calls.1 = callSet'.calls.1 :=
    eq_of_map_eq (fun call hcall call' hcall' =>
      callHashStruct_inj hoz hD (hcalls call hcall) (hcalls' call' hcall')) hmap
  cases callSet
  cases callSet'
  simp only [CallSet.mk.injEq]
  exact ⟨Subtype.ext hlist, Subtype.ext (hD hdata hdata' hfields.2)⟩

/-! ### The message hashes -/

/-- On the chain in question, the envelope of a screening message is the shared one. -/
theorem computeScreeningMessageHash_eq {chainId : Felt}
    (hchain : ∀ name version, sn.starknetDomainHash name version =
      oz.starknetDomainHashStruct ⟨name, version, chainId, 1⟩)
    (depositor : ContractAddress) (issuedAt : U64) (signer : Felt) :
    computeScreeningMessageHash sn depositor issuedAt signer =
      snip12MessageHash sn oz chainId screeningSnip12Name screeningSnip12Version signer
        (sn.poseidonHashSpan [depositorValidationTypeHash, ContractAddress.toFelt depositor,
          U64.toFelt issuedAt]) := by
  rw [computeScreeningMessageHash, hchain]
  rfl

theorem callSetSnip12Name_ne : callSetSnip12Name ≠ screeningSnip12Name := by decide

theorem envelopeSpans_subset {chainId : Felt} {signer : ContractAddress} {callSet : CallSet}
    (h : ∀ span ∈ callSetSpans sn oz chainId signer callSet, span ∈ D) :
    ∀ span ∈ envelopeSpans sn chainId callSetSnip12Name callSetSnip12Version
      (ContractAddress.toFelt signer) (callSet.hashStruct sn oz), span ∈ D := by
  intro span hspan
  exact h span (List.mem_append_left _ (List.mem_append_left _ hspan))

/-- The client computes the hash the contract computes; on spans that do not
collide the hash determines the chain, the signer, the calls and the additional
data; and it is never the hash of a screening message, of any chain. -/
theorem callSetHash_shared_and_binding (hoz : Snip12Revision1 sn oz)
    (hposeidon : SamePoseidon sn js) :
    (∀ {chainId accountAddress : BigNumberish} {calls : List Signers.Call}
        {additionalData : List BigNumberish} {chainId' : Felt} {signer : ContractAddress}
        {calls' : Span Call} {additionalData' : Span Felt},
      toFelt chainId = some chainId'.val → toFelt accountAddress = some signer.val →
      List.Forall₂ (Represents js) calls calls'.1 → ReadsAs additionalData additionalData'.1 →
      Signers.computeCallSetHash js accountAddress calls chainId additionalData =
        some (computeCallSetHash sn oz chainId' signer calls' additionalData').val) ∧
    (∀ {D : Set (List Felt)} {chainId chainId' : Felt} {signer signer' : ContractAddress}
        {calls calls' : Span Call} {additionalData additionalData' : Span Felt},
      Set.InjOn sn.poseidonHashSpan D →
      (∀ span ∈ callSetSpans sn oz chainId signer ⟨calls, additionalData⟩, span ∈ D) →
      (∀ span ∈ callSetSpans sn oz chainId' signer' ⟨calls', additionalData'⟩, span ∈ D) →
      computeCallSetHash sn oz chainId signer calls additionalData =
        computeCallSetHash sn oz chainId' signer' calls' additionalData' →
      chainId = chainId' ∧ signer = signer' ∧ calls = calls' ∧
        additionalData = additionalData') ∧
    (∀ {D : Set (List Felt)} {chainId chainId' : Felt} {signer : ContractAddress}
        {calls : Span Call} {additionalData : Span Felt} {depositor : ContractAddress}
        {issuedAt : U64} {screener : Felt},
      Set.InjOn sn.poseidonHashSpan D →
      (∀ span ∈ callSetSpans sn oz chainId signer ⟨calls, additionalData⟩, span ∈ D) →
      (∀ span ∈ screeningSpans sn chainId' depositor issuedAt screener, span ∈ D) →
      (∀ name version, sn.starknetDomainHash name version =
        oz.starknetDomainHashStruct ⟨name, version, chainId', 1⟩) →
      computeCallSetHash sn oz chainId signer calls additionalData ≠
        computeScreeningMessageHash sn depositor issuedAt screener) := by
  refine ⟨?_, ?_, ?_⟩
  · intro chainId accountAddress calls additionalData chainId' signer calls' additionalData'
      hchain haccount hcalls hdata
    have hstruct : Signers.hashCallSet js calls additionalData =
        some (CallSet.hashStruct sn oz ⟨calls', additionalData'⟩).val :=
      hashCallSet_eq hoz hposeidon hcalls hdata
    rw [computeCallSetHash, snip12MessageHash, ← hposeidon]
    simp only [Signers.computeCallSetHash, hchain, haccount, hstruct, domainHash_eq hoz hposeidon,
      starknetMessage_eq, Option.bind_eq_bind, Option.bind_some, Option.pure_def, List.map_cons,
      List.map_nil]
    rfl
  · intro D chainId chainId' signer signer' calls calls' additionalData additionalData' hD h h' heq
    obtain ⟨⟨-, hchain⟩, hsigner, hstruct⟩ := snip12MessageHash_inj hoz hD
      (envelopeSpans_subset h) (envelopeSpans_subset h') heq
    have hcallSet := hashStruct_inj hoz hD h h' hstruct
    simp only [CallSet.mk.injEq] at hcallSet
    exact ⟨hchain, ContractAddress.toFelt_inj.mp hsigner, hcallSet⟩
  · intro D chainId chainId' signer calls additionalData depositor issuedAt screener hD h h' hdomain
      heq
    rw [computeScreeningMessageHash_eq hdomain] at heq
    obtain ⟨⟨hname, -⟩, -⟩ := snip12MessageHash_inj hoz hD (envelopeSpans_subset h) h' heq
    exact callSetSnip12Name_ne hname

/-! ### A sample message -/

namespace CallSetSample

/-- A polynomial of the span, in place of Poseidon. -/
def hashSpan (span : List Felt) : Felt :=
  Fin.ofNat feltPrime (span.foldl (fun h x => h * 1000003 + x.val + 1) 7)

/-- `'SN_SEPOLIA'` -/
def chainId : Felt := 0x534e5f5345504f4c4941

/-- A platform whose Poseidon hash is that polynomial. -/
def platform : Starknet :=
  { Starknet.sample with
    poseidonHashSpan := hashSpan
    starknetDomainHash := fun name version =>
      hashSpan [starknetDomainTypeHash, name, version, chainId, 1] }

/-- A library that hashes structures as the standard says. -/
def library : OpenZeppelin where
  callHashStruct call := hashSpan
    [callTypeHash, ContractAddress.toFelt call.toAddr, call.selector, hashSpan call.calldata.1]
  starknetDomainHashStruct domain := hashSpan
    [starknetDomainTypeHash, domain.name, domain.version, domain.chainId, domain.revision]

/-- A client with the same hash. -/
def client : StarknetJs where
  poseidonHashMany numbers := (hashSpan (numbers.map (Fin.ofNat feltPrime))).val
  getSelectorFromName _ := "0x2f"

/-- Two calls, as the contract has them. -/
def calls : Span Call := ⟨[⟨5, 47, ⟨[1, 2], by decide⟩⟩, ⟨5, 47, Span.empty⟩], by decide⟩

/-- The same two calls, as the client has them. -/
def clientCalls : List Signers.Call :=
  [⟨.text "0x5", "transfer", some [.bigint 1, .text "2"]⟩, ⟨.text "0x5", "transfer", none⟩]

/-- The spans hashed for the sample calls, for no calls and for a screening message. -/
def spans : List (List Felt) :=
  callSetSpans platform library chainId 9 ⟨calls, Span.empty⟩ ++
    callSetSpans platform library chainId 9 ⟨Span.empty, Span.empty⟩ ++
    screeningSpans platform chainId 9 1000 9

theorem snip12Revision1 : Snip12Revision1 platform library where
  callHashStruct _ := rfl
  starknetDomainHashStruct _ := rfl

theorem samePoseidon : SamePoseidon platform client := by
  intro span
  have hspan : (span.map Fin.val).map (Fin.ofNat feltPrime) = span := by
    simp [List.map_map, Function.comp_def]
  change (hashSpan _).val = (hashSpan span).val
  rw [hspan]

theorem spans_injOn : Set.InjOn platform.poseidonHashSpan {span | span ∈ spans} := by
  have hlist : ∀ span ∈ spans, ∀ span' ∈ spans,
      hashSpan span = hashSpan span' → span = span' := by decide +kernel
  exact fun span hspan span' hspan' heq => hlist span hspan span' hspan' heq

theorem clientCalls_represent : List.Forall₂ (Represents client) clientCalls calls.1 := by
  refine .cons ⟨?_, ?_, ?_⟩ (.cons ⟨?_, ?_, ?_⟩ .nil)
  all_goals exact show _ = _ by decide +kernel

end CallSetSample

open CallSetSample in
theorem callSetHash_shared_and_binding_sample :
    Signers.computeCallSetHash client (.bigint 9) clientCalls (.text (Signers.toHex chainId.val)) [] =
      some (computeCallSetHash platform library chainId 9 calls Span.empty).val ∧
    computeCallSetHash platform library chainId 9 calls Span.empty ≠
      computeCallSetHash platform library chainId 9 Span.empty Span.empty ∧
    computeCallSetHash platform library chainId 9 calls Span.empty ≠
      computeScreeningMessageHash platform 9 1000 9 := by
  obtain ⟨hshared, hbinding, hscreening⟩ :=
    callSetHash_shared_and_binding snip12Revision1 samePoseidon
  have hmem : ∀ span ∈ spans, span ∈ {span | span ∈ spans} := fun _ hspan => hspan
  simp only [spans, List.forall_mem_append] at hmem
  refine ⟨hshared (Signers.toFelt_toHex _) rfl clientCalls_represent rfl, fun heq => ?_, ?_⟩
  · obtain ⟨-, -, hcalls, -⟩ := hbinding spans_injOn hmem.1.1 hmem.1.2 heq
    exact absurd (congrArg (fun calls => calls.1.length) hcalls) (by decide)
  · exact hscreening spans_injOn hmem.1.1 hmem.2 fun _ _ => rfl

end PrivacyPool
