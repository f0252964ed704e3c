import PrivacyPool.Contract.Server

/-!
# The `CallSet` message of the contract

The hash an account signs to authorise a list of calls. The envelope is that of
the screening attestation, with the chain in view here; the domain hash and the
hash of one call are OpenZeppelin's. A chain of `update_with` that ends in
`finalize` is written as the hash of the span of its arguments.

## Main definitions

* `computeCallSetHash` — the message hash of a `CallSet`
* `Snip12Revision1` — what the library hashes are
-/

namespace PrivacyPool

/-- `starknet::account::Call` -/
structure Call where
  toAddr : ContractAddress
  selector : Felt
  calldata : Span Felt
  deriving DecidableEq

/-- `StarknetDomain` of OpenZeppelin. -/
structure StarknetDomain where
  name : Felt
  version : Felt
  chainId : Felt
  revision : Felt

/-- The struct hashes that OpenZeppelin provides. -/
structure OpenZeppelin where
  /-- `CallStructHash::hash_struct` -/
  callHashStruct : Call → Felt
  /-- `StarknetDomain::hash_struct` -/
  starknetDomainHashStruct : StarknetDomain → Felt

/-- The SNIP-12 type hash of `StarknetDomain` in OpenZeppelin. -/
def starknetDomainTypeHash : Felt :=
  0x1ff2f602e42168014d405a94f75e8a93d640751d71d16311266e140d8b0a210

/-- The SNIP-12 type hash of `Call` in OpenZeppelin. -/
def callTypeHash : Felt := 0x3635c7f2a7ba93844c0d064e18e487f35ab90f7c39d00f186a781fc3f0c2ca9

/-- The library hashes are those of SNIP-12, revision 1. -/
structure Snip12Revision1 (sn : Starknet) (oz : OpenZeppelin) : Prop where
  callHashStruct (call : Call) : oz.callHashStruct call = sn.poseidonHashSpan
    [callTypeHash, ContractAddress.toFelt call.toAddr, call.selector,
      sn.poseidonHashSpan call.calldata.1]
  starknetDomainHashStruct (domain : StarknetDomain) : oz.starknetDomainHashStruct domain =
    sn.poseidonHashSpan [starknetDomainTypeHash, domain.name, domain.version, domain.chainId,
      domain.revision]

/-- `'CallSet'` -/
def callSetSnip12Name : Felt := 0x43616c6c536574

/-- The version of the domain of call sets. -/
def callSetSnip12Version : Felt := 1

/-- The selector of the type string of `CallSet`. -/
def callSetTypeHash : Felt := 0x308b7462f924efba15fc992e6827eb3a748fcc79f091914156756437fa22909

variable (sn : Starknet) (oz : OpenZeppelin)

/-- `snip12_message_hash`, on the chain the transaction runs on. -/
def snip12MessageHash (chainId name version signer structHash : Felt) : Felt :=
  sn.poseidonHashSpan [starknetMessage,
    oz.starknetDomainHashStruct ⟨name, version, chainId, 1⟩, signer, structHash]

/-- Calls, and data that goes with them. -/
structure CallSet where
  calls : Span Call
  additionalData : Span Felt

/-- The struct hash of a call set. -/
def CallSet.hashStruct (callSet : CallSet) : Felt :=
  let hashedCalls := callSet.calls.1.map oz.callHashStruct
  sn.poseidonHashSpan [callSetTypeHash, sn.poseidonHashSpan hashedCalls,
    sn.poseidonHashSpan callSet.additionalData.1]

/-- The message that a signer signs for a call set. -/
def computeCallSetHash (chainId : Felt) (signer : ContractAddress) (calls : Span Call)
    (additionalData : Span Felt) : Felt :=
  snip12MessageHash sn oz chainId callSetSnip12Name callSetSnip12Version
    (ContractAddress.toFelt signer) (CallSet.hashStruct sn oz ⟨calls, additionalData⟩)

end PrivacyPool
