import PrivacyPool.Signers.Numbers

/-!
# The SNIP-12 signer

The client computes the `CallSet` hash itself, from pinned type hashes, with
starknet.js for Poseidon and for selectors.
-/

namespace PrivacyPool.Signers

/-- What the signer calls in starknet.js. -/
structure StarknetJs where
  /-- `ec.starkCurve.poseidonHashMany` -/
  poseidonHashMany : List ℕ → ℕ
  /-- `hash.getSelectorFromName` -/
  getSelectorFromName : String → String

/-- What every hash of typed data starts with. -/
def starknetMessage : ℕ := encodeShortString "StarkNet Message"

/-- The hash of the type of a domain. -/
def starknetDomainTypeHash : ℕ :=
  0x1ff2f602e42168014d405a94f75e8a93d640751d71d16311266e140d8b0a210

/-- The hash of the type of a call. -/
def callTypeHash : ℕ := 0x3635c7f2a7ba93844c0d064e18e487f35ab90f7c39d00f186a781fc3f0c2ca9

/-- The hash of the type of a call set. -/
def callSetTypeHash : ℕ := 0x308b7462f924efba15fc992e6827eb3a748fcc79f091914156756437fa22909

/-- The name of the domain. -/
def callSetDomainName : ℕ := encodeShortString "CallSet"

/-- The version of the domain. -/
def callSetDomainVersion : ℕ := 1

/-- The revision of the standard. -/
def domainRevision : ℕ := 1

variable (js : StarknetJs)

/-- The hash of a call. -/
def hashCall (call : Call) : Option ℕ := do
  let calldata := call.calldata.getD []
  let contractAddress ← toFelt call.contractAddress
  let selector ← toFelt (.text (js.getSelectorFromName call.entrypoint))
  let data ← calldata.mapM toFelt
  return js.poseidonHashMany [callTypeHash, contractAddress, selector, js.poseidonHashMany data]

/-- The hash of calls with the additional data. -/
def hashCallSet (calls : List Call) (additionalData : List BigNumberish) : Option ℕ := do
  let hashedCalls ← calls.mapM (hashCall js)
  let data ← additionalData.mapM toFelt
  return js.poseidonHashMany
    [callSetTypeHash, js.poseidonHashMany hashedCalls, js.poseidonHashMany data]

/-- The message hash of a call set. -/
def computeCallSetHash (accountAddress : BigNumberish) (calls : List Call)
    (chainId : BigNumberish) (additionalData : List BigNumberish) : Option ℕ := do
  let chain ← toFelt chainId
  let domainHash := js.poseidonHashMany
    [starknetDomainTypeHash, callSetDomainName, callSetDomainVersion, chain, domainRevision]
  let account ← toFelt accountAddress
  let callSetHash ← hashCallSet js calls additionalData
  return js.poseidonHashMany [starknetMessage, domainHash, account, callSetHash]

end PrivacyPool.Signers
