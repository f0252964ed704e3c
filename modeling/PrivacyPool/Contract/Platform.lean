import PrivacyPool.Cairo.Types

/-!
# The platform under the contract

What the pool calls and does not define: the hash functions and the curve of the
core library, the derivation of storage addresses, the ERC20 contracts and the
signature check. They are parameters of the model; what the development needs to
know about them is stated where it is used.
-/

namespace PrivacyPool

/-- The storage maps that hold user data, each keyed by one felt. -/
inductive StorageVar
  | outgoingChannels
  | channelExists
  | subchannelTokens
  | subchannelExists
  | notes
  | nullifiers
  | publicKey
  | encPrivateKey
  deriving DecidableEq, Repr

/-- The number of words of a record of the map. -/
def StorageVar.size : StorageVar → ℕ
  | outgoingChannels => 2
  | channelExists => 1
  | subchannelTokens => 2
  | subchannelExists => 1
  | notes => 2
  | nullifiers => 1
  | publicKey => 1
  | encPrivateKey => 3

/-- The primitives the pool runs on. -/
structure Starknet where
  /-- The address the pool is deployed at. -/
  contractAddress : ContractAddress
  /-- `get_class_hash_at`. -/
  classHashAt : ContractAddress → ClassHash
  /-- `poseidon_hash_span`. -/
  poseidonHashSpan : List Felt → Felt
  /-- The storage base address of an entry of a map. -/
  entry : StorageVar → Felt → StorageBaseAddress
  /-- Points of the Stark curve, the point at infinity included. -/
  EcPoint : Type
  /-- `GEN_P`. -/
  genP : EcPoint
  /-- `EcPointTrait::new_from_x`. -/
  newFromX : Felt → Option EcPoint
  /-- `EcPointTrait::mul`. -/
  mul : EcPoint → Felt → EcPoint
  /-- The `x` coordinate, absent at infinity (`try_into` and then `x`). -/
  x : EcPoint → Option Felt
  /-- `check_ecdsa_signature` of a message hash, a public key and `(r, s)`. -/
  checkEcdsaSignature : Felt → Felt → Felt → Felt → Bool
  /-- `StarknetDomain::hash_struct` of a name and a version on this chain. -/
  starknetDomainHash : Felt → Felt → Felt
  /-- The joint state of the ERC20 contracts. -/
  Tokens : Type
  /-- `balance_of` of a token and an account. -/
  balanceOf : Tokens → ContractAddress → ContractAddress → ℕ
  /-- `checked_transfer_from` called by the pool: token, sender, recipient, amount. -/
  checkedTransferFrom : Tokens → ContractAddress → ContractAddress → ContractAddress → ℕ →
    Option Tokens
  /-- `checked_transfer` called by the pool: token, recipient, amount. -/
  checkedTransfer : Tokens → ContractAddress → ContractAddress → ℕ → Option Tokens

/-- `storage_path_to_felt252` of an entry of a map. -/
def storagePathToFelt252 (sn : Starknet) (var : StorageVar) (key : Felt) : Felt :=
  StorageBaseAddress.toFelt (sn.entry var key)

end PrivacyPool
