import PrivacyPool.Contract.Utils

/-!
# The message between client and server

The proven client execution sends its server actions in a message to L1, and the
server recomputes the hash of that message from the actions it is given. The two
payloads are built by different code paths.
-/

namespace PrivacyPool

/-- A message from L2 to L1. -/
structure L1Message where
  fromAddress : ContractAddress
  toAddress : Felt
  payload : List Felt

/-- The felts a message is hashed from: the header, the length of the payload and
the payload. -/
def L1Message.span (message : L1Message) : List Felt :=
  [ContractAddress.toFelt message.fromAddress, message.toAddress,
    Fin.ofNat feltPrime message.payload.length] ++ message.payload

/-- The hash under which the operating system reports a message. -/
def L1Message.hash (sn : Starknet) (message : L1Message) : Felt :=
  sn.poseidonHashSpan message.span

/-- `send_message_to_server`: the message it sends. -/
def sendMessageToServer (sn : Starknet) (serverActions : Span ServerAction)
    (contractAddress : ContractAddress) : L1Message :=
  let classHash := sn.classHashAt contractAddress
  ⟨contractAddress, 0, [ClassHash.toFelt classHash] ++ serialize serverActions⟩

/-- `compute_message_hash`: the hash of the message as the server rebuilds it. -/
def computeMessageHash (sn : Starknet) (actions : Span ServerAction)
    (contractAddress : ContractAddress) : Felt :=
  let l1MessageData := [ContractAddress.toFelt contractAddress, 0]
  let payload := ClassHash.toFelt (sn.classHashAt contractAddress) :: serialize actions
  sn.poseidonHashSpan (l1MessageData ++ Fin.ofNat feltPrime payload.length :: payload)

end PrivacyPool
