import PrivacyPool.Contract.Platform

/-!
# Hashes of the pool

The derived identifiers of `hashes.cairo`. Every hash is taken over a span that
starts with a tag of its own; the spans are named, so that two hashes can be
compared by their inputs.
-/

namespace PrivacyPool

/-! ### Domain-separation tags

Short strings are the big-endian value of their characters. -/

/-- `'CHANNEL_MARKER_TAG:V1'` -/
def channelMarkerTag : Felt := 0x4348414e4e454c5f4d41524b45525f5441473a5631

/-- `'CHANNEL_KEY_TAG:V1'` -/
def channelKeyTag : Felt := 0x4348414e4e454c5f4b45595f5441473a5631

/-- `'SUBCHANNEL_MARKER_TAG:V1'` -/
def subchannelMarkerTag : Felt := 0x5355424348414e4e454c5f4d41524b45525f5441473a5631

/-- `'SUBCHANNEL_ID_TAG:V1'` -/
def subchannelIdTag : Felt := 0x5355424348414e4e454c5f49445f5441473a5631

/-- `'NULLIFIER_TAG:V1'` -/
def nullifierTag : Felt := 0x4e554c4c49464945525f5441473a5631

/-- `'ENC_CHANNEL_KEY_TAG:V1'` -/
def encChannelKeyTag : Felt := 0x454e435f4348414e4e454c5f4b45595f5441473a5631

/-- `'ENC_SENDER_ADDR_TAG:V1'` -/
def encSenderAddrTag : Felt := 0x454e435f53454e4445525f414444525f5441473a5631

/-- `'NOTE_ID_TAG:V1'` -/
def noteIdTag : Felt := 0x4e4f54455f49445f5441473a5631

/-- `'ENC_AMOUNT_TAG:V1'` -/
def encAmountTag : Felt := 0x454e435f414d4f554e545f5441473a5631

/-- `'ENC_TOKEN_TAG:V1'` -/
def encTokenTag : Felt := 0x454e435f544f4b454e5f5441473a5631

/-- `'ENC_PRIVATE_KEY_TAG:V1'` -/
def encPrivateKeyTag : Felt := 0x454e435f505249564154455f4b45595f5441473a5631

/-- `'ENC_USER_ADDR_TAG:V1'` -/
def encUserAddrTag : Felt := 0x454e435f555345525f414444525f5441473a5631

/-- `'ENC_RECIPIENT_ADDR_TAG:V1'` -/
def encRecipientAddrTag : Felt := 0x454e435f524543495049454e545f414444525f5441473a5631

/-- `'OUTGOING_CHANNEL_ID_TAG:V1'` -/
def outgoingChannelIdTag : Felt := 0x4f5554474f494e475f4348414e4e454c5f49445f5441473a5631

/-- `'IDENTITY_KEY_TAG:V1'` -/
def identityKeyTag : Felt := 0x4944454e544954595f4b45595f5441473a5631

/-! ### Hashed spans -/

/-- What the identity key of a user toward a contract is hashed from. -/
def identityKeySpan (userAddr : ContractAddress) (userPrivateKey : Felt)
    (contractAddress : ContractAddress) : List Felt :=
  [identityKeyTag, ContractAddress.toFelt userAddr, userPrivateKey,
    ContractAddress.toFelt contractAddress]

/-- What the hash that hides the token of a subchannel is made from. -/
def encTokenSpan (channelKey : Felt) (index : Usize) (salt : Felt) : List Felt :=
  [encTokenTag, channelKey, Usize.toFelt index, 0, salt]

/-- What the hash that hides the recipient of an outgoing channel is made from. -/
def encRecipientAddrSpan (senderAddr : ContractAddress) (senderPrivateKey : Felt)
    (index : Usize) (salt : Felt) : List Felt :=
  [encRecipientAddrTag, ContractAddress.toFelt senderAddr, senderPrivateKey, Usize.toFelt index,
    0, salt]

/-- What a channel key is hashed from. -/
def channelKeySpan (senderAddr : ContractAddress) (senderPrivateKey : Felt)
    (recipientAddr : ContractAddress) (recipientPublicKey : Felt) : List Felt :=
  [channelKeyTag, ContractAddress.toFelt senderAddr, senderPrivateKey,
    ContractAddress.toFelt recipientAddr, recipientPublicKey]

/-- What the id of an outgoing channel is hashed from. -/
def outgoingChannelIdSpan (senderAddr : ContractAddress) (senderPrivateKey : Felt)
    (index : Usize) : List Felt :=
  [outgoingChannelIdTag, ContractAddress.toFelt senderAddr, senderPrivateKey, Usize.toFelt index,
    0]

/-- What a channel marker is hashed from. -/
def channelMarkerSpan (channelKey : Felt) (senderAddr recipientAddr : ContractAddress)
    (recipientPublicKey : Felt) : List Felt :=
  [channelMarkerTag, channelKey, ContractAddress.toFelt senderAddr,
    ContractAddress.toFelt recipientAddr, recipientPublicKey]

/-- What the id of a subchannel is hashed from. -/
def subchannelIdSpan (channelKey : Felt) (index : Usize) : List Felt :=
  [subchannelIdTag, channelKey, Usize.toFelt index, 0]

/-- What a subchannel marker is hashed from. -/
def subchannelMarkerSpan (channelKey : Felt) (recipientAddr : ContractAddress)
    (recipientPublicKey : Felt) (token : ContractAddress) : List Felt :=
  [subchannelMarkerTag, channelKey, ContractAddress.toFelt recipientAddr, recipientPublicKey,
    ContractAddress.toFelt token]

/-- What a note id is hashed from. -/
def noteIdSpan (channelKey : Felt) (token : ContractAddress) (index : Usize) : List Felt :=
  [noteIdTag, channelKey, ContractAddress.toFelt token, Usize.toFelt index, 0]

/-- What the hash that hides the amount of a note is made from. -/
def encAmountSpan (channelKey : Felt) (token : ContractAddress) (index : Usize) (salt : U128) :
    List Felt :=
  [encAmountTag, channelKey, ContractAddress.toFelt token, Usize.toFelt index, 0,
    U128.toFelt salt]

/-- What a nullifier is hashed from. -/
def nullifierSpan (channelKey : Felt) (token : ContractAddress) (index : Usize)
    (ownerPrivateKey : Felt) : List Felt :=
  [nullifierTag, channelKey, ContractAddress.toFelt token, Usize.toFelt index, 0,
    ownerPrivateKey]

/-! ### Computed identifiers -/

namespace Starknet

variable (sn : Starknet)

/-- The identity key of a user toward a contract. -/
def computeIdentityKey (userAddr : ContractAddress) (userPrivateKey : Felt)
    (contractAddress : ContractAddress) : Felt :=
  sn.poseidonHashSpan (identityKeySpan userAddr userPrivateKey contractAddress)

/-- The hash that hides the private key in `EncPrivateKey`. -/
def computeEncPrivateKeyHash (sharedX : Felt) : Felt :=
  sn.poseidonHashSpan [encPrivateKeyTag, sharedX]

/-- The hash that hides the address in `EncUserAddr`. -/
def computeEncUserAddrHash (sharedX : Felt) : Felt :=
  sn.poseidonHashSpan [encUserAddrTag, sharedX]

/-- The hash that hides the token in `EncSubchannelInfo`. -/
def computeEncTokenHash (channelKey : Felt) (index : Usize) (salt : Felt) : Felt :=
  sn.poseidonHashSpan (encTokenSpan channelKey index salt)

/-- The hash that hides the channel key in `EncChannelInfo`. -/
def computeEncChannelKeyHash (sharedX : Felt) : Felt :=
  sn.poseidonHashSpan [encChannelKeyTag, sharedX]

/-- The hash that hides the sender in `EncChannelInfo`. -/
def computeEncSenderAddrHash (sharedX : Felt) : Felt :=
  sn.poseidonHashSpan [encSenderAddrTag, sharedX]

/-- The hash that hides the recipient in `EncOutgoingChannelInfo`. -/
def computeEncRecipientAddrHash (senderAddr : ContractAddress) (senderPrivateKey : Felt)
    (index : Usize) (salt : Felt) : Felt :=
  sn.poseidonHashSpan (encRecipientAddrSpan senderAddr senderPrivateKey index salt)

/-- The key of a channel, which its sender can compute. -/
def computeChannelKey (senderAddr : ContractAddress) (senderPrivateKey : Felt)
    (recipientAddr : ContractAddress) (recipientPublicKey : Felt) : Felt :=
  sn.poseidonHashSpan
    (channelKeySpan senderAddr senderPrivateKey recipientAddr recipientPublicKey)

/-- The id of the outgoing channel with an index. -/
def computeOutgoingChannelId (senderAddr : ContractAddress) (senderPrivateKey : Felt)
    (index : Usize) : Felt :=
  sn.poseidonHashSpan (outgoingChannelIdSpan senderAddr senderPrivateKey index)

/-- The marker of a channel: its key with both of its ends. -/
def computeChannelMarker (channelKey : Felt) (senderAddr recipientAddr : ContractAddress)
    (recipientPublicKey : Felt) : Felt :=
  sn.poseidonHashSpan (channelMarkerSpan channelKey senderAddr recipientAddr recipientPublicKey)

/-- The id of the subchannel with an index. -/
def computeSubchannelId (channelKey : Felt) (index : Usize) : Felt :=
  sn.poseidonHashSpan (subchannelIdSpan channelKey index)

/-- The marker of the subchannel of a token. -/
def computeSubchannelMarker (channelKey : Felt) (recipientAddr : ContractAddress)
    (recipientPublicKey : Felt) (token : ContractAddress) : Felt :=
  sn.poseidonHashSpan (subchannelMarkerSpan channelKey recipientAddr recipientPublicKey token)

/-- The id of the note with an index. -/
def computeNoteId (channelKey : Felt) (token : ContractAddress) (index : Usize) : Felt :=
  sn.poseidonHashSpan (noteIdSpan channelKey token index)

/-- The hash that hides the amount of a note. -/
def computeEncAmountHash (channelKey : Felt) (token : ContractAddress) (index : Usize)
    (salt : U128) : Felt :=
  sn.poseidonHashSpan (encAmountSpan channelKey token index salt)

/-- The nullifier of a note, for its owner. -/
def computeNullifier (channelKey : Felt) (token : ContractAddress) (index : Usize)
    (ownerPrivateKey : Felt) : Felt :=
  sn.poseidonHashSpan (nullifierSpan channelKey token index ownerPrivateKey)

end Starknet

end PrivacyPool
