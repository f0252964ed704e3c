import PrivacyPool.Cairo.Serde

/-!
# Objects of the pool

The records of `objects.cairo` and `events.cairo` that the contract stores,
emits or receives, with their serialization.
-/

namespace PrivacyPool

/-- Ciphertext for an ECDH-based encryption of channel data. -/
structure EncChannelInfo where
  ephemeralPubkey : Felt
  encChannelKey : Felt
  encSenderAddr : Felt
  deriving DecidableEq, Repr

/-- Ciphertext of a private key, for the auditor. -/
structure EncPrivateKey where
  auditorPublicKey : Felt
  ephemeralPubkey : Felt
  encPrivateKey : Felt
  deriving DecidableEq, Repr

/-- An encrypted subchannel info, to be written to storage. -/
structure EncSubchannelInfo where
  salt : Felt
  encToken : Felt
  deriving DecidableEq, Repr

/-- Ciphertext of a user address, for the auditor. -/
structure EncUserAddr where
  auditorPublicKey : Felt
  ephemeralPubkey : Felt
  encUserAddr : Felt
  deriving DecidableEq, Repr

/-- An encrypted outgoing channel info, to be written to storage. -/
structure EncOutgoingChannelInfo where
  salt : Felt
  encRecipientAddr : Felt
  deriving DecidableEq, Repr

/-- A note: its packed salt and amount, and its token when it is open. -/
structure Note where
  packedValue : Felt
  token : ContractAddress
  deriving DecidableEq, Repr

/-- How open-note deposits of a depositor are screened. -/
inductive OpenNoteScreeningPolicy
  | required
  | exempt
  | delegated
  deriving DecidableEq, Repr

/-- A deposit to an open note, as returned by an invoked contract. -/
structure OpenNoteDeposit where
  noteId : Felt
  token : ContractAddress
  amount : U128
  deriving DecidableEq, Repr

/-! ### Serialization -/

instance : Serde EncChannelInfo where
  codec := (Serde.codec (α := Felt × Felt × Felt)).imap (fun p => ⟨p.1, p.2.1, p.2.2⟩)
    (fun e => (e.ephemeralPubkey, e.encChannelKey, e.encSenderAddr)) (fun _ => rfl) (fun _ => rfl)

instance : Store EncPrivateKey where
  codec := (Serde.codec (α := Felt × Felt × Felt)).imap (fun p => ⟨p.1, p.2.1, p.2.2⟩)
    (fun e => (e.auditorPublicKey, e.ephemeralPubkey, e.encPrivateKey))
    (fun _ => rfl) (fun _ => rfl)
  length_le _ := show 3 ≤ 255 by decide

instance : Store EncSubchannelInfo where
  codec := (Serde.codec (α := Felt × Felt)).imap (fun p => ⟨p.1, p.2⟩)
    (fun e => (e.salt, e.encToken)) (fun _ => rfl) (fun _ => rfl)
  length_le _ := show 2 ≤ 255 by decide

instance : Serde EncUserAddr where
  codec := (Serde.codec (α := Felt × Felt × Felt)).imap (fun p => ⟨p.1, p.2.1, p.2.2⟩)
    (fun e => (e.auditorPublicKey, e.ephemeralPubkey, e.encUserAddr))
    (fun _ => rfl) (fun _ => rfl)

instance : Store EncOutgoingChannelInfo where
  codec := (Serde.codec (α := Felt × Felt)).imap (fun p => ⟨p.1, p.2⟩)
    (fun e => (e.salt, e.encRecipientAddr)) (fun _ => rfl) (fun _ => rfl)
  length_le _ := show 2 ≤ 255 by decide

instance : Store Note where
  codec := (Serde.codec (α := Felt × ContractAddress)).imap (fun p => ⟨p.1, p.2⟩)
    (fun e => (e.packedValue, e.token)) (fun _ => rfl) (fun _ => rfl)
  length_le _ := show 2 ≤ 255 by decide

instance : Serde OpenNoteDeposit where
  codec := (Serde.codec (α := Felt × ContractAddress × U128)).imap (fun p => ⟨p.1, p.2.1, p.2.2⟩)
    (fun e => (e.noteId, e.token, e.amount)) (fun _ => rfl) (fun _ => rfl)

@[simp] theorem serialize_encPrivateKey (e : EncPrivateKey) :
    serialize e = [e.auditorPublicKey, e.ephemeralPubkey, e.encPrivateKey] := rfl

@[simp] theorem serialize_encSubchannelInfo (e : EncSubchannelInfo) :
    serialize e = [e.salt, e.encToken] := rfl

@[simp] theorem serialize_encOutgoingChannelInfo (e : EncOutgoingChannelInfo) :
    serialize e = [e.salt, e.encRecipientAddr] := rfl

@[simp] theorem serialize_note (e : Note) :
    serialize e = [e.packedValue, ContractAddress.toFelt e.token] := rfl

/-! ### Events -/

namespace Events

/-- A user registered a viewing key. -/
structure ViewingKeySet where
  userAddr : ContractAddress
  publicKey : Felt
  encPrivateKey : EncPrivateKey
  deriving DecidableEq, Repr

/-- Funds left the pool. -/
structure Withdrawal where
  encUserAddr : EncUserAddr
  toAddr : ContractAddress
  token : ContractAddress
  amount : U128
  deriving DecidableEq, Repr

/-- Funds entered the pool. -/
structure Deposit where
  userAddr : ContractAddress
  token : ContractAddress
  amount : U128
  deriving DecidableEq, Repr

/-- An open note was created. -/
structure OpenNoteCreated where
  encRecipientAddr : EncUserAddr
  token : ContractAddress
  noteId : Felt
  deriving DecidableEq, Repr

/-- An encrypted note was created. -/
structure EncNoteCreated where
  noteId : Felt
  packedValue : Felt
  deriving DecidableEq, Repr

/-- A note was used. -/
structure NoteUsed where
  nullifier : Felt
  deriving DecidableEq, Repr

/-- An open note was filled. -/
structure OpenNoteDeposited where
  depositor : ContractAddress
  token : ContractAddress
  noteId : Felt
  amount : U128
  deriving DecidableEq, Repr

/-- The pool called an external contract. -/
structure ExternalContractInvoked where
  contractAddress : ContractAddress
  selector : Felt
  deriving DecidableEq, Repr

instance : Serde ViewingKeySet where
  codec := (Serde.codec (α := ContractAddress × Felt × EncPrivateKey)).imap
    (fun p => ⟨p.1, p.2.1, p.2.2⟩) (fun e => (e.userAddr, e.publicKey, e.encPrivateKey))
    (fun _ => rfl) (fun _ => rfl)

instance : Serde Withdrawal where
  codec := (Serde.codec (α := EncUserAddr × ContractAddress × ContractAddress × U128)).imap
    (fun p => ⟨p.1, p.2.1, p.2.2.1, p.2.2.2⟩)
    (fun e => (e.encUserAddr, e.toAddr, e.token, e.amount)) (fun _ => rfl) (fun _ => rfl)

instance : Serde Deposit where
  codec := (Serde.codec (α := ContractAddress × ContractAddress × U128)).imap
    (fun p => ⟨p.1, p.2.1, p.2.2⟩) (fun e => (e.userAddr, e.token, e.amount))
    (fun _ => rfl) (fun _ => rfl)

instance : Serde OpenNoteCreated where
  codec := (Serde.codec (α := EncUserAddr × ContractAddress × Felt)).imap
    (fun p => ⟨p.1, p.2.1, p.2.2⟩) (fun e => (e.encRecipientAddr, e.token, e.noteId))
    (fun _ => rfl) (fun _ => rfl)

instance : Serde EncNoteCreated where
  codec := (Serde.codec (α := Felt × Felt)).imap (fun p => ⟨p.1, p.2⟩)
    (fun e => (e.noteId, e.packedValue)) (fun _ => rfl) (fun _ => rfl)

instance : Serde NoteUsed where
  codec := (Serde.codec (α := Felt)).imap (fun p => ⟨p⟩) (fun e => e.nullifier)
    (fun _ => rfl) (fun _ => rfl)

end Events

/-- The events the pool emits. -/
inductive Event
  | viewingKeySet (event : Events.ViewingKeySet)
  | withdrawal (event : Events.Withdrawal)
  | deposit (event : Events.Deposit)
  | openNoteCreated (event : Events.OpenNoteCreated)
  | encNoteCreated (event : Events.EncNoteCreated)
  | noteUsed (event : Events.NoteUsed)
  | openNoteDeposited (event : Events.OpenNoteDeposited)
  | externalContractInvoked (event : Events.ExternalContractInvoked)
  | auditorPublicKeySet (auditorPublicKey : Felt)
  | screenerPublicKeySet (screenerPublicKey : Felt)
  | feeAmountSet (feeAmount : U128)
  | feeCollectorSet (feeCollector : ContractAddress)
  | proofValidityBlocksSet (proofValidityBlocks : U64)
  | openNoteScreeningPolicySet (depositor : ContractAddress) (policy : OpenNoteScreeningPolicy)
  deriving DecidableEq, Repr

end PrivacyPool
