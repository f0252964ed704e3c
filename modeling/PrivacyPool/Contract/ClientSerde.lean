import PrivacyPool.Contract.Server

/-!
# Serialization of client actions

The derived `Serde` of the client's side of `actions.cairo`: the index of the variant, in
the order of declaration, and then its payload. A call of `compile_actions` carries the
user, the private key and the span of actions in this form, and one of `apply_actions` an
attestation behind its actions.

## Main definitions

* `ClientAction.encode`, `ClientAction.decode` — a client action as felts
* `compileCalldata` — the calldata of `compile_actions`
-/

namespace PrivacyPool

instance : Serde SetViewingKeyInput where
  codec := (Serde.codec (α := Felt)).imap (fun p => ⟨p⟩) (fun e => e.random)
    (fun _ => rfl) (fun _ => rfl)

instance : Serde OpenChannelInput where
  codec := (Serde.codec (α := ContractAddress × Usize × Felt × Felt)).imap
    (fun p => ⟨p.1, p.2.1, p.2.2.1, p.2.2.2⟩)
    (fun e => (e.recipientAddr, e.index, e.random, e.salt)) (fun _ => rfl) (fun _ => rfl)

instance : Serde OpenSubchannelInput where
  codec := (Serde.codec (α := ContractAddress × Felt × Felt × Usize × ContractAddress × Felt)).imap
    (fun p => ⟨p.1, p.2.1, p.2.2.1, p.2.2.2.1, p.2.2.2.2.1, p.2.2.2.2.2⟩)
    (fun e => (e.recipientAddr, e.recipientPublicKey, e.channelKey, e.index, e.token, e.salt))
    (fun _ => rfl) (fun _ => rfl)

instance : Serde CreateEncNoteInput where
  codec := (Serde.codec (α := ContractAddress × Felt × ContractAddress × U128 × Usize × U128)).imap
    (fun p => ⟨p.1, p.2.1, p.2.2.1, p.2.2.2.1, p.2.2.2.2.1, p.2.2.2.2.2⟩)
    (fun e => (e.recipientAddr, e.recipientPublicKey, e.token, e.amount, e.index, e.salt))
    (fun _ => rfl) (fun _ => rfl)

instance : Serde CreateOpenNoteInput where
  codec := (Serde.codec (α := ContractAddress × Felt × ContractAddress × Usize × Felt)).imap
    (fun p => ⟨p.1, p.2.1, p.2.2.1, p.2.2.2.1, p.2.2.2.2⟩)
    (fun e => (e.recipientAddr, e.recipientPublicKey, e.token, e.index, e.random))
    (fun _ => rfl) (fun _ => rfl)

instance : Serde DepositInput where
  codec := (Serde.codec (α := ContractAddress × U128)).imap (fun p => ⟨p.1, p.2⟩)
    (fun e => (e.token, e.amount)) (fun _ => rfl) (fun _ => rfl)

instance : Serde UseNoteInput where
  codec := (Serde.codec (α := Felt × ContractAddress × Usize)).imap
    (fun p => ⟨p.1, p.2.1, p.2.2⟩) (fun e => (e.channelKey, e.token, e.index))
    (fun _ => rfl) (fun _ => rfl)

instance : Serde WithdrawInput where
  codec := (Serde.codec (α := ContractAddress × ContractAddress × U128 × Felt)).imap
    (fun p => ⟨p.1, p.2.1, p.2.2.1, p.2.2.2⟩)
    (fun e => (e.toAddr, e.token, e.amount, e.random)) (fun _ => rfl) (fun _ => rfl)

instance : Serde InvokeExternalInput where
  codec := (Serde.codec (α := ContractAddress × Span Felt)).imap (fun p => ⟨p.1, p.2⟩)
    (fun e => (e.contractAddress, e.calldata)) (fun _ => rfl) (fun _ => rfl)

instance : Serde ComputeAndInvokeInput where
  codec := (Serde.codec (α := ContractAddress × Span Felt × Span Felt)).imap
    (fun p => ⟨p.1, p.2.1, p.2.2⟩)
    (fun e => (e.contractAddress, e.computeAdditionalData, e.invokeAdditionalData))
    (fun _ => rfl) (fun _ => rfl)

namespace ClientAction

/-- The variant index followed by the payload. -/
def encode : ClientAction → List Felt
  | setViewingKey input => 0 :: serialize input
  | openChannel input => 1 :: serialize input
  | openSubchannel input => 2 :: serialize input
  | createEncNote input => 3 :: serialize input
  | createOpenNote input => 4 :: serialize input
  | deposit input => 5 :: serialize input
  | useNote input => 6 :: serialize input
  | withdraw input => 7 :: serialize input
  | invokeExternal input => 8 :: serialize input
  | computeAndInvoke input => 9 :: serialize input

/-- Read the payload of a variant. -/
def payload {α : Type} [Serde α] (variant : α → ClientAction) (input : List Felt) :
    Option (ClientAction × List Felt) :=
  (deserialize input).map fun p => (variant p.1, p.2)

/-- Read a client action by its index. -/
def decode : List Felt → Option (ClientAction × List Felt)
  | [] => none
  | index :: rest =>
    match index.val with
    | 0 => payload setViewingKey rest
    | 1 => payload openChannel rest
    | 2 => payload openSubchannel rest
    | 3 => payload createEncNote rest
    | 4 => payload createOpenNote rest
    | 5 => payload deposit rest
    | 6 => payload useNote rest
    | 7 => payload withdraw rest
    | 8 => payload invokeExternal rest
    | 9 => payload computeAndInvoke rest
    | _ => none

theorem payload_serialize {α : Type} [Serde α] (variant : α → ClientAction) (a : α)
    (rest : List Felt) : payload variant (serialize a ++ rest) = some (variant a, rest) := by
  simp [payload]

theorem payload_eq_some {α : Type} [Serde α] {variant : α → ClientAction} {input rest : List Felt}
    {action : ClientAction} (h : payload variant input = some (action, rest)) :
    ∃ a, action = variant a ∧ input = serialize a ++ rest := by
  obtain ⟨⟨a, tail⟩, hread, hpair⟩ := Option.map_eq_some_iff.mp h
  obtain ⟨rfl, rfl⟩ := Prod.mk.inj hpair
  exact ⟨a, rfl, (Serde.codec (α := α)).encode_of_decode hread⟩

theorem decode_encode (action : ClientAction) (rest : List Felt) :
    decode (encode action ++ rest) = some (action, rest) := by
  cases action <;> exact payload_serialize _ _ rest

/-- A decoded variant was written with its own index. -/
theorem encode_of_decode {input rest : List Felt} {action : ClientAction}
    (h : decode input = some (action, rest)) : input = encode action ++ rest := by
  cases input with
  | nil => cases h
  | cons index tail =>
    unfold decode at h
    dsimp only at h
    split at h
    case h_11 => cases h
    all_goals
      next hindex =>
        obtain ⟨a, rfl, rfl⟩ := payload_eq_some h
        exact congrArg (· :: (serialize a ++ rest)) (Fin.ext hindex)

end ClientAction

instance : Serde ClientAction where
  codec := ⟨ClientAction.encode, ClientAction.decode, ClientAction.decode_encode,
    ClientAction.encode_of_decode⟩

/-- The calldata of `compile_actions`. -/
def compileCalldata (userAddr : ContractAddress) (userPrivateKey : Felt)
    (clientActions : Span ClientAction) : List Felt :=
  serialize userAddr ++ (serialize userPrivateKey ++ serialize clientActions)

/-! ### Attestations -/

instance : Serde ScreeningAttestation where
  codec := (Serde.codec (α := U64 × Felt × Felt)).imap (fun p => ⟨p.1, p.2⟩)
    (fun attestation => (attestation.issuedAt, attestation.signature)) (fun _ => rfl)
    (fun _ => rfl)

/-- `Serde` of an `Option`: the variant `Some` is 0 and `None` is 1. -/
instance {α : Type} [Serde α] : Serde (Option α) where
  codec := Codec.option Serde.codec 0 1 (by decide)

end PrivacyPool
