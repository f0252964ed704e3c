import PrivacyPool.Discovery.Sync

/-!
# Requests to the discovery service

`handlers.rs` and `validators.rs`: a request is validated before it is served. The cursor
must be within the limits of the server, and the viewing key must belong to the
registered public key. Every request has the budget of the server.

## Main definitions

* `validateCursor`, `validateRecipients`, `validateViewingKey` — the checks
* `incomingSync`, `outgoingSync` — the two requests
-/

namespace PrivacyPool.Discovery

/-- What a request fails with. -/
inductive ApiError
  | invalidRequest (message : String)
  | discovery (source : DiscoveryError)
  deriving DecidableEq, Repr

/-- The limits that the server is configured with. -/
structure ValidationLimits where
  cursorLimits : CursorLimits
  maxOutgoingRecipients : ℕ
  serverBudget : ℕ
  deriving DecidableEq, Repr

/-- Rejects a value that exceeds an upper bound. -/
def validateBound (actualSize maxAllowed : ℕ) (fieldName : String) : Except ApiError Unit :=
  if maxAllowed < actualSize then
    .error (.invalidRequest (fieldName ++ " contains " ++ toString actualSize ++
      " entries, maximum is " ++ toString maxAllowed))
  else .ok ()

/-- `1u64.checked_shl(max_note_log_index).unwrap_or(u64::MAX)` -/
def maxNotes (maxNoteLogIndex : ℕ) : ℕ :=
  if maxNoteLogIndex < 64 then 2 ^ maxNoteLogIndex else 2 ^ 64 - 1

/-- A cached total is at most the number of notes that the limits allow. -/
def validateTotalNNotes (maxNotes : ℕ) : Option ℕ → Except ApiError Unit
  | none => .ok ()
  | some totalNNotes =>
    if maxNotes < totalNNotes then
      .error (.invalidRequest ("total_n_notes " ++ toString totalNNotes ++ " exceeds maximum " ++
        toString maxNotes))
    else .ok ()

/-- A last index is below it. -/
def validateLastNoteIndex (maxNotes : ℕ) : Option ℕ → Except ApiError Unit
  | none => .ok ()
  | some lastNoteIndex =>
    if maxNotes ≤ lastNoteIndex then
      .error (.invalidRequest ("last_note_index " ++ toString lastNoteIndex ++
        " exceeds maximum valid index " ++ toString (maxNotes - 1)))
    else .ok ()

/-- Both checks of a subchannel. -/
def validateSubchannel (maxNotes : ℕ) (cursor : SubchannelCursor) : Except ApiError Unit := do
  validateTotalNNotes maxNotes cursor.totalNNotes
  validateLastNoteIndex maxNotes cursor.lastNoteIndex

/-- The number of subchannels is within its bound, and each of them is valid. -/
def validateChannel (limits : CursorLimits) (cursor : ChannelCursor) : Except ApiError Unit := do
  validateBound cursor.subchannels.length limits.maxSubchannels "channel subchannels"
  cursor.subchannels.forM fun entry =>
    validateSubchannel (maxNotes limits.maxNoteLogIndex) entry.2

/-- Rejects cursors that exceed size limits. -/
def validateCursor (cursor : DiscoveryCursor) (limits : CursorLimits) : Except ApiError Unit := do
  validateBound cursor.channels.length limits.maxChannels "cursor channels"
  cursor.channels.forM fun entry => validateChannel limits entry.2

/-- Rejects recipient sets that exceed size limits. -/
def validateRecipients (recipients : Option (List Felt)) (maxOutgoingRecipients : ℕ) :
    Except ApiError Unit :=
  match recipients with
  | none => .ok ()
  | some recipients => validateBound recipients.length maxOutgoingRecipients "recipients"

variable (sn : Starknet) (newFromX : Felt → Option sn.EcPoint) (backend : Backend)

/-- Rejects a viewing key that does not belong to the registered public key. A user without
a public key is not checked. -/
def validateViewingKey (viewingKey userAddress : Felt) : Except ApiError Unit :=
  let registeredPublicKey := backend.getPublicKey sn userAddress
  if registeredPublicKey = 0 then .ok ()
  else if sn.derivePublicKey viewingKey = .ok registeredPublicKey then .ok ()
  else .error (.invalidRequest
    "viewing_key does not match the registered public key for the given address")

/-- `POST /v1/sync/incoming_state` -/
def incomingSync (limits : ValidationLimits) (recipient : ContractAddress) (viewingKey : Felt)
    (cursor : DiscoveryCursor) (schedule : Schedule) :
    Except ApiError SyncIncomingStateResult := do
  validateCursor cursor limits.cursorLimits
  validateViewingKey sn backend viewingKey (ContractAddress.toFelt recipient)
  ((syncIncomingState sn newFromX backend recipient viewingKey cursor limits.cursorLimits
    schedule).outcome limits.serverBudget).mapError .discovery

/-- `POST /v1/sync/outgoing_state` -/
def outgoingSync (limits : ValidationLimits) (senderAddr viewingKey : Felt)
    (cursor : DiscoveryCursor) (recipients : Option (List Felt)) (schedule : Schedule) :
    Except ApiError SyncOutgoingStateResult := do
  validateRecipients recipients limits.maxOutgoingRecipients
  validateCursor cursor limits.cursorLimits
  validateViewingKey sn backend viewingKey senderAddr
  ((syncOutgoingState sn backend senderAddr viewingKey cursor limits.cursorLimits recipients
    schedule).outcome limits.serverBudget).mapError .discovery

end PrivacyPool.Discovery
