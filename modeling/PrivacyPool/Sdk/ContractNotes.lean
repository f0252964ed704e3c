import PrivacyPool.Base.Tracker
import PrivacyPool.Sdk.Encryptions
import PrivacyPool.Sdk.IndexerDiscovery
import PrivacyPool.Sdk.Scan

/-!
# Note discovery over the pool contract

`NotesDiscovery` of `contract-discovery.ts`: the SDK reads the views of the contract
itself, many at a time. It scans the channels, the subchannels of each channel and the
notes of each subchannel, and resumes those of its cursor at the same time. Every view
that is called is a task in flight; what a task does when its answer arrives runs
without a pause.

## Main definitions

* `NotesDiscovery.Task`, `NotesDiscovery.resume` — a call of a view, and what follows
* `NotesDiscovery.Discovers` — `discoverNotes` returns these notes and this cursor
-/

namespace PrivacyPool.Sdk

open Discovery

/-- A `bigint` of a field element. -/
def ofBigInt (x : ℤ) : Felt := Fin.ofNat feltPrime (x % fieldPrime).toNat

@[simp] theorem ofBigInt_toBigInt (x : Felt) : ofBigInt (toBigInt x) = x := ofNat_toBigInt x

namespace NotesDiscovery

variable (sn : Starknet) (recoverPointFromX : Felt → Option sn.EcPoint) (backend : Backend)
  (address : ContractAddress) (viewingKey : Felt) (tokens : List Felt)

/-- A call of a view that is not answered, with the variables of the function that waits
for it. -/
inductive Task
  /-- `discoverChannels(start)` -/
  | getNumOfChannels (start : ℕ)
  /-- the probe of `discoverChannels` -/
  | getChannelInfo (scan : ScanTask)
  /-- the probe of `discoverSubchannels(sender)` -/
  | getSubchannelInfo (sender channelKey : Felt) (scan : ScanTask)
  /-- the probe of `discoverNotes(sender, token, …)`: a note, or its nullifier in touch mode -/
  | getNote (sender channelKey token : Felt) (scan : ScanTask)
  /-- a note in touch mode, after its nullifier -/
  | getUnspentNote (sender channelKey token : Felt) (i : ℕ)
  /-- the nullifier in `addNoteIfNotSpent` -/
  | nullifierExists (sender channelKey token : Felt) (i : ℕ) (packedValue : Felt)
  deriving DecidableEq, Repr

/-- What the tasks share; the errors are those of the tracker. -/
structure State where
  notes : List (Felt × List Note) := []
  cursor : NotesCursor
  errors : List CurveError := []
  deriving DecidableEq, Repr

/-- Change the cursor of the channel from a sender. -/
def State.modifyChannel (st : State) (sender : Felt)
    (f : IncomingChannelCursor → IncomingChannelCursor) : State :=
  { st with cursor := (AddressMap.get st.cursor sender).elim st.cursor fun icc =>
      AddressMap.set st.cursor sender (f icc) }

/-- `get_note(noteId).packed_value` -/
def packedValueOf (channelKey token : Felt) (i : ℕ) : Felt :=
  backend.pool.read sn .notes (computeNoteId sn channelKey token i) 0

/-- The note that `addNoteIfNotSpent` pushes. -/
def toNote (sender channelKey token : Felt) (i : ℕ) (packedValue : Felt) : Note :=
  let (amount, salt) := readNoteAmount sn packedValue.val (toBigInt channelKey) (toBigInt token) i
  { id := .bigint (computeNoteId sn channelKey token i).val
    amount
    created := some 0
    witness := ⟨channelKey, i, salt.toNat⟩
    sender
    isOpen := packedValue.val >>> 128 = 1 }

/-- The end of `addNoteIfNotSpent`, for a note that is not spent. The entry of the token is
set before its notes are looked for. -/
def addNote (sender channelKey token : Felt) (i : ℕ) (packedValue : Felt) (st : State) : State :=
  { st with notes := push st.notes token [toNote sn sender channelKey token i packedValue] }
    |>.modifyChannel sender fun icc =>
      { icc with
        noteIndexes := AddressMap.set icc.noteIndexes token
          (max ((AddressMap.get icc.noteIndexes token).getD 0) (i + 1)) }

/-- `discoverNotes(sender, token, index)`, up to its first call -/
def discoverNotes (cursor : NotesCursor) (sender token : Felt) (index : ℕ) : List Task :=
  (AddressMap.get cursor sender).elim [] fun icc =>
    (scan index).map (.getNote sender icc.channelKey token)

/-- `discoverSubchannels(sender)`, up to its first call -/
def discoverSubchannels (cursor : NotesCursor) (sender : Felt) : List Task :=
  (AddressMap.get cursor sender).elim [] fun icc =>
    (scan icc.subchannelIdIndex).map (.getSubchannelInfo sender icc.channelKey)

/-- The answer to a call: the state after it, and the calls that it leads to. -/
def resume (task : Task) (st : State) : State × List Task :=
  match task with
  | .getNumOfChannels start =>
    (st, (bisect start (backend.getNumOfChannels address)).map .getChannelInfo)
  | .getChannelInfo scan =>
    match decryptChannelInfo sn recoverPointFromX (backend.getChannelInfo address scan.index)
        viewingKey with
    | .error e => ({ st with errors := st.errors ++ [e] }, [])
    | .ok (key, sender) =>
      let cursor := AddressMap.set st.cursor (ofBigInt sender) ⟨ofBigInt key, 0, [], []⟩
      ({ st with cursor },
        discoverSubchannels cursor (ofBigInt sender) ++
          (scan.resume false true).map .getChannelInfo)
  | .getSubchannelInfo sender channelKey scan =>
    let k := scan.index
    let encSubchannel := backend.getSubchannelInfo sn (computeSubchannelId sn channelKey k)
    if encSubchannel.salt = 0 then
      (st, (scan.resume false false).map (.getSubchannelInfo sender channelKey))
    else
      let token := ofBigInt (decryptSubchannelInfo sn encSubchannel (toBigInt channelKey) k).1
      if tokens ≠ [] ∧ token ∉ tokens then
        (st, (scan.resume false true).map (.getSubchannelInfo sender channelKey))
      else
        let st := st.modifyChannel sender fun icc =>
          { icc with
            noteIndexes := AddressMap.set icc.noteIndexes token 0
            subchannelIdIndex := max icc.subchannelIdIndex k }
        (st,
          discoverNotes st.cursor sender token 0 ++
            (scan.resume false true).map (.getSubchannelInfo sender channelKey))
  | .getNote sender channelKey token scan =>
    let i := scan.index
    if scan.skipResult then
      if backend.nullifierExists sn (computeNullifier sn channelKey token i viewingKey) then
        (st, (scan.resume false true).map (.getNote sender channelKey token))
      else (st, [.getUnspentNote sender channelKey token i])
    else
      let packedValue := packedValueOf sn backend channelKey token i
      if packedValue = 0 then
        (st, (scan.resume false false).map (.getNote sender channelKey token))
      else
        (st, .nullifierExists sender channelKey token i packedValue ::
          (scan.resume false true).map (.getNote sender channelKey token))
  | .getUnspentNote sender channelKey token i =>
    let packedValue := packedValueOf sn backend channelKey token i
    if packedValue = 0 then (st, [])
    else (addNote sn sender channelKey token i packedValue st, [])
  | .nullifierExists sender channelKey token i packedValue =>
    if backend.nullifierExists sn (computeNullifier sn channelKey token i viewingKey) then (st, [])
    else (addNote sn sender channelKey token i packedValue st, [])

/-- The calls that `discover` starts with: those for new channels, and for each channel of
the cursor those for its subchannels and for the notes of each token. -/
def start (existingCursor : NotesCursor) : List Task :=
  .getNumOfChannels existingCursor.length ::
    existingCursor.flatMap fun (sender, incomingChannelCursor) =>
      discoverSubchannels existingCursor sender ++
        incomingChannelCursor.noteIndexes.flatMap fun (token, index) =>
          discoverNotes existingCursor sender token index

/-- `discoverNotes` returns these notes and this cursor: all calls have been answered, in
some order, and none of them has thrown. -/
def Discovers (cursor : Option NotesCursor) (notes : List (Felt × List Note))
    (cursor' : NotesCursor) : Prop :=
  Tracker.Run (resume sn recoverPointFromX backend address viewingKey tokens)
    ({ cursor := cursor.getD [] }, start (cursor.getD []))
    ({ notes, cursor := cursor', errors := [] }, 0)

end NotesDiscovery

end PrivacyPool.Sdk
