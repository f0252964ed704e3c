import PrivacyPool.Discovery.Cursor

/-!
# Backward note scan

`history/notes.rs`: the history of a user is read from the newest block to the oldest.
A scanner holds one note for each subchannel, reads the storage of the notes that are
missing, and drains the notes of the highest block; a note that is drained makes room
for the one below it in its subchannel, which may be of the same block.

## Main definitions

* `HistoryCursor` — the next note of each subchannel, from the last to the first
* `fillBuffers`, `nextBlock` — the two operations of the scanner
* `Scanned` — calls of `nextBlock` until there is no block left
-/

namespace PrivacyPool.History

open Discovery HashMap

/-- The relationship between the user and a channel. -/
inductive ChannelKind
  | incoming
  | outgoing
  | selfChannel
  deriving DecidableEq, Repr

/-- A decrypted note enriched with channel context. -/
structure HistoryNote where
  channelKind : ChannelKind
  token : Felt
  noteIndex : ℕ
  noteId : Felt
  counterparty : Felt
  amount : ℕ
  salt : ℕ
  deriving DecidableEq, Repr

/-- A single subchannel in the backward scan. -/
structure HistorySubchannel where
  channelKey : Felt
  token : Felt
  channelKind : ChannelKind
  counterparty : Felt
  /-- The next note index to read, descending; none when the stream is exhausted. -/
  nextIndex : Option ℕ
  deriving DecidableEq, Repr

/-- How far the history of a user has been followed, backwards. -/
structure HistoryCursor where
  subchannels : List HistorySubchannel := []
  /-- Inclusive upper bound for event queries; none on the first page. -/
  beginBlockNumber : Option ℕ := none
  historyComplete : Bool := false
  deriving DecidableEq, Repr

/-- The scanner with the cursor and the budget that it is called with. The buffer is
keyed by the position of the subchannel; an entry is a block and a note. -/
structure ScanState where
  bufferedNotes : List (ℕ × (ℕ × HistoryNote)) := []
  cursor : HistoryCursor
  budget : ℕ
  deriving DecidableEq, Repr

/-- `and_then(|i| i.checked_sub(1))` on the next index. -/
def HistorySubchannel.decrement (subchannel : HistorySubchannel) : HistorySubchannel :=
  { subchannel with nextIndex := subchannel.nextIndex.bind fun i => if 1 ≤ i then some (i - 1)
      else none }

variable (sn : Starknet) (backend : Backend)

/-- The note at an index, decrypted from its storage, with the block it was written in. -/
def HistorySubchannel.noteOf (subchannel : HistorySubchannel) (noteId : Felt) (noteIndex : ℕ)
    (result : StorageResult) : ℕ × HistoryNote :=
  let (amount, salt) :=
    decryptPackedValue sn result.value subchannel.channelKey subchannel.token noteIndex
  (result.lastUpdateBlock,
    { channelKind := subchannel.channelKind
      token := subchannel.token
      noteIndex
      noteId
      counterparty := subchannel.counterparty
      amount
      salt })

/-- A note that is to be read: its subchannel with the position, its id and its index. -/
abbrev NextNote := ℕ × HistorySubchannel × Felt × ℕ

/-- The subchannels that are neither buffered nor exhausted. -/
def activeSubchannels (st : ScanState) : List NextNote :=
  (st.cursor.subchannels.zipIdx.filter fun entry => entry.2 ∉ keys st.bufferedNotes).filterMap
    fun entry => entry.1.nextIndex.map fun nextNoteIndex =>
      (entry.2, entry.1, computeNoteId sn entry.1.channelKey entry.1.token nextNoteIndex,
        nextNoteIndex)

/-- Fill empty buffer slots by reading the storage of all active subchannels. -/
def fillBuffers (st : ScanState) : Except DiscoveryError ScanState :=
  let active := activeSubchannels sn st
  let cost := active.length * costNote
  -- The reads of a round are charged together.
  if active ≠ [] ∧ st.budget < cost then .error (.insufficientBudget cost st.budget)
  else
    let noteIds := active.map fun next => next.2.2.1
    let storageResults := noteIds.map (backend.getNoteWithBlock sn)
    .ok { st with
      budget := st.budget - cost
      bufferedNotes := (active.zip storageResults).foldl (fun buffered item =>
        insert buffered item.1.1 (item.1.2.1.noteOf sn item.1.2.2.1 item.1.2.2.2 item.2))
          st.bufferedNotes }

/-- The highest block among the buffered notes. -/
def highestBlock (st : ScanState) : Option ℕ :=
  (st.bufferedNotes.map fun entry => entry.2.1).max?

/-- Take the buffered notes of a block, and move their subchannels to the note below. -/
def drain (targetBlock : ℕ) (st : ScanState) : List HistoryNote × ScanState :=
  let (kept, drained) := extractIf st.bufferedNotes fun entry => entry.1 == targetBlock
  (drained.map fun entry => entry.2.2,
    { st with
      bufferedNotes := kept
      cursor := { st.cursor with
        subchannels := drained.foldl (fun subchannels entry =>
          subchannels.modify entry.1 HistorySubchannel.decrement) st.cursor.subchannels } })

/-- The fill-then-drain loop. Every round but the last drains a note, so the notes that
are left bound the fuel. -/
def nextBlockLoop : ℕ → Option ℕ → List HistoryNote → ScanState →
    Except DiscoveryError (Option (ℕ × List HistoryNote)) × ScanState
  | 0, blockNumber, blockNotes, st => (.ok (blockNumber.map fun block => (block, blockNotes)), st)
  | fuel + 1, blockNumber, blockNotes, st =>
    match fillBuffers sn backend st with
    | .error e => (.error e, st)
    | .ok st =>
      match blockNumber.or (highestBlock st) with
      | none => (.ok none, st)
      | some targetBlock =>
        if st.bufferedNotes.any fun entry => entry.2.1 == targetBlock then
          let (notes, st) := drain targetBlock st
          nextBlockLoop fuel (some targetBlock) (blockNotes ++ notes) st
        else (.ok (some (targetBlock, blockNotes)), st)

/-- The number of notes that a subchannel has yet to return. -/
def HistorySubchannel.remaining (subchannel : HistorySubchannel) : ℕ :=
  subchannel.nextIndex.elim 0 (· + 1)

/-- The number of notes that are left. -/
def HistoryCursor.remaining (cursor : HistoryCursor) : ℕ :=
  (cursor.subchannels.map HistorySubchannel.remaining).sum

/-- Drain the highest block of notes. -/
def nextBlock (st : ScanState) :
    Except DiscoveryError (Option (ℕ × List HistoryNote)) × ScanState :=
  nextBlockLoop sn backend (st.cursor.remaining + 1) none [] st

/-- Calls of `nextBlock` until it returns none: the blocks in the order they come. -/
inductive Scanned : ScanState → List (ℕ × List HistoryNote) → ScanState → Prop
  | done {st st' : ScanState} : nextBlock sn backend st = (.ok none, st') → Scanned st [] st'
  | block {st st' st'' : ScanState} {block : ℕ × List HistoryNote}
      {blocks : List (ℕ × List HistoryNote)} :
      nextBlock sn backend st = (.ok (some block), st') → Scanned st' blocks st'' →
      Scanned st (block :: blocks) st''

end PrivacyPool.History
