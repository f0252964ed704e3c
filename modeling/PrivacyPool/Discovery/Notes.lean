import PrivacyPool.Discovery.Cursor

/-!
# Note discovery

`last_note_index.rs` and `notes.rs`: the boundary of a subchannel is found by an
exponential probe and a bisection, and the notes below it are then scanned as far
as the budget goes, nullifiers first. Notes that the probe has read are taken from
its cache. A nullifier is one slot, and so is a note.

## Main definitions

* `findLastNoteIndex` — the boundary of a subchannel
* `discoverNotesPaginated` — the unspent notes of a subchannel, page by page
-/

namespace PrivacyPool.Discovery

open Budget.Task

variable (sn : Starknet) (backend : Backend)

/-! ### Boundary -/

/-- What the probes have read: the note id and the storage result of an index. -/
abbrev ProbeCache := List (ℕ × Felt × StorageResult)

/-- The offsets of the probe. The shift is that of a `u64`, by the exponent modulo 64. -/
def probeOffset (k : ℕ) : ℕ := if k = 0 then 0 else 2 ^ (k % 64) - 1

/-- The loop over the probe results: stop at the first index without a note. -/
def scanProbes : List (ℕ × Felt × StorageResult) → Option ℕ → ProbeCache →
    Option (Option (ℕ × ℕ) × ProbeCache)
  | [], _, _ => none
  | (idx, noteId, result) :: rest, lowerBound, cache =>
    if result.value ≠ 0 then scanProbes rest (some idx) ((idx, noteId, result) :: cache)
    else some (lowerBound.map fun lowerBound => (lowerBound, idx), cache)

/-- The error of a probe that finds a note at each of its offsets. -/
def boundaryExceeded (maxNoteLogIndex startIndex : ℕ) : DiscoveryError :=
  .invalidCursor ("note boundary exceeds max_note_log_index=" ++ toString maxNoteLogIndex ++
    " (>" ++ toString (if maxNoteLogIndex < 64 then 2 ^ maxNoteLogIndex else 2 ^ 64 - 1) ++
    " notes from start_index=" ++ toString startIndex ++ ")")

/-- Probe note existence at exponentially increasing indices in a single batch. -/
def exponentialProbe (channelKey token : Felt) (startIndex maxNoteLogIndex : ℕ) :
    Except DiscoveryError (Option (ℕ × ℕ) × ProbeCache) :=
  let results := (List.range (maxNoteLogIndex + 1)).map fun k =>
    let idx := startIndex + probeOffset k
    let noteId := computeNoteId sn channelKey token idx
    (idx, noteId, backend.getNoteWithBlock sn noteId)
  Fallible.expect (scanProbes results none []) (boundaryExceeded maxNoteLogIndex startIndex)

/-- Binary search between an index that exists and one that does not: the last index
that exists, the number of steps and the cache. The fuel is the width of the interval,
which every step shrinks. -/
def bisectBoundary (channelKey token : Felt) : ℕ → ℕ → ℕ → ProbeCache → ℕ × ℕ × ProbeCache
  | 0, lowerBound, _, cache => (lowerBound, 0, cache)
  | fuel + 1, lowerBound, upperBound, cache =>
    if lowerBound + 1 < upperBound then
      let mid := lowerBound + (upperBound - lowerBound) / 2
      let noteId := computeNoteId sn channelKey token mid
      let result := backend.getNoteWithBlock sn noteId
      let (boundary, stepCount, cache) :=
        -- There is a note in the middle: it is kept for the batch that follows.
        if result.value ≠ 0 then
          bisectBoundary channelKey token fuel mid upperBound ((mid, noteId, result) :: cache)
        else bisectBoundary channelKey token fuel lowerBound mid cache
      (boundary, stepCount + 1, cache)
    else (lowerBound, 0, cache)

/-- Find the last note index by probe and bisection, unless it is cached. The budget is
drawn up front: the search is done in full, or not at all and there is more to do. The probe
reads a note for each of its offsets, the bisection one for each step. -/
def findLastNoteIndex (channelKey token : Felt) (cursor : SubchannelCursor)
    (maxNoteLogIndex : ℕ) : Task (SubchannelCursor × ProbeCache × Bool) := do
  -- A total that was found once is not looked for again.
  if cursor.totalNNotes.isSome then
    return (cursor, [], false)
  if !(← consume (boundaryBudget maxNoteLogIndex)) then
    return (cursor, [], true)
  let startIndex := cursor.startIndex
  let maxBisectSteps := maxNoteLogIndex
  read (maxNoteLogIndex + 1)
  match ← (exponentialProbe sn backend channelKey token startIndex maxNoteLogIndex) with
  -- The first probe misses: the total is recorded as zero, whatever the start index.
  | (none, cache) =>
    reclaim (maxBisectSteps * costNoteProbing)
    return ({ cursor with totalNNotes := some 0 }, cache, false)
  | (some (lowerBound, upperBound), cache) =>
    let (boundary, bisectStepCount, cache) :=
      bisectBoundary sn backend channelKey token (upperBound - lowerBound) lowerBound upperBound
        cache
    read bisectStepCount
    -- The steps that were not needed are given back.
    reclaim ((maxBisectSteps - bisectStepCount) * costNoteProbing)
    return ({ cursor with totalNNotes := some (boundary + 1) }, cache, false)

/-! ### Notes -/

/-- A discovered and decrypted note. -/
structure DecryptedNote where
  senderAddr : Felt
  token : Felt
  index : ℕ
  noteId : Felt
  amount : ℕ
  salt : ℕ
  blockNumber : ℕ
  deriving DecidableEq, Repr

/-- What a scan of notes comes to. -/
structure NotesDiscoveryResult where
  notes : List DecryptedNote
  lastIndex : Option ℕ
  hasMore : Bool
  deriving DecidableEq, Repr

/-- The sender and the token are set by the sync orchestrator. -/
def decryptNote (channelKey token : Felt) (index : ℕ) (noteId packed : Felt) (blockNumber : ℕ) :
    DecryptedNote :=
  let (amount, salt) := decryptPackedValue sn packed channelKey token index
  { senderAddr := 0, token := 0, index, noteId, amount, salt, blockNumber }

/-- The unspent notes of a range of indices, and how many indices needed no read of
their amount: spent notes, and notes in the cache. -/
def processNoteBatch (channelKey token : Felt) (startIndex batchSize : ℕ) (privateKey : Felt)
    (probeCache : ProbeCache) : Task (List DecryptedNote × ℕ) := do
  let indices := (List.range batchSize).map (startIndex + ·)
  read indices.length
  let spent := fun index =>
    backend.nullifierExists sn (computeNullifier sn channelKey token index privateKey)
  -- Nullifiers first; then the notes that are neither spent nor in the cache.
  let indicesToFetch := indices.filter fun index =>
    !spent index && !(probeCache.lookup index).isSome
  read indicesToFetch.length
  let resolve := fun index => (probeCache.lookup index).getD
    (let noteId := computeNoteId sn channelKey token index
    (noteId, backend.getNoteWithBlock sn noteId))
  let notes := indices.filterMap fun index =>
    if spent index then none
    else
      let (noteId, result) := resolve index
      some (decryptNote sn channelKey token index noteId result.value result.lastUpdateBlock)
  let numSkipped := indices.countP fun index => spent index || (probeCache.lookup index).isSome
  return (notes, numSkipped)

/-- Linear scan of the notes from `startIndex` to `endIndex`. -/
def discoverNotes (channelKey token : Felt) (startIndex endIndex : ℕ) (privateKey : Felt)
    (probeCache : ProbeCache) : Task NotesDiscoveryResult := do
  let numRemainingNotes := endIndex + 1 - startIndex
  let (batchSize, budgetExhausted) ← consumeUpTo numRemainingNotes costNote
  if batchSize = 0 then
    return ⟨[], none, budgetExhausted⟩
  let batchEnd := startIndex + batchSize
  let (notes, numSkipped) ←
    processNoteBatch sn backend channelKey token startIndex batchSize privateKey probeCache
  -- Spent notes and probed ones need no read of their own.
  reclaim (numSkipped * costNoteProbing)
  return ⟨notes, some (batchEnd - 1), budgetExhausted⟩

/-- Discover notes with cursor-based pagination. -/
def discoverNotesPaginated (channelKey token : Felt) (cursor : SubchannelCursor)
    (privateKey : Felt) (maxNoteLogIndex : ℕ) : Task (SubchannelCursor × List DecryptedNote) := do
  let startIndex := cursor.startIndex
  let (cursor, probeCache, probeHasMore) ←
    findLastNoteIndex sn backend channelKey token cursor maxNoteLogIndex
  -- The budget did not suffice for the probes: the next page tries again.
  if probeHasMore then
    return (cursor, [])
  match cursor.lastExistingIndex with
  | none => return ({ cursor with noteDiscoveryComplete := true }, [])
  | some maxNoteIndex =>
    let result ←
      discoverNotes sn backend channelKey token startIndex maxNoteIndex privateKey probeCache
    let cursor := { cursor with lastNoteIndex := result.lastIndex.or cursor.lastNoteIndex }
    let cursor := if result.hasMore then cursor else { cursor with noteDiscoveryComplete := true }
    return (cursor, result.notes)

end PrivacyPool.Discovery
