import PrivacyPool.Discovery.Account
import PrivacyPool.History.BlockMerge

/-!
# Block merge of the history scanner

Repeated calls of `nextBlock` from a fresh scanner go through the notes of all
subchannels block by block, the newest block first, until there is none left.

## Main results

* `nextBlock_merges_blocks` — the calls end, and return every note in its block, once
-/

namespace PrivacyPool.History

open Discovery

/-- When the storage blocks of each subchannel do not fall with the note index and the
budget pays for all notes, the calls of a fresh scanner end. The blocks that they return
fall strictly, each with all notes of its block; together they are every note up to the
initial next indices once, decrypted, and every subchannel is then exhausted. -/
theorem nextBlock_merges_blocks (sn : Starknet) (backend : Backend) (cursor : HistoryCursor)
    (budget : ℕ)
    (hordered : ∀ subchannel ∈ cursor.subchannels, subchannel.BlocksOrdered sn backend)
    (hbudget : costNote * cursor.remaining ≤ budget) :
    (∃ blocks st', Scanned sn backend { cursor, budget } blocks st') ∧
      ∀ blocks st', Scanned sn backend { cursor, budget } blocks st' →
        (blocks.Pairwise fun block later => later.1 < block.1) ∧
        (∀ block ∈ blocks, block.2 ≠ [] ∧ (block.2 : Multiset HistoryNote) =
          ((cursor.pendingNotes sn backend).filter fun note => note.1 = block.1).map Prod.snd) ∧
        (notesOfBlocks blocks : Multiset (ℕ × HistoryNote)) = cursor.pendingNotes sn backend ∧
        ∀ subchannel ∈ st'.cursor.subchannels, subchannel.nextIndex = none := by
  have hscanning : ScanState.Scanning sn backend { cursor, budget } := ⟨.nil, hordered⟩
  refine ⟨exists_scanned hscanning (hbudget.trans (Nat.le_add_right _ _)), ?_⟩
  intro blocks st' hscanned
  obtain ⟨hmerged, hexhausted⟩ := hscanned.merged hscanning
  refine ⟨hmerged.falling, fun block hblock => ?_, hmerged.notes, hexhausted⟩
  exact ⟨hmerged.nonempty block hblock, hmerged.block_eq hblock⟩

namespace Sample

/-- The first note of the sample account was written before all others. -/
def backend : Backend :=
  ⟨PrivacyPool.Sample.spent.pool, fun slot =>
    if slot = (Starknet.sample.entry .notes (computeNoteId Starknet.sample 1 77 0)).val then 7
    else 9⟩

/-- The cursor of a first request: two notes of the user, and one that it received. -/
def cursor : HistoryCursor where
  subchannels := [⟨1, 77, .selfChannel, 5, some 1⟩, ⟨2, 78, .incoming, 6, some 0⟩]

end Sample

theorem nextBlock_merges_blocks_sample :
    (∃ blocks st', Scanned Starknet.sample Sample.backend
      { cursor := Sample.cursor, budget := 6 } blocks st') ∧
      ∀ blocks st', Scanned Starknet.sample Sample.backend
          { cursor := Sample.cursor, budget := 6 } blocks st' →
        (notesOfBlocks blocks : Multiset (ℕ × HistoryNote)) =
          Sample.cursor.pendingNotes Starknet.sample Sample.backend := by
  have hmerges := nextBlock_merges_blocks Starknet.sample Sample.backend Sample.cursor 6
    (by decide +kernel) (by decide)
  exact ⟨hmerges.1, fun blocks st' hscanned => (hmerges.2 blocks st' hscanned).2.2.1⟩

end PrivacyPool.History
