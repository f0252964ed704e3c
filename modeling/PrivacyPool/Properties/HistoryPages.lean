import PrivacyPool.Discovery.Account
import PrivacyPool.History.Runs

/-!
# Pages against one page

A client that pages through its history is to get what one page with enough budget returns. It
does when no page is cut after its first block. A page that is cut there has moved its cursor
past the notes that it does not return, and no later page returns them.

## Main definitions

* `SameHistory` — the same notes, deposits and registrations

## Main results

* `paged_exact_iff` — the pages return the history just when none of them is cut
* `pages_lose_note` — two pages that lose a note
-/

namespace PrivacyPool.History

open Discovery

/-- The same notes, deposits and registrations, each under the same transaction. -/
structure SameHistory (txs txs' : List HistoryTransaction) : Prop where
  notes : entriesOf HistoryTransaction.notes txs = entriesOf HistoryTransaction.notes txs'
  deposits : entriesOf HistoryTransaction.deposits txs = entriesOf HistoryTransaction.deposits txs'
  registrations : entriesOf HistoryTransaction.registration txs =
    entriesOf HistoryTransaction.registration txs'

/-- For notes whose storage block is the block of their creation event and does not fall with the
note index: the pages up to the complete one return the history of a single page that completes
it, with every note that is due once, just when no page is cut. -/
theorem paged_exact_iff (sn : Starknet) (snapshot : Snapshot) (userAddress : Felt)
    (cursor cursor' : HistoryCursor) (requests : List (ℕ × ℕ)) (maxTransactions budget : ℕ)
    (txs txs' : List HistoryTransaction)
    (hordered : ∀ subchannel ∈ cursor.subchannels, subchannel.BlocksOrdered sn snapshot.toBackend)
    (hannounced : ∀ note ∈ cursor.due sn snapshot, Announced snapshot note)
    (hpaged : Paged sn snapshot userAddress cursor requests txs)
    (hpage : fetchTransactions sn snapshot userAddress cursor maxTransactions budget =
      .ok (txs', cursor'))
    (hcomplete : cursor'.historyComplete = true) :
    (SameHistory txs txs' ∧ (entriesOf HistoryTransaction.notes txs).map Prod.snd =
        (cursor.due sn snapshot).map Prod.snd) ↔
      UncutPages sn snapshot userAddress cursor requests := by
  obtain ⟨processed, lost, lower, hof, huncut⟩ := hpaged.historyOf hordered hannounced
  obtain ⟨single, lost', lower', hsingle, huncut'⟩ :=
    (Paged.last hpage hcomplete).historyOf hordered hannounced
  -- A single page that completes the history has lost nothing.
  obtain rfl := huncut'.mpr (uncut_of_complete hordered hannounced hpage hcomplete)
  have hdue : single = cursor.due sn snapshot := by rw [hsingle.due, add_zero]
  subst hdue
  rw [← huncut]
  constructor
  · rintro ⟨-, hall⟩
    have hcard := congrArg Multiset.card hall
    rw [hof.notes, map_createdNotes fun note hnote => hannounced note
        (hof.due ▸ Multiset.mem_add.mpr (.inl hnote)), Multiset.card_map, Multiset.card_map,
      hof.due, Multiset.card_add] at hcard
    exact Multiset.card_eq_zero.mp (by omega)
  · rintro rfl
    have hprocessed : processed = cursor.due sn snapshot := by rw [hof.due, add_zero]
    subst hprocessed
    refine ⟨⟨?_, ?_, ?_⟩, ?_⟩
    · rw [hof.notes, hsingle.notes]
    · rw [hof.deposits, hsingle.deposits]
    · rw [hof.registrations, hsingle.registrations]
    · rw [hof.notes, map_createdNotes hannounced]

namespace Sample

/-- Two notes of the sample account in blocks 10 and 20, its registration, and a withdrawal to it
in block 10. -/
def log : EventLog where
  events :=
    [⟨10, 1001, .encNoteCreated ⟨computeNoteId Starknet.sample 1 77 0, 0⟩⟩,
      ⟨10, 1003, .withdrawal ⟨5, 77, 3⟩⟩,
      ⟨20, 1002, .encNoteCreated ⟨computeNoteId Starknet.sample 1 77 1, 0⟩⟩,
      ⟨20, 2001, .viewingKeySet ⟨5, 3⟩⟩]
  preConfirmed := 101
  block_pos := by decide +kernel
  block_eq := by decide +kernel

/-- The chain at block 100, with the two notes in blocks 10 and 20. -/
def snapshot : Snapshot where
  pool := PrivacyPool.Sample.spent.pool
  lastUpdateBlock slot :=
    if slot = (Starknet.sample.entry .notes (computeNoteId Starknet.sample 1 77 0)).val then 10
    else 20
  log := log
  blockId := .number 100
  confirmed n h := by
    cases h
    decide

/-- A subchannel with two notes. -/
def twoNotes : HistoryCursor where
  subchannels := [⟨1, 77, .selfChannel, 5, some 1⟩]

/-- The note of block 10. -/
def oldNote : HistoryNote := ⟨.selfChannel, 77, 0, computeNoteId Starknet.sample 1 77 0, 5, 100, 2⟩

/-- The note of block 20. -/
def newNote : HistoryNote := ⟨.selfChannel, 77, 1, computeNoteId Starknet.sample 1 77 1, 5, 40, 1⟩

/-- The transaction that creates the old note. -/
def oldTransaction : HistoryTransaction :=
  { blockNumber := 10, transactionHash := 1001, notes := [oldNote] }

/-- The transaction that creates the new note. -/
def newTransaction : HistoryTransaction :=
  { blockNumber := 20, transactionHash := 1002, notes := [newNote] }

/-- The transaction that registers the public key. -/
def registration : HistoryTransaction :=
  { blockNumber := 20, transactionHash := 2001, registeredPubkey := some 3 }

theorem ordered : ∀ subchannel ∈ twoNotes.subchannels,
    subchannel.BlocksOrdered Starknet.sample snapshot.toBackend := by
  decide +kernel

theorem announced : ∀ note ∈ twoNotes.due Starknet.sample snapshot, Announced snapshot note := by
  unfold Announced
  decide +kernel

/-- One page with enough budget. -/
theorem fetchTransactions_all : fetchTransactions Starknet.sample snapshot 5 twoNotes 10 1000 =
    .ok ([newTransaction, registration, oldTransaction],
      ⟨[⟨1, 77, .selfChannel, 5, none⟩], some 9, true⟩) := by
  decide +kernel

/-- A page with the budget for one block. -/
theorem fetchTransactions_first : fetchTransactions Starknet.sample snapshot 5 twoNotes 10 24 =
    .ok ([newTransaction], ⟨[⟨1, 77, .selfChannel, 5, none⟩], some 19, false⟩) := by
  decide +kernel

/-- The page after it. -/
theorem fetchTransactions_second : fetchTransactions Starknet.sample snapshot 5
      ⟨[⟨1, 77, .selfChannel, 5, none⟩], some 19, false⟩ 10 1000 =
    .ok ([registration], ⟨[⟨1, 77, .selfChannel, 5, none⟩], some 19, true⟩) := by
  decide +kernel

theorem paged : Paged Starknet.sample snapshot 5 twoNotes [(10, 24), (10, 1000)]
    ([newTransaction] ++ [registration]) :=
  .page fetchTransactions_first rfl (.last fetchTransactions_second rfl)

end Sample

theorem paged_exact_iff_sample :
    (SameHistory ([Sample.newTransaction] ++ [Sample.registration])
        [Sample.newTransaction, Sample.registration, Sample.oldTransaction] ∧
      (entriesOf HistoryTransaction.notes
        ([Sample.newTransaction] ++ [Sample.registration])).map Prod.snd =
          (Sample.twoNotes.due Starknet.sample Sample.snapshot).map Prod.snd) ↔
      UncutPages Starknet.sample Sample.snapshot 5 Sample.twoNotes [(10, 24), (10, 1000)] :=
  paged_exact_iff Starknet.sample Sample.snapshot 5 Sample.twoNotes _ [(10, 24), (10, 1000)] 10 1000
    _ _ Sample.ordered Sample.announced Sample.paged Sample.fetchTransactions_all rfl

/-- The first page is cut after block 20, when the note of block 10 is drained already. -/
theorem pages_lose_note :
    Paged Starknet.sample Sample.snapshot 5 Sample.twoNotes [(10, 24), (10, 1000)]
        ([Sample.newTransaction] ++ [Sample.registration]) ∧
      Paged Starknet.sample Sample.snapshot 5 Sample.twoNotes [(10, 1000)]
        [Sample.newTransaction, Sample.registration, Sample.oldTransaction] ∧
      (∀ note ∈ Sample.twoNotes.due Starknet.sample Sample.snapshot,
        Announced Sample.snapshot note) ∧
      ¬ SameHistory ([Sample.newTransaction] ++ [Sample.registration])
        [Sample.newTransaction, Sample.registration, Sample.oldTransaction] := by
  refine ⟨Sample.paged, .last Sample.fetchTransactions_all rfl, Sample.announced, fun hsame => ?_⟩
  have hcard := congrArg Multiset.card hsame.notes
  exact absurd hcard (by decide)

end PrivacyPool.History
