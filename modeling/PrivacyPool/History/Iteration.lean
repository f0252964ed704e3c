import PrivacyPool.History.Grouping
import PrivacyPool.History.ReadCosts

/-!
# One block of a page

What an iteration of the page loop does. It drains the notes of one block, skipping those
above the upper bound, and adds the transactions of the block and of the gap above it. When
the budget runs out, notes that were drained stay so.

## Main definitions

* `HistoryCursor.due` — the notes that a page has yet to return
* `Announced` — a note whose storage block is the block of its creation event
* `HistoryState.PaysNext` — the budget pays for the next block
* `ProcessNextBlock` — what an iteration can do

## Main results

* `processNextBlock_spec` — an iteration does one of these
* `processNextBlock_returns_iff` — after a block, an iteration returns just when it is paid
* `processNextBlock_loses` — after a block, an iteration that fails has drained notes
-/

namespace PrivacyPool.History

open Discovery HashMap Streams

variable (sn : Starknet) (snapshot : Snapshot) (userAddress : Felt)

/-- The block up to which a page returns transactions. -/
def HistoryCursor.upperBound (cursor : HistoryCursor) : ℕ :=
  cursor.beginBlockNumber.getD snapshot.blockNumber

/-- The upper bound as a block id. -/
def HistoryCursor.upperBlock (cursor : HistoryCursor) : BlockId :=
  cursor.beginBlockNumber.elim snapshot.blockId .number

/-- The notes that a page has yet to return: those up to the upper bound. -/
def HistoryCursor.due (cursor : HistoryCursor) : Multiset (ℕ × HistoryNote) :=
  (cursor.pendingNotes sn snapshot.toBackend).filter fun note =>
    note.1 ≤ cursor.upperBound snapshot

/-- A note whose storage block is the block of its creation event. -/
def Announced (note : ℕ × HistoryNote) : Prop :=
  ∃ event ∈ snapshot.log.events,
    event.blockNumber = note.1 ∧ event.createdNoteId = some note.2.noteId

/-- The cost of the withdrawals in a gap. -/
def gapCost (fromBlock toBlock : ℕ) : ℕ :=
  if toBlock < fromBlock then 0 else eventsCost fromBlock toBlock

/-- The budget pays for the reads, the events and the gap of the highest block. -/
def HistoryState.PaysNext (st : HistoryState) : Prop :=
  ∀ block, highestBlock st.scan = some block →
    costNote * st.scan.cursor.readsOf sn snapshot.toBackend block + costBlockEventsQuery +
        gapCost (block + 1) (st.scan.cursor.upperBound snapshot) ≤
      st.scan.budget + costNote * st.scan.bufferedNotes.length

variable {sn snapshot userAddress} {st st' : HistoryState} {scan scan' : ScanState}

theorem numberOf_upperBlock (cursor : HistoryCursor) :
    snapshot.numberOf (cursor.upperBlock snapshot) = cursor.upperBound snapshot := by
  unfold HistoryCursor.upperBlock HistoryCursor.upperBound
  cases cursor.beginBlockNumber <;> rfl

theorem mem_due {cursor : HistoryCursor} {note : ℕ × HistoryNote} :
    note ∈ cursor.due sn snapshot ↔ note ∈ cursor.pendingNotes sn snapshot.toBackend ∧
      note.1 ≤ cursor.upperBound snapshot :=
  Multiset.mem_filter

/-! ### The events of a block -/

theorem isViewingKeySet_of_createdNoteId {event : PrivacyPoolEvent} {noteId : Felt}
    (h : event.createdNoteId = some noteId) : event.isViewingKeySet = false := by
  unfold PrivacyPoolEvent.createdNoteId at h
  unfold PrivacyPoolEvent.isViewingKeySet
  cases hcontent : event.content with
  | viewingKeySet e =>
    rw [hcontent] at h
    cases h
  | deposit | withdrawal | encNoteCreated | openNoteDeposited => rfl

theorem Announced.mem_filter {note : ℕ × HistoryNote} (h : Announced snapshot note) :
    ∃ event ∈ snapshot.log.events.filter fun event =>
      event.blockNumber = note.1 && !event.isViewingKeySet,
        event.createdNoteId = some note.2.noteId := by
  obtain ⟨created, hcreated, hblock, hid⟩ := h
  refine ⟨created, List.mem_filter.mpr ⟨hcreated, ?_⟩, hid⟩
  rw [isViewingKeySet_of_createdNoteId hid]
  simpa using hblock

/-- The events of a block with the creation event of a note. -/
theorem eventsOfBlock_eq {note : ℕ × HistoryNote} (h : Announced snapshot note) :
    eventsOfBlock snapshot note.1 = snapshot.log.events.filter fun event =>
      event.blockNumber = note.1 && !event.isViewingKeySet := by
  obtain ⟨created, hmem, -⟩ := h.mem_filter
  unfold eventsOfBlock
  dsimp only
  by_cases hpre : note.1 = snapshot.log.preConfirmed
  · -- By its number the pre-confirmed block has no events.
    have hnone : snapshot.getBlockEvents (.number note.1) = [] := by
      refine List.filter_eq_nil_iff.mpr fun event _ hsees => ?_
      by_cases hat : event.blockNumber = note.1
      · simp [Snapshot.sees, hat, hpre] at hsees
      · simp [Snapshot.numberOf, hat] at hsees
    rw [if_pos hnone, hpre]
    refine List.filter_congr fun event _ => ?_
    rw [Snapshot.sees, decide_eq_true rfl, Bool.true_or, Bool.and_true]
    rfl
  · have hevents : snapshot.getBlockEvents (.number note.1) =
        snapshot.log.events.filter fun event =>
          event.blockNumber = note.1 && !event.isViewingKeySet := by
      refine List.filter_congr fun event _ => ?_
      by_cases hat : event.blockNumber = note.1
      · simp [Snapshot.numberOf, Snapshot.sees, hat, hpre]
      · simp [Snapshot.numberOf, hat]
    rw [← hevents] at hmem
    rw [if_neg (List.ne_nil_of_mem hmem), hevents]

theorem mem_eventsOfBlock {note : ℕ × HistoryNote} (h : Announced snapshot note)
    {event : PrivacyPoolEvent} (hevent : event ∈ eventsOfBlock snapshot note.1) :
    event ∈ snapshot.log.events ∧ event.blockNumber = note.1 := by
  rw [eventsOfBlock_eq h] at hevent
  obtain ⟨hmem, hat⟩ := List.mem_filter.mp hevent
  exact ⟨hmem, of_decide_eq_true (Bool.and_eq_true_iff.mp hat).1⟩

/-- Announced notes have a transaction that created them. -/
theorem Announced.creationHash {note : ℕ × HistoryNote} (h : Announced snapshot note) :
    ∃ hash, creationHash snapshot note.1 note.2.noteId = some hash := by
  refine Option.isSome_iff_exists.mp (get_noteIdToTxHash_isSome ?_)
  rw [eventsOfBlock_eq h]
  exact h.mem_filter

theorem mem_getWithdrawalEvents {fromBlock : ℕ} {toBlock : BlockId} {event : PrivacyPoolEvent}
    (h : event ∈ snapshot.getWithdrawalEvents userAddress fromBlock toBlock) :
    event ∈ snapshot.log.events ∧ fromBlock ≤ event.blockNumber ∧
      event.blockNumber ≤ snapshot.numberOf toBlock := by
  obtain ⟨hmem, hrange⟩ := List.mem_filter.mp h
  simp only [Bool.and_eq_true, decide_eq_true_eq] at hrange
  exact ⟨hmem, hrange.1.1.1, hrange.1.1.2⟩

/-! ### Skipping -/

/-- What the calls up to a block below the upper bound can do. -/
inductive NextBlockBelow (sn : Starknet) (snapshot : Snapshot) (upperBound : ℕ)
    (scan : ScanState) : Except DiscoveryError (Option (ℕ × List HistoryNote)) → ScanState → Prop
  | exhausted {scan' : ScanState} :
      (∀ note ∈ scan.cursor.pendingNotes sn snapshot.toBackend, upperBound < note.1) →
      scan'.cursor.pendingNotes sn snapshot.toBackend = 0 →
      NextBlockBelow sn snapshot upperBound scan (.ok none) scan'
  | block {skipped : Multiset (ℕ × HistoryNote)} {drained : List (ℕ × HistoryNote)} {block : ℕ}
      {scan' : ScanState} :
      scan.cursor.pendingNotes sn snapshot.toBackend =
        skipped + drained + scan'.cursor.pendingNotes sn snapshot.toBackend →
      (∀ note ∈ skipped, upperBound < note.1) →
      drained ≠ [] → (∀ note ∈ drained, note.1 = block) → block ≤ upperBound →
      (∀ note ∈ scan'.cursor.pendingNotes sn snapshot.toBackend, note.1 < block) →
      scan'.Filled sn snapshot.toBackend →
      NextBlockBelow sn snapshot upperBound scan (.ok (some (block, drained.map Prod.snd))) scan'
  | short {drained : Multiset (ℕ × HistoryNote)} {needed available : ℕ} {scan' : ScanState} :
      scan.cursor.pendingNotes sn snapshot.toBackend =
        drained + scan'.cursor.pendingNotes sn snapshot.toBackend →
      NextBlockBelow sn snapshot upperBound scan
        (.error (.insufficientBudget needed available)) scan'

variable (sn snapshot) in
theorem nextBlockBelow_kept (upperBound fuel : ℕ) (scan : ScanState) :
    Kept sn snapshot.toBackend scan.cursor
      (nextBlockBelow sn snapshot upperBound fuel scan).2.cursor := by
  induction fuel generalizing scan with
  | zero => exact .refl _
  | succ fuel ih =>
    have hkept : Kept sn snapshot.toBackend scan.cursor
        (nextBlock sn snapshot.toBackend scan).2.cursor := nextBlockLoop_kept _ _ _ _
    unfold nextBlockBelow
    split
    next hcall =>
      rw [hcall] at hkept
      split_ifs
      · exact hkept
      · exact hkept.trans (ih _)
    next hcall => rwa [hcall] at hkept
    next hcall => rwa [hcall] at hkept

theorem nextBlockBelow_spec (upperBound fuel : ℕ) (scan : ScanState)
    (h : scan.Scanning sn snapshot.toBackend) (hfuel : scan.cursor.remaining < fuel) :
    NextBlockBelow sn snapshot upperBound scan (nextBlockBelow sn snapshot upperBound fuel scan).1
      (nextBlockBelow sn snapshot upperBound fuel scan).2 := by
  -- Each turn that skips a block takes its notes off the cursor.
  induction fuel generalizing scan with
  | zero => exact absurd hfuel (Nat.not_lt_zero _)
  | succ fuel ih =>
    have hspec := nextBlock_spec h
    unfold nextBlockBelow
    cases hcall : nextBlock sn snapshot.toBackend scan with
    | mk result scan₁ =>
      rw [hcall] at hspec
      cases hspec with
      | exhausted hpending hcursor =>
        refine .exhausted (fun note hnote => ?_) (hcursor ▸ hpending)
        rw [hpending] at hnote
        exact absurd hnote (Multiset.notMem_zero note)
      | @block drained number _ hpending hne hdrained hbelow hscanning _ =>
        dsimp only
        have hcard := congrArg Multiset.card hpending
        rw [Multiset.card_add, HistoryCursor.card_pendingNotes, HistoryCursor.card_pendingNotes,
          Multiset.coe_card] at hcard
        dsimp only at hcard
        have hpos := List.length_pos_iff.mpr hne
        split_ifs with hle
        · have hread := nextBlock_read h hcall
          have hall : scan.cursor.pendingNotes sn snapshot.toBackend =
              0 + drained + scan₁.cursor.pendingNotes sn snapshot.toBackend := by
            rw [zero_add]
            exact hpending
          exact .block hall (by simp) hne hdrained hle hbelow hread.filled
        · -- The block is above the bound, and so are the notes that were drained.
          have habove : ∀ note ∈ (drained : Multiset (ℕ × HistoryNote)), upperBound < note.1 :=
            fun note hnote => hdrained note (Multiset.mem_coe.mp hnote) ▸ not_le.mp hle
          have hrest := ih scan₁ hscanning (by omega)
          generalize nextBlockBelow sn snapshot upperBound fuel scan₁ = final at hrest
          obtain ⟨result, scan'⟩ := final
          cases hrest with
          | exhausted hall hzero =>
            refine .exhausted (fun note hnote => ?_) hzero
            rw [hpending] at hnote
            exact (Multiset.mem_add.mp hnote).elim (habove note) (hall note)
          | @block skipped drained' number' _ hpending' hskipped hne' hdrained' hle' hbelow'
              hfilled =>
            have hboth : scan.cursor.pendingNotes sn snapshot.toBackend =
                drained + skipped + drained' + scan'.cursor.pendingNotes sn snapshot.toBackend := by
              rw [hpending, hpending', add_assoc, add_assoc, add_assoc]
            exact .block hboth (fun note hnote => (Multiset.mem_add.mp hnote).elim (habove note)
              (hskipped note)) hne' hdrained' hle' hbelow' hfilled
          | @short drained' _ _ _ hpending' =>
            have hboth : scan.cursor.pendingNotes sn snapshot.toBackend =
                drained + drained' + scan'.cursor.pendingNotes sn snapshot.toBackend := by
              rw [hpending, hpending', add_assoc]
            exact .short hboth
      | @short drained _ _ _ hpending _ => exact .short hpending

/-! ### Fetches -/

variable (sn snapshot) in
/-- What the iterations of a page rely on. The transactions so far are of blocks above the
upper bound, and the notes below it are announced. -/
structure HistoryState.Grouped (st : HistoryState) : Prop where
  scanning : st.scan.Scanning sn snapshot.toBackend
  announced : ∀ note ∈ st.scan.cursor.due sn snapshot, Announced snapshot note
  dated : ∀ entry ∈ st.transactions,
    st.scan.cursor.upperBound snapshot < entry.2.blockNumber ∧
      ∃ event ∈ snapshot.log.events, event.transactionHash = entry.1 ∧
        event.blockNumber = entry.2.blockNumber

/-- The events of other blocks are of other transactions. -/
theorem notMem_keys {transactions : Transactions} {event : PrivacyPoolEvent}
    (hdated : ∀ entry ∈ transactions, event.blockNumber ≠ entry.2.blockNumber ∧
      ∃ event ∈ snapshot.log.events, event.transactionHash = entry.1 ∧
        event.blockNumber = entry.2.blockNumber)
    (hevent : event ∈ snapshot.log.events) : event.transactionHash ∉ keys transactions := by
  intro hmem
  obtain ⟨entry, hentry, hhash⟩ := List.mem_map.mp hmem
  obtain ⟨hne, event', hevent', hhash', hblock⟩ := hdated entry hentry
  have hsame := snapshot.log.block_eq event hevent event' hevent' (hhash.symm.trans hhash'.symm)
  exact hne (hsame.trans hblock)

/-- Transactions of a block are of events of the block. -/
theorem dated_blockTransactions {note : ℕ × HistoryNote} (h : Announced snapshot note)
    {notes : List HistoryNote} :
    ∀ entry ∈ blockTransactions snapshot userAddress note.1 notes,
      entry.2.blockNumber = note.1 ∧ ∃ event ∈ snapshot.log.events,
        event.transactionHash = entry.1 ∧ event.blockNumber = entry.2.blockNumber := by
  intro entry hentry
  have hblock := blockNumber_blockTransactions entry hentry
  obtain ⟨created, -, hhash⟩ := mem_keys_blockTransactions.mp (mem_keys_of_mem hentry)
  obtain ⟨event, hevent, -, hsame⟩ := exists_of_get_noteIdToTxHash hhash
  obtain ⟨hmem, hat⟩ := mem_eventsOfBlock h hevent
  exact ⟨hblock, event, hmem, hsame, hat.trans hblock.symm⟩

/-- Transactions of a gap are of events in the gap. -/
theorem dated_gapTransactions {fromBlock : ℕ} {toBlock : BlockId} :
    ∀ entry ∈ gapTransactions snapshot userAddress fromBlock toBlock,
      (fromBlock ≤ entry.2.blockNumber ∧ entry.2.blockNumber ≤ snapshot.numberOf toBlock) ∧
        ∃ event ∈ snapshot.log.events, event.transactionHash = entry.1 ∧
          event.blockNumber = entry.2.blockNumber := by
  refine forall_insertWithdrawals (P := fun hash number =>
    (fromBlock ≤ number ∧ number ≤ snapshot.numberOf toBlock) ∧ ∃ event ∈ snapshot.log.events,
      event.transactionHash = hash ∧ event.blockNumber = number) (by simp) fun event hevent => ?_
  obtain ⟨hmem, hfrom, hto⟩ := mem_getWithdrawalEvents hevent
  exact ⟨⟨hfrom, hto⟩, event, hmem, rfl, rfl⟩

variable (userAddress st) in
/-- The events of a block are grouped apart from the transactions so far. -/
theorem fetchAggregatedBlockEvents_eq {note : ℕ × HistoryNote} (h : Announced snapshot note)
    (hdated : ∀ entry ∈ st.transactions, note.1 ≠ entry.2.blockNumber ∧
      ∃ event ∈ snapshot.log.events, event.transactionHash = entry.1 ∧
        event.blockNumber = entry.2.blockNumber) (notes : List HistoryNote) :
    fetchAggregatedBlockEvents snapshot userAddress note.1 notes st =
      if costBlockEventsQuery ≤ st.scan.budget then
        .ok ⟨{ st.scan with budget := st.scan.budget - costBlockEventsQuery },
          st.transactions ++ blockTransactions snapshot userAddress note.1 notes⟩
      else .error (.insufficientBudget costBlockEventsQuery st.scan.budget) := by
  -- No transaction so far is of this block, so that none has the hash of its events.
  have hevents : ∀ event ∈ eventsOfBlock snapshot note.1,
      event.transactionHash ∉ keys st.transactions := by
    intro event hevent
    obtain ⟨hmem, hat⟩ := mem_eventsOfBlock h hevent
    exact notMem_keys (fun entry hentry => hat ▸ hdated entry hentry) hmem
  have hnotes : insertNotes (noteIdToTxHash (eventsOfBlock snapshot note.1)) note.1 notes
      (st.transactions ++ []) = st.transactions ++
        insertNotes (noteIdToTxHash (eventsOfBlock snapshot note.1)) note.1 notes [] := by
    refine insertNotes_append _ fun created _ hash hhash => ?_
    obtain ⟨event, hevent, -, rfl⟩ := exists_of_get_noteIdToTxHash hhash
    exact hevents event hevent
  rw [List.append_nil] at hnotes
  unfold fetchAggregatedBlockEvents ScanState.tryConsume
  split_ifs
  · have hgrouped : attachEvents userAddress (eventsOfBlock snapshot note.1)
        (st.transactions ++
          insertNotes (noteIdToTxHash (eventsOfBlock snapshot note.1)) note.1 notes []) =
        st.transactions ++ blockTransactions snapshot userAddress note.1 notes :=
      attachEvents_append st.transactions hevents
    rw [← hnotes] at hgrouped
    exact congrArg (fun transactions => Except.ok (⟨_, transactions⟩ : HistoryState)) hgrouped
  · rfl

variable (userAddress st) in
/-- The withdrawals of a gap are grouped apart from the transactions so far. -/
theorem fetchAggregatedWithdrawalEvents_eq {fromBlock : ℕ} (cursor : HistoryCursor)
    (hdated : ∀ entry ∈ st.transactions, ¬ (fromBlock ≤ entry.2.blockNumber ∧
        entry.2.blockNumber ≤ cursor.upperBound snapshot) ∧
      ∃ event ∈ snapshot.log.events, event.transactionHash = entry.1 ∧
        event.blockNumber = entry.2.blockNumber) :
    fetchAggregatedWithdrawalEvents snapshot userAddress fromBlock cursor.beginBlockNumber st =
      if gapCost fromBlock (cursor.upperBound snapshot) ≤ st.scan.budget then
        .ok ⟨{ st.scan with
            budget := st.scan.budget - gapCost fromBlock (cursor.upperBound snapshot) },
          st.transactions ++
            gapTransactions snapshot userAddress fromBlock (cursor.upperBlock snapshot)⟩
      else .error (.insufficientBudget (gapCost fromBlock (cursor.upperBound snapshot))
        st.scan.budget) := by
  -- A transaction that is there lies outside the range, so no event of the range is of it.
  have hevents : ∀ event ∈ snapshot.getWithdrawalEvents userAddress fromBlock
      (cursor.upperBlock snapshot), event.transactionHash ∉ keys st.transactions := by
    intro event hevent
    obtain ⟨hmem, hfrom, hto⟩ := mem_getWithdrawalEvents hevent
    rw [numberOf_upperBlock] at hto
    refine notMem_keys (fun entry hentry => ?_) hmem
    obtain ⟨hout, hlogged⟩ := hdated entry hentry
    exact ⟨fun hsame => hout ⟨hsame ▸ hfrom, hsame ▸ hto⟩, hlogged⟩
  have hgrouped : insertWithdrawals (snapshot.getWithdrawalEvents userAddress fromBlock
      (cursor.upperBlock snapshot)) (st.transactions ++ []) = st.transactions ++
        gapTransactions snapshot userAddress fromBlock (cursor.upperBlock snapshot) :=
    insertWithdrawals_append st.transactions hevents
  rw [List.append_nil] at hgrouped
  have hnumber : snapshot.numberOf (cursor.beginBlockNumber.elim snapshot.blockId .number) =
    cursor.upperBound snapshot := numberOf_upperBlock cursor
  unfold fetchAggregatedWithdrawalEvents gapCost ScanState.tryConsume
  dsimp only
  rw [hnumber]
  by_cases hempty : cursor.upperBound snapshot < fromBlock
  · -- An empty range has no events.
    have hnone : snapshot.getWithdrawalEvents userAddress fromBlock
        (cursor.upperBlock snapshot) = [] := by
      refine List.eq_nil_iff_forall_not_mem.mpr fun event hevent => ?_
      obtain ⟨-, hfrom, hto⟩ := mem_getWithdrawalEvents hevent
      rw [numberOf_upperBlock] at hto
      omega
    have hgap : gapTransactions snapshot userAddress fromBlock (cursor.upperBlock snapshot) = [] :=
      congrArg (insertWithdrawals · []) hnone
    rw [if_pos hempty, if_pos hempty, if_pos (Nat.zero_le _), hgap, List.append_nil, Nat.sub_zero]
  · rw [if_neg hempty, if_neg hempty]
    split_ifs
    · exact congrArg (fun transactions => Except.ok (⟨_, transactions⟩ : HistoryState)) hgrouped
    · rfl

/-! ### Iterations -/

/-- What an iteration can do: the notes that were due are returned, lost, or still due. -/
inductive ProcessNextBlock (sn : Starknet) (snapshot : Snapshot) (userAddress : Felt)
    (st : HistoryState) : Except DiscoveryError (Option ℕ) → HistoryState → Prop
  | exhausted {st' : HistoryState} :
      st.scan.cursor.due sn snapshot = 0 → st'.scan.cursor.due sn snapshot = 0 →
      st'.transactions = st.transactions →
      ProcessNextBlock sn snapshot userAddress st (.ok none) st'
  | block {drained : List (ℕ × HistoryNote)} {block : ℕ} {st' : HistoryState} :
      st.scan.cursor.due sn snapshot =
        drained + st'.scan.cursor.pendingNotes sn snapshot.toBackend →
      drained ≠ [] → (∀ note ∈ drained, note.1 = block) →
      block ≤ st.scan.cursor.upperBound snapshot →
      (∀ note ∈ st'.scan.cursor.pendingNotes sn snapshot.toBackend, note.1 < block) →
      st'.scan.Filled sn snapshot.toBackend →
      st'.transactions = st.transactions ++
        blockTransactions snapshot userAddress block (drained.map Prod.snd) ++
        gapTransactions snapshot userAddress (block + 1) (st.scan.cursor.upperBlock snapshot) →
      ProcessNextBlock sn snapshot userAddress st (.ok (some block)) st'
  | short {lost : Multiset (ℕ × HistoryNote)} {added : Transactions} {needed available : ℕ}
      {st' : HistoryState} :
      st.scan.cursor.due sn snapshot = lost + st'.scan.cursor.due sn snapshot →
      st'.transactions = st.transactions ++ added →
      (∀ entry ∈ added, entry.2.blockNumber ≤ st.scan.cursor.upperBound snapshot) →
      ProcessNextBlock sn snapshot userAddress st
        (.error (.insufficientBudget needed available)) st'

theorem Kept.upperBound {cursor cursor' : HistoryCursor}
    (h : Kept sn snapshot.toBackend cursor cursor') :
    cursor'.upperBound snapshot = cursor.upperBound snapshot :=
  congrArg (Option.getD · _) h.beginBlockNumber

theorem Kept.upperBlock {cursor cursor' : HistoryCursor}
    (h : Kept sn snapshot.toBackend cursor cursor') :
    cursor'.upperBlock snapshot = cursor.upperBlock snapshot :=
  congrArg (Option.elim · _ _) h.beginBlockNumber

/-- Notes that are left below a block up to the upper bound are due. -/
theorem due_eq_pendingNotes {cursor : HistoryCursor}
    (h : ∀ note ∈ cursor.pendingNotes sn snapshot.toBackend, note.1 ≤ cursor.upperBound snapshot) :
    cursor.due sn snapshot = cursor.pendingNotes sn snapshot.toBackend :=
  Multiset.filter_eq_self.mpr h

/-- The notes that are due before a block are those of the block and those that are left. -/
theorem due_eq_add {cursor : HistoryCursor} {skipped rest : Multiset (ℕ × HistoryNote)}
    {drained : List (ℕ × HistoryNote)} {block : ℕ}
    (hpending : cursor.pendingNotes sn snapshot.toBackend = skipped + drained + rest)
    (hskipped : ∀ note ∈ skipped, cursor.upperBound snapshot < note.1)
    (hdrained : ∀ note ∈ drained, note.1 = block) (hle : block ≤ cursor.upperBound snapshot)
    (hbelow : ∀ note ∈ rest, note.1 < block) : cursor.due sn snapshot = drained + rest := by
  have hnone : (skipped.filter fun note => note.1 ≤ cursor.upperBound snapshot) = 0 :=
    Multiset.filter_eq_nil.mpr fun note hnote => not_le.mpr (hskipped note hnote)
  have hall : ((drained : Multiset (ℕ × HistoryNote)).filter fun note =>
      note.1 ≤ cursor.upperBound snapshot) = drained :=
    Multiset.filter_eq_self.mpr fun note hnote =>
      (hdrained note (Multiset.mem_coe.mp hnote)).trans_le hle
  have hrest : (rest.filter fun note => note.1 ≤ cursor.upperBound snapshot) = rest :=
    Multiset.filter_eq_self.mpr fun note hnote => (hbelow note hnote).le.trans hle
  unfold HistoryCursor.due
  rw [hpending, Multiset.filter_add, Multiset.filter_add, hnone, hall, hrest, zero_add]

variable (userAddress) in
theorem processNextBlock_of_none
    (hcall : nextBlockBelow sn snapshot (st.scan.cursor.upperBound snapshot)
      (st.scan.cursor.remaining + 1) st.scan = (.ok none, scan')) :
    processNextBlock sn snapshot userAddress st = (.ok none, { st with scan := scan' }) := by
  unfold processNextBlock
  dsimp only
  rw [show st.scan.cursor.beginBlockNumber.getD snapshot.blockNumber =
    st.scan.cursor.upperBound snapshot from rfl, hcall]

variable (userAddress) in
theorem processNextBlock_of_error {e : DiscoveryError}
    (hcall : nextBlockBelow sn snapshot (st.scan.cursor.upperBound snapshot)
      (st.scan.cursor.remaining + 1) st.scan = (.error e, scan')) :
    processNextBlock sn snapshot userAddress st = (.error e, { st with scan := scan' }) := by
  unfold processNextBlock
  dsimp only
  rw [show st.scan.cursor.beginBlockNumber.getD snapshot.blockNumber =
    st.scan.cursor.upperBound snapshot from rfl, hcall]

/-- An iteration whose block is known: its two fetches are paid, or it fails. -/
theorem processNextBlock_of_block (h : st.Grouped sn snapshot) {note : ℕ × HistoryNote}
    (hnote : Announced snapshot note) (hle : note.1 ≤ st.scan.cursor.upperBound snapshot)
    (hkept : Kept sn snapshot.toBackend st.scan.cursor scan'.cursor) {notes : List HistoryNote}
    (hcall : nextBlockBelow sn snapshot (st.scan.cursor.upperBound snapshot)
      (st.scan.cursor.remaining + 1) st.scan = (.ok (some (note.1, notes)), scan')) :
    processNextBlock sn snapshot userAddress st =
      if costBlockEventsQuery ≤ scan'.budget then
        if gapCost (note.1 + 1) (st.scan.cursor.upperBound snapshot) ≤
            scan'.budget - costBlockEventsQuery then
          (.ok (some note.1),
            ⟨{ scan' with
                budget := scan'.budget - costBlockEventsQuery -
                  gapCost (note.1 + 1) (st.scan.cursor.upperBound snapshot) },
              st.transactions ++ blockTransactions snapshot userAddress note.1 notes ++
                gapTransactions snapshot userAddress (note.1 + 1)
                  (st.scan.cursor.upperBlock snapshot)⟩)
        else
          (.error (.insufficientBudget
              (gapCost (note.1 + 1) (st.scan.cursor.upperBound snapshot))
              (scan'.budget - costBlockEventsQuery)),
            ⟨{ scan' with budget := scan'.budget - costBlockEventsQuery },
              st.transactions ++ blockTransactions snapshot userAddress note.1 notes⟩)
      else
        (.error (.insufficientBudget costBlockEventsQuery scan'.budget),
          ⟨scan', st.transactions⟩) := by
  have hdated : ∀ entry ∈ st.transactions, note.1 ≠ entry.2.blockNumber ∧
      ∃ event ∈ snapshot.log.events, event.transactionHash = entry.1 ∧
        event.blockNumber = entry.2.blockNumber := fun entry hentry =>
    ⟨(hle.trans_lt (h.dated entry hentry).1).ne, (h.dated entry hentry).2⟩
  -- The gap starts above the block, and the transactions so far are of blocks beyond the bound.
  have hout : ∀ entry ∈ st.transactions ++ blockTransactions snapshot userAddress note.1 notes,
      ¬ (note.1 + 1 ≤ entry.2.blockNumber ∧
        entry.2.blockNumber ≤ scan'.cursor.upperBound snapshot) ∧
      ∃ event ∈ snapshot.log.events, event.transactionHash = entry.1 ∧
        event.blockNumber = entry.2.blockNumber := by
    intro entry hentry
    rw [hkept.upperBound]
    rcases List.mem_append.mp hentry with hold | hnew
    · obtain ⟨habove, hlogged⟩ := h.dated entry hold
      exact ⟨fun hin => absurd hin.2 (not_le.mpr habove), hlogged⟩
    · obtain ⟨hat, hlogged⟩ := dated_blockTransactions hnote entry hnew
      exact ⟨fun hin => absurd hin.1 (by omega), hlogged⟩
  have hevents := fetchAggregatedBlockEvents_eq userAddress ⟨scan', st.transactions⟩ hnote hdated
    notes
  have hgap := fetchAggregatedWithdrawalEvents_eq userAddress
    ⟨{ scan' with budget := scan'.budget - costBlockEventsQuery },
      st.transactions ++ blockTransactions snapshot userAddress note.1 notes⟩ scan'.cursor hout
  rw [hkept.upperBound, hkept.upperBlock] at hgap
  unfold processNextBlock
  dsimp only
  rw [show st.scan.cursor.beginBlockNumber.getD snapshot.blockNumber =
    st.scan.cursor.upperBound snapshot from rfl, hcall]
  dsimp only
  rw [hevents]
  split_ifs with hpaid hgapPaid
  · dsimp only
    rw [hgap, if_pos hgapPaid]
  · dsimp only
    rw [hgap, if_neg hgapPaid]
  · rfl

variable (userAddress) in
theorem processNextBlock_spec (h : st.Grouped sn snapshot) :
    ProcessNextBlock sn snapshot userAddress st (processNextBlock sn snapshot userAddress st).1
        (processNextBlock sn snapshot userAddress st).2 ∧
      Kept sn snapshot.toBackend st.scan.cursor
        (processNextBlock sn snapshot userAddress st).2.scan.cursor := by
  have hspec := nextBlockBelow_spec (st.scan.cursor.upperBound snapshot)
    (st.scan.cursor.remaining + 1) st.scan h.scanning (Nat.lt_succ_self _)
  have hkept := nextBlockBelow_kept sn snapshot (st.scan.cursor.upperBound snapshot)
    (st.scan.cursor.remaining + 1) st.scan
  cases hcall : nextBlockBelow sn snapshot (st.scan.cursor.upperBound snapshot)
      (st.scan.cursor.remaining + 1) st.scan with
  | mk result scan' =>
    rw [hcall] at hspec hkept
    dsimp only at hspec hkept
    cases hspec with
    | exhausted habove hzero =>
      rw [processNextBlock_of_none userAddress hcall]
      refine ⟨.exhausted ?_ ?_ rfl, hkept⟩
      · exact Multiset.filter_eq_nil.mpr fun note hnote => not_le.mpr (habove note hnote)
      · exact (congrArg (Multiset.filter _) hzero).trans (Multiset.filter_zero _)
    | @short drained needed available _ hpending =>
      rw [processNextBlock_of_error userAddress hcall]
      have hlost : st.scan.cursor.due sn snapshot =
          (drained.filter fun note => note.1 ≤ st.scan.cursor.upperBound snapshot) +
            scan'.cursor.due sn snapshot := by
        unfold HistoryCursor.due
        rw [hkept.upperBound, hpending, Multiset.filter_add]
      exact ⟨.short hlost (List.append_nil _).symm (by simp), hkept⟩
    | @block skipped drained block _ hpending hskipped hne hdrained hle hbelow hfilled =>
      obtain ⟨note, hnote⟩ := List.exists_mem_of_ne_nil _ hne
      obtain rfl := hdrained note hnote
      have hdue := due_eq_add hpending hskipped hdrained hle hbelow
      have hannounced : Announced snapshot note := by
        refine h.announced note ?_
        rw [hdue]
        exact Multiset.mem_add.mpr (.inl (Multiset.mem_coe.mpr hnote))
      have hlost : st.scan.cursor.due sn snapshot = drained + scan'.cursor.due sn snapshot := by
        rw [hdue, due_eq_pendingNotes]
        intro note' hnote'
        rw [hkept.upperBound]
        exact (hbelow note' hnote').le.trans hle
      rw [processNextBlock_of_block h hannounced hle hkept hcall]
      -- The events of the block are paid, and those of the gap, or the iteration is short.
      split_ifs
      · exact ⟨.block hdue hne hdrained hle hbelow ⟨⟨hfilled.heads, hfilled.ordered⟩,
          hfilled.complete⟩ rfl, hkept⟩
      · refine ⟨.short hlost rfl fun entry hentry => ?_, hkept⟩
        exact (dated_blockTransactions hannounced entry hentry).1.trans_le hle
      · exact ⟨.short hlost (List.append_nil _).symm (by simp), hkept⟩

/-! ### Payment -/

/-- The state that a page goes on with after a block. -/
structure HistoryState.Filled (sn : Starknet) (snapshot : Snapshot) (st : HistoryState) : Prop
    extends st.Grouped sn snapshot where
  filled : st.scan.Filled sn snapshot.toBackend
  below : ∀ note ∈ st.scan.cursor.pendingNotes sn snapshot.toBackend,
    note.1 ≤ st.scan.cursor.upperBound snapshot

/-- A filled buffer that is empty ends the scan. -/
theorem nextBlock_of_none (h : scan.Filled sn snapshot.toBackend)
    (hhighest : highestBlock scan = none) :
    nextBlock sn snapshot.toBackend scan = (.ok none, scan) := by
  unfold nextBlock
  rw [nextBlockLoop, fillBuffers_filled h]
  dsimp only
  rw [Option.none_or, hhighest]

variable (userAddress) in
/-- After a block, an iteration drains what the scanner drains, and returns when it is paid. -/
theorem processNextBlock_filled (h : st.Filled sn snapshot) {block : ℕ}
    (hhighest : highestBlock st.scan = some block) :
    (processNextBlock sn snapshot userAddress st).2.scan.cursor =
        (nextBlock sn snapshot.toBackend st.scan).2.cursor ∧
      ((∃ result, (processNextBlock sn snapshot userAddress st).1 = .ok result) ↔
        st.PaysNext sn snapshot) := by
  obtain ⟨⟨entry, hentry, hat⟩, -⟩ := highestBlock_eq_some hhighest
  have hmem : entry.2 ∈ st.scan.cursor.pendingNotes sn snapshot.toBackend :=
    h.filled.heads.snd_mem_items hentry
  have hannounced : Announced snapshot entry.2 :=
    h.announced entry.2 (mem_due.mpr ⟨hmem, h.below entry.2 hmem⟩)
  have hle := h.below entry.2 hmem
  have hpays : st.PaysNext sn snapshot ↔
      costNote * st.scan.cursor.readsOf sn snapshot.toBackend block + costBlockEventsQuery +
          gapCost (block + 1) (st.scan.cursor.upperBound snapshot) ≤
        st.scan.budget + costNote * st.scan.bufferedNotes.length := by
    refine ⟨fun hpays => hpays block hhighest, fun hpaid number hnumber => ?_⟩
    rwa [← Option.some.inj (hhighest.symm.trans hnumber)]
  have hspec := nextBlock_spec h.scanning
  have hkept : Kept sn snapshot.toBackend st.scan.cursor
      (nextBlock sn snapshot.toBackend st.scan).2.cursor := nextBlockLoop_kept _ _ _ _
  cases hcall : nextBlock sn snapshot.toBackend st.scan with
  | mk result scan' =>
    rw [hcall] at hspec hkept
    cases hspec with
    | exhausted hpending hcursor =>
      rw [hpending] at hmem
      exact absurd hmem (Multiset.notMem_zero _)
    | @short drained needed available _ hpending _ =>
      have hbelow : nextBlockBelow sn snapshot (st.scan.cursor.upperBound snapshot)
          (st.scan.cursor.remaining + 1) st.scan =
            (.error (.insufficientBudget needed available), scan') := by
        rw [nextBlockBelow, hcall]
      rw [processNextBlock_of_error userAddress hbelow]
      refine ⟨rfl, iff_of_false (fun hreturns => ?_) fun hpaid => ?_⟩
      · obtain ⟨result, hresult⟩ := hreturns
        cases hresult
      · obtain ⟨notes, scan₁, hreturns⟩ := nextBlock_returns h.filled hhighest
          (le_trans (by omega) (hpays.mp hpaid))
        cases hcall.symm.trans hreturns
    | @block drained number _ hpending hne hdrained hrest _ _ =>
      -- The block that is drained is the highest one.
      have hnumber : number = block := by
        obtain ⟨note, hnote⟩ := List.exists_mem_of_ne_nil _ hne
        have hupto := le_highestBlock h.filled hhighest note
          (hpending ▸ Multiset.mem_add.mpr (.inl (Multiset.mem_coe.mpr hnote)))
        rw [hdrained note hnote] at hupto
        rw [hpending, Multiset.mem_add] at hmem
        rcases hmem with hmem | hmem
        · rw [← hdrained entry.2 (Multiset.mem_coe.mp hmem), hat]
        · exact absurd (hrest entry.2 hmem) (hat ▸ hupto.not_gt)
      obtain rfl : number = entry.2.1 := hnumber.trans hat.symm
      have hcost := nextBlock_cost h.filled (hat ▸ hhighest) hcall
      have hbelow : nextBlockBelow sn snapshot (st.scan.cursor.upperBound snapshot)
          (st.scan.cursor.remaining + 1) st.scan =
            (.ok (some (entry.2.1, drained.map Prod.snd)), scan') := by
        rw [nextBlockBelow, hcall]
        exact if_pos hle
      rw [processNextBlock_of_block h.toGrouped hannounced hle hkept hbelow, hpays, ← hat]
      dsimp only
      -- It returns exactly when the budget covers both queries as well.
      split_ifs with hevents hgap
      · exact ⟨rfl, iff_of_true ⟨_, rfl⟩ (by omega)⟩
      · refine ⟨rfl, iff_of_false (fun hreturns => ?_) (by omega)⟩
        obtain ⟨result, hresult⟩ := hreturns
        cases hresult
      · refine ⟨rfl, iff_of_false (fun hreturns => ?_) (by omega)⟩
        obtain ⟨result, hresult⟩ := hreturns
        cases hresult

variable (userAddress) in
/-- After a block, an iteration returns just when the budget pays for the next block. -/
theorem processNextBlock_returns_iff (h : st.Filled sn snapshot) :
    (∃ result, (processNextBlock sn snapshot userAddress st).1 = .ok result) ↔
      st.PaysNext sn snapshot := by
  cases hhighest : highestBlock st.scan with
  | some block => exact (processNextBlock_filled userAddress h hhighest).2
  | none =>
    refine iff_of_true ⟨none, ?_⟩ fun block hblock => ?_
    · rw [processNextBlock_of_none userAddress]
      rw [nextBlockBelow, nextBlock_of_none h.filled hhighest]
    · cases hhighest.symm.trans hblock

/-- After a block, an iteration that fails has drained notes. -/
theorem processNextBlock_loses (h : st.Filled sn snapshot) {e : DiscoveryError}
    (hfail : (processNextBlock sn snapshot userAddress st).1 = .error e) :
    ((processNextBlock sn snapshot userAddress st).2.scan.cursor.due sn snapshot).card <
      (st.scan.cursor.due sn snapshot).card := by
  cases hhighest : highestBlock st.scan with
  | none =>
    have hreturns := (processNextBlock_returns_iff userAddress h).mpr fun block hblock => by
      cases hhighest.symm.trans hblock
    obtain ⟨result, hresult⟩ := hreturns
    cases hfail.symm.trans hresult
  | some block =>
    rw [due_eq_pendingNotes h.below, HistoryCursor.card_pendingNotes,
      (processNextBlock_filled userAddress h hhighest).1]
    refine (Multiset.card_le_card (Multiset.filter_le _ _)).trans_lt ?_
    rw [HistoryCursor.card_pendingNotes]
    exact nextBlock_drains h.filled hhighest

end PrivacyPool.History
