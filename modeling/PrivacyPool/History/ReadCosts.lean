import PrivacyPool.History.BlockMerge

/-!
# What a block costs to read

A call of `nextBlock` reads every note of the block that is not buffered yet, and then the
next note of each subchannel that has one below the block. A budget that pays for these
reads is enough, and a call that returns has made just these.

## Main definitions

* `HistoryCursor.readsOf` — the notes of a block, and the subchannels with a note below it
* `ScanState.Filled` — the buffer holds all heads, as it does after a call

## Main results

* `nextBlockLoop_returns` — a budget that pays for the reads of a block is enough
* `nextBlock_cost` — a call that returns has paid for what it read
* `nextBlock_drains` — from a filled buffer a call drains a note, even when it fails
-/

namespace PrivacyPool.History

open Discovery HashMap Streams

variable {sn : Starknet} {backend : Backend} {st st' : ScanState}

namespace HistoryCursor

variable (sn backend) in
/-- The notes of a block, and the subchannels with a note below it. -/
def readsOf (cursor : HistoryCursor) (block : ℕ) : ℕ :=
  ((cursor.pendingNotes sn backend).filter fun note => note.1 = block).card +
    numBelow Prod.fst (HistorySubchannel.pendingNotes sn backend) cursor.subchannels block

end HistoryCursor

namespace ScanState

variable (sn backend) in
/-- The buffer holds the heads of all subchannels that are not exhausted. -/
structure Filled (st : ScanState) : Prop extends st.Scanning sn backend where
  complete : Complete (HistorySubchannel.pendingNotes sn backend) st.cursor.subchannels
    st.bufferedNotes

end ScanState

/-! ### Fills and drains -/

theorem fillBuffers_cursor (h : fillBuffers sn backend st = .ok st') : st'.cursor = st.cursor := by
  unfold fillBuffers at h
  dsimp only at h
  split_ifs at h
  rw [← Except.ok.inj h]

theorem drain_beginBlockNumber (block : ℕ) (st : ScanState) :
    (drain block st).2.cursor.beginBlockNumber = st.cursor.beginBlockNumber := rfl

theorem drain_budget (block : ℕ) (st : ScanState) : (drain block st).2.budget = st.budget := rfl

/-- A filled buffer has nothing to read. -/
theorem fillBuffers_filled (h : st.Filled sn backend) : fillBuffers sn backend st = .ok st := by
  have hnone : activeSubchannels sn st = [] := by
    refine List.eq_nil_iff_forall_not_mem.mpr fun next hnext => ?_
    obtain ⟨hfree, hposition, hindex, -⟩ := mem_activeSubchannels.mp hnext
    refine hfree (h.complete _ _ hposition fun hzero => ?_)
    rw [HistorySubchannel.pendingNotes_eq_cons hindex] at hzero
    exact Multiset.cons_ne_zero hzero
  rw [fillBuffers_eq, hnone, if_neg (fun hshort => hshort.1 rfl), List.length_nil, Nat.zero_mul,
    Nat.sub_zero, List.map_nil, List.append_nil]

/-- A budget that pays for the reads of the highest block fills the buffer. -/
theorem fillBuffers_of_reads (h : st.Scanning sn backend) {block : ℕ}
    (hblock : ∀ note ∈ st.cursor.pendingNotes sn backend, note.1 ≤ block)
    (hbudget : costNote * st.cursor.readsOf sn backend block ≤
      st.budget + costNote * st.bufferedNotes.length) :
    ∃ st', fillBuffers sn backend st = .ok st' ∧ Filled sn backend st st' := by
  rcases fillBuffers_spec h with hfilled | ⟨needed, hshort, -⟩
  · exact hfilled
  · have hle := (fillBuffers_heads h).length_le_add hblock
    rw [List.length_append, List.length_map] at hle
    rw [fillBuffers_eq] at hshort
    split_ifs at hshort with hcost
    have hreads : st.bufferedNotes.length + (activeSubchannels sn st).length ≤
        st.cursor.readsOf sn backend block := hle
    unfold costNote at *
    omega

theorem drain_bufferedNotes (h : st.Scanning sn backend) (block : ℕ) :
    (drain block st).2.bufferedNotes.length + st.cursor.remaining =
      st.bufferedNotes.length + (drain block st).2.cursor.remaining := by
  obtain ⟨drained, -, -, hlength, hpending, -⟩ := drain_spec h block
  have hcard := congrArg Multiset.card hpending
  rw [Multiset.card_add, HistoryCursor.card_pendingNotes, HistoryCursor.card_pendingNotes,
    Multiset.coe_card] at hcard
  omega

theorem drain_numBelow (h : st.Scanning sn backend) (block : ℕ) :
    numBelow Prod.fst (HistorySubchannel.pendingNotes sn backend)
        (drain block st).2.cursor.subchannels block =
      numBelow Prod.fst (HistorySubchannel.pendingNotes sn backend) st.cursor.subchannels block := by
  rw [drain_cursor]
  exact numBelow_popAll (h.heads.sublist List.filter_sublist) fun entry hentry =>
    (mem_drain.mp hentry).2

/-- A drain lowers the reads of its block by the notes that it returns. -/
theorem drain_readsOf (h : st.Scanning sn backend) (block : ℕ) :
    (drain block st).2.cursor.readsOf sn backend block + st.cursor.remaining =
      st.cursor.readsOf sn backend block + (drain block st).2.cursor.remaining := by
  obtain ⟨drained, -, hdrained, -, hpending, -⟩ := drain_spec h block
  have hcard := congrArg Multiset.card hpending
  have hat := congrArg (fun notes => (notes.filter fun note : ℕ × HistoryNote =>
    note.1 = block).card) hpending
  have hself : ((drained : Multiset (ℕ × HistoryNote)).filter fun note => note.1 = block) =
      drained := Multiset.filter_eq_self.mpr hdrained
  rw [Multiset.filter_add, hself, Multiset.card_add] at hat
  rw [Multiset.card_add, HistoryCursor.card_pendingNotes, HistoryCursor.card_pendingNotes] at hcard
  unfold HistoryCursor.readsOf
  rw [drain_numBelow h]
  omega

/-- A drain of a block that is buffered returns a note. -/
theorem remaining_drain_lt (h : st.Scanning sn backend) {block : ℕ}
    (hany : (st.bufferedNotes.any fun entry => entry.2.1 == block) = true) :
    (drain block st).2.cursor.remaining < st.cursor.remaining := by
  obtain ⟨entry, hentry, hat⟩ := List.any_eq_true.mp hany
  obtain ⟨drained, hnotes, -, -, hpending, -⟩ := drain_spec h block
  have hcard := congrArg Multiset.card hpending
  rw [Multiset.card_add, HistoryCursor.card_pendingNotes, HistoryCursor.card_pendingNotes,
    Multiset.coe_card] at hcard
  have hdrained : entry.2.2 ∈ (drain block st).1 :=
    List.mem_map_of_mem (mem_drain.mpr ⟨hentry, beq_iff_eq.mp hat⟩)
  have hpos : 0 < drained.length := by
    rw [hnotes] at hdrained
    exact List.length_pos_iff.mpr fun hnil => by rw [hnil] at hdrained; cases hdrained
  omega

/-! ### Calls -/

/-- What a call has done when it returns. -/
structure Read (sn : Starknet) (backend : Backend) (st st' : ScanState) : Prop where
  filled : st'.Filled sn backend
  beginBlockNumber : st'.cursor.beginBlockNumber = st.cursor.beginBlockNumber
  cost : st'.budget + costNote * (st'.bufferedNotes.length + st.cursor.remaining) =
    st.budget + costNote * (st.bufferedNotes.length + st'.cursor.remaining)

theorem Filled.filled (h : Filled sn backend st st') : st'.Filled sn backend :=
  ⟨h.scanning, h.complete⟩

theorem Filled.read (h : Filled sn backend st st') : Read sn backend st st' := by
  refine ⟨h.filled, by rw [h.cursor], ?_⟩
  have hcost := h.cost
  rw [h.cursor]
  unfold costNote at *
  omega

/-- What is read after a fill and a drain is read after the call began. -/
theorem Read.of_drain {st₁ : ScanState} {block : ℕ} (hfilled : Filled sn backend st st₁)
    (h : Read sn backend (drain block st₁).2 st') : Read sn backend st st' := by
  have hdrain := drain_bufferedNotes hfilled.scanning block
  have hcost := hfilled.cost
  have hrest := h.cost
  rw [drain_budget] at hrest
  rw [hfilled.cursor] at hdrain
  refine ⟨h.filled, ?_, ?_⟩
  · rw [h.beginBlockNumber, drain_beginBlockNumber, hfilled.cursor]
  · unfold costNote at *
    omega

/-- What a call keeps of the cursor, even when it fails. -/
structure Kept (sn : Starknet) (backend : Backend) (cursor cursor' : HistoryCursor) : Prop where
  beginBlockNumber : cursor'.beginBlockNumber = cursor.beginBlockNumber
  ordered : (∀ subchannel ∈ cursor.subchannels, subchannel.BlocksOrdered sn backend) →
    ∀ subchannel ∈ cursor'.subchannels, subchannel.BlocksOrdered sn backend

theorem Kept.refl (cursor : HistoryCursor) : Kept sn backend cursor cursor := ⟨rfl, id⟩

theorem Kept.trans {cursor cursor' cursor'' : HistoryCursor} (h : Kept sn backend cursor cursor')
    (h' : Kept sn backend cursor' cursor'') : Kept sn backend cursor cursor'' :=
  ⟨h'.beginBlockNumber.trans h.beginBlockNumber, h'.ordered ∘ h.ordered⟩

theorem drain_kept (block : ℕ) (st : ScanState) :
    Kept sn backend st.cursor (drain block st).2.cursor := by
  refine ⟨drain_beginBlockNumber block st, fun hordered => ?_⟩
  rw [drain_cursor]
  exact mem_popAll (fun _ => HistorySubchannel.BlocksOrdered.decrement) hordered

theorem nextBlockLoop_kept (fuel : ℕ) (blockNumber : Option ℕ) (notes : List HistoryNote)
    (st : ScanState) :
    Kept sn backend st.cursor (nextBlockLoop sn backend fuel blockNumber notes st).2.cursor := by
  induction fuel generalizing blockNumber notes st with
  | zero => exact .refl _
  | succ fuel ih =>
    unfold nextBlockLoop
    cases hfill : fillBuffers sn backend st with
    | error e => exact .refl _
    | ok st₁ =>
      rw [← fillBuffers_cursor hfill]
      dsimp only
      split
      · exact .refl _
      · split_ifs
        · exact (drain_kept _ _).trans (ih _ _ _)
        · exact .refl _

/-- A budget that pays for the reads of the highest block is enough. -/
theorem nextBlockLoop_returns {block : ℕ} (fuel : ℕ) (notes : List HistoryNote) (st : ScanState)
    (h : st.Scanning sn backend) (hfuel : st.cursor.remaining < fuel)
    (hblock : ∀ note ∈ st.cursor.pendingNotes sn backend, note.1 ≤ block)
    (hbudget : costNote * st.cursor.readsOf sn backend block ≤
      st.budget + costNote * st.bufferedNotes.length) :
    ∃ notes' st', nextBlockLoop sn backend fuel (some block) notes st =
      (.ok (some (block, notes')), st') := by
  induction fuel generalizing notes st with
  | zero => exact absurd hfuel (Nat.not_lt_zero _)
  | succ fuel ih =>
    obtain ⟨st₁, hfill, hfilled⟩ := fillBuffers_of_reads h hblock hbudget
    have hcost := hfilled.cost
    unfold nextBlockLoop
    rw [hfill]
    simp only [Option.some_or]
    split_ifs with hany
    -- Each round drains a note, so that the fuel lasts; its reads are paid from what is left.
    · obtain ⟨drained, -, -, -, hpending, hscanning⟩ := drain_spec hfilled.scanning block
      have hlt := remaining_drain_lt hfilled.scanning hany
      have hreads := drain_readsOf hfilled.scanning block
      have hlength := drain_bufferedNotes hfilled.scanning block
      rw [hfilled.cursor] at hpending hlt hreads hlength
      refine ih _ _ hscanning (by omega) (fun note hnote => hblock note ?_) ?_
      · rw [hpending]
        exact Multiset.mem_add.mpr (.inr hnote)
      · rw [drain_budget]
        unfold costNote at *
        omega
    · exact ⟨notes, st₁, rfl⟩

/-- A loop that returns has read what it has paid for. -/
theorem nextBlockLoop_read {block : ℕ} (fuel : ℕ) (notes : List HistoryNote) (st : ScanState)
    (h : st.Scanning sn backend) (hfuel : st.cursor.remaining < fuel)
    {result : Option (ℕ × List HistoryNote)} {st' : ScanState}
    (hloop : nextBlockLoop sn backend fuel (some block) notes st = (.ok result, st')) :
    Read sn backend st st' ∧
      numBelow Prod.fst (HistorySubchannel.pendingNotes sn backend) st'.cursor.subchannels block =
        numBelow Prod.fst (HistorySubchannel.pendingNotes sn backend) st.cursor.subchannels
          block := by
  induction fuel generalizing notes st with
  | zero => exact absurd hfuel (Nat.not_lt_zero _)
  | succ fuel ih =>
    unfold nextBlockLoop at hloop
    rcases fillBuffers_spec h with ⟨st₁, hfill, hfilled⟩ | ⟨needed, hfill, -⟩
    · rw [hfill] at hloop
      simp only [Option.some_or] at hloop
      split_ifs at hloop with hany
      · obtain ⟨-, -, -, -, -, hscanning⟩ := drain_spec hfilled.scanning block
        have hlt := remaining_drain_lt hfilled.scanning hany
        rw [hfilled.cursor] at hlt
        obtain ⟨hread, hbelow⟩ := ih _ _ hscanning (by omega) hloop
        refine ⟨.of_drain hfilled hread, ?_⟩
        rw [hbelow, drain_numBelow hfilled.scanning, hfilled.cursor]
      · obtain ⟨-, rfl⟩ := Prod.ext_iff.mp hloop
        exact ⟨hfilled.read, by rw [hfilled.cursor]⟩
    · rw [hfill] at hloop
      cases hloop

/-- A loop drains notes or leaves them. -/
theorem nextBlockLoop_remaining {block : ℕ} (fuel : ℕ) (notes : List HistoryNote) (st : ScanState)
    (h : st.Scanning sn backend) :
    (nextBlockLoop sn backend fuel (some block) notes st).2.cursor.remaining ≤
      st.cursor.remaining := by
  induction fuel generalizing notes st with
  | zero => exact le_rfl
  | succ fuel ih =>
    unfold nextBlockLoop
    rcases fillBuffers_spec h with ⟨st₁, hfill, hfilled⟩ | ⟨needed, hfill, -⟩
    · rw [hfill, ← hfilled.cursor]
      simp only [Option.some_or]
      split_ifs with hany
      · obtain ⟨-, -, -, -, -, hscanning⟩ := drain_spec hfilled.scanning block
        exact (ih _ _ hscanning).trans (remaining_drain_lt hfilled.scanning hany).le
      · exact le_rfl
    · rw [hfill]

/-- A call that returns has read what it has paid for. -/
theorem nextBlock_read (h : st.Scanning sn backend) {result : Option (ℕ × List HistoryNote)}
    (hcall : nextBlock sn backend st = (.ok result, st')) : Read sn backend st st' := by
  unfold nextBlock nextBlockLoop at hcall
  rcases fillBuffers_spec h with ⟨st₁, hfill, hfilled⟩ | ⟨needed, hfill, -⟩
  · rw [hfill] at hcall
    simp only [Option.none_or] at hcall
    cases hhighest : highestBlock st₁ with
    | none =>
      rw [hhighest] at hcall
      obtain ⟨-, rfl⟩ := Prod.ext_iff.mp hcall
      exact hfilled.read
    | some block =>
      obtain ⟨⟨entry, hentry, hat⟩, -⟩ := highestBlock_eq_some hhighest
      have hany : (st₁.bufferedNotes.any fun entry => entry.2.1 == block) = true :=
        List.any_eq_true.mpr ⟨entry, hentry, beq_iff_eq.mpr hat⟩
      rw [hhighest] at hcall
      dsimp only at hcall
      rw [if_pos hany] at hcall
      obtain ⟨-, -, -, -, -, hscanning⟩ := drain_spec hfilled.scanning block
      have hlt := remaining_drain_lt hfilled.scanning hany
      rw [hfilled.cursor] at hlt
      exact .of_drain hfilled (nextBlockLoop_read _ _ _ hscanning hlt hcall).1
  · rw [hfill] at hcall
    cases hcall

/-- From a filled buffer the loop goes on at once with the highest block. -/
theorem nextBlock_filled (h : st.Filled sn backend) {block : ℕ}
    (hhighest : highestBlock st = some block) :
    nextBlock sn backend st =
      nextBlockLoop sn backend st.cursor.remaining (some block) (drain block st).1
        (drain block st).2 ∧
    (drain block st).2.Scanning sn backend ∧
    (drain block st).2.cursor.remaining < st.cursor.remaining := by
  obtain ⟨⟨entry, hentry, hat⟩, -⟩ := highestBlock_eq_some hhighest
  have hany : (st.bufferedNotes.any fun entry => entry.2.1 == block) = true :=
    List.any_eq_true.mpr ⟨entry, hentry, beq_iff_eq.mpr hat⟩
  obtain ⟨-, -, -, -, -, hscanning⟩ := drain_spec h.toScanning block
  refine ⟨?_, hscanning, remaining_drain_lt h.toScanning hany⟩
  unfold nextBlock
  rw [nextBlockLoop, fillBuffers_filled h]
  dsimp only
  rw [Option.none_or, hhighest]
  dsimp only
  rw [if_pos hany, List.nil_append]

/-- From a filled buffer a call drains a note, even when it fails. -/
theorem nextBlock_drains (h : st.Filled sn backend) {block : ℕ}
    (hhighest : highestBlock st = some block) :
    (nextBlock sn backend st).2.cursor.remaining < st.cursor.remaining := by
  obtain ⟨hcall, hscanning, hlt⟩ := nextBlock_filled h hhighest
  rw [hcall]
  exact (nextBlockLoop_remaining _ _ _ hscanning).trans_lt hlt

/-- The notes of a filled buffer are of blocks up to the highest one. -/
theorem le_highestBlock (h : st.Filled sn backend) {block : ℕ}
    (hhighest : highestBlock st = some block) :
    ∀ note ∈ st.cursor.pendingNotes sn backend, note.1 ≤ block := by
  obtain ⟨-, hle⟩ := highestBlock_eq_some hhighest
  exact h.heads.forall_items h.complete h.toScanning.sorted
    fun entry hentry i hi => hi.trans (hle entry hentry)

/-- From a filled buffer a call returns when its budget pays for the reads of the highest
block, and what it has left is the rest. -/
theorem nextBlock_returns (h : st.Filled sn backend) {block : ℕ}
    (hhighest : highestBlock st = some block)
    (hbudget : costNote * st.cursor.readsOf sn backend block ≤
      st.budget + costNote * st.bufferedNotes.length) :
    ∃ notes st', nextBlock sn backend st = (.ok (some (block, notes)), st') := by
  obtain ⟨hcall, hscanning, hlt⟩ := nextBlock_filled h hhighest
  have hreads := drain_readsOf h.toScanning block
  have hlength := drain_bufferedNotes h.toScanning block
  obtain ⟨drained, -, -, -, hpending, -⟩ := drain_spec h.toScanning block
  rw [hcall]
  refine nextBlockLoop_returns _ _ _ hscanning hlt (fun note hnote => ?_) ?_
  · refine le_highestBlock h hhighest note ?_
    rw [hpending]
    exact Multiset.mem_add.mpr (.inr hnote)
  · rw [drain_budget]
    unfold costNote at *
    omega

/-- A call from a filled buffer pays for the reads of the highest block. -/
theorem nextBlock_cost (h : st.Filled sn backend) {block : ℕ}
    (hhighest : highestBlock st = some block) {result : Option (ℕ × List HistoryNote)}
    (hcall : nextBlock sn backend st = (.ok result, st')) :
    st'.budget + costNote * st.cursor.readsOf sn backend block =
      st.budget + costNote * st.bufferedNotes.length := by
  obtain ⟨hloop, hscanning, hlt⟩ := nextBlock_filled h hhighest
  have hread := nextBlock_read h.toScanning hcall
  have hspec := nextBlock_spec h.toScanning
  rw [hcall] at hspec
  rw [hloop] at hcall
  obtain ⟨-, hsame⟩ := nextBlockLoop_read _ _ _ hscanning hlt hcall
  rw [drain_numBelow h.toScanning] at hsame
  have hle := le_highestBlock h hhighest
  obtain ⟨⟨entry, hentry, hat⟩, -⟩ := highestBlock_eq_some hhighest
  have hfirst : entry.2 ∈ st.cursor.pendingNotes sn backend := h.heads.snd_mem_items hentry
  -- What is drained are the notes of the block, and what is left is below it.
  obtain ⟨drained, hpending, hdrained, hbelow⟩ : ∃ drained : Multiset (ℕ × HistoryNote),
      st.cursor.pendingNotes sn backend = drained + st'.cursor.pendingNotes sn backend ∧
        (∀ note ∈ drained, note.1 = block) ∧
        ∀ note ∈ st'.cursor.pendingNotes sn backend, note.1 < block := by
    cases hspec with
    | exhausted hpending hcursor =>
      rw [hpending] at hfirst
      exact absurd hfirst (Multiset.notMem_zero _)
    | @block drained number _ hpending hne hdrained hbelow _ _ =>
      obtain ⟨note, hnote⟩ := List.exists_mem_of_ne_nil _ hne
      have hnumber : number ≤ block := by
        rw [← hdrained note hnote]
        exact hle note (hpending ▸ Multiset.mem_add.mpr (.inl (Multiset.mem_coe.mpr hnote)))
      rw [hpending, Multiset.mem_add] at hfirst
      have hsame : number = block := by
        rcases hfirst with hmem | hrest
        · rw [← hdrained entry.2 (Multiset.mem_coe.mp hmem), hat]
        · exact absurd (hbelow entry.2 hrest) (hat ▸ hnumber.not_gt)
      subst hsame
      exact ⟨drained, hpending, hdrained, hbelow⟩
  have hnone : ((st'.cursor.pendingNotes sn backend).filter fun note => note.1 = block) = 0 :=
    Multiset.filter_eq_nil.mpr fun note hnote => (hbelow note hnote).ne
  -- What was read are the heads that are buffered in the end and those notes.
  have hreads : ((st.cursor.pendingNotes sn backend).filter fun note => note.1 = block).card +
      st'.cursor.remaining = st.cursor.remaining := by
    have hcard := congrArg Multiset.card hpending
    rw [Multiset.card_add, HistoryCursor.card_pendingNotes,
      HistoryCursor.card_pendingNotes] at hcard
    rw [hpending, Multiset.filter_add, hnone, add_zero, Multiset.filter_eq_self.mpr hdrained, hcard]
  have hheads : st'.bufferedNotes.length =
      numBelow Prod.fst (HistorySubchannel.pendingNotes sn backend)
        st'.cursor.subchannels block := by
    refine le_antisymm ?_ hread.filled.complete.numBelow_le
    refine (hread.filled.heads.length_le_add fun note hnote => (hbelow note hnote).le).trans ?_
    refine (Nat.add_le_add_right (le_of_eq ?_) _).trans_eq (zero_add _)
    exact congrArg Multiset.card hnone
  have hcost := hread.cost
  unfold HistoryCursor.readsOf
  unfold costNote at *
  omega

end PrivacyPool.History
