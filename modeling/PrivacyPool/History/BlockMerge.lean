import PrivacyPool.Base.Streams
import PrivacyPool.History.Notes

/-!
# The scanner merges blocks

A subchannel is a stream of notes, from its next index down to the first, and the
buffer of the scanner holds heads of these streams. What a call of `nextBlock` returns
and what the cursor still holds are what it held before, whatever becomes of the call;
a call that returns a block returns all that is left of it.

## Main definitions

* `HistoryCursor.pendingNotes` — the notes that a cursor has yet to return
* `ScanState.Scanning` — the buffer holds heads of subchannels with ordered blocks
* `NextBlock` — what a call of `nextBlock` can do

## Main results

* `nextBlock_spec` — a call does one of these
* `Scanned.merged` — calls until the end return every note once, by falling blocks
* `exists_scanned` — a budget that pays for all notes reaches the end
-/

namespace PrivacyPool.History

open Discovery HashMap Streams

variable (sn : Starknet) (backend : Backend)

/-! ### Pending notes -/

namespace HistorySubchannel

/-- The note at an index with its block, as the storage has them. -/
def noteAt (subchannel : HistorySubchannel) (index : ℕ) : ℕ × HistoryNote :=
  let noteId := computeNoteId sn subchannel.channelKey subchannel.token index
  subchannel.noteOf sn noteId index (backend.getNoteWithBlock sn noteId)

/-- The notes that a subchannel has yet to return. -/
def pendingNotes (subchannel : HistorySubchannel) : Multiset (ℕ × HistoryNote) :=
  (Multiset.range subchannel.remaining).map (subchannel.noteAt sn backend)

/-- The storage blocks of the notes do not fall with the note index. -/
def BlocksOrdered (subchannel : HistorySubchannel) : Prop :=
  ∀ j < subchannel.remaining, ∀ i ≤ j,
    (subchannel.noteAt sn backend i).1 ≤ (subchannel.noteAt sn backend j).1

instance (subchannel : HistorySubchannel) : Decidable (subchannel.BlocksOrdered sn backend) :=
  inferInstanceAs (Decidable (∀ j < subchannel.remaining, ∀ i ≤ j,
    (subchannel.noteAt sn backend i).1 ≤ (subchannel.noteAt sn backend j).1))

variable {sn backend} {subchannel : HistorySubchannel}

theorem remaining_decrement {index : ℕ} (h : subchannel.nextIndex = some index) :
    subchannel.decrement.remaining = index := by
  unfold remaining decrement
  rw [h, Option.bind_some]
  split_ifs with hpos
  · exact Nat.sub_add_cancel hpos
  · exact (Nat.lt_one_iff.mp (not_le.mp hpos)).symm

theorem pendingNotes_eq_cons {index : ℕ} (h : subchannel.nextIndex = some index) :
    subchannel.pendingNotes sn backend =
      subchannel.noteAt sn backend index ::ₘ subchannel.decrement.pendingNotes sn backend := by
  have hremaining : subchannel.remaining = index + 1 := by
    rw [remaining, h]
    rfl
  unfold pendingNotes
  rw [remaining_decrement h, hremaining, Multiset.range_succ, Multiset.map_cons]
  rfl

theorem exists_nextIndex (h : subchannel.pendingNotes sn backend ≠ 0) :
    ∃ index, subchannel.nextIndex = some index := by
  refine Option.ne_none_iff_exists'.mp fun hnone => h ?_
  rw [pendingNotes, remaining, hnone]
  rfl

theorem nextIndex_eq_none (h : subchannel.pendingNotes sn backend = 0) :
    subchannel.nextIndex = none := by
  refine Option.eq_none_iff_forall_ne_some.mpr fun index hindex => ?_
  exact Multiset.cons_ne_zero ((pendingNotes_eq_cons hindex).symm.trans h)

theorem BlocksOrdered.decrement (h : subchannel.BlocksOrdered sn backend) :
    subchannel.decrement.BlocksOrdered sn backend := by
  intro j hlt
  refine h j ?_
  cases hindex : subchannel.nextIndex with
  | none =>
    rw [remaining, HistorySubchannel.decrement, hindex] at hlt
    exact absurd hlt (Nat.not_lt_zero j)
  | some index =>
    rw [remaining_decrement hindex] at hlt
    rw [remaining, hindex]
    exact hlt.trans (Nat.lt_succ_self index)

/-- The next note is the last one of an ordered subchannel. -/
theorem BlocksOrdered.sorted (h : subchannel.BlocksOrdered sn backend) :
    Sorted Prod.fst (pendingNotes sn backend) HistorySubchannel.decrement subchannel := by
  intro head hhead note hnote
  have hne : subchannel.pendingNotes sn backend ≠ 0 := hhead ▸ Multiset.cons_ne_zero
  obtain ⟨index, hindex⟩ := exists_nextIndex hne
  rw [pendingNotes_eq_cons hindex] at hhead
  obtain rfl := (Multiset.cons_inj_left _).mp hhead
  obtain ⟨i, hi, rfl⟩ := Multiset.mem_map.mp hnote
  have hlt : i < index + 1 := by
    rw [remaining, hindex] at hi
    exact Multiset.mem_range.mp hi
  refine h index ?_ i (Nat.le_of_lt_succ hlt)
  rw [remaining, hindex]
  exact Nat.lt_succ_self index

end HistorySubchannel

/-- The notes that a cursor has yet to return. -/
def HistoryCursor.pendingNotes (cursor : HistoryCursor) : Multiset (ℕ × HistoryNote) :=
  items (HistorySubchannel.pendingNotes sn backend) cursor.subchannels

variable {sn backend}

@[simp] theorem HistoryCursor.card_pendingNotes (cursor : HistoryCursor) :
    (cursor.pendingNotes sn backend).card = cursor.remaining := by
  unfold HistoryCursor.pendingNotes HistoryCursor.remaining items
  induction cursor.subchannels with
  | nil => rfl
  | cons subchannel subchannels ih =>
    rw [List.map_cons, List.sum_cons, Multiset.card_add, ih, List.map_cons, List.sum_cons,
      HistorySubchannel.pendingNotes, Multiset.card_map, Multiset.card_range]

/-- A cursor without notes is exhausted. -/
theorem HistoryCursor.exhausted {cursor : HistoryCursor}
    (h : cursor.pendingNotes sn backend = 0) :
    ∀ subchannel ∈ cursor.subchannels, subchannel.nextIndex = none := by
  intro subchannel hmem
  have hzero : subchannel.pendingNotes sn backend = 0 := by
    refine Multiset.eq_zero_of_forall_notMem fun note hnote => ?_
    exact Multiset.notMem_zero note (h ▸ mem_items.mpr ⟨subchannel, hmem, hnote⟩)
  exact HistorySubchannel.nextIndex_eq_none hzero

namespace ScanState

variable (sn backend) in
/-- The buffer holds heads of subchannels with ordered blocks. -/
structure Scanning (st : ScanState) : Prop where
  heads : Heads (HistorySubchannel.pendingNotes sn backend) HistorySubchannel.decrement
    st.cursor.subchannels st.bufferedNotes
  ordered : ∀ subchannel ∈ st.cursor.subchannels, subchannel.BlocksOrdered sn backend

/-- The budget pays for the notes that are neither returned nor buffered. -/
def Paid (st : ScanState) : Prop :=
  costNote * st.cursor.remaining ≤ st.budget + costNote * st.bufferedNotes.length

theorem Scanning.sorted {st : ScanState} (h : st.Scanning sn backend) :
    ∀ subchannel ∈ st.cursor.subchannels,
      Sorted Prod.fst (HistorySubchannel.pendingNotes sn backend) HistorySubchannel.decrement
        subchannel :=
  fun subchannel hmem => (h.ordered subchannel hmem).sorted

end ScanState

/-! ### Filling -/

variable {st st' : ScanState}

theorem mem_activeSubchannels {next : NextNote} :
    next ∈ activeSubchannels sn st ↔ next.1 ∉ keys st.bufferedNotes ∧
      st.cursor.subchannels[next.1]? = some next.2.1 ∧ next.2.1.nextIndex = some next.2.2.2 ∧
      next.2.2.1 = computeNoteId sn next.2.1.channelKey next.2.1.token next.2.2.2 := by
  obtain ⟨position, subchannel, noteId, index⟩ := next
  constructor
  · intro hmem
    obtain ⟨⟨subchannel', position'⟩, hentry, heq⟩ := List.mem_filterMap.mp hmem
    obtain ⟨hzip, hfree⟩ := List.mem_filter.mp hentry
    obtain ⟨index', hindex, heq⟩ := Option.map_eq_some_iff.mp heq
    cases heq
    exact ⟨of_decide_eq_true hfree, List.mk_mem_zipIdx_iff_getElem?.mp hzip, hindex, rfl⟩
  · rintro ⟨hfree, hposition, hindex, hid⟩
    dsimp only at hfree hposition hindex hid
    subst hid
    refine List.mem_filterMap.mpr ⟨(subchannel, position), List.mem_filter.mpr ⟨?_, ?_⟩, ?_⟩
    · exact List.mk_mem_zipIdx_iff_getElem?.mpr hposition
    · exact decide_eq_true hfree
    · rw [hindex]
      rfl

theorem nodup_activeSubchannels : ((activeSubchannels sn st).map Prod.fst).Nodup := by
  have hpositions : st.cursor.subchannels.zipIdx.Pairwise fun a b => a.2 ≠ b.2 := by
    refine List.pairwise_map.mp ?_
    rw [List.zipIdx_map_snd]
    exact List.nodup_range'
  refine List.pairwise_map.mpr (List.pairwise_filterMap.mpr ?_)
  refine (hpositions.filter _).imp fun {a b} hne next hnext next' hnext' => ?_
  obtain ⟨index, -, rfl⟩ := Option.map_eq_some_iff.mp hnext
  obtain ⟨index', -, rfl⟩ := Option.map_eq_some_iff.mp hnext'
  exact hne

/-- The notes that are read are appended to the buffer, as heads of their subchannels. -/
theorem fillBuffers_eq (st : ScanState) :
    fillBuffers sn backend st =
      if activeSubchannels sn st ≠ [] ∧ st.budget < (activeSubchannels sn st).length * costNote then
        .error (.insufficientBudget ((activeSubchannels sn st).length * costNote) st.budget)
      else .ok { st with
        budget := st.budget - (activeSubchannels sn st).length * costNote
        bufferedNotes := st.bufferedNotes ++ (activeSubchannels sn st).map fun next =>
          (next.1, next.2.1.noteAt sn backend next.2.2.2) } := by
  have hread : ((activeSubchannels sn st).zip (((activeSubchannels sn st).map fun next =>
        next.2.2.1).map (backend.getNoteWithBlock sn))).foldl (fun buffered item =>
      insert buffered item.1.1 (item.1.2.1.noteOf sn item.1.2.2.1 item.1.2.2.2 item.2))
        st.bufferedNotes =
      st.bufferedNotes ++ (activeSubchannels sn st).map fun next =>
        (next.1, next.2.1.noteAt sn backend next.2.2.2) := by
    rw [List.map_map, ← List.map_prod_left_eq_zip, List.foldl_map]
    refine (foldl_insert_eq _ (fun next : NextNote => next.1) _ nodup_activeSubchannels
      fun next hnext => (mem_activeSubchannels.mp hnext).1).trans ?_
    refine congrArg _ (List.map_congr_left fun next hnext => ?_)
    obtain ⟨-, -, -, hid⟩ := mem_activeSubchannels.mp hnext
    rw [HistorySubchannel.noteAt, ← hid]
    rfl
  unfold fillBuffers
  rw [← hread]

/-- What `fillBuffers` does when it is paid. -/
structure Filled (sn : Starknet) (backend : Backend) (st st' : ScanState) : Prop where
  cursor : st'.cursor = st.cursor
  scanning : st'.Scanning sn backend
  complete : Complete (HistorySubchannel.pendingNotes sn backend) st'.cursor.subchannels
    st'.bufferedNotes
  cost : st'.budget + costNote * st'.bufferedNotes.length =
    st.budget + costNote * st.bufferedNotes.length

theorem fillBuffers_heads (h : st.Scanning sn backend) :
    Heads (HistorySubchannel.pendingNotes sn backend) HistorySubchannel.decrement
      st.cursor.subchannels (st.bufferedNotes ++ (activeSubchannels sn st).map fun next =>
        (next.1, next.2.1.noteAt sn backend next.2.2.2)) := by
  refine ⟨?_, fun entry hentry => ?_⟩
  · exact nodup_keys_append (activeSubchannels sn st) (fun next : NextNote => next.1) _ h.heads.nodup
      nodup_activeSubchannels fun next hnext => (mem_activeSubchannels.mp hnext).1
  · rcases List.mem_append.mp hentry with hold | hnew
    · exact h.heads.head entry hold
    · obtain ⟨next, hnext, rfl⟩ := List.mem_map.mp hnew
      obtain ⟨-, hposition, hindex, -⟩ := mem_activeSubchannels.mp hnext
      exact ⟨next.2.1, hposition, HistorySubchannel.pendingNotes_eq_cons hindex⟩

theorem fillBuffers_spec (h : st.Scanning sn backend) :
    (∃ st', fillBuffers sn backend st = .ok st' ∧ Filled sn backend st st') ∨
      ∃ needed, fillBuffers sn backend st = .error (.insufficientBudget needed st.budget) ∧
        ¬ st.Paid := by
  have hheads := fillBuffers_heads h
  rw [fillBuffers_eq]
  split_ifs with hshort
  · -- The heads are no more than the notes, so a budget that pays for these is enough.
    refine .inr ⟨_, rfl, fun hpaid => ?_⟩
    have hle := hheads.length_le
    have hcard : (items (HistorySubchannel.pendingNotes sn backend) st.cursor.subchannels).card =
        st.cursor.remaining := st.cursor.card_pendingNotes
    rw [hcard, List.length_append, List.length_map] at hle
    have hcost := hshort.2
    unfold ScanState.Paid costNote at *
    omega
  · refine .inl ⟨_, rfl, rfl, ⟨hheads, h.ordered⟩, ?_, ?_⟩
    -- A subchannel with a note left has one in the buffer, old or new.
    · intro position subchannel hposition hpending
      obtain ⟨index, hindex⟩ := HistorySubchannel.exists_nextIndex hpending
      rw [keys_append, List.mem_append]
      refine Classical.or_iff_not_imp_left.mpr fun hfree => ?_
      have hactive : (position, subchannel,
          computeNoteId sn subchannel.channelKey subchannel.token index, index) ∈
            activeSubchannels sn st :=
        mem_activeSubchannels.mpr ⟨hfree, hposition, hindex, rfl⟩
      exact mem_keys_of_mem (List.mem_map_of_mem hactive)
    · -- Every note that is read is paid.
      have hle : (activeSubchannels sn st).length * costNote ≤ st.budget := by
        by_cases hnil : activeSubchannels sn st = []
        · rw [hnil]
          exact Nat.zero_le _
        · exact not_lt.mp fun hlt => hshort ⟨hnil, hlt⟩
      simp only [List.length_append, List.length_map]
      unfold costNote at *
      omega

/-! ### Draining -/

theorem mem_drain {block : ℕ} {entry : ℕ × (ℕ × HistoryNote)} :
    entry ∈ (extractIf st.bufferedNotes fun note => note.1 == block).2 ↔
      entry ∈ st.bufferedNotes ∧ entry.2.1 = block := by
  rw [extractIf, List.mem_filter, beq_iff_eq]

theorem drain_cursor (block : ℕ) (st : ScanState) :
    (drain block st).2.cursor.subchannels =
      popAll HistorySubchannel.decrement st.cursor.subchannels
        (keys (extractIf st.bufferedNotes fun note => note.1 == block).2) := by
  rw [popAll, keys, List.foldl_map]
  rfl

/-- The notes of a block are moved from the cursor to the result. -/
theorem drain_spec (h : st.Scanning sn backend) (block : ℕ) :
    ∃ drained : List (ℕ × HistoryNote), (drain block st).1 = drained.map Prod.snd ∧
      (∀ note ∈ drained, note.1 = block) ∧
      drained.length + (drain block st).2.bufferedNotes.length = st.bufferedNotes.length ∧
      st.cursor.pendingNotes sn backend =
        drained + (drain block st).2.cursor.pendingNotes sn backend ∧
      (drain block st).2.Scanning sn backend := by
  have hperm := extractIf_perm st.bufferedNotes fun note => note.1 == block
  refine ⟨(extractIf st.bufferedNotes fun note => note.1 == block).2.map Prod.snd, ?_, ?_, ?_, ?_,
    ?_, ?_⟩
  · rw [List.map_map]
    rfl
  · intro note hnote
    obtain ⟨entry, hentry, rfl⟩ := List.mem_map.mp hnote
    exact (mem_drain.mp hentry).2
  · have hlength := hperm.length_eq
    rw [List.length_append, Nat.add_comm] at hlength
    rw [List.length_map]
    exact hlength
  · unfold HistoryCursor.pendingNotes
    rw [drain_cursor]
    exact (h.heads.sublist List.filter_sublist).items_eq
  · -- The notes that stay are of other subchannels than the drained ones.
    rw [drain_cursor]
    refine (h.heads.sublist List.filter_sublist).popAll fun position hdrained hkept => ?_
    have hnodup : (keys (extractIf st.bufferedNotes fun note => note.1 == block).1 ++
        keys (extractIf st.bufferedNotes fun note => note.1 == block).2).Nodup := by
      rw [← keys_append]
      exact (hperm.map Prod.fst).nodup_iff.mpr h.heads.nodup
    exact (List.nodup_append.mp hnodup).2.2 position hkept position hdrained rfl
  · rw [drain_cursor]
    exact mem_popAll (fun _ => HistorySubchannel.BlocksOrdered.decrement) h.ordered

/-! ### Calls -/

/-- What a call of `nextBlock` can do: the notes in question are the first of what the
cursor holds, and the cursor still holds the others. -/
inductive NextBlock (sn : Starknet) (backend : Backend) (st : ScanState) :
    Except DiscoveryError (Option (ℕ × List HistoryNote)) → ScanState → Prop
  | exhausted {st' : ScanState} :
      st.cursor.pendingNotes sn backend = 0 → st'.cursor = st.cursor →
      NextBlock sn backend st (.ok none) st'
  | block {drained : List (ℕ × HistoryNote)} {block : ℕ} {st' : ScanState} :
      st.cursor.pendingNotes sn backend = drained + st'.cursor.pendingNotes sn backend →
      drained ≠ [] → (∀ note ∈ drained, note.1 = block) →
      (∀ note ∈ st'.cursor.pendingNotes sn backend, note.1 < block) →
      st'.Scanning sn backend → (st.Paid → st'.Paid) →
      NextBlock sn backend st (.ok (some (block, drained.map Prod.snd))) st'
  | short {drained : List (ℕ × HistoryNote)} {needed available : ℕ} {st' : ScanState} :
      st.cursor.pendingNotes sn backend = drained + st'.cursor.pendingNotes sn backend →
      ¬ st.Paid → NextBlock sn backend st (.error (.insufficientBudget needed available)) st'

theorem highestBlock_eq_some {block : ℕ} (h : highestBlock st = some block) :
    (∃ entry ∈ st.bufferedNotes, entry.2.1 = block) ∧
      ∀ entry ∈ st.bufferedNotes, entry.2.1 ≤ block := by
  obtain ⟨hmem, hle⟩ := List.max?_eq_some_iff.mp h
  exact ⟨List.mem_map.mp hmem, fun entry hentry => hle _ (List.mem_map_of_mem hentry)⟩

/-- Filling and draining move notes from the cursor to the result, and are paid alike. -/
theorem Filled.drain_spec {block : ℕ} (h : Filled sn backend st st')
    (hany : ∃ entry ∈ st'.bufferedNotes, entry.2.1 = block) :
    ∃ drained : List (ℕ × HistoryNote), (drain block st').1 = drained.map Prod.snd ∧
      drained ≠ [] ∧ (∀ note ∈ drained, note.1 = block) ∧
      st.cursor.pendingNotes sn backend =
        drained + (drain block st').2.cursor.pendingNotes sn backend ∧
      (drain block st').2.Scanning sn backend ∧ (st.Paid → (drain block st').2.Paid) := by
  obtain ⟨drained, hnotes, hblock, hlength, hpending, hscanning⟩ :=
    History.drain_spec h.scanning block
  rw [h.cursor] at hpending
  refine ⟨drained, hnotes, fun hnil => ?_, hblock, hpending, hscanning, fun hpaid => ?_⟩
  · obtain ⟨entry, hentry, hat⟩ := hany
    have hdrained : entry.2.2 ∈ (drain block st').1 :=
      List.mem_map_of_mem (mem_drain.mpr ⟨hentry, hat⟩)
    rw [hnotes, hnil] at hdrained
    exact List.not_mem_nil hdrained
  · have hcard := congrArg Multiset.card hpending
    rw [Multiset.card_add, HistoryCursor.card_pendingNotes, HistoryCursor.card_pendingNotes,
      Multiset.coe_card] at hcard
    have hcost := h.cost
    have hbudget : (drain block st').2.budget = st'.budget := rfl
    unfold ScanState.Paid at hpaid ⊢
    rw [hbudget]
    unfold costNote at *
    omega

/-- The loop once its block is known: it drains what is left of the block. -/
theorem nextBlockLoop_spec {block : ℕ} (fuel : ℕ) (notes : List HistoryNote) (st : ScanState)
    (h : st.Scanning sn backend) (hfuel : st.cursor.remaining < fuel)
    (hblock : ∀ note ∈ st.cursor.pendingNotes sn backend, note.1 ≤ block) :
    ∃ (drained : List (ℕ × HistoryNote)) (st' : ScanState),
      st.cursor.pendingNotes sn backend = drained + st'.cursor.pendingNotes sn backend ∧
      (∀ note ∈ drained, note.1 = block) ∧
      (nextBlockLoop sn backend fuel (some block) notes st =
          (.ok (some (block, notes ++ drained.map Prod.snd)), st') ∧
        (∀ note ∈ st'.cursor.pendingNotes sn backend, note.1 < block) ∧
        st'.Scanning sn backend ∧ (st.Paid → st'.Paid) ∨
      ∃ needed available, nextBlockLoop sn backend fuel (some block) notes st =
          (.error (.insufficientBudget needed available), st') ∧ ¬ st.Paid) := by
  -- Each turn drains a note at least, so that the fuel covers what the cursor has left.
  induction fuel generalizing notes st with
  | zero => exact absurd hfuel (Nat.not_lt_zero _)
  | succ fuel ih =>
    unfold nextBlockLoop
    rcases fillBuffers_spec h with ⟨st₁, hfill, hfilled⟩ | ⟨needed, hfill, hunpaid⟩
    · rw [hfill]
      simp only [Option.some_or]
      split_ifs with hany
      · obtain ⟨entry, hentry, hat⟩ := List.any_eq_true.mp hany
        obtain ⟨drained, hnotes, hne, hdrained, hpending, hscanning, hpaid⟩ :=
          hfilled.drain_spec ⟨entry, hentry, beq_iff_eq.mp hat⟩
        have hcard := congrArg Multiset.card hpending
        rw [Multiset.card_add, HistoryCursor.card_pendingNotes, HistoryCursor.card_pendingNotes,
          Multiset.coe_card] at hcard
        have hpos := List.length_pos_iff.mpr hne
        obtain ⟨drained', st', hpending', hdrained', hresult⟩ :=
          ih (notes ++ (drain block st₁).1) (drain block st₁).2 hscanning (by omega)
            fun note hnote => hblock note (hpending ▸ Multiset.mem_add.mpr (.inr hnote))
        -- What this turn drains comes before what the rest of the loop drains.
        refine ⟨drained ++ drained', st', ?_, ?_, ?_⟩
        · rw [hpending, hpending', ← Multiset.coe_add, add_assoc]
        · intro note hnote
          exact (List.mem_append.mp hnote).elim (hdrained note) (hdrained' note)
        · rw [hnotes, List.append_assoc, ← List.map_append] at hresult
          rw [hnotes]
          rcases hresult with ⟨hloop, hbelow, hscanning', hpaid'⟩ | ⟨needed, available, hloop, hshort⟩
          · exact .inl ⟨hloop, hbelow, hscanning', hpaid' ∘ hpaid⟩
          · exact .inr ⟨needed, available, hloop, mt hpaid hshort⟩
      · -- No head is of the block, so all that is left is below it.
        have hheads : ∀ entry ∈ st₁.bufferedNotes, ∀ i, i ≤ entry.2.1 → i < block := by
          intro entry hentry i hi
          have hmem := hfilled.scanning.heads.snd_mem_items hentry
          rw [hfilled.cursor] at hmem
          refine lt_of_le_of_ne (hi.trans (hblock _ hmem)) fun heq => hany ?_
          refine List.any_eq_true.mpr ⟨entry, hentry, beq_iff_eq.mpr ?_⟩
          exact le_antisymm (hblock _ hmem) (heq ▸ hi)
        refine ⟨[], st₁, ?_, by simp, .inl ⟨?_, ?_, hfilled.scanning, fun hpaid => ?_⟩⟩
        · rw [hfilled.cursor]
          exact (zero_add _).symm
        · rw [List.map_nil, List.append_nil]
        · exact hfilled.scanning.heads.forall_items hfilled.complete hfilled.scanning.sorted hheads
        · have hcost := hfilled.cost
          unfold ScanState.Paid at hpaid ⊢
          rw [hfilled.cursor]
          omega
    · rw [hfill]
      exact ⟨[], st, (zero_add _).symm, by simp, .inr ⟨needed, st.budget, rfl, hunpaid⟩⟩

/-- A call of `nextBlock` returns all that is left of the highest block. -/
theorem nextBlock_spec (h : st.Scanning sn backend) :
    NextBlock sn backend st (nextBlock sn backend st).1 (nextBlock sn backend st).2 := by
  unfold nextBlock nextBlockLoop
  rcases fillBuffers_spec h with ⟨st₁, hfill, hfilled⟩ | ⟨needed, hfill, hunpaid⟩
  · rw [hfill]
    simp only [Option.none_or]
    cases hhighest : highestBlock st₁ with
    | none =>
      have hnil : st₁.bufferedNotes = [] :=
        List.map_eq_nil_iff.mp (List.max?_eq_none_iff.mp hhighest)
      have hcomplete := hfilled.complete
      rw [hnil, hfilled.cursor] at hcomplete
      exact .exhausted (items_eq_zero hcomplete) hfilled.cursor
    | some block =>
      obtain ⟨⟨entry, hentry, hat⟩, hle⟩ := highestBlock_eq_some hhighest
      have hany : (st₁.bufferedNotes.any fun entry => entry.2.1 == block) = true :=
        List.any_eq_true.mpr ⟨entry, hentry, beq_iff_eq.mpr hat⟩
      obtain ⟨drained, hnotes, hne, hdrained, hpending, hscanning, hpaid⟩ :=
        hfilled.drain_spec ⟨entry, hentry, hat⟩
      have hcard := congrArg Multiset.card hpending
      rw [Multiset.card_add, HistoryCursor.card_pendingNotes, HistoryCursor.card_pendingNotes,
        Multiset.coe_card] at hcard
      have hpos := List.length_pos_iff.mpr hne
      -- The heads are the highest of each subchannel, so their maximum bounds all that is left.
      have hbound : ∀ note ∈ st.cursor.pendingNotes sn backend, note.1 ≤ block := by
        rw [← hfilled.cursor]
        exact hfilled.scanning.heads.forall_items hfilled.complete hfilled.scanning.sorted
          fun entry hentry i hi => hi.trans (hle entry hentry)
      obtain ⟨drained', st', hpending', hdrained', hresult⟩ :=
        nextBlockLoop_spec st.cursor.remaining (drain block st₁).1 (drain block st₁).2 hscanning
          (by omega) fun note hnote => hbound note (hpending ▸ Multiset.mem_add.mpr (.inr hnote))
      have hall : st.cursor.pendingNotes sn backend =
          (drained ++ drained' : List (ℕ × HistoryNote)) + st'.cursor.pendingNotes sn backend := by
        rw [hpending, hpending', ← Multiset.coe_add, add_assoc]
      dsimp only
      rw [if_pos hany, List.nil_append]
      rcases hresult with ⟨hloop, hbelow, hscanning', hpaid'⟩ | ⟨needed, available, hloop, hshort⟩
      · rw [hloop, hnotes, ← List.map_append]
        refine .block hall (List.append_ne_nil_of_left_ne_nil hne _) ?_ hbelow hscanning'
          (hpaid' ∘ hpaid)
        exact fun note hnote => (List.mem_append.mp hnote).elim (hdrained note) (hdrained' note)
      · rw [hloop]
        exact .short hall (mt hpaid hshort)
  · rw [hfill]
    have hall : st.cursor.pendingNotes sn backend =
        ([] : List (ℕ × HistoryNote)) + st.cursor.pendingNotes sn backend := (zero_add _).symm
    exact .short hall hunpaid

/-! ### Runs -/

/-- The notes of a list of blocks, each with its block. -/
def notesOfBlocks (blocks : List (ℕ × List HistoryNote)) : List (ℕ × HistoryNote) :=
  blocks.flatMap fun block => block.2.map fun note => (block.1, note)

theorem mem_notesOfBlocks {blocks : List (ℕ × List HistoryNote)} {note : ℕ × HistoryNote} :
    note ∈ notesOfBlocks blocks ↔ ∃ block ∈ blocks, block.1 = note.1 ∧ note.2 ∈ block.2 := by
  constructor
  · intro hmem
    obtain ⟨block, hblock, hnote⟩ := List.mem_flatMap.mp hmem
    obtain ⟨note', hnote', rfl⟩ := List.mem_map.mp hnote
    exact ⟨block, hblock, rfl, hnote'⟩
  · rintro ⟨block, hblock, hat, hnote⟩
    exact List.mem_flatMap.mpr ⟨block, hblock, List.mem_map.mpr ⟨note.2, hnote, Prod.ext hat rfl⟩⟩

/-- A run returns blocks of notes that are left, the highest first. -/
structure Merged (sn : Starknet) (backend : Backend) (cursor : HistoryCursor)
    (blocks : List (ℕ × List HistoryNote)) : Prop where
  falling : blocks.Pairwise fun block later => later.1 < block.1
  nonempty : ∀ block ∈ blocks, block.2 ≠ []
  notes : (notesOfBlocks blocks : Multiset (ℕ × HistoryNote)) = cursor.pendingNotes sn backend

/-- Calls until the end return every note once, by falling blocks. -/
theorem Scanned.merged {blocks : List (ℕ × List HistoryNote)}
    (h : Scanned sn backend st blocks st') (hscanning : st.Scanning sn backend) :
    Merged sn backend st.cursor blocks ∧
      ∀ subchannel ∈ st'.cursor.subchannels, subchannel.nextIndex = none := by
  induction h with
  | @done st st' hcall =>
    have hspec := nextBlock_spec hscanning
    rw [hcall] at hspec
    cases hspec with
    | exhausted hpending hcursor =>
      exact ⟨⟨.nil, by simp, hpending.symm⟩, hcursor ▸ HistoryCursor.exhausted hpending⟩
  | @block st st₁ st' block blocks hcall _ ih =>
    have hspec := nextBlock_spec hscanning
    rw [hcall] at hspec
    cases hspec with
    | @block drained number _ hpending hne hdrained hbelow hscanning' _ =>
      obtain ⟨hmerged, hexhausted⟩ := ih hscanning'
      refine ⟨⟨?_, ?_, ?_⟩, hexhausted⟩
      -- What is left to return is below the block that was returned.
      · refine List.pairwise_cons.mpr ⟨fun later hlater => ?_, hmerged.falling⟩
        obtain ⟨note, hnote⟩ := List.exists_mem_of_ne_nil _ (hmerged.nonempty later hlater)
        refine hbelow (later.1, note) (hmerged.notes ▸ Multiset.mem_coe.mpr ?_)
        exact mem_notesOfBlocks.mpr ⟨later, hlater, rfl, hnote⟩
      · refine List.forall_mem_cons.mpr ⟨fun hnil => hne (List.map_eq_nil_iff.mp hnil), ?_⟩
        exact hmerged.nonempty
      · have htagged : (drained.map Prod.snd).map (fun note => (number, note)) = drained := by
          rw [List.map_map]
          refine (List.map_congr_left fun note hnote => ?_).trans (List.map_id drained)
          exact Prod.ext (hdrained note hnote).symm rfl
        rw [hpending, ← hmerged.notes, Multiset.coe_add]
        unfold notesOfBlocks
        rw [List.flatMap_cons, htagged]

theorem filter_notesOfBlocks {blocks : List (ℕ × List HistoryNote)}
    (h : blocks.Pairwise fun block later => later.1 < block.1) {block : ℕ × List HistoryNote}
    (hblock : block ∈ blocks) :
    (notesOfBlocks blocks).filter (fun note => note.1 = block.1) =
      block.2.map fun note => (block.1, note) := by
  have hother : ∀ blocks : List (ℕ × List HistoryNote), (∀ other ∈ blocks, other.1 ≠ block.1) →
      (notesOfBlocks blocks).filter (fun note => note.1 = block.1) = [] := by
    intro blocks hne
    refine List.filter_eq_nil_iff.mpr fun note hnote => ?_
    obtain ⟨other, hother, hat, -⟩ := mem_notesOfBlocks.mp hnote
    simpa [← hat] using hne other hother
  induction blocks with
  | nil => cases hblock
  | cons first blocks ih =>
    obtain ⟨hfirst, hrest⟩ := List.pairwise_cons.mp h
    have hsplit : notesOfBlocks (first :: blocks) =
        notesOfBlocks [first] ++ notesOfBlocks blocks := by
      unfold notesOfBlocks
      rw [← List.flatMap_append, List.singleton_append]
    rw [hsplit, List.filter_append]
    rcases List.mem_cons.mp hblock with rfl | hmem
    · rw [hother blocks fun other hmem => (hfirst other hmem).ne, List.append_nil]
      simp [notesOfBlocks, List.filter_eq_self]
    · rw [ih hrest hmem, hother [first] fun other hsingle => ?_, List.nil_append]
      rw [List.mem_singleton.mp hsingle]
      exact (hfirst block hmem).ne'

/-- What a run returns of a block is all that was left of it. -/
theorem Merged.block_eq {cursor : HistoryCursor} {blocks : List (ℕ × List HistoryNote)}
    (h : Merged sn backend cursor blocks) {block : ℕ × List HistoryNote} (hblock : block ∈ blocks) :
    (block.2 : Multiset HistoryNote) =
      ((cursor.pendingNotes sn backend).filter fun note => note.1 = block.1).map Prod.snd := by
  rw [← h.notes, Multiset.filter_coe, filter_notesOfBlocks h.falling hblock, Multiset.map_coe,
    List.map_map]
  exact congrArg _ (List.map_id _).symm

/-- A budget that pays for all notes reaches the end. -/
theorem exists_scanned (hscanning : st.Scanning sn backend) (hpaid : st.Paid) :
    ∃ blocks st', Scanned sn backend st blocks st' := by
  induction hn : st.cursor.remaining using Nat.strong_induction_on generalizing st with
  | _ n ih =>
    have hspec := nextBlock_spec hscanning
    cases hcall : nextBlock sn backend st with
    | mk result st₁ =>
      rw [hcall] at hspec
      cases hspec with
      | exhausted hpending hcursor => exact ⟨[], st₁, .done hcall⟩
      | @block drained number _ hpending hne _ _ hscanning' hpaid' =>
        have hcard := congrArg Multiset.card hpending
        rw [Multiset.card_add, HistoryCursor.card_pendingNotes, HistoryCursor.card_pendingNotes,
          Multiset.coe_card] at hcard
        have hpos := List.length_pos_iff.mpr hne
        obtain ⟨blocks, st', hrest⟩ := ih _ (by omega) hscanning' (hpaid' hpaid) rfl
        exact ⟨_, st', .block hcall hrest⟩
      | short _ hunpaid => exact absurd hpaid hunpaid

end PrivacyPool.History
