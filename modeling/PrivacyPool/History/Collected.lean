import PrivacyPool.History.Iteration

/-!
# What blocks add to the history

The history that belongs to a set of notes: the notes under the transactions that created
them, the deposits of these transactions, and the withdrawals to the user, in a range of
blocks, that are of these transactions or of blocks without notes. Adjacent ranges add up,
and a block with the gap above it is such a range.

## Main definitions

* `createdNotes`, `createdEvents`, `shownWithdrawals` — the history of notes
* `Collected` — the transactions of a page are the history of the notes it has processed

## Main results

* `createdEvents_add`, `shownWithdrawals_add` — adjacent ranges add up
* `Collected.processNextBlock` — an iteration processes the notes of a block
-/

namespace PrivacyPool.History

open Discovery HashMap

/-! ### Selected events -/

section Events

variable {α : Type} {added : PrivacyPoolEvent → List α} {events : List PrivacyPoolEvent}

/-- Two selections that exclude each other add up. -/
theorem entriesOfEvents_filter_add {p q r : PrivacyPoolEvent → Bool}
    (h : ∀ event ∈ events, added event ≠ [] → r event = (p event || q event) ∧
      ¬ (p event = true ∧ q event = true)) :
    entriesOfEvents added (events.filter r) =
      entriesOfEvents added (events.filter p) + entriesOfEvents added (events.filter q) := by
  have hcons : ∀ (event : PrivacyPoolEvent) (events : List PrivacyPoolEvent),
      entriesOfEvents added (event :: events) =
        ((added event).map (Prod.mk event.transactionHash) : List (Felt × α)) +
          entriesOfEvents added events := fun _ _ => (Multiset.coe_add _ _).symm
  induction events with
  | nil => rfl
  | cons event events ih =>
    obtain ⟨hevent, hrest⟩ := List.forall_mem_cons.mp h
    have hsum := ih hrest
    -- An event that adds nothing counts in no selection.
    by_cases hnone : added event = []
    · have hskip : ∀ s : PrivacyPoolEvent → Bool,
          entriesOfEvents added ((event :: events).filter s) =
            entriesOfEvents added (events.filter s) := by
        intro s
        rw [List.filter_cons]
        split_ifs
        · rw [hcons, hnone]
          exact zero_add _
        · rfl
      rw [hskip, hskip, hskip, hsum]
    · obtain ⟨hor, hnot⟩ := hevent hnone
      rw [List.filter_cons, List.filter_cons, List.filter_cons, hor]
      cases hp : p event with
      | true =>
        have hq : q event = false := Bool.eq_false_iff.mpr fun hq => hnot ⟨hp, hq⟩
        rw [hq, Bool.true_or, if_pos rfl, if_pos rfl, if_neg Bool.false_ne_true, hcons, hcons, hsum,
          add_assoc]
      | false =>
        cases hq : q event with
        | true =>
          rw [Bool.false_or, if_pos rfl, if_neg Bool.false_ne_true, if_pos rfl, hcons, hcons, hsum,
            add_left_comm]
        | false =>
          rw [Bool.false_or, if_neg Bool.false_ne_true, if_neg Bool.false_ne_true,
            if_neg Bool.false_ne_true, hsum]

theorem entriesOfEvents_filter_false {p : PrivacyPoolEvent → Bool}
    (h : ∀ event ∈ events, added event ≠ [] → p event = false) :
    entriesOfEvents added (events.filter p) = 0 := by
  refine (Multiset.coe_eq_zero _).mpr (List.flatMap_eq_nil_iff.mpr fun event hevent => ?_)
  obtain ⟨hmem, hp⟩ := List.mem_filter.mp hevent
  have hnone : added event = [] := by
    by_contra hne
    cases (h event hmem hne).symm.trans hp
  rw [hnone]
  rfl

/-- Only the events that add something count. -/
theorem entriesOfEvents_filter_congr {p q : PrivacyPoolEvent → Bool}
    (h : ∀ event ∈ events, added event ≠ [] → p event = q event) :
    entriesOfEvents added (events.filter p) = entriesOfEvents added (events.filter q) := by
  have hnone : entriesOfEvents added (events.filter fun _ => false) = 0 :=
    entriesOfEvents_filter_false fun _ _ _ => rfl
  rw [entriesOfEvents_filter_add (p := q) (q := fun _ => false) fun event hevent hne => ?_, hnone,
    add_zero]
  rw [h event hevent hne, Bool.or_false]
  exact ⟨rfl, fun hboth => Bool.false_ne_true hboth.2⟩

/-- A selection that keeps what all give keeps all that give something. -/
theorem entriesOfEvents_filter_eq_iff {p q : PrivacyPoolEvent → Bool} :
    entriesOfEvents added (events.filter fun event => p event && q event) =
        entriesOfEvents added (events.filter p) ↔
      ∀ event ∈ events, added event ≠ [] → p event = true → q event = true := by
  have hsum : entriesOfEvents added (events.filter p) =
      entriesOfEvents added (events.filter fun event => p event && q event) +
        entriesOfEvents added (events.filter fun event => p event && !q event) := by
    refine entriesOfEvents_filter_add fun event _ _ => ?_
    cases p event <;> cases q event <;> simp
  constructor
  · intro heq event hevent hne hp
    rw [hsum] at heq
    have hzero := (Multiset.coe_eq_zero _).mp (left_eq_add.mp heq)
    by_contra hq
    have hsel : event ∈ events.filter fun event => p event && !q event := by
      refine List.mem_filter.mpr ⟨hevent, ?_⟩
      rw [hp, Bool.eq_false_iff.mpr hq]
      rfl
    exact hne (List.map_eq_nil_iff.mp (List.flatMap_eq_nil_iff.mp hzero event hsel))
  · intro h
    refine entriesOfEvents_filter_congr fun event hevent hne => ?_
    cases hp : p event with
    | true => exact h event hevent hne hp
    | false => rfl

end Events

/-! ### The history of notes -/

variable {sn : Starknet} (snapshot : Snapshot) (userAddress : Felt)

/-- Notes with the transactions that created them. -/
def createdNotes (notes : Multiset (ℕ × HistoryNote)) : Multiset (Felt × HistoryNote) :=
  notes.filterMap fun note => (creationHash snapshot note.1 note.2.noteId).map fun hash =>
    (hash, note.2)

/-- Whether an event is in a block of one of the notes. -/
def inBlockOf (notes : Multiset (ℕ × HistoryNote)) (event : PrivacyPoolEvent) : Bool :=
  0 < notes.countP fun note => note.1 = event.blockNumber

/-- Whether an event is of a transaction that created one of the notes. -/
def creates (notes : Multiset (ℕ × HistoryNote)) (event : PrivacyPoolEvent) : Bool :=
  0 < notes.countP fun note => note.1 = event.blockNumber ∧
    creationHash snapshot note.1 note.2.noteId = some event.transactionHash

/-- The events of the transactions that created the notes. -/
def createdEvents {α : Type} (added : PrivacyPoolEvent → List α)
    (notes : Multiset (ℕ × HistoryNote)) : Multiset (Felt × α) :=
  entriesOfEvents added (snapshot.log.events.filter (creates snapshot notes))

/-- The withdrawal to the user that an event is. -/
def withdrawalTo (event : PrivacyPoolEvent) : List WithdrawalEvent :=
  (withdrawalOf event).filter fun withdrawal => withdrawal.toAddress = userAddress

/-- The withdrawals to the user in blocks above `lower` and up to `upper` that are shown with
the notes: those of their transactions, and those of blocks without notes. -/
def shownWithdrawals (notes : Multiset (ℕ × HistoryNote)) (lower upper : ℕ) :
    Multiset (Felt × WithdrawalEvent) :=
  entriesOfEvents (withdrawalTo userAddress) (snapshot.log.events.filter fun event =>
    (lower < event.blockNumber && event.blockNumber ≤ upper) &&
      (!inBlockOf notes event || creates snapshot notes event))

/-- The withdrawals to the user that a transaction has. -/
def HistoryTransaction.withdrawalsTo (tx : HistoryTransaction) : List WithdrawalEvent :=
  tx.withdrawals.filter fun withdrawal => withdrawal.toAddress = userAddress

/-- The registration that a transaction is, with its block. -/
def HistoryTransaction.registration (tx : HistoryTransaction) : List (ℕ × Felt) :=
  tx.registeredPubkey.toList.map fun publicKey => (tx.blockNumber, publicKey)

variable {snapshot userAddress} {notes notes' : Multiset (ℕ × HistoryNote)}

theorem inBlockOf_iff {event : PrivacyPoolEvent} :
    inBlockOf notes event = true ↔ ∃ note ∈ notes, note.1 = event.blockNumber := by
  rw [inBlockOf, decide_eq_true_eq, Multiset.countP_pos]

theorem creates_iff {event : PrivacyPoolEvent} :
    creates snapshot notes event = true ↔ ∃ note ∈ notes, note.1 = event.blockNumber ∧
      creationHash snapshot note.1 note.2.noteId = some event.transactionHash := by
  rw [creates, decide_eq_true_eq, Multiset.countP_pos]

theorem inBlockOf_of_creates {event : PrivacyPoolEvent} (h : creates snapshot notes event = true) :
    inBlockOf notes event = true := by
  obtain ⟨note, hnote, hblock, -⟩ := creates_iff.mp h
  exact inBlockOf_iff.mpr ⟨note, hnote, hblock⟩

theorem inBlockOf_add (event : PrivacyPoolEvent) :
    inBlockOf (notes + notes') event = (inBlockOf notes event || inBlockOf notes' event) := by
  unfold inBlockOf
  rw [Multiset.countP_add, ← Bool.decide_or]
  exact decide_eq_decide.mpr Nat.add_pos_iff_pos_or_pos

theorem creates_add (event : PrivacyPoolEvent) :
    creates snapshot (notes + notes') event =
      (creates snapshot notes event || creates snapshot notes' event) := by
  unfold creates
  rw [Multiset.countP_add, ← Bool.decide_or]
  exact decide_eq_decide.mpr Nat.add_pos_iff_pos_or_pos

theorem createdNotes_add :
    createdNotes snapshot (notes + notes') =
      createdNotes snapshot notes + createdNotes snapshot notes' :=
  Multiset.filterMap_add _ _ _

/-- The transactions of notes in blocks above those of other notes add their events. -/
theorem createdEvents_add {α : Type} {added : PrivacyPoolEvent → List α} {bound : ℕ}
    (habove : ∀ note ∈ notes, bound < note.1) (hbelow : ∀ note ∈ notes', note.1 ≤ bound) :
    createdEvents snapshot added (notes + notes') =
      createdEvents snapshot added notes + createdEvents snapshot added notes' := by
  refine entriesOfEvents_filter_add fun event _ _ => ⟨creates_add event, fun hboth => ?_⟩
  obtain ⟨note, hnote, hblock, -⟩ := creates_iff.mp hboth.1
  obtain ⟨note', hnote', hblock', -⟩ := creates_iff.mp hboth.2
  have hlt := habove note hnote
  have hle := hbelow note' hnote'
  omega

/-- Adjacent ranges of blocks add up. -/
theorem shownWithdrawals_add {lower bound upper : ℕ} (hlower : lower ≤ bound)
    (hupper : bound ≤ upper) (habove : ∀ note ∈ notes, bound < note.1)
    (hbelow : ∀ note ∈ notes', note.1 ≤ bound) :
    shownWithdrawals snapshot userAddress (notes + notes') lower upper =
      shownWithdrawals snapshot userAddress notes bound upper +
        shownWithdrawals snapshot userAddress notes' lower bound := by
  refine entriesOfEvents_filter_add fun event _ _ => ?_
  rw [inBlockOf_add, creates_add]
  by_cases hside : bound < event.blockNumber
  · -- The event is above the bound, and the notes of its block are too.
    have hnone : inBlockOf notes' event = false := by
      refine Bool.eq_false_iff.mpr fun hin => ?_
      obtain ⟨note, hnote, hblock⟩ := inBlockOf_iff.mp hin
      have hle := hbelow note hnote
      omega
    have hcreates : creates snapshot notes' event = false :=
      Bool.eq_false_iff.mpr fun hin => Bool.eq_false_iff.mp hnone (inBlockOf_of_creates hin)
    have hlow : lower < event.blockNumber := hlower.trans_lt hside
    have hnot : ¬ event.blockNumber ≤ bound := not_le.mpr hside
    simp [hnone, hcreates, hside, hlow, hnot]
  -- The event is not above the bound, and so is not in a block of the notes above.
  · have hnone : inBlockOf notes event = false := by
      refine Bool.eq_false_iff.mpr fun hin => ?_
      obtain ⟨note, hnote, hblock⟩ := inBlockOf_iff.mp hin
      have hlt := habove note hnote
      omega
    have hcreates : creates snapshot notes event = false :=
      Bool.eq_false_iff.mpr fun hin => Bool.eq_false_iff.mp hnone (inBlockOf_of_creates hin)
    have hle : event.blockNumber ≤ upper := (not_lt.mp hside).trans hupper
    simp [hnone, hcreates, hside, hle, not_lt.mp hside]

theorem shownWithdrawals_self (bound : ℕ) :
    shownWithdrawals snapshot userAddress notes bound bound = 0 := by
  refine entriesOfEvents_filter_false fun event _ _ => ?_
  by_cases hlt : bound < event.blockNumber
  · simp [hlt]
  · simp [hlt]

theorem withdrawalTo_ne_nil {event : PrivacyPoolEvent} :
    withdrawalTo userAddress event ≠ [] ↔ event.isWithdrawalTo userAddress = true := by
  unfold withdrawalTo withdrawalOf PrivacyPoolEvent.isWithdrawalTo
  cases event.content with
  | withdrawal withdrawal => by_cases h : withdrawal.toAddress = userAddress <;> simp [h]
  | deposit | encNoteCreated | openNoteDeposited | viewingKeySet => simp

/-! ### A block and the gap above it -/

variable {cursor : HistoryCursor} {drained : List (ℕ × HistoryNote)} {block : ℕ}

theorem entriesOf_block_notes (hdrained : ∀ note ∈ drained, note.1 = block) :
    entriesOf HistoryTransaction.notes
        (blockTransactions snapshot userAddress block (drained.map Prod.snd)).values =
      createdNotes snapshot drained := by
  rw [entriesOf_blockTransactions_notes, createdNotes, Multiset.filterMap_coe, List.filterMap_map]
  refine congrArg _ (List.filterMap_congr fun note hnote => ?_)
  rw [hdrained note hnote]
  rfl

/-- A block has the events of the transactions that created its notes. -/
theorem entriesOf_block {α : Type} {field : HistoryTransaction → List α}
    {added : PrivacyPoolEvent → List α} (hne : drained ≠ [])
    (hdrained : ∀ note ∈ drained, note.1 = block)
    (hannounced : ∀ note ∈ drained, Announced snapshot note)
    (hattach : ∀ tx event, field (HistoryTransaction.attach userAddress tx event) =
      field tx ++ added event)
    (hnotes : ∀ (tx : HistoryTransaction) (notes : List HistoryNote),
      field { tx with notes } = field tx)
    (hempty : ∀ hash, field { blockNumber := block, transactionHash := hash } = [])
    (hkey : ∀ event, event.isViewingKeySet = true → added event = []) :
    entriesOf field
        (blockTransactions snapshot userAddress block (drained.map Prod.snd)).values =
      createdEvents snapshot added drained := by
  obtain ⟨first, hfirst⟩ := List.exists_mem_of_ne_nil _ hne
  rw [entriesOf_blockTransactions hattach hnotes hempty, ← hdrained first hfirst,
    eventsOfBlock_eq (hannounced first hfirst), List.filter_filter]
  refine entriesOfEvents_filter_congr fun event _ hadded => ?_
  have hplain : event.isViewingKeySet = false :=
    Bool.eq_false_iff.mpr fun hset => hadded (hkey event hset)
  refine Bool.eq_iff_iff.mpr ?_
  rw [creates_iff]
  simp only [hplain, Bool.not_false, Bool.and_true, Bool.and_eq_true, decide_eq_true_eq,
    List.mem_map, exists_exists_and_eq_and, Multiset.mem_coe]
  -- The notes are all of the block, so that the hash of a transaction tells which events belong.
  constructor
  · rintro ⟨⟨note, hnote, hhash⟩, hblock⟩
    have hsame : note.1 = first.1 := (hdrained note hnote).trans (hdrained first hfirst).symm
    exact ⟨note, hnote, hsame.trans hblock.symm, hsame ▸ hhash⟩
  · rintro ⟨note, hnote, hblock, hhash⟩
    have hsame : note.1 = first.1 := (hdrained note hnote).trans (hdrained first hfirst).symm
    exact ⟨⟨note, hnote, hsame ▸ hhash⟩, hblock.symm.trans hsame⟩

theorem addWithdrawal_header (tx : HistoryTransaction) (event : PrivacyPoolEvent) :
    (tx.addWithdrawal event).notes = tx.notes ∧
      (tx.addWithdrawal event).deposits = tx.deposits ∧
      (tx.addWithdrawal event).registration = tx.registration := by
  unfold HistoryTransaction.addWithdrawal
  split <;> exact ⟨rfl, rfl, rfl⟩

/-- A block has no registrations. -/
theorem entriesOf_block_registration (hne : drained ≠ [])
    (hdrained : ∀ note ∈ drained, note.1 = block)
    (hannounced : ∀ note ∈ drained, Announced snapshot note) :
    entriesOf HistoryTransaction.registration
      (blockTransactions snapshot userAddress block (drained.map Prod.snd)).values = 0 := by
  have hattach : ∀ tx event, (HistoryTransaction.attach userAddress tx event).registration =
      tx.registration ++ [] := by
    intro tx event
    unfold HistoryTransaction.registration
    rw [(attach_header tx event).2.1, (attach_header tx event).2.2.2, List.append_nil]
  rw [entriesOf_block hne hdrained hannounced hattach (fun _ _ => rfl) (fun _ => rfl)
    (fun _ _ => rfl)]
  exact entriesOfEvents_none _

/-- A gap adds nothing but withdrawals. -/
theorem entriesOf_gap {α : Type} {field : HistoryTransaction → List α} {fromBlock : ℕ}
    {toBlock : BlockId}
    (hfield : ∀ tx event, field (HistoryTransaction.addWithdrawal event tx) = field tx)
    (hempty : ∀ blockNumber hash, field { blockNumber, transactionHash := hash } = []) :
    entriesOf field (gapTransactions snapshot userAddress fromBlock toBlock).values = 0 := by
  have hsame : ∀ tx event, field (HistoryTransaction.addWithdrawal event tx) = field tx ++ [] :=
    fun tx event => (hfield tx event).trans (List.append_nil _).symm
  rw [entriesOf_gapTransactions hsame hempty, entriesOfEvents_none]

theorem attach_withdrawalsTo (tx : HistoryTransaction) (event : PrivacyPoolEvent) :
    (tx.attach userAddress event).withdrawalsTo userAddress =
      tx.withdrawalsTo userAddress ++ withdrawalTo userAddress event := by
  unfold HistoryTransaction.withdrawalsTo withdrawalTo
  rw [attach_withdrawals, List.filter_append]

theorem addWithdrawal_withdrawalsTo (tx : HistoryTransaction) (event : PrivacyPoolEvent) :
    (tx.addWithdrawal event).withdrawalsTo userAddress =
      tx.withdrawalsTo userAddress ++ withdrawalTo userAddress event := by
  unfold HistoryTransaction.withdrawalsTo withdrawalTo
  rw [addWithdrawal_withdrawals, List.filter_append]

variable (snapshot) in
/-- The cursor stays below the pre-confirmed block. -/
def HistoryCursor.Confirmed (cursor : HistoryCursor) : Prop :=
  ∀ n, cursor.beginBlockNumber = some n → n < snapshot.log.preConfirmed

/-- The events up to the upper bound are seen. -/
theorem sees_upperBlock (h : cursor.Confirmed snapshot) {event : PrivacyPoolEvent}
    (hle : event.blockNumber ≤ cursor.upperBound snapshot) :
    snapshot.sees (cursor.upperBlock snapshot) event = true := by
  have hnumber : ∀ n, event.blockNumber ≤ n → n < snapshot.log.preConfirmed →
      snapshot.sees (.number n) event = true := by
    intro n hle hlt
    unfold Snapshot.sees
    exact Bool.or_eq_true_iff.mpr (.inr (decide_eq_true (hle.trans_lt hlt).ne))
  unfold HistoryCursor.upperBound HistoryCursor.upperBlock at *
  cases hbegin : cursor.beginBlockNumber with
  | some n =>
    rw [hbegin] at hle
    exact hnumber n hle (h n hbegin)
  | none =>
    rw [hbegin] at hle
    have hblock : event.blockNumber ≤ snapshot.numberOf snapshot.blockId := hle
    cases hid : snapshot.blockId with
    | preConfirmed => exact Bool.or_eq_true_iff.mpr (.inl rfl)
    | number n =>
      rw [hid] at hblock
      exact hnumber n hblock (snapshot.confirmed n hid)

theorem upperBound_le_preConfirmed (h : cursor.Confirmed snapshot) :
    cursor.upperBound snapshot ≤ snapshot.log.preConfirmed := by
  unfold HistoryCursor.upperBound
  cases hbegin : cursor.beginBlockNumber with
  | some n => exact (h n hbegin).le
  | none =>
    change snapshot.numberOf snapshot.blockId ≤ _
    cases hid : snapshot.blockId with
    | preConfirmed => exact le_rfl
    | number n => exact (snapshot.confirmed n hid).le

theorem depositOf_of_isViewingKeySet {event : PrivacyPoolEvent}
    (h : event.isViewingKeySet = true) : depositOf userAddress event = [] := by
  unfold PrivacyPoolEvent.isViewingKeySet at h
  unfold depositOf
  cases hcontent : event.content <;> simp [hcontent] at h ⊢

/-- A block with the gap above it shows the withdrawals of its range. -/
theorem entriesOf_block_withdrawals (hne : drained ≠ [])
    (hdrained : ∀ note ∈ drained, note.1 = block)
    (hannounced : ∀ note ∈ drained, Announced snapshot note)
    (hle : block ≤ cursor.upperBound snapshot) (hpos : 0 < block)
    (hconfirmed : cursor.Confirmed snapshot) :
    entriesOf (HistoryTransaction.withdrawalsTo userAddress)
        (blockTransactions snapshot userAddress block (drained.map Prod.snd)).values +
      entriesOf (HistoryTransaction.withdrawalsTo userAddress)
        (gapTransactions snapshot userAddress (block + 1) (cursor.upperBlock snapshot)).values =
    shownWithdrawals snapshot userAddress drained (block - 1) (cursor.upperBound snapshot) := by
  -- The registration of a key is no withdrawal.
  have hkey : ∀ event : PrivacyPoolEvent, event.isViewingKeySet = true →
      withdrawalTo userAddress event = [] := by
    intro event hset
    by_contra hadded
    have hto := withdrawalTo_ne_nil.mp hadded
    unfold PrivacyPoolEvent.isViewingKeySet at hset
    unfold PrivacyPoolEvent.isWithdrawalTo at hto
    cases hcontent : event.content <;> simp [hcontent] at hset hto
  rw [entriesOf_block hne hdrained hannounced (fun tx event => attach_withdrawalsTo tx event)
      (fun _ _ => rfl) (fun _ => rfl) hkey,
    entriesOf_gapTransactions (fun tx event => addWithdrawal_withdrawalsTo tx event)
      fun _ _ => rfl]
  refine (entriesOfEvents_filter_add fun event hevent hadded => ?_).symm
  rw [withdrawalTo_ne_nil.mp hadded, Bool.and_true, numberOf_upperBlock]
  have hin : inBlockOf drained event = decide (event.blockNumber = block) := by
    refine Bool.eq_iff_iff.mpr ?_
    rw [inBlockOf_iff, decide_eq_true_eq]
    constructor
    · rintro ⟨note, hnote, hsame⟩
      exact hsame.symm.trans (hdrained note (Multiset.mem_coe.mp hnote))
    · intro hsame
      obtain ⟨first, hfirst⟩ := List.exists_mem_of_ne_nil _ hne
      exact ⟨first, Multiset.mem_coe.mpr hfirst, (hdrained first hfirst).trans hsame.symm⟩
  -- Events of the block itself, and those of the gap above it.
  by_cases hat : event.blockNumber = block
  · have hlow : block - 1 < block := Nat.sub_lt hpos Nat.one_pos
    simp [hin, hat, hle, hlow]
  · have hcreates : creates snapshot drained event = false := by
      refine Bool.eq_false_iff.mpr fun hcreates => ?_
      rw [inBlockOf_of_creates hcreates] at hin
      exact hat (of_decide_eq_true hin.symm)
    by_cases hupto : event.blockNumber ≤ cursor.upperBound snapshot
    · have hrange : block - 1 < event.blockNumber ↔ block + 1 ≤ event.blockNumber := by omega
      simp [hin, hat, hcreates, hupto, hrange, sees_upperBlock hconfirmed hupto]
    · simp [hcreates, hupto]

/-! ### What a page has collected -/

variable (sn snapshot userAddress) in
/-- A page that began with a cursor has processed some of the notes that were due, and its
transactions are their history. -/
structure Collected (cursor : HistoryCursor) (processed : Multiset (ℕ × HistoryNote))
    (st : HistoryState) : Prop extends st.Grouped sn snapshot where
  due : cursor.due sn snapshot = processed + st.scan.cursor.due sn snapshot
  above : ∀ note ∈ processed, st.scan.cursor.upperBound snapshot < note.1
  upperBound_le : st.scan.cursor.upperBound snapshot ≤ cursor.upperBound snapshot
  lowest : st.scan.cursor.upperBound snapshot = cursor.upperBound snapshot ∨
    ∃ note ∈ processed, note.1 = st.scan.cursor.upperBound snapshot + 1
  notes : entriesOf HistoryTransaction.notes st.transactions.values =
    createdNotes snapshot processed
  deposits : entriesOf HistoryTransaction.deposits st.transactions.values =
    createdEvents snapshot (depositOf userAddress) processed
  registrations : entriesOf HistoryTransaction.registration st.transactions.values = 0
  withdrawals : cursor.Confirmed snapshot → st.scan.cursor.Confirmed snapshot ∧
    entriesOf (HistoryTransaction.withdrawalsTo userAddress) st.transactions.values =
      shownWithdrawals snapshot userAddress processed (st.scan.cursor.upperBound snapshot)
        (cursor.upperBound snapshot)

/-- A page begins with nothing. -/
theorem Collected.start {budget : ℕ}
    (hordered : ∀ subchannel ∈ cursor.subchannels, subchannel.BlocksOrdered sn snapshot.toBackend)
    (hannounced : ∀ note ∈ cursor.due sn snapshot, Announced snapshot note) :
    Collected sn snapshot userAddress cursor 0 { scan := { cursor, budget } } where
  scanning := ⟨.nil, hordered⟩
  announced := hannounced
  dated := by simp
  due := (zero_add _).symm
  above := by simp
  upperBound_le := le_rfl
  lowest := .inl rfl
  notes := rfl
  deposits := (entriesOfEvents_filter_false fun _ _ _ => rfl).symm
  registrations := rfl
  withdrawals hconfirmed := ⟨hconfirmed, (shownWithdrawals_self _).symm⟩

theorem entriesOf_values_append {α : Type} (field : HistoryTransaction → List α)
    (transactions transactions' : Transactions) :
    entriesOf field (transactions ++ transactions').values =
      entriesOf field transactions.values + entriesOf field transactions'.values := by
  unfold Transactions.values
  rw [List.map_append, entriesOf_append]

variable {st st' : HistoryState} {processed : Multiset (ℕ × HistoryNote)}

/-- An iteration that returns a block goes on below it. -/
theorem HistoryState.Grouped.advance (h : st.Grouped sn snapshot)
    (hcall : processNextBlock sn snapshot userAddress st = (.ok (some block), st')) :
    ∃ drained : List (ℕ × HistoryNote),
      st.scan.cursor.due sn snapshot =
        drained + (st'.advance block).scan.cursor.due sn snapshot ∧
      drained ≠ [] ∧ (∀ note ∈ drained, note.1 = block) ∧ 0 < block ∧
      block ≤ st.scan.cursor.upperBound snapshot ∧
      st'.transactions = st.transactions ++
        blockTransactions snapshot userAddress block (drained.map Prod.snd) ++
        gapTransactions snapshot userAddress (block + 1) (st.scan.cursor.upperBlock snapshot) ∧
      (st'.advance block).Filled sn snapshot := by
  obtain ⟨hstep, -⟩ := processNextBlock_spec userAddress h
  rw [hcall] at hstep
  cases hstep with
  | @block drained _ _ hdue hne hdrained hle hbelow hfilled htransactions =>
    obtain ⟨first, hfirst⟩ := List.exists_mem_of_ne_nil _ hne
    have hannounced : Announced snapshot first := by
      refine h.announced first ?_
      rw [hdue]
      exact Multiset.mem_add.mpr (.inl (Multiset.mem_coe.mpr hfirst))
    have hpos : 0 < block := by
      obtain ⟨event, hevent, hblock, -⟩ := hannounced
      rw [← hdrained first hfirst, ← hblock]
      exact snapshot.log.block_pos event hevent
    -- The next iteration is bounded by the block below, which is above all that is left.
    have hupper : ∀ note ∈ (st'.advance block).scan.cursor.pendingNotes sn snapshot.toBackend,
        note.1 ≤ (st'.advance block).scan.cursor.upperBound snapshot := fun note hnote =>
      Nat.le_sub_one_of_lt (hbelow note hnote)
    have hdue' : st.scan.cursor.due sn snapshot =
        drained + (st'.advance block).scan.cursor.due sn snapshot := by
      rw [due_eq_pendingNotes hupper]
      exact hdue
    have hlow : block - 1 < block := Nat.sub_lt hpos Nat.one_pos
    refine ⟨drained, hdue', hne, hdrained, hpos, hle, htransactions,
      ⟨⟨⟨hfilled.heads, hfilled.ordered⟩, fun note hnote => h.announced note ?_, ?_⟩,
        ⟨⟨hfilled.heads, hfilled.ordered⟩, hfilled.complete⟩, hupper⟩⟩
    · rw [hdue']
      exact Multiset.mem_add.mpr (.inr hnote)
    · intro entry hentry
      change block - 1 < _ ∧ _
      rw [show (st'.advance block).transactions = st'.transactions from rfl, htransactions] at hentry
      -- A transaction was there before, or is of this block, or of the gap above it.
      rcases List.mem_append.mp hentry with hbefore | hgap
      · rcases List.mem_append.mp hbefore with hold | hblock
        · obtain ⟨habove, hlogged⟩ := h.dated entry hold
          exact ⟨hlow.trans (hle.trans_lt habove), hlogged⟩
        · obtain ⟨hat, hlogged⟩ := dated_blockTransactions hannounced entry
            (hdrained first hfirst ▸ hblock)
          exact ⟨hlow.trans_eq ((hdrained first hfirst).symm.trans hat.symm), hlogged⟩
      · obtain ⟨⟨hfrom, -⟩, hlogged⟩ := dated_gapTransactions entry hgap
        exact ⟨hlow.trans hfrom, hlogged⟩

/-- An iteration that returns a block processes its notes. -/
theorem Collected.advance (h : Collected sn snapshot userAddress cursor processed st)
    (hcall : processNextBlock sn snapshot userAddress st = (.ok (some block), st')) :
    ∃ drained : List (ℕ × HistoryNote),
      Collected sn snapshot userAddress cursor (processed + drained) (st'.advance block) := by
  obtain ⟨drained, hdue, hne, hdrained, hpos, hle, htransactions, hfilled⟩ :=
    h.toGrouped.advance hcall
  have hannounced : ∀ note ∈ drained, Announced snapshot note := by
    intro note hnote
    refine h.announced note ?_
    rw [hdue]
    exact Multiset.mem_add.mpr (.inl (Multiset.mem_coe.mpr hnote))
  have hbelow : ∀ note ∈ (drained : Multiset (ℕ × HistoryNote)),
      note.1 ≤ st.scan.cursor.upperBound snapshot := fun note hnote =>
    (hdrained note (Multiset.mem_coe.mp hnote)).trans_le hle
  have hupper : (st'.advance block).scan.cursor.upperBound snapshot = block - 1 := rfl
  have htxs : (st'.advance block).transactions = st.transactions ++
      blockTransactions snapshot userAddress block (drained.map Prod.snd) ++
      gapTransactions snapshot userAddress (block + 1) (st.scan.cursor.upperBlock snapshot) :=
    htransactions
  obtain ⟨first, hfirst⟩ := List.exists_mem_of_ne_nil _ hne
  -- Each part of the page grows by what the block and its gap add to it.
  refine ⟨drained, hfilled.toGrouped, ?_, fun note hnote => ?_, ?_, .inr ⟨first, ?_, ?_⟩, ?_, ?_, ?_,
    fun hconfirmed => ⟨fun n hn => ?_, ?_⟩⟩
  · rw [h.due, hdue, add_assoc]
  · rw [hupper]
    rcases Multiset.mem_add.mp hnote with hold | hnew
    · exact (Nat.sub_le _ _).trans_lt (hle.trans_lt (h.above note hold))
    · rw [hdrained note (Multiset.mem_coe.mp hnew)]
      exact Nat.sub_lt hpos Nat.one_pos
  · rw [hupper]
    exact (Nat.sub_le _ _).trans (hle.trans h.upperBound_le)
  · exact Multiset.mem_add.mpr (.inr (Multiset.mem_coe.mpr hfirst))
  · rw [hupper, hdrained first hfirst, Nat.sub_add_cancel hpos]
  · rw [htxs, entriesOf_values_append, entriesOf_values_append, h.notes,
      entriesOf_block_notes hdrained,
      entriesOf_gap (fun tx event => (addWithdrawal_header tx event).1) fun _ _ => rfl,
      createdNotes_add, add_zero]
  · rw [htxs, entriesOf_values_append, entriesOf_values_append, h.deposits,
      createdEvents_add h.above hbelow,
      entriesOf_block hne hdrained hannounced (fun tx event => attach_deposits tx event)
        (fun _ _ => rfl) (fun _ => rfl) fun event hset => depositOf_of_isViewingKeySet hset,
      entriesOf_gap (fun tx event => (addWithdrawal_header tx event).2.1) fun _ _ => rfl, add_zero]
  · rw [htxs, entriesOf_values_append, entriesOf_values_append, h.registrations,
      entriesOf_block_registration hne hdrained hannounced,
      entriesOf_gap (fun tx event => (addWithdrawal_header tx event).2.2) fun _ _ => rfl, add_zero,
      add_zero]
  · obtain ⟨hst, -⟩ := h.withdrawals hconfirmed
    have hlast := upperBound_le_preConfirmed hst
    obtain rfl : block - 1 = n := Option.some.inj hn
    omega
  · obtain ⟨hst, hshown⟩ := h.withdrawals hconfirmed
    rw [htxs, entriesOf_values_append, entriesOf_values_append, hshown, add_assoc,
      entriesOf_block_withdrawals hne hdrained hannounced hle hpos hst, hupper]
    exact (shownWithdrawals_add ((Nat.sub_le _ _).trans hle) h.upperBound_le h.above hbelow).symm

end PrivacyPool.History
