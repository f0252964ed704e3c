import Mathlib.Algebra.Order.Group.Multiset
import PrivacyPool.History.Transactions

/-!
# Events grouped by transaction

What a page has of each kind of event. The transactions of one block are put together apart
from those of all others, since a transaction is in one block.

## Main definitions

* `entriesOf` — what transactions have of a kind, each with the hash of its transaction
* `blockTransactions`, `gapTransactions` — what a block and the gap above it add to a page
* `creationHash` — the transaction that created a note, by the events of a block

## Main results

* `insertNotes_append`, `attachEvents_append`, `insertWithdrawals_append` — what is grouped
  under new hashes is grouped apart
* `entriesOf_blockTransactions_notes`, `_deposits`, `_withdrawals` — what a block adds
* `entriesOf_gapTransactions` — what a gap adds
-/

namespace PrivacyPool.History

open Discovery HashMap

/-- What transactions have of a kind, each with the hash of its transaction. -/
def entriesOf {α : Type} (field : HistoryTransaction → List α) (txs : List HistoryTransaction) :
    Multiset (Felt × α) :=
  (txs.flatMap fun tx => (field tx).map (Prod.mk tx.transactionHash) : List (Felt × α))

@[simp] theorem entriesOf_append {α : Type} (field : HistoryTransaction → List α)
    (txs txs' : List HistoryTransaction) :
    entriesOf field (txs ++ txs') = entriesOf field txs + entriesOf field txs' := by
  unfold entriesOf
  rw [List.flatMap_append, Multiset.coe_add]

theorem entriesOf_perm {α : Type} (field : HistoryTransaction → List α)
    {txs txs' : List HistoryTransaction} (h : txs.Perm txs') :
    entriesOf field txs = entriesOf field txs' :=
  Multiset.coe_eq_coe.mpr (h.flatMap_right _)

namespace Transactions

/-- The transactions of a map, each under its hash. -/
structure Keyed (transactions : Transactions) : Prop where
  nodup : (keys transactions).Nodup
  hash_eq : ∀ entry ∈ transactions, entry.2.transactionHash = entry.1

/-- The values of a map. -/
def values (transactions : Transactions) : List HistoryTransaction := transactions.map Prod.snd

variable {transactions : Transactions} {blockNumber : ℕ} {hash : Felt}
  {f : HistoryTransaction → HistoryTransaction}

theorem keyed_nil : Keyed [] := ⟨List.nodup_nil, by simp⟩

theorem Keyed.modify (h : Keyed transactions)
    (hf : ∀ tx, (f tx).transactionHash = tx.transactionHash) :
    Keyed (HashMap.modify transactions hash f) := by
  refine ⟨by rw [keys_modify]; exact h.nodup, fun entry hentry => ?_⟩
  obtain ⟨entry', hentry', rfl⟩ := List.mem_map.mp hentry
  split_ifs with heq
  · exact (hf _).trans (h.hash_eq entry' hentry')
  · exact h.hash_eq entry' hentry'

theorem keyed_orInsert (h : Keyed transactions) :
    Keyed (orInsert transactions hash { blockNumber, transactionHash := hash }) := by
  unfold orInsert
  split_ifs with hmem
  · exact h
  · refine ⟨?_, fun entry hentry => ?_⟩
    · rw [keys_append, List.nodup_append]
      refine ⟨h.nodup, List.nodup_singleton _, ?_⟩
      rintro a ha _ hb rfl
      have hsame : a = hash := List.mem_singleton.mp hb
      exact hmem (hsame ▸ ha)
    · rcases List.mem_append.mp hentry with hold | hnew
      · exact h.hash_eq entry hold
      · rw [List.mem_singleton.mp hnew]

theorem Keyed.upsert (h : Keyed transactions)
    (hf : ∀ tx, (f tx).transactionHash = tx.transactionHash) :
    Keyed (transactions.upsert blockNumber hash f) :=
  (keyed_orInsert h).modify hf

theorem modify_of_notMem (h : hash ∉ keys transactions) :
    HashMap.modify transactions hash f = transactions := by
  refine (List.map_congr_left fun entry hentry => ?_).trans (List.map_id _)
  have hne : entry.1 ≠ hash := fun heq => h (heq ▸ mem_keys_of_mem hentry)
  exact if_neg hne

theorem mem_keys_upsert {hash' : Felt} : hash' ∈ keys (transactions.upsert blockNumber hash f) ↔
    hash' ∈ keys transactions ∨ hash' = hash := by
  unfold upsert orInsert
  rw [keys_modify]
  split_ifs with hmem
  · exact ⟨.inl, fun h => h.elim id fun heq => heq ▸ hmem⟩
  · rw [keys_append, List.mem_append]
    exact or_congr_right List.mem_singleton

/-- The transactions of other hashes are left. -/
theorem upsert_append (others : Transactions) (h : hash ∉ keys others) :
    upsert (others ++ transactions) blockNumber hash f =
      others ++ upsert transactions blockNumber hash f := by
  have hmem : hash ∈ keys (others ++ transactions) ↔ hash ∈ keys transactions := by
    rw [keys_append, List.mem_append]
    exact or_iff_right h
  have hinsert : orInsert (others ++ transactions) hash ⟨blockNumber, hash, [], [], [], [], none⟩ =
      others ++ orInsert transactions hash ⟨blockNumber, hash, [], [], [], [], none⟩ := by
    unfold orInsert
    simp only [hmem]
    split_ifs
    · rfl
    · rw [List.append_assoc]
  unfold upsert
  rw [hinsert, modify_append, modify_of_notMem h]

variable {α : Type} {field : HistoryTransaction → List α} {new : List α}

/-- A change that adds to a transaction adds to what there is. -/
theorem entriesOf_modify (h : Keyed transactions)
    (hf : ∀ tx, (f tx).transactionHash = tx.transactionHash)
    (hfield : ∀ tx, field (f tx) = field tx ++ new) (hmem : hash ∈ keys transactions ∨ new = []) :
    entriesOf field (values (HashMap.modify transactions hash f)) =
      entriesOf field (values transactions) + (new.map (Prod.mk hash) : List (Felt × α)) := by
  induction transactions with
  | nil =>
    obtain rfl : new = [] := hmem.resolve_left List.not_mem_nil
    rfl
  | cons entry transactions ih =>
    obtain ⟨hfirst, hrest⟩ := List.nodup_cons.mp h.nodup
    obtain ⟨hentry, hhashes⟩ := List.forall_mem_cons.mp h.hash_eq
    have hsplit : ∀ (tx : HistoryTransaction) (txs : List HistoryTransaction),
        entriesOf field (tx :: txs) =
          ((field tx).map (Prod.mk tx.transactionHash) : List (Felt × α)) + entriesOf field txs :=
      fun _ _ => (Multiset.coe_add _ _).symm
    by_cases hsame : entry.1 = hash
    · -- The entry is the only one that is changed.
      have hothers : HashMap.modify transactions hash f = transactions :=
        modify_of_notMem (hsame ▸ hfirst)
      have hcons : HashMap.modify (entry :: transactions) hash f =
          (entry.1, f entry.2) :: transactions := by
        rw [HashMap.modify, List.map_cons, if_pos hsame]
        exact congrArg _ hothers
      rw [hcons, values, values, List.map_cons, List.map_cons, hsplit, hsplit, hf, hentry, hfield,
        hsame, List.map_append, ← Multiset.coe_add, add_right_comm]
    -- Another entry is changed, or none.
    · have hcons : HashMap.modify (entry :: transactions) hash f =
          entry :: HashMap.modify transactions hash f := by
        rw [HashMap.modify, List.map_cons, if_neg hsame]
        rfl
      have hmem' : hash ∈ keys transactions ∨ new = [] :=
        hmem.imp_left fun hmem => (List.mem_cons.mp hmem).resolve_left (Ne.symm hsame)
      have hrest := ih ⟨hrest, hhashes⟩ hmem'
      rw [values, values] at hrest
      rw [hcons, values, values, List.map_cons, List.map_cons, hsplit, hsplit, hrest, ← add_assoc]

theorem entriesOf_orInsert
    (hempty : field { blockNumber, transactionHash := hash } = []) :
    entriesOf field (values (orInsert transactions hash { blockNumber, transactionHash := hash })) =
      entriesOf field (values transactions) := by
  unfold orInsert
  split_ifs
  · rfl
  · have hnone : entriesOf field [⟨blockNumber, hash, [], [], [], [], none⟩] = 0 := by
      rw [entriesOf, List.flatMap_singleton, hempty]
      rfl
    rw [values, values, List.map_append, entriesOf_append]
    exact (congrArg _ hnone).trans (add_zero _)

theorem entriesOf_upsert (h : Keyed transactions)
    (hf : ∀ tx, (f tx).transactionHash = tx.transactionHash)
    (hfield : ∀ tx, field (f tx) = field tx ++ new)
    (hempty : field { blockNumber, transactionHash := hash } = []) :
    entriesOf field (values (transactions.upsert blockNumber hash f)) =
      entriesOf field (values transactions) + (new.map (Prod.mk hash) : List (Felt × α)) := by
  unfold upsert
  refine (entriesOf_modify (keyed_orInsert h) hf hfield (.inl ?_)).trans ?_
  · have hmem : hash ∈ keys (transactions.upsert blockNumber hash id) :=
      mem_keys_upsert.mpr (.inr rfl)
    rwa [upsert, keys_modify] at hmem
  · rw [entriesOf_orInsert hempty]

theorem forall_upsert {P : Felt → ℕ → Prop}
    (h : ∀ entry ∈ transactions, P entry.1 entry.2.blockNumber) (hnew : P hash blockNumber)
    (hf : ∀ tx, (f tx).blockNumber = tx.blockNumber) :
    ∀ entry ∈ transactions.upsert blockNumber hash f, P entry.1 entry.2.blockNumber := by
  have hinsert : ∀ entry ∈ orInsert transactions hash ⟨blockNumber, hash, [], [], [], [], none⟩,
      P entry.1 entry.2.blockNumber := by
    unfold orInsert
    split_ifs
    · exact h
    · intro entry hentry
      rcases List.mem_append.mp hentry with hold | hadded
      · exact h entry hold
      · rw [List.mem_singleton.mp hadded]
        exact hnew
  intro entry hentry
  obtain ⟨entry', hentry', rfl⟩ := List.mem_map.mp hentry
  split_ifs
  · exact (hf entry'.2).symm ▸ hinsert entry' hentry'
  · exact hinsert entry' hentry'

end Transactions

/-! ### Notes -/

variable {snapshot : Snapshot} {userAddress : Felt} {transactions : Transactions}
  {hashes : List (Felt × Felt)} {blockNumber : ℕ} {notes : List HistoryNote}

theorem addNote_transactionHash (note : HistoryNote) (tx : HistoryTransaction) :
    (tx.addNote note).transactionHash = tx.transactionHash := rfl

theorem addNote_notes (note : HistoryNote) (tx : HistoryTransaction) :
    (tx.addNote note).notes = tx.notes ++ [note] := rfl

theorem insertNotes_cons (note : HistoryNote) :
    insertNotes hashes blockNumber (note :: notes) transactions =
      insertNotes hashes blockNumber notes (match AddressMap.get hashes note.noteId with
        | some hash => transactions.upsert blockNumber hash (HistoryTransaction.addNote note)
        | none => transactions) := rfl

theorem mem_keys_insertNotes {hash : Felt} :
    hash ∈ keys (insertNotes hashes blockNumber notes transactions) ↔
      hash ∈ keys transactions ∨ ∃ note ∈ notes, AddressMap.get hashes note.noteId = some hash := by
  induction notes generalizing transactions with
  | nil => simp [insertNotes]
  | cons note notes ih =>
    rw [insertNotes_cons, ih]
    cases hget : AddressMap.get hashes note.noteId with
    | none => simp [hget]
    | some hash' =>
      rw [Transactions.mem_keys_upsert, or_assoc]
      simp [hget, eq_comm]

theorem keyed_insertNotes (h : transactions.Keyed) :
    (insertNotes hashes blockNumber notes transactions).Keyed := by
  induction notes generalizing transactions with
  | nil => exact h
  | cons note notes ih =>
    rw [insertNotes_cons]
    refine ih ?_
    split
    · exact h.upsert (addNote_transactionHash note)
    · exact h

theorem blockNumber_insertNotes (h : ∀ entry ∈ transactions, entry.2.blockNumber = blockNumber) :
    ∀ entry ∈ insertNotes hashes blockNumber notes transactions,
      entry.2.blockNumber = blockNumber := by
  induction notes generalizing transactions with
  | nil => exact h
  | cons note notes ih =>
    rw [insertNotes_cons]
    refine ih ?_
    split
    · exact Transactions.forall_upsert (P := fun _ n => n = blockNumber) h rfl fun _ => rfl
    · exact h

theorem insertNotes_append (others : Transactions)
    (h : ∀ note ∈ notes, ∀ hash, AddressMap.get hashes note.noteId = some hash →
      hash ∉ keys others) :
    insertNotes hashes blockNumber notes (others ++ transactions) =
      others ++ insertNotes hashes blockNumber notes transactions := by
  induction notes generalizing transactions with
  | nil => rfl
  | cons note notes ih =>
    obtain ⟨hnote, hrest⟩ := List.forall_mem_cons.mp h
    rw [insertNotes_cons, insertNotes_cons, ← ih hrest]
    cases hget : AddressMap.get hashes note.noteId with
    | none => rfl
    | some hash =>
      dsimp only
      rw [Transactions.upsert_append others (hnote hash hget)]

/-- The notes of transactions after notes are added. -/
theorem entriesOf_insertNotes_notes (h : transactions.Keyed) :
    entriesOf HistoryTransaction.notes (insertNotes hashes blockNumber notes transactions).values =
      entriesOf HistoryTransaction.notes transactions.values +
        (notes.filterMap fun note => (AddressMap.get hashes note.noteId).map fun hash =>
          (hash, note) : List (Felt × HistoryNote)) := by
  induction notes generalizing transactions with
  | nil => exact (add_zero _).symm
  | cons note notes ih =>
    rw [insertNotes_cons, List.filterMap_cons]
    cases hget : AddressMap.get hashes note.noteId with
    | none => exact ih h
    | some hash =>
      dsimp only [Option.map_some]
      have hadded : entriesOf HistoryTransaction.notes
          (transactions.upsert blockNumber hash (HistoryTransaction.addNote note)).values =
          entriesOf HistoryTransaction.notes transactions.values +
            (([note].map (Prod.mk hash) : List (Felt × HistoryNote)) :
              Multiset (Felt × HistoryNote)) :=
        Transactions.entriesOf_upsert h (addNote_transactionHash note) (addNote_notes note) rfl
      rw [ih (h.upsert (addNote_transactionHash note)), hadded, add_assoc, ← Multiset.cons_coe]
      rfl

/-- What else transactions have stays. -/
theorem entriesOf_insertNotes {α : Type} {field : HistoryTransaction → List α}
    (h : transactions.Keyed)
    (hfield : ∀ (tx : HistoryTransaction) (notes : List HistoryNote),
      field { tx with notes } = field tx)
    (hempty : ∀ hash, field { blockNumber, transactionHash := hash } = []) :
    entriesOf field (insertNotes hashes blockNumber notes transactions).values =
      entriesOf field transactions.values := by
  induction notes generalizing transactions with
  | nil => rfl
  | cons note notes ih =>
    rw [insertNotes_cons]
    cases hget : AddressMap.get hashes note.noteId with
    | none => exact ih h
    | some hash =>
      have hsame : ∀ tx, field (HistoryTransaction.addNote note tx) = field tx ++ [] :=
        fun tx => (hfield tx _).trans (List.append_nil _).symm
      have hadded := Transactions.entriesOf_upsert h (addNote_transactionHash note) hsame
        (hempty hash)
      exact (ih (h.upsert (addNote_transactionHash note))).trans (hadded.trans (add_zero _))

/-! ### Events -/

/-- What events add, each with the hash of its transaction. -/
def entriesOfEvents {α : Type} (added : PrivacyPoolEvent → List α)
    (events : List PrivacyPoolEvent) : Multiset (Felt × α) :=
  (events.flatMap fun event => (added event).map (Prod.mk event.transactionHash) :
    List (Felt × α))

theorem entriesOfEvents_none {α : Type} (events : List PrivacyPoolEvent) :
    entriesOfEvents (fun _ => ([] : List α)) events = 0 :=
  (Multiset.coe_eq_zero _).mpr (List.flatMap_eq_nil_iff.mpr fun _ _ => rfl)

/-- The deposit of the user that an event is. -/
def depositOf (userAddress : Felt) (event : PrivacyPoolEvent) : List DepositEvent :=
  match event.content with
  | .deposit deposit => if deposit.userAddress = userAddress then [deposit] else []
  | _ => []

/-- The withdrawal that an event is. -/
def withdrawalOf (event : PrivacyPoolEvent) : List WithdrawalEvent :=
  match event.content with
  | .withdrawal withdrawal => [withdrawal]
  | _ => []

theorem attach_header (tx : HistoryTransaction) (event : PrivacyPoolEvent) :
    (tx.attach userAddress event).transactionHash = tx.transactionHash ∧
      (tx.attach userAddress event).blockNumber = tx.blockNumber ∧
      (tx.attach userAddress event).notes = tx.notes ∧
      (tx.attach userAddress event).registeredPubkey = tx.registeredPubkey := by
  unfold HistoryTransaction.attach
  repeat' split
  all_goals exact ⟨rfl, rfl, rfl, rfl⟩

theorem attach_deposits (tx : HistoryTransaction) (event : PrivacyPoolEvent) :
    (tx.attach userAddress event).deposits = tx.deposits ++ depositOf userAddress event := by
  unfold HistoryTransaction.attach depositOf
  cases event.content with
  | deposit deposit =>
    dsimp only
    split_ifs
    · rfl
    · exact (List.append_nil _).symm
  | withdrawal | encNoteCreated | openNoteDeposited | viewingKeySet =>
    exact (List.append_nil _).symm

theorem attach_withdrawals (tx : HistoryTransaction) (event : PrivacyPoolEvent) :
    (tx.attach userAddress event).withdrawals = tx.withdrawals ++ withdrawalOf event := by
  unfold HistoryTransaction.attach withdrawalOf
  cases event.content with
  | withdrawal withdrawal => rfl
  | deposit deposit =>
    dsimp only
    split_ifs <;> exact (List.append_nil _).symm
  | encNoteCreated | openNoteDeposited | viewingKeySet => exact (List.append_nil _).symm

variable {events : List PrivacyPoolEvent}

@[simp] theorem keys_attachEvents :
    keys (attachEvents userAddress events transactions) = keys transactions := by
  induction events generalizing transactions with
  | nil => rfl
  | cons event events ih => exact ih.trans (keys_modify _ _ _)

theorem blockNumber_attachEvents (h : ∀ entry ∈ transactions, entry.2.blockNumber = blockNumber) :
    ∀ entry ∈ attachEvents userAddress events transactions,
      entry.2.blockNumber = blockNumber := by
  induction events generalizing transactions with
  | nil => exact h
  | cons event events ih =>
    refine ih fun entry hentry => ?_
    obtain ⟨entry', hentry', rfl⟩ := List.mem_map.mp hentry
    split_ifs
    · exact (attach_header _ _).2.1.trans (h entry' hentry')
    · exact h entry' hentry'

theorem attachEvents_append (others : Transactions)
    (h : ∀ event ∈ events, event.transactionHash ∉ keys others) :
    attachEvents userAddress events (others ++ transactions) =
      others ++ attachEvents userAddress events transactions := by
  induction events generalizing transactions with
  | nil => rfl
  | cons event events ih =>
    obtain ⟨hevent, hrest⟩ := List.forall_mem_cons.mp h
    rw [attachEvents, List.foldl_cons, modify_append, Transactions.modify_of_notMem hevent]
    exact ih hrest

/-- What events add is what those of the transactions add. -/
theorem entriesOf_attachEvents {α : Type} {field : HistoryTransaction → List α}
    {added : PrivacyPoolEvent → List α} (h : transactions.Keyed)
    (hfield : ∀ tx event, field (HistoryTransaction.attach userAddress tx event) =
      field tx ++ added event) :
    entriesOf field (attachEvents userAddress events transactions).values =
      entriesOf field transactions.values +
        entriesOfEvents added (events.filter fun event =>
          event.transactionHash ∈ keys transactions) := by
  induction events generalizing transactions with
  | nil => exact (add_zero _).symm
  | cons event events ih =>
    have hhash : ∀ tx, (HistoryTransaction.attach userAddress tx event).transactionHash =
        tx.transactionHash := fun tx => (attach_header tx event).1
    refine (ih (h.modify hhash)).trans ?_
    rw [keys_modify]
    by_cases hmem : event.transactionHash ∈ keys transactions
    · rw [Transactions.entriesOf_modify h hhash (hfield · event) (.inl hmem),
        List.filter_cons_of_pos (by simpa using hmem), add_assoc]
      rfl
    · rw [Transactions.modify_of_notMem hmem, List.filter_cons_of_neg (by simpa using hmem)]

/-! ### Withdrawals -/

theorem addWithdrawal_transactionHash (event : PrivacyPoolEvent) (tx : HistoryTransaction) :
    (tx.addWithdrawal event).transactionHash = tx.transactionHash := by
  unfold HistoryTransaction.addWithdrawal
  split <;> rfl

theorem addWithdrawal_blockNumber (event : PrivacyPoolEvent) (tx : HistoryTransaction) :
    (tx.addWithdrawal event).blockNumber = tx.blockNumber := by
  unfold HistoryTransaction.addWithdrawal
  split <;> rfl

theorem addWithdrawal_withdrawals (event : PrivacyPoolEvent) (tx : HistoryTransaction) :
    (tx.addWithdrawal event).withdrawals = tx.withdrawals ++ withdrawalOf event := by
  unfold HistoryTransaction.addWithdrawal withdrawalOf
  cases event.content with
  | withdrawal withdrawal => rfl
  | deposit | encNoteCreated | openNoteDeposited | viewingKeySet =>
    exact (List.append_nil _).symm

/-- The entries are of transactions that were there, or of events. -/
theorem forall_insertWithdrawals {P : Felt → ℕ → Prop}
    (h : ∀ entry ∈ transactions, P entry.1 entry.2.blockNumber)
    (hevents : ∀ event ∈ events, P event.transactionHash event.blockNumber) :
    ∀ entry ∈ insertWithdrawals events transactions, P entry.1 entry.2.blockNumber := by
  induction events generalizing transactions with
  | nil => exact h
  | cons event events ih =>
    obtain ⟨hevent, hrest⟩ := List.forall_mem_cons.mp hevents
    exact ih (Transactions.forall_upsert h hevent (addWithdrawal_blockNumber event)) hrest

theorem insertWithdrawals_append (others : Transactions)
    (h : ∀ event ∈ events, event.transactionHash ∉ keys others) :
    insertWithdrawals events (others ++ transactions) =
      others ++ insertWithdrawals events transactions := by
  induction events generalizing transactions with
  | nil => rfl
  | cons event events ih =>
    obtain ⟨hevent, hrest⟩ := List.forall_mem_cons.mp h
    rw [insertWithdrawals, List.foldl_cons, Transactions.upsert_append others hevent]
    exact ih hrest

theorem entriesOf_insertWithdrawals {α : Type} {field : HistoryTransaction → List α}
    {added : PrivacyPoolEvent → List α} (h : transactions.Keyed)
    (hfield : ∀ tx event, field (HistoryTransaction.addWithdrawal event tx) =
      field tx ++ added event)
    (hempty : ∀ blockNumber hash, field { blockNumber, transactionHash := hash } = []) :
    entriesOf field (insertWithdrawals events transactions).values =
      entriesOf field transactions.values + entriesOfEvents added events := by
  induction events generalizing transactions with
  | nil => exact (add_zero _).symm
  | cons event events ih =>
    have hhash := addWithdrawal_transactionHash event
    refine (ih (h.upsert hhash)).trans ?_
    rw [Transactions.entriesOf_upsert h hhash (hfield · event) (hempty _ _), add_assoc]
    rfl

/-! ### Note creations -/

theorem get_noteIdToTxHash_append (events : List PrivacyPoolEvent) (event : PrivacyPoolEvent)
    (noteId : Felt) :
    AddressMap.get (noteIdToTxHash (events ++ [event])) noteId =
      if event.createdNoteId = some noteId then some event.transactionHash
      else AddressMap.get (noteIdToTxHash events) noteId := by
  rw [noteIdToTxHash, List.foldl_append, List.foldl_cons, List.foldl_nil]
  cases event.createdNoteId with
  | none => rfl
  | some created =>
    simp only [Option.some.injEq]
    exact AddressMap.get_insert _ _ _ _

/-- A transaction that created a note has an event that says so. -/
theorem exists_of_get_noteIdToTxHash {noteId hash : Felt}
    (h : AddressMap.get (noteIdToTxHash events) noteId = some hash) :
    ∃ event ∈ events, event.createdNoteId = some noteId ∧ event.transactionHash = hash := by
  induction events using List.reverseRecOn with
  | nil => cases h
  | append_singleton events event ih =>
    rw [get_noteIdToTxHash_append] at h
    split_ifs at h with hcreated
    · exact ⟨event, List.mem_append_right _ List.mem_cons_self, hcreated, Option.some.inj h⟩
    · obtain ⟨event', hevent', hfound⟩ := ih h
      exact ⟨event', List.mem_append_left _ hevent', hfound⟩

theorem get_noteIdToTxHash_isSome {noteId : Felt}
    (h : ∃ event ∈ events, event.createdNoteId = some noteId) :
    (AddressMap.get (noteIdToTxHash events) noteId).isSome = true := by
  induction events using List.reverseRecOn with
  | nil =>
    obtain ⟨event, hevent, -⟩ := h
    cases hevent
  | append_singleton events event ih =>
    rw [get_noteIdToTxHash_append]
    split_ifs with hcreated
    · rfl
    · obtain ⟨event', hevent', hfound⟩ := h
      rcases List.mem_append.mp hevent' with hold | hlast
      · exact ih ⟨event', hold, hfound⟩
      · rw [List.mem_singleton.mp hlast] at hfound
        exact absurd hfound hcreated

/-! ### Blocks and gaps -/

variable (snapshot userAddress) in
/-- What a block adds to a page. -/
def blockTransactions (blockNumber : ℕ) (notes : List HistoryNote) : Transactions :=
  attachEvents userAddress (eventsOfBlock snapshot blockNumber)
    (insertNotes (noteIdToTxHash (eventsOfBlock snapshot blockNumber)) blockNumber notes [])

variable (snapshot userAddress) in
/-- What the gap above a block adds to a page. -/
def gapTransactions (fromBlock : ℕ) (toBlock : BlockId) : Transactions :=
  insertWithdrawals (snapshot.getWithdrawalEvents userAddress fromBlock toBlock) []

variable (snapshot) in
/-- The transaction that created a note, by the events of a block. -/
def creationHash (blockNumber : ℕ) (noteId : Felt) : Option Felt :=
  AddressMap.get (noteIdToTxHash (eventsOfBlock snapshot blockNumber)) noteId

theorem blockNumber_blockTransactions :
    ∀ entry ∈ blockTransactions snapshot userAddress blockNumber notes,
      entry.2.blockNumber = blockNumber :=
  blockNumber_attachEvents (blockNumber_insertNotes (by simp))

theorem mem_keys_blockTransactions {hash : Felt} :
    hash ∈ keys (blockTransactions snapshot userAddress blockNumber notes) ↔
      ∃ note ∈ notes, creationHash snapshot blockNumber note.noteId = some hash := by
  rw [blockTransactions, keys_attachEvents, mem_keys_insertNotes]
  exact or_iff_right List.not_mem_nil

theorem entriesOf_blockTransactions_notes :
    entriesOf HistoryTransaction.notes
        (blockTransactions snapshot userAddress blockNumber notes).values =
      (notes.filterMap fun note => (creationHash snapshot blockNumber note.noteId).map fun hash =>
        (hash, note) : List (Felt × HistoryNote)) := by
  have hfield : ∀ tx event, (HistoryTransaction.attach userAddress tx event).notes =
      tx.notes ++ [] := fun tx event => (attach_header tx event).2.2.1.trans (List.append_nil _).symm
  rw [blockTransactions, entriesOf_attachEvents (keyed_insertNotes Transactions.keyed_nil) hfield,
    entriesOf_insertNotes_notes Transactions.keyed_nil, entriesOfEvents_none, add_zero]
  exact zero_add _

/-- What a block adds of the events of the transactions that created its notes. -/
theorem entriesOf_blockTransactions {α : Type} {field : HistoryTransaction → List α}
    {added : PrivacyPoolEvent → List α}
    (hattach : ∀ tx event, field (HistoryTransaction.attach userAddress tx event) =
      field tx ++ added event)
    (hnotes : ∀ (tx : HistoryTransaction) (notes : List HistoryNote),
      field { tx with notes } = field tx)
    (hempty : ∀ hash, field { blockNumber, transactionHash := hash } = []) :
    entriesOf field (blockTransactions snapshot userAddress blockNumber notes).values =
      entriesOfEvents added ((eventsOfBlock snapshot blockNumber).filter fun event =>
        ∃ note ∈ notes, creationHash snapshot blockNumber note.noteId =
          some event.transactionHash) := by
  have hkeys : ∀ hash, hash ∈ keys (insertNotes
      (noteIdToTxHash (eventsOfBlock snapshot blockNumber)) blockNumber notes []) ↔
        ∃ note ∈ notes, creationHash snapshot blockNumber note.noteId = some hash := fun hash =>
    mem_keys_insertNotes.trans (or_iff_right List.not_mem_nil)
  rw [blockTransactions, entriesOf_attachEvents (keyed_insertNotes Transactions.keyed_nil) hattach,
    entriesOf_insertNotes Transactions.keyed_nil hnotes hempty]
  simp only [hkeys]
  exact zero_add _

theorem entriesOf_gapTransactions {α : Type} {field : HistoryTransaction → List α}
    {added : PrivacyPoolEvent → List α} {fromBlock : ℕ} {toBlock : BlockId}
    (hfield : ∀ tx event, field (HistoryTransaction.addWithdrawal event tx) =
      field tx ++ added event)
    (hempty : ∀ blockNumber hash, field { blockNumber, transactionHash := hash } = []) :
    entriesOf field (gapTransactions snapshot userAddress fromBlock toBlock).values =
      entriesOfEvents added (snapshot.getWithdrawalEvents userAddress fromBlock toBlock) :=
  (entriesOf_insertWithdrawals Transactions.keyed_nil hfield hempty).trans (zero_add _)

end PrivacyPool.History
