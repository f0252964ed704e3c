import PrivacyPool.Ledger.Preservation

/-!
# The book in the storage words

The book of a pool is read off its words: the record of a slot lies at the
address of its entry. On a domain without collisions, writing a record through
the raw `WriteOnce` writes the record of one slot of the book and nothing else.

## Main definitions

* `view`, `book` — the book that a pool's storage holds
* `storageAction` — the storage part of a server action
* `NotesNamed` — a used note id is the id of a note

## Main results

* `write_slot` — a `WriteOnce` to a slot writes its record
* `Block.storage` — the storage part of a block's server actions performs the
  block on the book
-/

namespace PrivacyPool

open Fallible WriteOnce Classical

/-- The records that the words of a pool hold, for the slots in play. -/
noncomputable def view (sn : Starknet) (D : Domain) (words : ℕ → Felt) : Ledger := fun s j =>
  if s.Covered D ∧ j < s.var.size then words (s.base sn + j) else 0

/-- The book that the storage of a pool holds. -/
noncomputable def book (sn : Starknet) (D : Domain) (pool : Pool) : Book :=
  ⟨view sn D pool.words, pool.recipientChannels⟩

/-- The storage part of a server action. -/
def storageAction (pool : Pool) : ServerAction → Except Error Pool
  | .writeOnce input => pool.applyWriteOnce input
  | .append input => return pool.applyAppend input
  | .transferFrom _ | .transferTo _ | .invoke _ | .invokeWithComputation _
  | .emitViewingKeySet _ | .emitWithdrawal _ | .emitDeposit _ | .emitOpenNoteCreated _
  | .emitEncNoteCreated _ | .emitNoteUsed _ => return pool

/-- A used note id in play is the id of a note in play. -/
def NotesNamed (sn : Starknet) (D : Domain) (words : ℕ → Felt) : Prop :=
  ∀ key, D.IsKey sn key → words (sn.entry .notes key).val ≠ 0 →
    ∃ n : NoteKey, (Slot.note n).Covered D ∧ n.id sn = key

variable {sn : Starknet} {D : Domain} {words : ℕ → Felt} {pool pool' : Pool} {s : Slot}

theorem view_of_covered (hs : s.Covered D) {j : ℕ} (hj : j < s.var.size) :
    view sn D words s j = words (s.base sn + j) := if_pos ⟨hs, hj⟩

theorem StorageVar.size_pos (var : StorageVar) : 0 < var.size := by cases var <;> decide

/-- The first word of a slot in play. -/
theorem view_head (hs : s.Covered D) : view sn D words s 0 = words (s.base sn) :=
  view_of_covered hs s.var.size_pos

theorem covered_of_view {j : ℕ} (h : view sn D words s j ≠ 0) : s.Covered D := by
  by_contra hs
  exact h (if_neg fun hboth => hs hboth.1)

/-- Reading the entry of a slot reads the first word of its record. -/
theorem read_eq (hs : s.Covered D) :
    pool.read sn s.var (s.key sn) 0 = view sn D pool.words s 0 := (view_head hs).symm

theorem used_of_read (hs : s.Covered D) (h : pool.read sn s.var (s.key sn) 0 ≠ 0) :
    view sn D pool.words s 0 ≠ 0 := by
  rwa [read_eq hs] at h

/-- The recipient of an open channel is registered. -/
theorem OpenedWith.read_publicKey {c : Channel} {k : Felt}
    (h : OpenedWith sn D (view sn D pool.words) c k) :
    pool.read sn .publicKey (ContractAddress.toFelt c.recipientAddr) 0 = c.recipientPublicKey := by
  have hused : view sn D pool.words (.publicKey c.recipientAddr) 0 ≠ 0 := by
    rw [h.recipient]
    exact h.registered
  exact (read_eq (s := .publicKey c.recipientAddr) (covered_of_view hused)).trans h.recipient

/-! ### Writing a record -/

/-- Overlaying the words of a slot in play writes its record. -/
theorem view_overlay (hD : NoCollision sn D) (hs : s.Covered D) {value : List Felt}
    (hlength : value.length ≤ s.var.size) (hblank : view sn D words s = 0) :
    view sn D (overlay words (wordsAt (s.base sn) value)) =
      Function.update (view sn D words) s (record value) := by
  funext s' j
  by_cases hcovered : s'.Covered D ∧ j < s'.var.size
  · obtain ⟨hs', hj⟩ := hcovered
    rw [view_of_covered hs' hj]
    cases hcell : wordsAt (s.base sn) value (s'.base sn + j) with
    | some w =>
      -- The word lies in the written span, so it belongs to the slot.
      obtain ⟨i, haddress, hi⟩ := wordsAt_eq_some.mp hcell
      obtain ⟨hlt, hw⟩ := List.getElem?_eq_some_iff.mp hi
      obtain ⟨rfl, rfl⟩ := Slot.eq_of_overlap hD hs' hs hj (by omega) haddress
      rw [overlay_of_some hcell, Function.update_self, record, List.getD_eq_getElem?_getD, hi,
        Option.getD_some]
    | none =>
      rw [overlay_of_none hcell]
      by_cases heq : s' = s
      · subst heq
        have hout : value[j]? = none := by
          rw [wordsAt, if_pos (Nat.le_add_right _ _), Nat.add_sub_cancel_left] at hcell
          exact hcell
        have hzero := congrFun hblank j
        rw [view_of_covered hs' hj] at hzero
        rw [Function.update_self, record, List.getD_eq_getElem?_getD, hout, Option.getD_none]
        exact hzero
      · rw [Function.update_of_ne heq, view_of_covered hs' hj]
  · rw [view, if_neg hcovered]
    by_cases heq : s' = s
    · subst heq
      have hj : s'.var.size ≤ j := by
        by_contra hlt
        exact hcovered ⟨hs, not_le.mp hlt⟩
      rw [Function.update_self, record, List.getD_eq_getElem?_getD,
        List.getElem?_eq_none (hlength.trans hj), Option.getD_none]
    · rw [Function.update_of_ne heq, view, if_neg hcovered]

/-- A `WriteOnce` to a slot in play finds its record blank and writes it. -/
theorem write_slot (hD : NoCollision sn D) (hheaded : Headed (view sn D pool.words))
    (hs : s.Covered D) {value : Span Felt} (hlength : value.1.length ≤ s.var.size)
    (h : pool.applyWriteOnce ⟨s.address sn, value⟩ = .ok pool') :
    (view sn D pool.words s = 0 ∧ value.1.headD 0 ≠ 0) ∧
      view sn D pool'.words = Function.update (view sn D pool.words) s (record value.1) ∧
      pool' = { pool with words := overlay pool.words (wordsAt (s.base sn) value.1) } := by
  obtain ⟨hhead, -, hblank, rfl⟩ := applyWriteOnce_eq_ok.mp h
  have hcells : WriteOnceInput.cells ⟨s.address sn, value⟩ = wordsAt (s.base sn) value.1 := by
    rw [WriteOnceInput.cells, Slot.address, storageBaseAddress_entry, Slot.base]
  rw [hcells] at hblank ⊢
  have hpos : 0 < value.1.length := by
    cases hvalue : value.1 with
    | nil => exact absurd (by rw [hvalue]; rfl) hhead
    | cons w rest => exact Nat.succ_pos _
  have hfirst : view sn D pool.words s 0 = 0 := by
    rw [view_head hs]
    exact blank_wordsAt_iff.mp hblank 0 hpos
  have hzero := hheaded s hfirst
  exact ⟨⟨hzero, hhead⟩, view_overlay hD hs hlength hzero, rfl⟩

/-- Writing one record keeps the others headed. -/
theorem headed_update {L : Ledger} (h : Headed L) {r : Record} (hr : r 0 ≠ 0) :
    Headed (Function.update L s r) := by
  intro s' hs'
  by_cases heq : s' = s
  · subst heq
    rw [Function.update_self] at hs'
    exact absurd hs' hr
  · rw [Function.update_of_ne heq] at hs' ⊢
    exact h s' hs'

/-! ### Writing several records -/

/-- A changed word lies in the span that is overlaid. -/
theorem mem_of_overlay_ne {value : List Felt} (hlength : value.length ≤ s.var.size) {a : ℕ}
    (h : overlay words (wordsAt (s.base sn) value) a ≠ words a) :
    ∃ i < s.var.size, a = s.base sn + i := by
  cases hcell : wordsAt (s.base sn) value a with
  | none => exact absurd (overlay_of_none hcell) h
  | some w =>
    obtain ⟨i, haddress, hi⟩ := wordsAt_eq_some.mp hcell
    exact ⟨i, (List.getElem?_eq_some_iff.mp hi).1.trans_le hlength, haddress⟩

/-- The records `puts` were blank in one pool and are written in the next. -/
structure Written (sn : Starknet) (D : Domain) (puts : List (Slot × List Felt))
    (pool pool' : Pool) : Prop where
  fresh : ∀ p ∈ puts, view sn D pool.words p.1 = 0 ∧ p.2.headD 0 ≠ 0
  ledger : view sn D pool'.words =
    puts.foldl (fun L p => Function.update L p.1 (record p.2)) (view sn D pool.words)
  frame : pool' = { pool with words := pool'.words }
  changed : ∀ a, pool'.words a ≠ pool.words a →
    ∃ p ∈ puts, ∃ i < p.1.var.size, a = p.1.base sn + i

theorem Written.nil (pool : Pool) : Written sn D [] pool pool :=
  ⟨fun _ h => absurd h List.not_mem_nil, rfl, rfl, fun _ h => absurd rfl h⟩

theorem Written.cons (hD : NoCollision sn D) (hheaded : Headed (view sn D pool.words))
    (hs : s.Covered D) {value : Span Felt} (hlength : value.1.length ≤ s.var.size)
    {rest : List (Slot × List Felt)} (hnew : ∀ p ∈ rest, p.1 ≠ s) {next : Pool}
    (h : pool.applyWriteOnce ⟨s.address sn, value⟩ = .ok next)
    (hrest : Headed (view sn D next.words) → Written sn D rest next pool') :
    Written sn D ((s, value.1) :: rest) pool pool' := by
  obtain ⟨⟨hblank, hhead⟩, hview, hnext⟩ := write_slot hD hheaded hs hlength h
  have hheaded' : Headed (view sn D next.words) := by
    rw [hview]
    exact headed_update hheaded (by rwa [record_zero])
  have hmore := hrest hheaded'
  refine ⟨?_, ?_, ?_, ?_⟩
  · intro p hp
    rcases List.mem_cons.mp hp with rfl | hp
    · exact ⟨hblank, hhead⟩
    · obtain ⟨hblank', hhead'⟩ := hmore.fresh p hp
      rw [hview, Function.update_of_ne (hnew p hp)] at hblank'
      exact ⟨hblank', hhead'⟩
  · rw [List.foldl_cons, hmore.ledger, hview]
  · rw [hmore.frame, hnext]
  · intro a ha
    by_cases hchanged : next.words a = pool.words a
    · obtain ⟨p, hp, i, hi, haddress⟩ := hmore.changed a (hchanged ▸ ha)
      exact ⟨p, List.mem_cons_of_mem _ hp, i, hi, haddress⟩
    · rw [hnext] at hchanged
      obtain ⟨i, hi, haddress⟩ := mem_of_overlay_ne hlength hchanged
      exact ⟨_, List.mem_cons_self, i, hi, haddress⟩

/-! ### The storage part of a block -/

/-- What a block does to the storage of a pool. -/
structure Block.Stored (sn : Starknet) (D : Domain) (b : Block) (pool pool' : Pool) : Prop where
  fresh : b.Fresh (view sn D pool.words)
  ledger : view sn D pool'.words = b.write (view sn D pool.words)
  channels : pool'.recipientChannels = b.append pool.recipientChannels
  frame : pool' = { pool with words := pool'.words, recipientChannels := pool'.recipientChannels }
  changed : ∀ a, pool'.words a ≠ pool.words a →
    ∃ p ∈ b.puts, ∃ i < p.1.var.size, a = p.1.base sn + i

theorem Written.stored {b : Block} (h : Written sn D b.puts pool pool')
    (happend : b.append pool.recipientChannels = pool.recipientChannels) :
    b.Stored sn D pool pool' where
  fresh := h.fresh
  ledger := h.ledger
  channels := by rw [happend, h.frame]
  frame := by rw [h.frame]
  changed := h.changed

/-- The storage part of a block's server actions performs the block on the book. -/
theorem Block.storage (hD : NoCollision sn D) (hheaded : Headed (view sn D pool.words)) {b : Block}
    (hcovered : ∀ p ∈ b.puts, p.1.Covered D)
    (h : (b.serverActions sn).foldlM storageAction pool = .ok pool') :
    b.Stored sn D pool pool' := by
  have hlength : ∀ p ∈ b.puts, p.2.length ≤ p.1.var.size := fun p => Block.length_le_size
  cases b with
  -- Two cells are written.
  | setViewingKey | openSubchannel =>
    simp only [puts, List.forall_mem_cons, List.not_mem_nil, IsEmpty.forall_iff, implies_true,
      and_true] at hcovered hlength
    simp only [serverActions, foldlM_cons_eq_ok, foldlM_nil_eq_ok, storageAction, pure_eq_ok,
      toWriteOnceAction, exists_eq_left'] at h
    obtain ⟨next, hfirst, last, hsecond, rfl⟩ := h
    refine Written.stored (Written.cons hD hheaded hcovered.1 hlength.1 (by simp) hfirst
      fun hnext => ?_) rfl
    exact Written.cons hD hnext hcovered.2 hlength.2 (by simp) hsecond fun _ => Written.nil _
  | openChannel =>
    simp only [puts, List.forall_mem_cons, List.not_mem_nil, IsEmpty.forall_iff, implies_true,
      and_true] at hcovered hlength
    simp only [serverActions, foldlM_cons_eq_ok, foldlM_nil_eq_ok, storageAction, pure_eq_ok,
      toWriteOnceAction, exists_eq_left'] at h
    obtain ⟨next, hfirst, last, hsecond, rfl⟩ := h
    -- The append comes first and touches no word.
    have hwritten := Written.cons hD
      (show Headed (view sn D (pool.applyAppend _).words) from hheaded) hcovered.1 hlength.1
      (by simp) hfirst fun hnext =>
        Written.cons hD hnext hcovered.2 hlength.2 (by simp) hsecond fun _ => Written.nil _
    exact ⟨hwritten.fresh, hwritten.ledger, by rw [hwritten.frame]; rfl,
      by rw [hwritten.frame]; rfl, hwritten.changed⟩
  -- One cell is written.
  | createEncNote | createOpenNote | useNote =>
    simp only [puts, List.forall_mem_cons, List.not_mem_nil, IsEmpty.forall_iff, implies_true,
      and_true] at hcovered hlength
    simp only [serverActions, foldlM_cons_eq_ok, foldlM_nil_eq_ok, storageAction, pure_eq_ok,
      toWriteOnceAction, exists_eq_left'] at h
    obtain ⟨next, hfirst, rfl⟩ := h
    exact Written.stored (Written.cons hD hheaded hcovered hlength (by simp) hfirst
      fun _ => Written.nil _) rfl
  | deposit | withdraw | invoke | invokeWithComputation =>
    simp only [serverActions, foldlM_cons_eq_ok, foldlM_nil_eq_ok, storageAction, pure_eq_ok,
      exists_eq_left'] at h
    subst h
    exact Written.stored (Written.nil _) rfl

/-! ### Note ids -/

/-- When only records in play change, used note ids stay named. -/
theorem NotesNamed.of_changed (hD : NoCollision sn D) {words' : ℕ → Felt}
    (hnamed : NotesNamed sn D words)
    (hchanged : ∀ a, words' a ≠ words a →
      ∃ s : Slot, s.Covered D ∧ ∃ i < s.var.size, a = s.base sn + i) :
    NotesNamed sn D words' := by
  intro key hkey hused
  by_cases hsame : words' (sn.entry .notes key).val = words (sn.entry .notes key).val
  · exact hnamed key hkey (hsame ▸ hused)
  · obtain ⟨s, hs, i, hi, haddress⟩ := hchanged _ hsame
    obtain ⟨hvar, hname, -⟩ := hD.entry_disjoint (i := 0) hkey (Slot.isKey_of_covered hs)
      (by decide) hi haddress
    cases s with
    | note n => exact ⟨n, hs, hname.symm⟩
    | _ => simp [Slot.var] at hvar

/-- A block names the notes it writes. -/
theorem Block.Stored.notesNamed (hD : NoCollision sn D) {b : Block}
    (h : b.Stored sn D pool pool') (hcovered : ∀ p ∈ b.puts, p.1.Covered D)
    (hnamed : NotesNamed sn D pool.words) : NotesNamed sn D pool'.words := by
  refine hnamed.of_changed hD fun a ha => ?_
  obtain ⟨p, hp, hslot⟩ := h.changed a ha
  exact ⟨p.1, hcovered p hp, hslot⟩

end PrivacyPool
