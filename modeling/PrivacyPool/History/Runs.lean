import PrivacyPool.History.Pages

/-!
# The pages of a client

A client calls for pages, each with the cursor of the last one that returned, until the history
is complete. What the pages return together is the history of the notes that were due, but for
those that cut pages lose.

## Main definitions

* `Paged` — the pages up to the complete one, put together
* `UncutPages` — no page that returns is cut
* `HistoryOf` — the history of what is not lost

## Main results

* `Paged.historyOf` — the pages return the history of what they have not lost
-/

namespace PrivacyPool.History

open Discovery HashMap

variable (sn : Starknet) (snapshot : Snapshot) (userAddress : Felt)

/-- The pages for requests with a maximum of transactions and a budget each, up to the page that
completes the history. A page that fails leaves the cursor of the client. -/
inductive Paged : HistoryCursor → List (ℕ × ℕ) → List HistoryTransaction → Prop
  | last {cursor cursor' : HistoryCursor} {maxTransactions budget : ℕ}
      {txs : List HistoryTransaction} :
      fetchTransactions sn snapshot userAddress cursor maxTransactions budget =
        .ok (txs, cursor') →
      cursor'.historyComplete = true → Paged cursor [(maxTransactions, budget)] txs
  | page {cursor cursor' : HistoryCursor} {maxTransactions budget : ℕ}
      {requests : List (ℕ × ℕ)} {txs rest : List HistoryTransaction} :
      fetchTransactions sn snapshot userAddress cursor maxTransactions budget =
        .ok (txs, cursor') →
      cursor'.historyComplete = false → Paged cursor' requests rest →
      Paged cursor ((maxTransactions, budget) :: requests) (txs ++ rest)
  | failed {cursor : HistoryCursor} {maxTransactions budget : ℕ} {requests : List (ℕ × ℕ)}
      {txs : List HistoryTransaction} {e : DiscoveryError} :
      fetchTransactions sn snapshot userAddress cursor maxTransactions budget = .error e →
      Paged cursor requests txs → Paged cursor ((maxTransactions, budget) :: requests) txs

/-- No page that returns is cut. -/
inductive UncutPages : HistoryCursor → List (ℕ × ℕ) → Prop
  | nil {cursor : HistoryCursor} : UncutPages cursor []
  | page {cursor cursor' : HistoryCursor} {maxTransactions budget : ℕ}
      {requests : List (ℕ × ℕ)} {txs : List HistoryTransaction} :
      fetchTransactions sn snapshot userAddress cursor maxTransactions budget =
        .ok (txs, cursor') →
      Uncut sn snapshot userAddress cursor maxTransactions budget → UncutPages cursor' requests →
      UncutPages cursor ((maxTransactions, budget) :: requests)
  | failed {cursor : HistoryCursor} {maxTransactions budget : ℕ} {requests : List (ℕ × ℕ)}
      {e : DiscoveryError} :
      fetchTransactions sn snapshot userAddress cursor maxTransactions budget = .error e →
      UncutPages cursor requests → UncutPages cursor ((maxTransactions, budget) :: requests)

/-- Pages up to the complete one return the history of the notes that they do not lose. -/
structure HistoryOf (cursor : HistoryCursor) (processed lost : Multiset (ℕ × HistoryNote))
    (lower : ℕ) (txs : List HistoryTransaction) : Prop where
  due : cursor.due sn snapshot = processed + lost
  above : ∀ note ∈ processed, lower < note.1
  lower_le : lower ≤ cursor.upperBound snapshot
  lowest : lower = cursor.upperBound snapshot ∨ ∃ note ∈ processed, note.1 = lower + 1
  notes : entriesOf HistoryTransaction.notes txs = createdNotes snapshot processed
  deposits : entriesOf HistoryTransaction.deposits txs =
    createdEvents snapshot (depositOf userAddress) processed
  registrations : entriesOf HistoryTransaction.registration txs =
    entriesOf HistoryTransaction.registration (registrationOf sn snapshot userAddress).toList
  withdrawals : cursor.Confirmed snapshot →
    entriesOf (HistoryTransaction.withdrawalsTo userAddress) txs =
      shownWithdrawals snapshot userAddress processed lower (cursor.upperBound snapshot)

variable {sn snapshot userAddress} {cursor cursor' : HistoryCursor} {requests : List (ℕ × ℕ)}
  {processed processed' lost lost' : Multiset (ℕ × HistoryNote)} {lower : ℕ}
  {txs rest : List HistoryTransaction}

theorem uncutPages_page {maxTransactions budget : ℕ}
    (h : fetchTransactions sn snapshot userAddress cursor maxTransactions budget =
      .ok (txs, cursor')) :
    UncutPages sn snapshot userAddress cursor ((maxTransactions, budget) :: requests) ↔
      Uncut sn snapshot userAddress cursor maxTransactions budget ∧
        UncutPages sn snapshot userAddress cursor' requests := by
  refine ⟨fun hpages => ?_, fun hboth => .page h hboth.1 hboth.2⟩
  cases hpages with
  | page hpage huncut hrest =>
    obtain ⟨-, rfl⟩ := Prod.ext_iff.mp (Except.ok.inj (h.symm.trans hpage))
    exact ⟨huncut, hrest⟩
  | failed hpage => cases h.symm.trans hpage

theorem uncutPages_failed {maxTransactions budget : ℕ} {e : DiscoveryError}
    (h : fetchTransactions sn snapshot userAddress cursor maxTransactions budget = .error e) :
    UncutPages sn snapshot userAddress cursor ((maxTransactions, budget) :: requests) ↔
      UncutPages sn snapshot userAddress cursor requests := by
  refine ⟨fun hpages => ?_, .failed h⟩
  cases hpages with
  | page hpage => cases h.symm.trans hpage
  | failed _ hrest => exact hrest

/-- A page that completes the history. -/
theorem PageOf.last (h : PageOf sn snapshot userAddress cursor processed lost txs cursor')
    (hcomplete : cursor'.historyComplete = true) :
    HistoryOf sn snapshot userAddress cursor processed lost (cursor'.upperBound snapshot) txs where
  due := by rw [h.due, (h.complete hcomplete).2, add_zero]
  above := h.above
  lower_le := h.upperBound_le
  lowest := h.lowest
  notes := h.notes
  deposits := h.deposits
  registrations := by rw [h.registrations, if_pos hcomplete]
  withdrawals hconfirmed := (h.withdrawals hconfirmed).2

/-- A page before others. -/
theorem PageOf.append (h : PageOf sn snapshot userAddress cursor processed lost txs cursor')
    (hcomplete : cursor'.historyComplete = false)
    (hrest : HistoryOf sn snapshot userAddress cursor' processed' lost' lower rest) :
    HistoryOf sn snapshot userAddress cursor (processed + processed') (lost + lost') lower
      (txs ++ rest) := by
  -- What later pages process was due on this cursor, hence not above its bound.
  have hbelow : ∀ note ∈ processed', note.1 ≤ cursor'.upperBound snapshot := by
    intro note hnote
    have hdue : note ∈ cursor'.due sn snapshot := by
      rw [hrest.due]
      exact Multiset.mem_add.mpr (.inl hnote)
    exact (mem_due.mp hdue).2
  refine ⟨?_, fun note hnote => ?_, hrest.lower_le.trans h.upperBound_le, ?_, ?_, ?_, ?_,
    fun hconfirmed => ?_⟩
  · rw [h.due, hrest.due, add_add_add_comm]
  · rcases Multiset.mem_add.mp hnote with hfirst | hlater
    · exact hrest.lower_le.trans_lt (h.above note hfirst)
    · exact hrest.above note hlater
  · rcases hrest.lowest with hsame | ⟨note, hnote, hnext⟩
    · rw [hsame]
      exact h.lowest.imp_right fun ⟨note, hnote, hnext⟩ =>
        ⟨note, Multiset.mem_add.mpr (.inl hnote), hnext⟩
    · exact .inr ⟨note, Multiset.mem_add.mpr (.inr hnote), hnext⟩
  · rw [entriesOf_append, h.notes, hrest.notes, createdNotes_add]
  · rw [entriesOf_append, h.deposits, hrest.deposits, createdEvents_add h.above hbelow]
  · rw [entriesOf_append, h.registrations, hcomplete, hrest.registrations]
    exact zero_add _
  · obtain ⟨hconfirmed', hshown⟩ := h.withdrawals hconfirmed
    rw [entriesOf_append, hshown, hrest.withdrawals hconfirmed',
      shownWithdrawals_add hrest.lower_le h.upperBound_le h.above hbelow]

/-- The pages return the history of what they have not lost; they lose nothing just when none
is cut. -/
theorem Paged.historyOf (h : Paged sn snapshot userAddress cursor requests txs)
    (hordered : ∀ subchannel ∈ cursor.subchannels, subchannel.BlocksOrdered sn snapshot.toBackend)
    (hannounced : ∀ note ∈ cursor.due sn snapshot, Announced snapshot note) :
    ∃ processed lost lower,
      HistoryOf sn snapshot userAddress cursor processed lost lower txs ∧
        (lost = 0 ↔ UncutPages sn snapshot userAddress cursor requests) := by
  induction h with
  | last hpage hcomplete =>
    obtain ⟨processed, lost, hof, huncut⟩ := fetchTransactions_spec hordered hannounced hpage
    refine ⟨processed, lost, _, hof.last hcomplete, ?_⟩
    exact (huncut.trans (and_iff_left .nil).symm).trans (uncutPages_page hpage).symm
  | page hpage hcomplete _ ih =>
    obtain ⟨processed, lost, hof, huncut⟩ := fetchTransactions_spec hordered hannounced hpage
    obtain ⟨processed', lost', lower, hrest, huncut'⟩ := ih hof.ordered fun note hnote => by
      refine hannounced note ?_
      rw [hof.due]
      exact Multiset.mem_add.mpr (.inr hnote)
    refine ⟨processed + processed', lost + lost', lower, hof.append hcomplete hrest, ?_⟩
    rw [uncutPages_page hpage, ← Multiset.card_eq_zero, Multiset.card_add, Nat.add_eq_zero_iff,
      Multiset.card_eq_zero, Multiset.card_eq_zero, huncut, huncut']
  | failed hpage _ ih =>
    rw [uncutPages_failed hpage]
    exact ih hordered hannounced

/-- A page that completes the history is not cut. -/
theorem uncut_of_complete {maxTransactions budget : ℕ}
    (hordered : ∀ subchannel ∈ cursor.subchannels, subchannel.BlocksOrdered sn snapshot.toBackend)
    (hannounced : ∀ note ∈ cursor.due sn snapshot, Announced snapshot note)
    (hpage : fetchTransactions sn snapshot userAddress cursor maxTransactions budget =
      .ok (txs, cursor')) (hcomplete : cursor'.historyComplete = true) :
    UncutPages sn snapshot userAddress cursor [(maxTransactions, budget)] := by
  obtain ⟨processed, lost, hof, huncut⟩ := fetchTransactions_spec hordered hannounced hpage
  exact .page hpage (huncut.mp (hof.complete hcomplete).1) .nil

/-- Notes with their transactions are the notes. -/
theorem map_createdNotes {notes : Multiset (ℕ × HistoryNote)}
    (h : ∀ note ∈ notes, Announced snapshot note) :
    (createdNotes snapshot notes).map Prod.snd = notes.map Prod.snd := by
  induction notes using Multiset.induction_on with
  | empty => rfl
  | cons note notes ih =>
    obtain ⟨hash, hhash⟩ := (h note (Multiset.mem_cons_self note notes)).creationHash
    have hrest := ih fun note' hnote' => h note' (Multiset.mem_cons_of_mem hnote')
    have hcons : createdNotes snapshot (note ::ₘ notes) =
        (hash, note.2) ::ₘ createdNotes snapshot notes :=
      Multiset.filterMap_cons_some _ _ _ (by rw [hhash, Option.map_some])
    rw [hcons, Multiset.map_cons, Multiset.map_cons, hrest]

end PrivacyPool.History
