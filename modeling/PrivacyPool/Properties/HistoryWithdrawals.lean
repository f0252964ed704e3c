import PrivacyPool.Properties.HistoryPages

/-!
# Withdrawals in the history

A withdrawal to the user is shown when its transaction created one of the user's notes, or when
no note of the user is in its block. One that shares its block with a note of another
transaction falls between the two routes.

## Main definitions

* `withdrawalsFrom` — the withdrawals to the user from the lowest block of its notes on

## Main results

* `paged_withdrawals_iff` — uncut pages return these withdrawals just when none shares its block
  with a note of another transaction
* `withdrawal_left_out` — a withdrawal that no page returns
-/

namespace PrivacyPool.History

open Discovery

/-- The withdrawals to the user from the lowest block of its notes up to the snapshot. -/
def withdrawalsFrom (snapshot : Snapshot) (userAddress : Felt)
    (notes : Multiset (ℕ × HistoryNote)) : Multiset (Felt × WithdrawalEvent) :=
  entriesOfEvents (withdrawalTo userAddress) (snapshot.log.events.filter fun event =>
    0 < notes.countP (fun note => note.1 ≤ event.blockNumber) &&
      event.blockNumber ≤ snapshot.blockNumber)

variable {sn : Starknet} {snapshot : Snapshot} {userAddress : Felt} {cursor : HistoryCursor}
  {txs : List HistoryTransaction}

/-- A history without losses goes down to the lowest block of the notes. -/
theorem HistoryOf.withdrawalsFrom {processed : Multiset (ℕ × HistoryNote)} {lower : ℕ}
    (h : HistoryOf sn snapshot userAddress cursor processed 0 lower txs)
    (hbegin : cursor.beginBlockNumber = none) :
    entriesOf (HistoryTransaction.withdrawalsTo userAddress) txs =
      entriesOfEvents (withdrawalTo userAddress) (snapshot.log.events.filter fun event =>
        (0 < (cursor.due sn snapshot).countP (fun note => note.1 ≤ event.blockNumber) &&
          event.blockNumber ≤ snapshot.blockNumber) &&
            (!inBlockOf (cursor.due sn snapshot) event ||
              creates snapshot (cursor.due sn snapshot) event)) := by
  have hupper : cursor.upperBound snapshot = snapshot.blockNumber := by
    rw [HistoryCursor.upperBound, hbegin]
    rfl
  have hdue : processed = cursor.due sn snapshot := by rw [h.due, add_zero]
  subst hdue
  have hconfirmed : cursor.Confirmed snapshot := fun n hn => by cases hbegin.symm.trans hn
  rw [h.withdrawals hconfirmed, shownWithdrawals, hupper]
  refine entriesOfEvents_filter_congr fun event _ _ => congrArg (· && _) ?_
  by_cases hle : event.blockNumber ≤ snapshot.blockNumber
  · rw [decide_eq_true hle, Bool.and_true, Bool.and_true]
    refine decide_eq_decide.mpr (Iff.trans ?_ Multiset.countP_pos.symm)
    constructor
    -- The history goes down to the lowest block of a note.
    · intro hlt
      rcases h.lowest with hsame | ⟨note, hnote, hnext⟩
      · rw [hsame, hupper] at hlt
        exact absurd hle (not_le.mpr hlt)
      · exact ⟨note, hnote, hnext.trans_le hlt⟩
    · rintro ⟨note, hnote, hupto⟩
      exact (h.above note hnote).trans_le hupto
  · rw [decide_eq_false hle, Bool.and_false, Bool.and_false]

/-- For a cursor that has not been used, pages up to the complete one that are not cut return
every withdrawal to the user from the lowest block of its notes up to the snapshot, once each,
just when every such withdrawal in a block of a note is of a transaction that created a note of
the block. -/
theorem paged_withdrawals_iff (sn : Starknet) (snapshot : Snapshot) (userAddress : Felt)
    (cursor : HistoryCursor) (requests : List (ℕ × ℕ)) (txs : List HistoryTransaction)
    (hordered : ∀ subchannel ∈ cursor.subchannels, subchannel.BlocksOrdered sn snapshot.toBackend)
    (hannounced : ∀ note ∈ cursor.due sn snapshot, Announced snapshot note)
    (hbegin : cursor.beginBlockNumber = none)
    (hpaged : Paged sn snapshot userAddress cursor requests txs)
    (huncut : UncutPages sn snapshot userAddress cursor requests) :
    entriesOf (HistoryTransaction.withdrawalsTo userAddress) txs =
        withdrawalsFrom snapshot userAddress (cursor.due sn snapshot) ↔
      ∀ event ∈ snapshot.log.events, event.isWithdrawalTo userAddress = true →
        inBlockOf (cursor.due sn snapshot) event = true →
          creates snapshot (cursor.due sn snapshot) event = true := by
  obtain ⟨processed, lost, lower, hof, hlost⟩ := hpaged.historyOf hordered hannounced
  obtain rfl := hlost.mpr huncut
  have hupper : cursor.upperBound snapshot = snapshot.blockNumber := by
    rw [HistoryCursor.upperBound, hbegin]
    rfl
  rw [hof.withdrawalsFrom hbegin, withdrawalsFrom]
  refine entriesOfEvents_filter_eq_iff.trans ?_
  refine forall₂_congr fun event _ => ?_
  rw [withdrawalTo_ne_nil]
  refine imp_congr_right fun _ => ⟨fun hshown hin => ?_, fun hcreated _ => ?_⟩
  -- The block of a note is in the range, so that its withdrawal has to be shown.
  · obtain ⟨note, hnote, hblock⟩ := inBlockOf_iff.mp hin
    have hle : event.blockNumber ≤ snapshot.blockNumber := by
      rw [← hblock, ← hupper]
      exact (mem_due.mp hnote).2
    have hpos : 0 < (cursor.due sn snapshot).countP fun note => note.1 ≤ event.blockNumber :=
      Multiset.countP_pos.mpr ⟨note, hnote, hblock.le⟩
    have hboth := hshown (by rw [decide_eq_true hle, decide_eq_true hpos]; rfl)
    rwa [hin, Bool.not_true, Bool.false_or] at hboth
  · cases hin : inBlockOf (cursor.due sn snapshot) event with
    | false => rfl
    | true => rw [hcreated hin, Bool.or_true]

namespace Sample

theorem pagedOnce : Paged Starknet.sample Sample.snapshot 5 twoNotes [(10, 1000)]
    [newTransaction, registration, oldTransaction] :=
  .last fetchTransactions_all rfl

theorem uncut : UncutPages Starknet.sample Sample.snapshot 5 twoNotes [(10, 1000)] :=
  uncut_of_complete ordered announced fetchTransactions_all rfl

end Sample

theorem paged_withdrawals_iff_sample :
    entriesOf (HistoryTransaction.withdrawalsTo 5)
        [Sample.newTransaction, Sample.registration, Sample.oldTransaction] =
        withdrawalsFrom Sample.snapshot 5 (Sample.twoNotes.due Starknet.sample Sample.snapshot) ↔
      ∀ event ∈ Sample.snapshot.log.events, event.isWithdrawalTo 5 = true →
        inBlockOf (Sample.twoNotes.due Starknet.sample Sample.snapshot) event = true →
          creates Sample.snapshot (Sample.twoNotes.due Starknet.sample Sample.snapshot) event =
            true :=
  paged_withdrawals_iff Starknet.sample Sample.snapshot 5 Sample.twoNotes [(10, 1000)]
    [Sample.newTransaction, Sample.registration, Sample.oldTransaction]
    Sample.ordered Sample.announced rfl Sample.pagedOnce Sample.uncut

/-- The withdrawal of block 10 is of another transaction than the note of block 10. -/
theorem withdrawal_left_out :
    Paged Starknet.sample Sample.snapshot 5 Sample.twoNotes [(10, 1000)]
        [Sample.newTransaction, Sample.registration, Sample.oldTransaction] ∧
      withdrawalsFrom Sample.snapshot 5 (Sample.twoNotes.due Starknet.sample Sample.snapshot) =
        {(1003, ⟨5, 77, 3⟩)} ∧
      entriesOf (HistoryTransaction.withdrawalsTo 5)
        [Sample.newTransaction, Sample.registration, Sample.oldTransaction] = 0 := by
  refine ⟨Sample.pagedOnce, ?_, rfl⟩
  decide +kernel

end PrivacyPool.History
