import Mathlib.Logic.Relation
import PrivacyPool.Base.Fallible
import PrivacyPool.History.Collected

/-!
# A page of the history

The loop of a page takes iterations until the page is full, the notes are exhausted, or the
budget is used up. A page that is cut after its first block has lost the notes that its last
iteration drained; one that returns at all has lost none otherwise.

## Main definitions

* `PageStep` — an iteration after which a page goes on
* `Uncut` — whenever a page goes on after a block, its budget pays for the next one
* `PageOf` — what a page returns of the notes that were due, and what it loses

## Main results

* `scanBlocks_spec` — the loop takes iterations to the end of the page
* `fetchTransactions_spec` — a page returns the history of what it has processed
* `PageEnd.uncut_iff` — only the last state of a page can be short of budget
-/

namespace PrivacyPool.History

open Discovery HashMap Fallible Relation

variable (sn : Starknet) (snapshot : Snapshot) (userAddress : Felt)

/-! ### The loop -/

/-- An iteration after which a page goes on. -/
def PageStep (maxTransactions : ℕ) (st st' : HistoryState) : Prop :=
  ∃ block st₁, st.transactions.length < maxTransactions ∧
    processNextBlock sn snapshot userAddress st = (.ok (some block), st₁) ∧
    st' = st₁.advance block

/-- How a page ends after its last iteration but one. -/
inductive PageEnd (maxTransactions : ℕ) (st : HistoryState) :
    Except DiscoveryError LoopEnd → HistoryState → Prop
  | full : maxTransactions ≤ st.transactions.length → PageEnd maxTransactions st (.ok .full) st
  | complete {st' : HistoryState} : st.transactions.length < maxTransactions →
      processNextBlock sn snapshot userAddress st = (.ok none, st') →
      PageEnd maxTransactions st (.ok .scannerComplete) st'
  | short {needed available : ℕ} {st' : HistoryState} : st.transactions.length < maxTransactions →
      processNextBlock sn snapshot userAddress st =
        (.error (.insufficientBudget needed available), st') →
      PageEnd maxTransactions st (.ok (.budgetError (.insufficientBudget needed available))) st'

/-- The state that a page begins with. -/
def pageStart (cursor : HistoryCursor) (budget : ℕ) : HistoryState := { scan := { cursor, budget } }

/-- Whenever a page goes on after a block, its budget pays for the next one. -/
def Uncut (cursor : HistoryCursor) (maxTransactions budget : ℕ) : Prop :=
  ∀ st, TransGen (PageStep sn snapshot userAddress maxTransactions) (pageStart cursor budget) st →
    st.transactions.length < maxTransactions → st.PaysNext sn snapshot

variable {sn snapshot userAddress} {cursor cursor' : HistoryCursor} {maxTransactions budget : ℕ}
  {st st' st₁ : HistoryState} {processed : Multiset (ℕ × HistoryNote)}

theorem PageStep.unique (h : PageStep sn snapshot userAddress maxTransactions st st')
    (h' : PageStep sn snapshot userAddress maxTransactions st st₁) : st' = st₁ := by
  obtain ⟨block, after, -, hcall, rfl⟩ := h
  obtain ⟨block', after', -, hcall', rfl⟩ := h'
  obtain ⟨hblock, rfl⟩ := Prod.ext_iff.mp (hcall.symm.trans hcall')
  cases hblock
  rfl

theorem PageEnd.not_step {result : Except DiscoveryError LoopEnd}
    (h : PageEnd sn snapshot userAddress maxTransactions st result st') :
    ¬ PageStep sn snapshot userAddress maxTransactions st st₁ := by
  rintro ⟨block, after, hroom, hcall, -⟩
  cases h with
  | full hfull => exact absurd hfull (not_le.mpr hroom)
  | complete _ hcall' => cases hcall.symm.trans hcall'
  | short _ hcall' => cases hcall.symm.trans hcall'

/-- Every state of a page comes before its last one. -/
theorem PageEnd.reaches {start : HistoryState} {result : Except DiscoveryError LoopEnd}
    (h : PageEnd sn snapshot userAddress maxTransactions st₁ result st')
    (hlast : ReflTransGen (PageStep sn snapshot userAddress maxTransactions) start st₁)
    (hreach : ReflTransGen (PageStep sn snapshot userAddress maxTransactions) start st) :
    ReflTransGen (PageStep sn snapshot userAddress maxTransactions) st st₁ := by
  have hunique : Relator.RightUnique (PageStep sn snapshot userAddress maxTransactions) :=
    fun _ _ _ => PageStep.unique
  rcases ReflTransGen.total_of_right_unique hunique hreach hlast with hforward | hback
  · exact hforward
  · rcases hback.cases_head with rfl | ⟨next, hstep, -⟩
    · exact .refl
    · exact absurd hstep h.not_step

/-- The loop takes iterations to the end of the page. -/
theorem scanBlocks_spec (fuel : ℕ) (st : HistoryState) (h : st.Grouped sn snapshot)
    (hfuel : (st.scan.cursor.due sn snapshot).card < fuel) :
    ∃ st₁, ReflTransGen (PageStep sn snapshot userAddress maxTransactions) st st₁ ∧
      PageEnd sn snapshot userAddress maxTransactions st₁
        (scanBlocks sn snapshot userAddress maxTransactions fuel st).1
        (scanBlocks sn snapshot userAddress maxTransactions fuel st).2 := by
  induction fuel generalizing st with
  | zero => exact absurd hfuel (Nat.not_lt_zero _)
  | succ fuel ih =>
    obtain ⟨hspec, -⟩ := processNextBlock_spec userAddress h
    unfold scanBlocks
    split_ifs with hfull
    · exact ⟨st, .refl, .full hfull⟩
    · have hroom := not_le.mp hfull
      cases hcall : processNextBlock sn snapshot userAddress st with
      | mk result st' =>
        rw [hcall] at hspec
        cases hspec with
        | exhausted => exact ⟨st, .refl, .complete hroom hcall⟩
        | short => exact ⟨st, .refl, .short hroom hcall⟩
        | @block _ block =>
          obtain ⟨drained, hdue, hne, -, -, -, -, hfilled⟩ := h.advance hcall
          have hcard := congrArg Multiset.card hdue
          rw [Multiset.card_add, Multiset.coe_card] at hcard
          have hpos := List.length_pos_iff.mpr hne
          obtain ⟨st₁, hreach, hend⟩ := ih (st'.advance block) hfilled.toGrouped (by omega)
          exact ⟨st₁, .head ⟨block, st', hroom, hcall, rfl⟩ hreach, hend⟩

/-! ### States of a page -/

theorem Collected.reaches (h : Collected sn snapshot userAddress cursor processed st)
    (hreach : ReflTransGen (PageStep sn snapshot userAddress maxTransactions) st st₁) :
    ∃ processed', Collected sn snapshot userAddress cursor processed' st₁ := by
  induction hreach with
  | refl => exact ⟨processed, h⟩
  | tail _ hstep ih =>
    obtain ⟨processed', hcollected⟩ := ih
    obtain ⟨block, after, -, hcall, rfl⟩ := hstep
    obtain ⟨drained, hnext⟩ := hcollected.advance hcall
    exact ⟨processed' + drained, hnext⟩

/-- A state after a block has a filled buffer and the block as its bound. -/
theorem Collected.filled (h : Collected sn snapshot userAddress cursor processed st)
    (hreach : TransGen (PageStep sn snapshot userAddress maxTransactions) st st₁) :
    st₁.Filled sn snapshot ∧ ∃ bound, st₁.scan.cursor.beginBlockNumber = some bound := by
  obtain ⟨before, hbefore, block, after, -, hcall, rfl⟩ := TransGen.tail'_iff.mp hreach
  obtain ⟨processed', hcollected⟩ := h.reaches hbefore
  obtain ⟨-, -, -, -, -, -, -, hfilled⟩ := hcollected.toGrouped.advance hcall
  exact ⟨hfilled, block - 1, rfl⟩

/-! ### What a page keeps -/

theorem retained_of_some {loopEnd : LoopEnd} {bound : ℕ} (hend : loopEnd ≠ .scannerComplete)
    (hbegin : st.scan.cursor.beginBlockNumber = some bound) :
    retained st loopEnd =
      (st.transactions.map Prod.snd).filter fun tx => bound < tx.blockNumber := by
  cases loopEnd with
  | scannerComplete => exact absurd rfl hend
  | full | budgetError => simp only [retained, hbegin]

theorem retained_of_none {loopEnd : LoopEnd} (hend : loopEnd ≠ .scannerComplete)
    (hbegin : st.scan.cursor.beginBlockNumber = none) : retained st loopEnd = [] := by
  cases loopEnd with
  | scannerComplete => exact absurd rfl hend
  | full | budgetError => simp only [retained, hbegin]

/-- A page that is not complete keeps the transactions of its completed iterations. -/
theorem retained_of_begin (h : st.Grouped sn snapshot) {added : Transactions}
    (htransactions : st'.transactions = st.transactions ++ added)
    (hbegin : st'.scan.cursor.beginBlockNumber = st.scan.cursor.beginBlockNumber)
    (hadded : ∀ entry ∈ added, entry.2.blockNumber ≤ st.scan.cursor.upperBound snapshot)
    {loopEnd : LoopEnd} (hend : loopEnd ≠ .scannerComplete) :
    retained st' loopEnd = st.transactions.values ∨
      st.scan.cursor.beginBlockNumber = none ∧ retained st' loopEnd = [] := by
  cases hbound : st.scan.cursor.beginBlockNumber with
  | none => exact .inr ⟨rfl, retained_of_none hend (hbegin.trans hbound)⟩
  | some bound =>
    refine .inl ?_
    have hupper : st.scan.cursor.upperBound snapshot = bound := by
      rw [HistoryCursor.upperBound, hbound]
      rfl
    have hkept : (st.transactions.map Prod.snd).filter (fun tx => bound < tx.blockNumber) =
        st.transactions.map Prod.snd := by
      refine List.filter_eq_self.mpr fun tx htx => decide_eq_true ?_
      obtain ⟨entry, hentry, rfl⟩ := List.mem_map.mp htx
      rw [← hupper]
      exact (h.dated entry hentry).1
    have hdropped : (added.map Prod.snd).filter (fun tx => bound < tx.blockNumber) = [] := by
      refine List.filter_eq_nil_iff.mpr fun tx htx habove => ?_
      obtain ⟨entry, hentry, rfl⟩ := List.mem_map.mp htx
      exact absurd (of_decide_eq_true habove) (not_lt.mpr (hupper ▸ hadded entry hentry))
    rw [retained_of_some hend (hbegin.trans hbound), htransactions, List.map_append,
      List.filter_append, hkept, hdropped, List.append_nil]
    rfl

variable (sn snapshot userAddress) in
/-- The registration that the snapshot has of the user. -/
def registrationOf : Option HistoryTransaction :=
  let storageResult := snapshot.getPublicKeyWithBlock sn userAddress
  if storageResult.lastUpdateBlock = 0 then none
  else (snapshot.getViewingKeySetEvents userAddress (.number storageResult.lastUpdateBlock)).head?.map
    fun event => { blockNumber := storageResult.lastUpdateBlock
                   transactionHash := event.transactionHash
                   registeredPubkey := some storageResult.value }

/-- The registration does not depend on the budget. -/
theorem fetchRegistration_eq_ok {scan : ScanState} {registration : Option HistoryTransaction}
    (h : fetchRegistration sn snapshot userAddress scan = .ok registration) :
    registration = registrationOf sn snapshot userAddress := by
  unfold fetchRegistration at h
  obtain ⟨scan₁, -, h⟩ := bind_eq_ok.mp h
  unfold registrationOf
  dsimp only at h ⊢
  split_ifs at h ⊢ with hzero
  · exact (Except.ok.inj h).symm
  · obtain ⟨scan₂, -, h⟩ := bind_eq_ok.mp h
    cases hevents : snapshot.getViewingKeySetEvents userAddress
        (.number (snapshot.getPublicKeyWithBlock sn userAddress).lastUpdateBlock) with
    | nil =>
      rw [hevents] at h
      cases h
    | cons event events =>
      rw [hevents] at h
      exact (Except.ok.inj h).symm

/-- The registration has nothing else. -/
theorem registrationOf_entries {α : Type} {field : HistoryTransaction → List α}
    (hempty : ∀ blockNumber hash registeredPubkey,
      field { blockNumber, transactionHash := hash, registeredPubkey } = []) :
    entriesOf field (registrationOf sn snapshot userAddress).toList = 0 := by
  cases hregistration : registrationOf sn snapshot userAddress with
  | none => rfl
  | some tx =>
    unfold registrationOf at hregistration
    dsimp only at hregistration
    split_ifs at hregistration
    obtain ⟨event, -, rfl⟩ := Option.map_eq_some_iff.mp hregistration
    rw [Option.toList_some, entriesOf, List.flatMap_singleton, hempty]
    rfl

/-- A page that returns has ended its loop and sorted what it keeps. -/
theorem fetchTransactions_eq_ok {txs : List HistoryTransaction}
    (h : fetchTransactions sn snapshot userAddress cursor maxTransactions budget =
      .ok (txs, cursor')) :
    ∃ loopEnd st result complete budgetError,
      scanBlocks sn snapshot userAddress maxTransactions (cursor.remaining + 1)
        (pageStart cursor budget) = (.ok loopEnd, st) ∧
      withRegistration sn snapshot userAddress maxTransactions st loopEnd =
        .ok (result, complete, budgetError) ∧
      (result = [] → budgetError = none) ∧ txs.Perm result ∧
      cursor' = { st.scan.cursor with historyComplete := complete } := by
  unfold fetchTransactions at h
  cases hloop : scanBlocks sn snapshot userAddress maxTransactions (cursor.remaining + 1)
      (pageStart cursor budget) with
  | mk loopResult st =>
    rw [show ({ scan := { cursor, budget } } : HistoryState) = pageStart cursor budget from rfl,
      hloop] at h
    dsimp only at h
    obtain ⟨loopEnd, rfl, hrest⟩ := bind_eq_ok.mp h
    obtain ⟨⟨result, complete, budgetError⟩, hresult, hpage⟩ := bind_eq_ok.mp hrest
    refine ⟨loopEnd, st, result, complete, budgetError, rfl, hresult, ?_⟩
    dsimp only at hpage
    split at hpage
    · cases hpage
    · next hsome =>
      obtain ⟨rfl, rfl⟩ := Prod.ext_iff.mp (Except.ok.inj hpage)
      refine ⟨fun hnil => ?_, List.perm_insertionSort _ _, rfl⟩
      exact Option.eq_none_iff_forall_ne_some.mpr fun e he => hsome e hnil he

/-! ### Pages -/

/-- What a page returns of the notes that were due, and what it loses. -/
structure PageOf (sn : Starknet) (snapshot : Snapshot) (userAddress : Felt)
    (cursor : HistoryCursor) (processed lost : Multiset (ℕ × HistoryNote))
    (txs : List HistoryTransaction) (cursor' : HistoryCursor) : Prop where
  ordered : ∀ subchannel ∈ cursor'.subchannels, subchannel.BlocksOrdered sn snapshot.toBackend
  due : cursor.due sn snapshot = processed + lost + cursor'.due sn snapshot
  above : ∀ note ∈ processed, cursor'.upperBound snapshot < note.1
  upperBound_le : cursor'.upperBound snapshot ≤ cursor.upperBound snapshot
  lowest : cursor'.upperBound snapshot = cursor.upperBound snapshot ∨
    ∃ note ∈ processed, note.1 = cursor'.upperBound snapshot + 1
  complete : cursor'.historyComplete = true → lost = 0 ∧ cursor'.due sn snapshot = 0
  notes : entriesOf HistoryTransaction.notes txs = createdNotes snapshot processed
  deposits : entriesOf HistoryTransaction.deposits txs =
    createdEvents snapshot (depositOf userAddress) processed
  registrations : entriesOf HistoryTransaction.registration txs =
    if cursor'.historyComplete then entriesOf HistoryTransaction.registration
      (registrationOf sn snapshot userAddress).toList else 0
  withdrawals : cursor.Confirmed snapshot → cursor'.Confirmed snapshot ∧
    entriesOf (HistoryTransaction.withdrawalsTo userAddress) txs =
      shownWithdrawals snapshot userAddress processed (cursor'.upperBound snapshot)
        (cursor.upperBound snapshot)

/-- What `withRegistration` adds to the transactions that a page keeps. -/
theorem withRegistration_spec {loopEnd : LoopEnd} {result : List HistoryTransaction}
    {complete : Bool} {budgetError : Option DiscoveryError}
    (h : withRegistration sn snapshot userAddress maxTransactions st loopEnd =
      .ok (result, complete, budgetError)) :
    (complete = true → loopEnd = .scannerComplete) ∧
      result = retained st loopEnd ++
        if complete then (registrationOf sn snapshot userAddress).toList else [] := by
  unfold withRegistration at h
  cases loopEnd with
  | full =>
    cases h
    exact ⟨nofun, (List.append_nil _).symm⟩
  | budgetError e =>
    cases h
    exact ⟨nofun, (List.append_nil _).symm⟩
  | scannerComplete =>
    refine ⟨fun _ => rfl, ?_⟩
    dsimp only at h
    -- With room the registration is looked up: it is there, the budget ran out, or the page fails.
    split_ifs at h with hroom
    · split at h
      next registration hregistration =>
        cases h
        rw [fetchRegistration_eq_ok hregistration, if_pos rfl]
      next =>
        cases h
        exact (List.append_nil _).symm
      next => cases h
    · cases h
      exact (List.append_nil _).symm

/-- A page with the transactions of its completed iterations returns what it has collected. -/
theorem Collected.pageOf {lost : Multiset (ℕ × HistoryNote)} {txs : List HistoryTransaction}
    {complete : Bool} (h : Collected sn snapshot userAddress cursor processed st)
    (hkept : Kept sn snapshot.toBackend st.scan.cursor st'.scan.cursor)
    (hdue : st.scan.cursor.due sn snapshot = lost + st'.scan.cursor.due sn snapshot)
    (hcomplete : complete = true → lost = 0 ∧ st'.scan.cursor.due sn snapshot = 0)
    (hperm : txs.Perm (st.transactions.values ++
      if complete then (registrationOf sn snapshot userAddress).toList else [])) :
    PageOf sn snapshot userAddress cursor processed lost txs
      { st'.scan.cursor with historyComplete := complete } := by
  have hupper : st'.scan.cursor.upperBound snapshot = st.scan.cursor.upperBound snapshot :=
    hkept.upperBound
  have hentries : ∀ {α : Type} (field : HistoryTransaction → List α),
      entriesOf field txs = entriesOf field st.transactions.values +
        if complete then entriesOf field (registrationOf sn snapshot userAddress).toList else 0 := by
    intro α field
    rw [entriesOf_perm field hperm, entriesOf_append]
    cases complete <;> rfl
  -- The registration has none of the entries but its key.
  have hplain : ∀ {α : Type} (field : HistoryTransaction → List α),
      (∀ blockNumber hash registeredPubkey,
        field { blockNumber, transactionHash := hash, registeredPubkey } = []) →
      entriesOf field txs = entriesOf field st.transactions.values := by
    intro α field hempty
    rw [hentries, registrationOf_entries hempty, ite_self, add_zero]
  refine ⟨hkept.ordered h.scanning.ordered, ?_, ?_, ?_, ?_, hcomplete, ?_, ?_, ?_, fun hconfirmed => ?_⟩
  · change _ = _ + st'.scan.cursor.due sn snapshot
    rw [h.due, hdue, add_assoc]
  · exact fun note hnote => hupper.trans_lt (h.above note hnote)
  · exact hupper.trans_le h.upperBound_le
  · rcases h.lowest with hsame | ⟨note, hnote, hnext⟩
    · exact .inl (hupper.trans hsame)
    · exact .inr ⟨note, hnote, hnext.trans (congrArg (· + 1) hupper.symm)⟩
  · rw [hplain _ fun _ _ _ => rfl, h.notes]
  · rw [hplain _ fun _ _ _ => rfl, h.deposits]
  · rw [hentries, h.registrations, zero_add]
  · obtain ⟨hst, hshown⟩ := h.withdrawals hconfirmed
    refine ⟨fun n hn => hst n (hkept.beginBlockNumber.symm.trans hn), ?_⟩
    rw [hplain _ fun _ _ _ => rfl, hshown]
    exact congrArg (shownWithdrawals snapshot userAddress processed · _) hupper.symm

/-- Only the last state of a page can be short of budget. -/
theorem PageEnd.uncut_iff {result : Except DiscoveryError LoopEnd}
    (h : PageEnd sn snapshot userAddress maxTransactions st₁ result st')
    (hstart : Collected sn snapshot userAddress cursor processed (pageStart cursor budget))
    (hreach : ReflTransGen (PageStep sn snapshot userAddress maxTransactions)
      (pageStart cursor budget) st₁) :
    Uncut sn snapshot userAddress cursor maxTransactions budget ↔
      (TransGen (PageStep sn snapshot userAddress maxTransactions) (pageStart cursor budget) st₁ →
        st₁.transactions.length < maxTransactions → st₁.PaysNext sn snapshot) := by
  refine ⟨fun huncut => huncut st₁, fun hlast st hst hroom => ?_⟩
  rcases (h.reaches hreach hst.to_reflTransGen).cases_head with rfl | ⟨next, hstep, -⟩
  · exact hlast hst hroom
  · -- An iteration that returns was paid.
    obtain ⟨block, after, -, hcall, -⟩ := hstep
    exact (processNextBlock_returns_iff userAddress (hstart.filled hst).1).mp
      ⟨some block, by rw [hcall]⟩

theorem fetchTransactions_spec {txs : List HistoryTransaction}
    (hordered : ∀ subchannel ∈ cursor.subchannels, subchannel.BlocksOrdered sn snapshot.toBackend)
    (hannounced : ∀ note ∈ cursor.due sn snapshot, Announced snapshot note)
    (h : fetchTransactions sn snapshot userAddress cursor maxTransactions budget =
      .ok (txs, cursor')) :
    ∃ processed lost, PageOf sn snapshot userAddress cursor processed lost txs cursor' ∧
      (lost = 0 ↔ Uncut sn snapshot userAddress cursor maxTransactions budget) := by
  have hstart : Collected sn snapshot userAddress cursor 0 (pageStart cursor budget) :=
    .start hordered hannounced
  have hfuel : ((pageStart cursor budget).scan.cursor.due sn snapshot).card <
      cursor.remaining + 1 := by
    refine Nat.lt_succ_of_le ((Multiset.card_le_card (Multiset.filter_le _ _)).trans_eq ?_)
    exact cursor.card_pendingNotes
  obtain ⟨loopEnd, st', result, complete, budgetError, hloop, hresult, hempty, hperm, rfl⟩ :=
    fetchTransactions_eq_ok h
  obtain ⟨st₁, hreach, hend⟩ := scanBlocks_spec (cursor.remaining + 1) _ hstart.toGrouped hfuel
  rw [hloop] at hend
  obtain ⟨processed, hcollected⟩ := hstart.reaches hreach
  rw [hend.uncut_iff hstart hreach]
  obtain ⟨hscanner, hkeeps⟩ := withRegistration_spec hresult
  obtain ⟨hspec, hkept⟩ := processNextBlock_spec userAddress hcollected.toGrouped
  rw [hkeeps] at hperm
  cases hend with
  -- A full page keeps what it has and loses nothing.
  | full hfull =>
    have hretained : retained st' .full = st'.transactions.values := by
      rcases retained_of_begin hcollected.toGrouped (List.append_nil _).symm rfl (by simp)
        (by simp : LoopEnd.full ≠ .scannerComplete) with hall | ⟨hnone, hnil⟩
      · exact hall
      · rcases reflTransGen_iff_eq_or_transGen.mp hreach with rfl | hafter
        · exact hnil
        · obtain ⟨-, bound, hbound⟩ := hstart.filled hafter
          cases hnone.symm.trans hbound
    rw [hretained] at hperm
    refine ⟨processed, 0, hcollected.pageOf (.refl _) (zero_add _).symm (fun hcomplete => ?_) hperm,
      iff_of_true rfl fun _ hroom => absurd hfull (not_le.mpr hroom)⟩
    cases hscanner hcomplete
  -- The scan is over, so nothing is left to lose.
  | complete hroom hcall =>
    rw [hcall] at hspec hkept
    cases hspec with
    | exhausted hdue hdue' htransactions =>
      have hretained : retained st' .scannerComplete = st₁.transactions.values :=
        congrArg Transactions.values htransactions
      rw [hretained] at hperm
      refine ⟨processed, 0, hcollected.pageOf hkept ?_ (fun _ => ⟨rfl, hdue'⟩) hperm,
        iff_of_true rfl fun hafter _ => ?_⟩
      · rw [hdue, hdue', add_zero]
      · exact (processNextBlock_returns_iff userAddress (hstart.filled hafter).1).mp
          ⟨none, by rw [hcall]⟩
  -- The budget has ended within an iteration, and the notes that it took off the cursor are lost.
  | @short needed available _ hroom hcall =>
    have hloses : st₁.Filled sn snapshot →
        (st'.scan.cursor.due sn snapshot).card < (st₁.scan.cursor.due sn snapshot).card := by
      intro hfilled
      have hless := processNextBlock_loses hfilled (congrArg Prod.fst hcall)
      rwa [hcall] at hless
    have hfails : st₁.Filled sn snapshot → ¬ st₁.PaysNext sn snapshot := by
      intro hfilled hpaid
      obtain ⟨result, hreturns⟩ := (processNextBlock_returns_iff userAddress hfilled).mpr hpaid
      rw [hcall] at hreturns
      cases hreturns
    rw [hcall] at hspec hkept
    cases hspec with
    | @short lost added _ _ _ hdue htransactions hadded =>
      have hkeeps' := retained_of_begin hcollected.toGrouped htransactions hkept.beginBlockNumber
        hadded (by simp : LoopEnd.budgetError (.insufficientBudget needed available) ≠
          .scannerComplete)
      rcases reflTransGen_iff_eq_or_transGen.mp hreach with rfl | hafter
      · -- A page that is cut in its first iteration keeps nothing and returns the error.
        have hnil : retained st' (.budgetError (.insufficientBudget needed available)) = [] :=
          hkeeps'.elim id And.right
        cases hresult
        cases hempty hnil
      · obtain ⟨hfilled, bound, hbound⟩ := hstart.filled hafter
        have hretained := hkeeps'.resolve_right fun hnone => by cases hnone.1.symm.trans hbound
        rw [hretained] at hperm
        refine ⟨processed, lost, hcollected.pageOf hkept hdue (fun hcomplete => ?_) hperm,
          iff_of_false (fun hzero => ?_) fun hlast => hfails hfilled (hlast hafter hroom)⟩
        · cases hscanner hcomplete
        · have hless := hloses hfilled
          rw [hdue, hzero, zero_add] at hless
          exact hless.false

end PrivacyPool.History
