import PrivacyPool.Base.Erc20
import PrivacyPool.Base.HashMap
import PrivacyPool.Refinement.Invariant
import PrivacyPool.ShadowAccount.Anonymizer

/-!
# What the anonymizer collects

An interaction chooses all amounts before it moves any, approves the pool note by
note, lets the shadow account transfer the amounts in one batch, and leaves it to
the pool to pull them one by one. A second note of the same token overwrites the
first approval, and then the pool cannot pull both: so where the transaction
succeeds, the tokens are distinct, and every amount went from the shadow account to
the pool with nothing left behind.

## Main definitions

* `StandardTokens` — the tokens run the standard ledger
* `Collecting` — the loop over the notes, halfway
* `CollectedExactly` — what a successful interaction leaves

## Main results

* `Collecting.step` — one note more
* `execute_transfers`, `deposits_pulled` — both batches move their entries
* `anonymizer_collects_exactly` — in every transaction of the pool that succeeds
-/

namespace PrivacyPool

open Erc20 (Entry Moved total)
open Fallible

variable {sn : Starknet} {platform : AnonymizerPlatform sn}

/-- The ledgers of all tokens in a state of what lies outside the pool. -/
abbrev TokenLedgers (sn : Starknet) := sn.Tokens → ContractAddress → Erc20.Ledger ContractAddress

/-- The tokens of a set run the standard ledger, and nothing that the anonymizer does
besides calling them touches a ledger. -/
structure StandardTokens (platform : AnonymizerPlatform sn) (ledgers : TokenLedgers sn)
    (tokens : Set ContractAddress) : Prop where
  balanceOf {state token account} : token ∈ tokens →
    sn.balanceOf state token account = (ledgers state token).balances account
  approve {state state' token spender amount} : token ∈ tokens →
    platform.approve state token spender amount = .ok state' →
    ledgers state' = Function.update (ledgers state) token
      ((ledgers state token).approve platform.contractAddress spender amount)
  transfer {state state' token account recipient amount} : token ∈ tokens → amount < 2 ^ 256 →
    platform.callContract state account (buildTransferCall token recipient amount) = .ok state' →
    ∃ moved, (ledgers state token).transfer account recipient amount = some moved ∧
      ledgers state' = Function.update (ledgers state) token moved
  transferFrom {state state' token sender recipient amount} : token ∈ tokens →
    sn.checkedTransferFrom state token sender recipient amount = some state' →
    ∃ moved, (ledgers state token).transferFrom sn.contractAddress sender recipient amount =
        some moved ∧
      ledgers state' = Function.update (ledgers state) token moved
  deploy {state classHash salt account state'} :
    platform.deploy state classHash salt = .ok (account, state') → ledgers state' = ledgers state
  setClassHash {state account classHash state'} :
    platform.setClassHash state account classHash = .ok state' → ledgers state' = ledgers state
  initializeAccount {state account state'} :
    platform.initializeAccount state account = .ok state' → ledgers state' = ledgers state
  writeShadowAccount (state : sn.Tokens) (commitment : Felt) (account : ContractAddress) :
    ledgers (platform.writeShadowAccount state commitment account) = ledgers state

/-- The three parties are different contracts: the anonymizer is not the pool, and a
shadow account was deployed at an address of its own. -/
structure SeparateParties (platform : AnonymizerPlatform sn) : Prop where
  anonymizer_ne_pool : platform.contractAddress ≠ sn.contractAddress
  stored {state commitment account} : platform.shadowAccounts state commitment = some account →
    account ≠ platform.contractAddress ∧ account ≠ sn.contractAddress
  deployed {state classHash salt account state'} :
    platform.deploy state classHash salt = .ok (account, state') →
    account ≠ platform.contractAddress ∧ account ≠ sn.contractAddress

/-- The amount that a policy asks for, of the balances before and after the calls. -/
def CollectPolicy.Selects (before after amount : ℕ) : CollectPolicy → Prop
  | all => amount = after
  | diff => before + amount = after
  | exact given => amount = given.val

/-- The deposit that answers a note, by the shadow account's balances of the token before
and after the calls. -/
structure Answers (sn : Starknet) (shadowAccount : ContractAddress) (started called : sn.Tokens)
    (note : OpenNote) (deposit : OpenNoteDeposit) : Prop where
  noteId : deposit.noteId = note.noteId
  token : deposit.token = note.token
  amount_ne_zero : deposit.amount ≠ 0
  selects : note.collectPolicy.Selects (sn.balanceOf started note.token shadowAccount)
    (sn.balanceOf called note.token shadowAccount) deposit.amount.val

/-- The entry of a deposit. -/
def OpenNoteDeposit.entry (deposit : OpenNoteDeposit) : Entry ContractAddress :=
  ⟨deposit.token, deposit.amount.val⟩

/-- What a successful interaction leaves: `before` it, with the shadow account `started`,
after its calls, and `after` the pool pulled the deposits. -/
structure CollectedExactly (platform : AnonymizerPlatform sn) (ledgers : TokenLedgers sn)
    (shadowAccount : ContractAddress) (openNotes : List OpenNote)
    (deposits : List OpenNoteDeposit) (before started called after : sn.Tokens) : Prop where
  tokens_nodup : (openNotes.map (·.token)).Nodup
  deposits_answer : List.Forall₂ (Answers sn shadowAccount started called) openNotes deposits
  shadowAccount_pays : ∀ deposit ∈ deposits,
    sn.balanceOf after deposit.token shadowAccount + deposit.amount.val =
      sn.balanceOf called deposit.token shadowAccount
  pool_receives : ∀ deposit ∈ deposits, sn.balanceOf after deposit.token sn.contractAddress =
    sn.balanceOf called deposit.token sn.contractAddress + deposit.amount.val
  anonymizer_keeps : ∀ deposit ∈ deposits,
    sn.balanceOf after deposit.token platform.contractAddress =
      sn.balanceOf before deposit.token platform.contractAddress
  allowance_spent : ∀ deposit ∈ deposits,
    (ledgers after deposit.token).allowances platform.contractAddress sn.contractAddress = 0

section Collecting

variable {ledgers : TokenLedgers sn} {tokens : Set ContractAddress}
  {shadowAccount : ContractAddress} {started called : sn.Tokens}

/-! ### The loop over the notes -/

/-- The loop after some notes: only allowances have changed, and the allowance of the pool
for each token is one of the amounts noted for it. -/
structure Collecting (platform : AnonymizerPlatform sn) (ledgers : TokenLedgers sn)
    (shadowAccount : ContractAddress) (started called : sn.Tokens) (notes : List OpenNote)
    (loop : CollectLoop sn) : Prop where
  answers : List.Forall₂ (Answers sn shadowAccount started called) notes loop.deposits
  transferCalls : loop.transferCalls = loop.deposits.map fun deposit =>
    buildTransferCall deposit.token platform.contractAddress deposit.amount.val
  balances : ∀ token, (ledgers loop.state token).balances = (ledgers called token).balances
  approved : ∀ deposit ∈ loop.deposits, ∃ latest ∈ loop.deposits, latest.token = deposit.token ∧
    (ledgers loop.state deposit.token).allowances platform.contractAddress
      platform.privacyContract = latest.amount.val

theorem Collecting.start : Collecting platform ledgers shadowAccount started called []
    ⟨called, [], []⟩ :=
  ⟨.nil, rfl, fun _ => rfl, by simp⟩

/-- The amount collected is the one the policy asks for. -/
theorem selects_of_collected {policy : CollectPolicy} {before after preBalance amount : ℕ}
    (hpre : policy = .diff → preBalance = before)
    (h : collected policy after preBalance = .ok amount) : policy.Selects before after amount := by
  cases policy with
  | all => exact (pure_eq_ok.mp h).symm
  | diff =>
    simp only [collected, bind_eq_ok, require_eq_ok, pure_eq_ok, exists_const] at h
    obtain ⟨hle, rfl⟩ := h
    rw [hpre rfl] at hle ⊢
    exact Nat.add_sub_cancel' hle
  | exact given =>
    simp only [collected, bind_eq_ok, require_eq_ok, pure_eq_ok, exists_const] at h
    exact h.2.symm

/-- One note more. -/
theorem Collecting.step (htokens : StandardTokens platform ledgers tokens)
    {notes : List OpenNote} {note : OpenNote} {preBalance : ℕ} {loop loop' : CollectLoop sn}
    (hloop : Collecting platform ledgers shadowAccount started called notes loop)
    (htoken : note.token ∈ tokens)
    (hpre : note.collectPolicy = .diff →
      preBalance = sn.balanceOf started note.token shadowAccount)
    (h : collectOpenNote platform shadowAccount loop (note, preBalance) = .ok loop') :
    Collecting platform ledgers shadowAccount started called (notes ++ [note]) loop' := by
  simp only [collectOpenNote, bind_eq_ok, require_eq_ok, expect_eq_ok, pure_eq_ok,
    exists_const] at h
  obtain ⟨amount, hamount, hne, state, happrove, deposit, hdeposit, rfl⟩ := h
  split at hdeposit
  case isFalse => cases hdeposit
  rename_i hlt
  obtain rfl := Option.some.inj hdeposit
  have hledger := htokens.approve htoken happrove
  have hbalance : sn.balanceOf loop.state note.token shadowAccount =
      sn.balanceOf called note.token shadowAccount := by
    rw [htokens.balanceOf htoken, htokens.balanceOf htoken, hloop.balances]
  -- An approval leaves the balances alone, so the amount is what the policy selects.
  refine ⟨?_, ?_, ?_, ?_⟩
  · refine List.rel_append hloop.answers (.cons ⟨rfl, rfl, ?_, ?_⟩ .nil)
    · exact fun heq => hne (congrArg Fin.val heq)
    · rw [← hbalance]
      exact selects_of_collected hpre hamount
  · simp [hloop.transferCalls]
  · intro token
    rw [hledger, ← hloop.balances token]
    by_cases heq : token = note.token
    · subst heq
      rw [Function.update_self, Erc20.Ledger.approve_balances]
    · rw [Function.update_of_ne heq]
  · intro deposit hdeposit
    by_cases heq : deposit.token = note.token
    · -- The latest approval is the one just made.
      refine ⟨⟨note.noteId, note.token, ⟨amount, hlt⟩⟩, by simp, heq.symm, ?_⟩
      rw [hledger, heq, Function.update_self, Erc20.Ledger.approve_allowances_self]
    · have hearlier : deposit ∈ loop.deposits := by
        rcases List.mem_append.mp hdeposit with hmem | hmem
        · exact hmem
        · obtain rfl := List.mem_singleton.mp hmem
          exact absurd rfl heq
      obtain ⟨latest, hlatest, hsame, hallowance⟩ := hloop.approved deposit hearlier
      refine ⟨latest, List.mem_append_left _ hlatest, hsame, ?_⟩
      rw [hledger, Function.update_of_ne heq, hallowance]

theorem Collecting.run (htokens : StandardTokens platform ledgers tokens)
    {notes rest : List OpenNote} {loop loop' : CollectLoop sn}
    (hloop : Collecting platform ledgers shadowAccount started called notes loop)
    (hrest : ∀ note ∈ rest, note.token ∈ tokens)
    (h : (snapshotOpenNotes shadowAccount rest started).foldlM
      (collectOpenNote platform shadowAccount) loop = .ok loop') :
    Collecting platform ledgers shadowAccount started called (notes ++ rest) loop' := by
  induction rest generalizing notes loop with
  | nil =>
    obtain rfl := foldlM_nil_eq_ok.mp h
    rwa [List.append_nil]
  | cons note rest ih =>
    rw [snapshotOpenNotes, List.map_cons, ← snapshotOpenNotes] at h
    obtain ⟨loop₁, hfirst, hmore⟩ := foldlM_cons_eq_ok.mp h
    rw [List.forall_mem_cons] at hrest
    have hnext : Collecting platform ledgers shadowAccount started called (notes ++ [note])
        loop₁ := by
      cases hpolicy : note.collectPolicy with
      | all =>
        rw [hpolicy] at hfirst
        exact hloop.step htokens hrest.1 (by simp [hpolicy]) hfirst
      | diff =>
        rw [hpolicy] at hfirst
        exact hloop.step htokens hrest.1 (fun _ => rfl) hfirst
      | exact amount =>
        rw [hpolicy] at hfirst
        exact hloop.step htokens hrest.1 (by simp [hpolicy]) hfirst
    have hrun := ih hnext hrest.2 hmore
    rwa [List.append_assoc, List.singleton_append] at hrun

/-! ### The two batches -/

/-- The batch of transfers moves its entries from the shadow account to the anonymizer,
and no allowance. -/
theorem execute_transfers (htokens : StandardTokens platform ledgers tokens)
    (hne : shadowAccount ≠ platform.contractAddress) {deposits : List OpenNoteDeposit}
    (hdeposits : ∀ deposit ∈ deposits, deposit.token ∈ tokens) {state state' : sn.Tokens}
    (h : execute platform shadowAccount (deposits.map fun deposit =>
      buildTransferCall deposit.token platform.contractAddress deposit.amount.val) state =
      .ok state') :
    Moved shadowAccount platform.contractAddress (deposits.map OpenNoteDeposit.entry)
      (ledgers state) (ledgers state') ∧
    ∀ token, (ledgers state' token).allowances = (ledgers state token).allowances := by
  induction deposits generalizing state with
  | nil =>
    obtain rfl := foldlM_nil_eq_ok.mp h
    exact ⟨.nil, fun _ => rfl⟩
  | cons deposit deposits ih =>
    rw [List.map_cons] at h
    obtain ⟨next, hfirst, hmore⟩ := foldlM_cons_eq_ok.mp h
    rw [List.forall_mem_cons] at hdeposits
    have hlt : deposit.amount.val < 2 ^ 256 :=
      Nat.lt_trans deposit.amount.isLt (by decide)
    obtain ⟨moved, hmoved, hledger⟩ := htokens.transfer hdeposits.1 hlt hfirst
    obtain ⟨hrest, hallowances⟩ := ih hdeposits.2 hmore
    have hsingle := Moved.single hne rfl hmoved
    rw [← hledger] at hsingle
    refine ⟨hsingle.append hrest, fun token => ?_⟩
    rw [hallowances token, hledger]
    by_cases heq : token = deposit.token
    · subst heq
      rw [Function.update_self, Erc20.Ledger.transfer_allowances hmoved]
    · rw [Function.update_of_ne heq]

/-- The deposits move their entries from the anonymizer to the pool, and spend as much of
the pool's allowance. -/
theorem deposits_pulled (htokens : StandardTokens platform ledgers tokens)
    (hne : platform.contractAddress ≠ sn.contractAddress) {deposits : List OpenNoteDeposit}
    (hdeposits : ∀ deposit ∈ deposits, deposit.token ∈ tokens) {world world' : World sn}
    (h : deposits.foldlM (depositToOpenNote sn platform.contractAddress) world = .ok world') :
    Moved platform.contractAddress sn.contractAddress (deposits.map OpenNoteDeposit.entry)
      (ledgers world.tokens) (ledgers world'.tokens) ∧
    ∀ token, (ledgers world'.tokens token).allowances platform.contractAddress
        sn.contractAddress + total token (deposits.map OpenNoteDeposit.entry) =
      (ledgers world.tokens token).allowances platform.contractAddress sn.contractAddress := by
  induction deposits generalizing world with
  | nil =>
    obtain rfl := foldlM_nil_eq_ok.mp h
    exact ⟨.nil, fun _ => rfl⟩
  | cons deposit deposits ih =>
    obtain ⟨next, hfirst, hmore⟩ := foldlM_cons_eq_ok.mp h
    rw [List.forall_mem_cons] at hdeposits
    obtain ⟨spent, hspent, hledger⟩ :=
      htokens.transferFrom hdeposits.1 (depositToOpenNote_eq_ok hfirst).pulled
    obtain ⟨hallowance, approved, hbalances, hmoved⟩ := Erc20.Ledger.transferFrom_spends hspent
    obtain ⟨hrest, hallowances⟩ := ih hdeposits.2 hmore
    have hsingle := Moved.single hne hbalances hmoved
    rw [← hledger] at hsingle
    refine ⟨hsingle.append hrest, fun token => ?_⟩
    have hmoreSpent := hallowances token
    rw [List.map_cons, total]
    rw [hledger] at hmoreSpent
    -- The allowance for the token of the deposit is spent by its amount, the others are not.
    by_cases heq : token = deposit.token
    · subst heq
      rw [Function.update_self] at hmoreSpent
      rw [if_pos (show deposit.entry.token = deposit.token from rfl)]
      change _ + (deposit.amount.val + _) = _
      omega
    · rw [Function.update_of_ne heq] at hmoreSpent
      rw [if_neg (show deposit.entry.token ≠ token from Ne.symm heq)]
      omega

theorem getOrDeployShadowAccount_ledgers (htokens : StandardTokens platform ledgers tokens)
    {commitment : Felt} {state state' : sn.Tokens}
    (h : getOrDeployShadowAccount platform commitment state = .ok (shadowAccount, state')) :
    ledgers state' = ledgers state := by
  unfold getOrDeployShadowAccount at h
  split at h
  · obtain ⟨-, rfl⟩ := Prod.mk.inj (pure_eq_ok.mp h)
    rfl
  · simp only [bind_eq_ok, require_eq_ok, pure_eq_ok, exists_const] at h
    obtain ⟨⟨account, deployed⟩, hdeploy, -, replaced, hreplace, initialized, hinit, hresult⟩ := h
    obtain ⟨-, rfl⟩ := Prod.mk.inj hresult
    rw [htokens.writeShadowAccount, htokens.initializeAccount hinit, htokens.setClassHash hreplace,
      htokens.deploy hdeploy]

theorem getOrDeployShadowAccount_separate (hparties : SeparateParties platform)
    {commitment : Felt} {state state' : sn.Tokens}
    (h : getOrDeployShadowAccount platform commitment state = .ok (shadowAccount, state')) :
    shadowAccount ≠ platform.contractAddress ∧ shadowAccount ≠ sn.contractAddress := by
  unfold getOrDeployShadowAccount at h
  split at h
  · rename_i hstored
    obtain ⟨rfl, -⟩ := Prod.mk.inj (pure_eq_ok.mp h)
    exact hparties.stored hstored
  · simp only [bind_eq_ok, require_eq_ok, pure_eq_ok, exists_const] at h
    obtain ⟨⟨account, deployed⟩, hdeploy, -, replaced, -, initialized, -, hresult⟩ := h
    obtain ⟨rfl, -⟩ := Prod.mk.inj hresult
    exact hparties.deployed hdeploy

/-! ### The interaction -/

/-- When the pool's allowance for each token covers all that it is to pull, no token comes twice:
the allowance is one of the amounts. -/
theorem Collecting.nodup_tokens {notes : List OpenNote} {loop : CollectLoop sn}
    (h : Collecting platform ledgers shadowAccount started called notes loop)
    (hcovered : ∀ deposit ∈ loop.deposits,
      total deposit.token (loop.deposits.map OpenNoteDeposit.entry) ≤
        (ledgers loop.state deposit.token).allowances platform.contractAddress
          platform.privacyContract) :
    ((loop.deposits.map OpenNoteDeposit.entry).map (·.token)).Nodup := by
  refine Erc20.nodup_of_total_le ?_ ?_
  · intro entry hentry
    obtain ⟨deposit, hdeposit, rfl⟩ := List.mem_map.mp hentry
    obtain ⟨note, -, hanswers⟩ := HashMap.exists_left_of_forall₂ h.answers hdeposit
    exact fun heq => hanswers.amount_ne_zero (Fin.ext heq)
  · intro entry hentry
    obtain ⟨deposit, hdeposit, rfl⟩ := List.mem_map.mp hentry
    obtain ⟨latest, hlatest, hsame, hallowance⟩ := h.approved deposit hdeposit
    exact ⟨latest.entry, List.mem_map_of_mem hlatest, hsame,
      (hcovered deposit hdeposit).trans_eq hallowance⟩

theorem Collecting.tokens_eq {notes : List OpenNote} {loop : CollectLoop sn}
    (h : Collecting platform ledgers shadowAccount started called notes loop) :
    notes.map (·.token) = (loop.deposits.map OpenNoteDeposit.entry).map (·.token) := by
  rw [List.map_map, ← List.forall₂_eq_eq_eq, List.forall₂_map_left_iff, List.forall₂_map_right_iff]
  exact h.answers.imp fun _ _ hanswers => hanswers.token.symm

/-- A successful interaction, from its parts: the amounts were chosen, transferred and
pulled. -/
theorem collectedExactly (hparties : SeparateParties platform)
    (htokens : StandardTokens platform ledgers tokens)
    (hpool : platform.privacyContract = sn.contractAddress)
    (hshadow : shadowAccount ≠ platform.contractAddress)
    (hshadow' : shadowAccount ≠ sn.contractAddress) {before transferred : sn.Tokens}
    {openNotes : List OpenNote} (hnotes : ∀ note ∈ openNotes, note.token ∈ tokens)
    {deposits : List OpenNoteDeposit} {world world' : World sn}
    (hstarted : ledgers started = ledgers before)
    (hkept : ∀ note ∈ openNotes, sn.balanceOf called note.token platform.contractAddress =
      sn.balanceOf started note.token platform.contractAddress)
    (hcollect : collectOpenNotes platform shadowAccount
      (snapshotOpenNotes shadowAccount openNotes started) called = .ok (deposits, transferred))
    (hworld : world.tokens = transferred)
    (hdeposits : deposits.foldlM (depositToOpenNote sn platform.contractAddress) world =
      .ok world') :
    CollectedExactly platform ledgers shadowAccount openNotes deposits before started called
      world'.tokens := by
  simp only [collectOpenNotes, bind_eq_ok, pure_eq_ok] at hcollect
  obtain ⟨loop, hloop, state, htransfers, hresult⟩ := hcollect
  obtain ⟨rfl, rfl⟩ := Prod.mk.inj hresult
  have hcollecting := Collecting.run htokens Collecting.start hnotes hloop
  rw [List.nil_append] at hcollecting
  have hstandard : ∀ deposit ∈ loop.deposits, deposit.token ∈ tokens := by
    intro deposit hdeposit
    obtain ⟨note, hnote, hanswers⟩ := HashMap.exists_left_of_forall₂ hcollecting.answers hdeposit
    rw [hanswers.token]
    exact hnotes note hnote
  rw [hcollecting.transferCalls] at htransfers
  obtain ⟨hmoved, hallowances⟩ := execute_transfers htokens hshadow hstandard htransfers
  obtain ⟨hpulled, hspent⟩ := deposits_pulled htokens hparties.anonymizer_ne_pool hstandard hdeposits
  rw [hworld] at hpulled hspent
  have hnodup : ((loop.deposits.map OpenNoteDeposit.entry).map (·.token)).Nodup := by
    refine hcollecting.nodup_tokens fun deposit _ => ?_
    rw [← hallowances, hpool, ← hspent deposit.token]
    exact Nat.le_add_left _ _
  have hamount : ∀ deposit ∈ loop.deposits,
      total deposit.token (loop.deposits.map OpenNoteDeposit.entry) = deposit.amount.val :=
    fun deposit hdeposit => Erc20.total_eq_amount hnodup (List.mem_map_of_mem hdeposit)
  -- The account sends each amount to the anonymizer, from which the pool takes it.
  refine ⟨hcollecting.tokens_eq ▸ hnodup, hcollecting.answers, ?_, ?_, ?_, ?_⟩
  all_goals
    intro deposit hdeposit
    have htoken := hstandard deposit hdeposit
    have htotal := hamount deposit hdeposit
  · have hsent := hmoved.sent deposit.token
    have hother := hpulled.others deposit.token shadowAccount hshadow hshadow'
    rw [htotal, hcollecting.balances] at hsent
    rw [htokens.balanceOf htoken, htokens.balanceOf htoken, hother, hsent]
  · have hreceived := hpulled.received deposit.token
    have hother := hmoved.others deposit.token sn.contractAddress hshadow'.symm
      hparties.anonymizer_ne_pool.symm
    rw [htotal, hother, hcollecting.balances] at hreceived
    rw [htokens.balanceOf htoken, htokens.balanceOf htoken, hreceived]
  · obtain ⟨note, hnote, hanswers⟩ := HashMap.exists_left_of_forall₂ hcollecting.answers hdeposit
    have hsame := hkept note hnote
    have hsent := hpulled.sent deposit.token
    have hreceived := hmoved.received deposit.token
    rw [← hanswers.token, htokens.balanceOf htoken, htokens.balanceOf htoken, hstarted] at hsame
    rw [hcollecting.balances] at hreceived
    rw [htokens.balanceOf htoken, htokens.balanceOf htoken, ← hsame]
    omega
  · obtain ⟨latest, hlatest, hsame, hallowance⟩ := hcollecting.approved deposit hdeposit
    have hspent' := hspent deposit.token
    have hlatestTotal := hamount latest hlatest
    rw [hsame, htotal] at hlatestTotal
    rw [htotal, hallowances, ← hpool, hallowance] at hspent'
    rw [← hpool]
    omega

end Collecting

/-- The pool reads back the deposits that the entry point returned. -/
theorem deserializeInvokeReturnData_serialize (deposits : Span OpenNoteDeposit)
    (addresses : Span ContractAddress) :
    deserializeInvokeReturnData (serialize (deposits, addresses)) =
      .ok (deposits, some addresses) := by
  have hsplit : serialize (deposits, addresses) = serialize deposits ++ serialize addresses := rfl
  have hread : deserialize (α := Span ContractAddress) (serialize addresses) =
      some (addresses, []) := by
    have h := deserialize_serialize addresses []
    rwa [List.append_nil] at h
  have hne : serialize addresses ≠ [] := List.cons_ne_nil _ _
  rw [deserializeInvokeReturnData, hsplit, deserialize_serialize]
  simp only [expect, bind, Except.bind]
  rw [if_neg hne, hread]
  rfl

/-- In every transaction of the pool that succeeds, a compute-invoke of the anonymizer
whose calls leave the anonymizer's tokens alone collects exactly what the policies of its
open notes ask for. -/
theorem anonymizer_collects_exactly {ledgers : TokenLedgers sn} {tokens : Set ContractAddress}
    {invocation : Invocation sn} {tx : TxInfo} {world world' : World sn}
    {actions : Span ServerAction} {screening : Option ScreeningAttestation}
    {earlier later : List ServerAction} {input : InvokeInput}
    (hparties : SeparateParties platform) (htokens : StandardTokens platform ledgers tokens)
    (hentry : ∀ world calldata, invocation world platform.contractAddress
      invokeWithComputationSelector calldata =
        privacyInvokeEntryPoint platform sn.contractAddress calldata world.tokens)
    (happly : applyActions sn invocation tx world actions screening = .ok world')
    (hactions : actions.1 = earlier ++ .invokeWithComputation input :: later)
    (htarget : input.contractAddress = platform.contractAddress) :
    ∃ (paid : sn.Tokens) (st st' last : ApplyState sn) (identityCommitment : Felt)
      (calls : Span Call) (openNotes : Span OpenNote) (shadowAccount : ContractAddress)
      (started called : sn.Tokens) (deposits : Span OpenNoteDeposit),
      -- The interaction as a step of the transaction.
      earlier.foldlM (applyAction sn invocation) ⟨{ world.enter with tokens := paid }, 0, none⟩ =
        .ok st ∧
      applyAction sn invocation st (.invokeWithComputation input) = .ok st' ∧
      later.foldlM (applyAction sn invocation) st' = .ok last ∧
      world' = guardEnd sn last.world ∧
      -- The arguments, the shadow account and its calls.
      input.calldata.1 = identityCommitment :: (serialize calls ++ serialize openNotes) ∧
      getOrDeployShadowAccount platform identityCommitment st.world.tokens =
        .ok (shadowAccount, started) ∧
      execute platform shadowAccount calls.1 started = .ok called ∧
      ((∀ note ∈ openNotes.1, note.token ∈ tokens) →
        (∀ note ∈ openNotes.1, sn.balanceOf called note.token platform.contractAddress =
          sn.balanceOf started note.token platform.contractAddress) →
        CollectedExactly platform ledgers shadowAccount openNotes.1 deposits.1 st.world.tokens
          started called st'.world.tokens) := by
  -- The list is cut at the invoke, and what the invoke calls is taken apart.
  obtain ⟨paid, last, haccepted⟩ := applyActions_iff.mp happly
  have happlied := haccepted.applied
  rw [hactions] at happlied
  obtain ⟨st, hearlier, hmore⟩ := foldlM_append_eq_ok.mp happlied
  obtain ⟨st', hstep, hlater⟩ := foldlM_cons_eq_ok.mp hmore
  have hinvoke : applyInvokeAndDeposits sn invocation st input invokeWithComputationSelector =
      .ok st' := hstep
  obtain ⟨collectedState, deposits, hinvoked⟩ := applyInvokeAndDeposits_eq_ok hinvoke
  obtain ⟨returnData, addresses, hcalled, hreturned⟩ := hinvoked.called
  rw [htarget, hentry] at hcalled
  obtain ⟨identityCommitment, calls, openNotes, ⟨deposits', addresses'⟩, hcalldata, hinteraction,
    rfl⟩ := privacyInvokeEntryPoint_eq_ok hcalled
  rw [deserializeInvokeReturnData_serialize] at hreturned
  obtain ⟨rfl, -⟩ := Prod.mk.inj (Except.ok.inj hreturned)
  simp only [privacyInvokeWithComputation, bind_eq_ok, require_eq_ok, pure_eq_ok,
    exists_const] at hinteraction
  obtain ⟨hcaller, ⟨shadowAccount, started⟩, hshadow, called, hexecuted, ⟨collectedDeposits, state⟩,
    hcollect, span, hspan, addressSpan, -, hresult⟩ := hinteraction
  obtain ⟨hpair, rfl⟩ := Prod.mk.inj hresult
  obtain ⟨rfl, -⟩ := Prod.mk.inj hpair
  have hdeposits : span.1 = collectedDeposits := by
    rw [toSpan, expect_eq_ok] at hspan
    split at hspan
    · exact (congrArg Subtype.val (Option.some.inj hspan)).symm
    · cases hspan
  refine ⟨paid, st, st', last, identityCommitment, calls, openNotes, shadowAccount, started, called,
    span, hearlier, hstep, hlater, haccepted.result, hcalldata, hshadow, hexecuted, ?_⟩
  intro hnotes hkept
  obtain ⟨hne, hne'⟩ := getOrDeployShadowAccount_separate hparties hshadow
  have hpulled := hinvoked.deposited
  rw [htarget, hdeposits] at hpulled
  rw [hdeposits]
  exact collectedExactly hparties htokens hcaller.symm hne hne' hnotes
    (getOrDeployShadowAccount_ledgers htokens hshadow) hkept hcollect rfl hpulled

/-! ### A sample interaction -/

namespace AnonymizerSample

/-- Tokens as standard ledgers. -/
def starknet : Starknet :=
  { Starknet.sample with
    Tokens := ContractAddress → Erc20.Ledger ContractAddress
    balanceOf := fun state token account => (state token).balances account
    checkedTransferFrom := fun state token sender recipient amount =>
      ((state token).transferFrom 1000 sender recipient amount).map (Function.update state token)
    checkedTransfer := fun state token recipient amount =>
      ((state token).transfer 1000 recipient amount).map (Function.update state token) }

/-- A call of a token, which knows transfers only. -/
def callToken (state : starknet.Tokens) (caller : ContractAddress) (call : Call) :
    Except (List Felt) starknet.Tokens :=
  match call.calldata.1 with
  | [recipient, low, high] =>
    expect ((narrow (2 ^ 251) recipient).bind fun recipient =>
      ((state call.toAddr).transfer caller recipient (high.val * 2 ^ 128 + low.val)).map
        (Function.update state call.toAddr)) []
  | _ => .error []

/-- The anonymizer at address 8, whose shadow accounts are all at 600. -/
def anonymizer : AnonymizerPlatform starknet where
  contractAddress := 8
  privacyContract := 1000
  shadowAccountClassHash := 3
  shadowAccounts _ _ := some 600
  writeShadowAccount state _ _ := state
  deploy _ _ _ := .error []
  setClassHash _ _ _ := .error []
  initializeAccount _ _ := .error []
  approve state token spender amount :=
    .ok (Function.update state token ((state token).approve 8 spender amount))
  callContract := callToken

theorem separateParties : SeparateParties anonymizer where
  anonymizer_ne_pool := by decide
  stored := by
    intro state commitment account h
    obtain rfl := Option.some.inj h
    decide
  deployed := by
    intro state classHash salt account state' h
    cases h

theorem callToken_buildTransferCall {state state' : starknet.Tokens}
    {token account recipient : ContractAddress} {amount : ℕ} (hamount : amount < 2 ^ 256)
    (h : callToken state account (buildTransferCall token recipient amount) = .ok state') :
    ∃ moved, (state token).transfer account recipient amount = some moved ∧
      state' = Function.update state token moved := by
  have hprime : 2 ^ 128 ≤ feltPrime := two_pow_128_le
  have hlow : amount % 2 ^ 128 % feltPrime = amount % 2 ^ 128 :=
    Nat.mod_eq_of_lt (Nat.lt_of_lt_of_le (Nat.mod_lt _ (by decide)) hprime)
  have hhigh : amount / 2 ^ 128 % feltPrime = amount / 2 ^ 128 :=
    Nat.mod_eq_of_lt (Nat.lt_of_lt_of_le (Nat.div_lt_of_lt_mul hamount) hprime)
  have hwhole : (Fin.ofNat feltPrime (amount / 2 ^ 128)).val * 2 ^ 128 +
      (Fin.ofNat feltPrime (amount % 2 ^ 128)).val = amount := by
    rw [Fin.val_ofNat, Fin.val_ofNat, hlow, hhigh]
    exact Nat.div_add_mod' amount (2 ^ 128)
  simp only [callToken, buildTransferCall, hwhole, ContractAddress.toFelt, narrow_widen,
    Option.bind_some, expect_eq_ok] at h
  obtain ⟨moved, hmoved, rfl⟩ := Option.map_eq_some_iff.mp h
  exact ⟨moved, hmoved, rfl⟩

theorem standardTokens : StandardTokens anonymizer (fun state => state) Set.univ where
  balanceOf _ := rfl
  approve _ h := (Except.ok.inj h).symm
  transfer _ hamount h := callToken_buildTransferCall hamount h
  transferFrom := by
    intro state state' token sender recipient amount _ h
    obtain ⟨moved, hmoved, rfl⟩ := Option.map_eq_some_iff.mp h
    exact ⟨moved, hmoved, rfl⟩
  deploy h := nomatch h
  setClassHash h := nomatch h
  initializeAccount h := nomatch h
  writeShadowAccount _ _ _ := rfl

/-- The shadow account pays 10 of its 40 to an account and keeps the rest for the note. -/
def calls : Span Call := ⟨[buildTransferCall 77 5 10], by decide⟩

/-- The open notes that the invocation lists. -/
def openNotes : Span OpenNote := ⟨[⟨8, 77, .all⟩], by decide⟩

/-- The input of the invocation: its selector, its calls and its open notes. -/
def input : InvokeInput := ⟨8, ⟨11 :: (serialize calls ++ serialize openNotes), by decide⟩⟩

/-- The list that creates the note and invokes the anonymizer. -/
def actions : Span ServerAction :=
  ⟨[.emitOpenNoteCreated ⟨⟨0, 0, 0⟩, 77, 8⟩, .invokeWithComputation input], by decide⟩

/-- The anonymizer is the contract at address 8. -/
def invocation : Invocation starknet := fun world contract selector calldata =>
  if contract = 8 ∧ selector = invokeWithComputationSelector then
    privacyInvokeEntryPoint anonymizer 1000 calldata world.tokens
  else .error []

/-- A pool with the open note 8 of token 77. -/
def world : World starknet where
  pool :=
    { words := Function.update (Function.update (fun _ => 0) 272 openNotePackedValue) 273 77
      recipientChannels := fun _ => []
      screeningPolicies := fun _ => .exempt
      auditorPublicKey := 2, screenerPublicKey := 4, feeAmount := 0, feeCollector := 9
      proofValidityBlocks := 100, paused := false, entered := false, roles := fun _ _ => false }
  tokens := fun _ => ⟨fun account => if account = 600 then 40 else 0, fun _ _ => 0⟩
  events := []
  blockNumber := 10
  blockTimestamp := 1000

theorem world_applies : applyActions starknet invocation Sample.tx world actions none =
    .ok (valueOr world (applyActions starknet invocation Sample.tx world actions none)) :=
  eq_ok_valueOr world (by decide +kernel)

/-- The sample calls leave the anonymizer alone. -/
theorem calls_keep {started called : starknet.Tokens} (token : ContractAddress)
    (h : execute anonymizer 600 calls.1 started = .ok called) :
    (called token).balances 8 = (started token).balances 8 := by
  obtain ⟨next, hcall, hrest⟩ := foldlM_cons_eq_ok.mp h
  obtain rfl := foldlM_nil_eq_ok.mp hrest
  obtain ⟨moved, hmoved, rfl⟩ := callToken_buildTransferCall (by decide) hcall
  obtain ⟨-, -, hothers⟩ := Erc20.Ledger.transfer_balances (by decide) hmoved
  by_cases heq : token = 77
  · subst heq
    exact (congrArg (·.balances 8) (Function.update_self 77 moved started)).trans
      (hothers 8 (by decide) (by decide))
  · exact congrArg (·.balances 8) (Function.update_of_ne heq moved started)

end AnonymizerSample

open AnonymizerSample in
theorem anonymizer_collects_exactly_sample :
    ∃ (st st' : ApplyState starknet) (started called : starknet.Tokens)
      (deposits : List OpenNoteDeposit),
      applyAction starknet invocation st (.invokeWithComputation input) = .ok st' ∧
      CollectedExactly anonymizer (fun state => state) 600 openNotes.1 deposits st.world.tokens
        started called st'.world.tokens := by
  have hactions : actions.1 =
      [.emitOpenNoteCreated ⟨⟨0, 0, 0⟩, 77, 8⟩] ++ .invokeWithComputation input :: [] := rfl
  obtain ⟨-, st, st', -, commitment, calls', openNotes', account, started, called, deposits, -,
    hstep, -, -, hcalldata, hshadow, hexecuted, hcollected⟩ :=
    anonymizer_collects_exactly separateParties standardTokens (fun _ _ => if_pos ⟨rfl, rfl⟩)
      world_applies hactions rfl
  obtain ⟨-, harguments⟩ := List.cons.inj hcalldata
  obtain ⟨rfl, hnotes⟩ := serialize_append_inj harguments
  obtain rfl := serialize_injective hnotes
  obtain ⟨rfl, -⟩ := Prod.mk.inj (pure_eq_ok.mp hshadow)
  exact ⟨st, st', started, called, deposits.1, hstep,
    hcollected (fun _ _ => Set.mem_univ _) fun note _ => calls_keep note.token hexecuted⟩

end PrivacyPool
