import PrivacyPool.Ledger.OpenNotes
import PrivacyPool.Refinement.View
import PrivacyPool.System.Run

/-!
# Applying a block

What the server does with the server actions of one block: storage changes as
the block says, and the tokens the pool holds, the counter of open notes and the
event log change with it. An invoke is taken apart into the call of the external
contract and the deposits it returns, each of which fills one open note.

## Main definitions

* `TokenOp` — what a transaction of the pool does with tokens
* `Block.events` — the events of a block
* `Block.Applied` — the effect of a block that is not an invoke
* `Deposited` — the effect of one deposit to an open note

## Main results

* `applied_of_serverActions` — a block that is not an invoke has its effect
* `applyInvokeAndDeposits_eq_ok` — an invoke is a call and a list of deposits
* `depositToOpenNote_eq_ok` — a deposit fills an open note
-/

namespace PrivacyPool

open Fallible WriteOnce

variable {sn : Starknet} {D : Domain} {invocation : Invocation sn} {st st' : ApplyState sn}

/-! ### Token movements -/

/-- What a transaction of the pool does with tokens: it takes a user's deposit,
pays out, calls an external contract, or pulls the amount of an open note. -/
inductive TokenOp
  | deposit (input : TransferFromInput)
  | payout (input : TransferToInput)
  | call (input : InvokeInput) (selector : Felt)
  | pull (event : Events.OpenNoteDeposited)

/-- One token movement. -/
def TokenOp.Step (invocation : Invocation sn) : TokenOp → sn.Tokens → sn.Tokens → Prop
  | deposit input, tokens, tokens' => sn.checkedTransferFrom tokens input.token input.fromAddr
      sn.contractAddress input.amount.val = some tokens'
  | payout input, tokens, tokens' =>
    sn.checkedTransfer tokens input.token input.toAddr input.amount.val = some tokens'
  | call input selector, tokens, tokens' => ∃ world returnData, world.tokens = tokens ∧
      invocation world input.contractAddress selector input.calldata = .ok (tokens', returnData)
  | pull event, tokens, tokens' => sn.checkedTransferFrom tokens event.token event.depositor
      sn.contractAddress event.amount.val = some tokens'

/-- The deposit to an open note that a token movement pays for. -/
def TokenOp.pulled : TokenOp → Option Events.OpenNoteDeposited
  | pull event => some event
  | deposit _ | payout _ | call _ _ => none

/-- What a token movement adds to the tokens the pool holds, external calls apart. -/
def TokenOp.held : TokenOp → ContractAddress → ℤ
  | deposit input => amountOf input.token input.amount
  | payout input => -amountOf input.token input.amount
  | call _ _ => 0
  | pull event => amountOf event.token event.amount

/-- The pool's balance of a token. -/
def World.held (world : World sn) (t : ContractAddress) : ℕ :=
  sn.balanceOf world.tokens t sn.contractAddress

/-- The token movements of a block that is not an invoke. -/
def Block.tokenOps : Block → List TokenOp
  | deposit user token amount => [.deposit ⟨user, token, amount⟩]
  | withdraw _ toAddr token amount => [.payout ⟨toAddr, token, amount⟩]
  | setViewingKey _ _ _ _ | openChannel _ _ _ _ _ | openSubchannel _ _ _ _
  | createEncNote _ _ _ _ | createOpenNote _ _ | useNote _ _ _ _ _ | invoke _
  | invokeWithComputation _ => []

/-- A token movement adds at least what it says to the tokens the pool holds. -/
theorem TokenOp.Step.held_le (hexact : ExactTransfers sn) (hconfined : invocation.Confined D)
    {op : TokenOp} {tokens tokens' : sn.Tokens} (h : op.Step invocation tokens tokens')
    (t : ContractAddress) :
    (sn.balanceOf tokens t sn.contractAddress : ℤ) + op.held t ≤
      sn.balanceOf tokens' t sn.contractAddress := by
  cases op with
  | deposit input =>
    have hbalance := hexact.transferFrom_balance h t
    simp only [held, amountOf, hbalance, and_true]
    split_ifs <;> simp
  | payout input =>
    -- A payout to the pool itself leaves its balance as it is.
    have hbalance := hexact.transfer_balance h t
    simp only [held, Pi.neg_apply, amountOf]
    by_cases ht : t = input.token
    · rw [if_pos ht]
      split_ifs at hbalance <;> omega
    · rw [if_neg fun hboth => ht hboth.1] at hbalance
      rw [if_neg ht]
      omega
  | call input selector =>
    obtain ⟨world, returnData, rfl, hcall⟩ := h
    have hgain := hconfined.balance hcall t
    simp only [held, Pi.zero_apply, add_zero]
    exact_mod_cast hgain
  | pull event =>
    have hbalance := hexact.transferFrom_balance h t
    simp only [held, amountOf, hbalance, and_true]
    split_ifs <;> simp

/-- Token movements add at least what they say to the tokens the pool holds. -/
theorem held_le_of_trace (hexact : ExactTransfers sn) (hconfined : invocation.Confined D)
    {ops : List TokenOp} {tokens tokens' : sn.Tokens}
    (h : Trace (TokenOp.Step invocation) tokens ops tokens') (t : ContractAddress) :
    (sn.balanceOf tokens t sn.contractAddress : ℤ) + (ops.map fun op => op.held t).sum ≤
      sn.balanceOf tokens' t sn.contractAddress := by
  induction h with
  | nil _ => simp
  | cons hstep _ ih =>
    have hfirst := TokenOp.Step.held_le hexact hconfined hstep t
    rw [List.map_cons, List.sum_cons]
    omega

/-! ### Effects of blocks -/

/-- The external call of a block, with its selector. -/
def Block.invoked : Block → Option (InvokeInput × Felt)
  | invoke input => some (input, invokeSelector)
  | invokeWithComputation input => some (input, invokeWithComputationSelector)
  | setViewingKey _ _ _ _ | openChannel _ _ _ _ _ | openSubchannel _ _ _ _
  | createEncNote _ _ _ _ | createOpenNote _ _ | deposit _ _ _ | useNote _ _ _ _ _
  | withdraw _ _ _ _ => none

/-- The events of a block, those of the deposits of an invoke apart. -/
def Block.events (sn : Starknet) : Block → List Event
  | setViewingKey user _ publicKey enc => [.viewingKeySet ⟨user, publicKey, enc⟩]
  | openChannel _ _ _ _ _ | openSubchannel _ _ _ _ => []
  | createEncNote creation _ _ packedValue =>
    [.encNoteCreated ⟨creation.note.id sn, packedValue⟩]
  | createOpenNote creation enc =>
    [.openNoteCreated ⟨enc, creation.note.token, creation.note.id sn⟩]
  | deposit user token amount => [.deposit ⟨user, token, amount⟩]
  | useNote _ privateKey _ note _ => [.noteUsed ⟨(Slot.nullifier note privateKey).key sn⟩]
  | withdraw enc toAddr token amount => [.withdrawal ⟨enc, toAddr, token, amount⟩]
  | invoke input => [.externalContractInvoked ⟨input.contractAddress, invokeSelector⟩]
  | invokeWithComputation input =>
    [.externalContractInvoked ⟨input.contractAddress, invokeWithComputationSelector⟩]

/-- The effect of a block that is not an invoke. -/
structure Block.Applied (invocation : Invocation sn) (b : Block) (st st' : ApplyState sn) :
    Prop where
  storage : (b.serverActions sn).foldlM storageAction st.world.pool = .ok st'.world.pool
  paid : Trace (TokenOp.Step invocation) st.world.tokens b.tokenOps st'.world.tokens
  undeposited : st'.undepositedOpenNotes.val =
    st.undepositedOpenNotes.val + (Move.block b).created.length
  events : st'.world.events = st.world.events ++ b.events sn

/-! ### Blocks that are not invokes -/

theorem transferred_eq_ok {tokens : Option sn.Tokens} {tokens' : sn.Tokens} :
    transferred tokens = .ok tokens' ↔ tokens = some tokens' := expect_eq_ok

/-- A block that is not an invoke has its effect. -/
theorem applied_of_serverActions {b : Block} (hb : b.invoked = none)
    (h : (b.serverActions sn).foldlM (applyAction sn invocation) st = .ok st') :
    b.Applied invocation st st' := by
  cases b with
  | setViewingKey | openChannel | openSubchannel =>
    simp only [Block.serverActions, toWriteOnceAction, foldlM_cons_eq_ok, foldlM_nil_eq_ok,
      applyAction, bind_eq_ok, pure_eq_ok, exists_eq_left'] at h
    obtain ⟨_, ⟨pool₁, hfirst, rfl⟩, _, ⟨pool₂, hsecond, rfl⟩, rfl⟩ := h
    refine ⟨?_, .nil _, rfl, by simp [World.emit, Block.events]⟩
    simp only [Block.serverActions, toWriteOnceAction, foldlM_cons_eq_ok, foldlM_nil_eq_ok,
      storageAction, pure_eq_ok, exists_eq_left']
    exact ⟨pool₁, hfirst, pool₂, hsecond, rfl⟩
  | createEncNote | useNote =>
    simp only [Block.serverActions, toWriteOnceAction, foldlM_cons_eq_ok, foldlM_nil_eq_ok,
      applyAction, bind_eq_ok, pure_eq_ok, exists_eq_left'] at h
    obtain ⟨_, ⟨pool₁, hfirst, rfl⟩, rfl⟩ := h
    refine ⟨?_, .nil _, rfl, by simp [World.emit, Block.events]⟩
    simp only [Block.serverActions, toWriteOnceAction, foldlM_cons_eq_ok, foldlM_nil_eq_ok,
      storageAction, pure_eq_ok, exists_eq_left']
    exact ⟨pool₁, hfirst, rfl⟩
  -- The counter of open notes goes up.
  | createOpenNote creation enc =>
    simp only [Block.serverActions, toWriteOnceAction, foldlM_cons_eq_ok, foldlM_nil_eq_ok,
      applyAction, bind_eq_ok, pure_eq_ok, checkedAdd_eq_ok] at h
    obtain ⟨_, ⟨pool₁, hfirst, rfl⟩, _, ⟨counter, hcounter, rfl⟩, rfl⟩ := h
    refine ⟨?_, .nil _, hcounter, by simp [World.emit, Block.events]⟩
    simp only [Block.serverActions, toWriteOnceAction, foldlM_cons_eq_ok, foldlM_nil_eq_ok,
      storageAction, pure_eq_ok, exists_eq_left']
    exact ⟨pool₁, hfirst, rfl⟩
  | deposit user token amount =>
    simp only [Block.serverActions, foldlM_cons_eq_ok, foldlM_nil_eq_ok, applyAction,
      applyTransferFrom, bind_eq_ok, pure_eq_ok, transferred_eq_ok, exists_eq_left'] at h
    obtain ⟨_, ⟨subject, -, _, ⟨tokens, htransfer, rfl⟩, rfl⟩, rfl⟩ := h
    exact ⟨rfl, .single htransfer, rfl, by simp [World.emit, Block.events]⟩
  | withdraw enc toAddr token amount =>
    simp only [Block.serverActions, foldlM_cons_eq_ok, foldlM_nil_eq_ok, applyAction,
      applyTransferTo, bind_eq_ok, pure_eq_ok, transferred_eq_ok, exists_eq_left'] at h
    obtain ⟨_, ⟨_, ⟨tokens, htransfer, rfl⟩, rfl⟩, rfl⟩ := h
    exact ⟨rfl, .single htransfer, rfl, by simp [World.emit, Block.events]⟩
  | invoke input | invokeWithComputation input => exact absurd hb (by simp [Block.invoked])

/-! ### Invokes -/

/-- The effect of one deposit to an open note. -/
structure Deposited (depositor : ContractAddress) (deposit : OpenNoteDeposit)
    (world world' : World sn) : Prop where
  amount_ne : deposit.amount ≠ 0
  awaits : world.pool.words (sn.entry .notes deposit.noteId).val = openNotePackedValue
  token : world.pool.words ((sn.entry .notes deposit.noteId).val + 1) =
    ContractAddress.toFelt deposit.token
  recorded : ∃ packedValue, pack openNoteSalt deposit.amount = .ok packedValue ∧
    world'.pool.words =
      Function.update world.pool.words (sn.entry .notes deposit.noteId).val packedValue
  frame : world'.pool = { world.pool with words := world'.pool.words }
  pulled : sn.checkedTransferFrom world.tokens deposit.token depositor sn.contractAddress
    deposit.amount.val = some world'.tokens
  events : world'.events = world.events ++
    [.openNoteDeposited ⟨depositor, deposit.token, deposit.noteId, deposit.amount⟩]

/-- A successful deposit has its effect. -/
theorem depositToOpenNote_eq_ok {depositor : ContractAddress} {deposit : OpenNoteDeposit}
    {world world' : World sn} (h : depositToOpenNote sn depositor world deposit = .ok world') :
    Deposited depositor deposit world world' := by
  simp only [depositToOpenNote, bind_eq_ok, require_eq_ok, expect_eq_ok, exists_and_left,
    exists_const, pure_eq_ok, transferred_eq_ok] at h
  obtain ⟨-, hamount, noteToken, htoken, -, ⟨salt, current⟩, hunpack, hsalt, hcurrent, hsame,
    packedValue, hpack, -, tokens, htransfer, rfl⟩ := h
  dsimp only at hsalt hcurrent
  subst hsalt hcurrent hsame
  exact ⟨hamount, eq_openNotePackedValue_of_unpack hunpack,
    (widen_of_narrow two_pow_251_le htoken).symm, ⟨packedValue, hpack, rfl⟩, rfl, htransfer, rfl⟩

/-- What an invoke does: the external contract is called, and its deposits are
made one after the other. -/
structure Invoked (invocation : Invocation sn) (input : InvokeInput) (selector : Felt)
    (st st' : ApplyState sn) (tokens : sn.Tokens) (deposits : Span OpenNoteDeposit) : Prop where
  called : ∃ returnData addresses,
    invocation st.world input.contractAddress selector input.calldata = .ok (tokens, returnData) ∧
    deserializeInvokeReturnData returnData = .ok (deposits, addresses)
  deposited : deposits.1.foldlM (depositToOpenNote sn input.contractAddress)
    ({ st.world with tokens }.emit
      (.externalContractInvoked ⟨input.contractAddress, selector⟩)) = .ok st'.world
  undeposited : st'.undepositedOpenNotes.val + deposits.1.length = st.undepositedOpenNotes.val

/-- An invoke is a call and a list of deposits. -/
theorem applyInvokeAndDeposits_eq_ok {input : InvokeInput} {selector : Felt}
    (h : applyInvokeAndDeposits sn invocation st input selector = .ok st') :
    ∃ tokens deposits, Invoked invocation input selector st st' tokens deposits := by
  unfold applyInvokeAndDeposits at h
  obtain ⟨⟨tokens, returnData⟩, hcall, h⟩ := bind_eq_ok.mp h
  obtain ⟨⟨deposits, addresses⟩, hreturn, h⟩ := bind_eq_ok.mp h
  have hcalled : invocation st.world input.contractAddress selector input.calldata =
      .ok (tokens, returnData) := by
    cases hresult : invocation st.world input.contractAddress selector input.calldata with
    | error data => simp [hresult, Except.mapError] at hcall
    | ok result => simpa [hresult, Except.mapError] using hcall
  have hreturned : ∃ returnData addresses,
      invocation st.world input.contractAddress selector input.calldata =
        .ok (tokens, returnData) ∧
      deserializeInvokeReturnData returnData = .ok (deposits, addresses) :=
    ⟨returnData, addresses, hcalled, hreturn⟩
  dsimp only at h
  split_ifs at h with hempty
  · obtain rfl := pure_eq_ok.mp h
    exact ⟨tokens, deposits, hreturned, by rw [hempty]; rfl, by rw [hempty]; rfl⟩
  · simp only [bind_eq_ok, expect_eq_ok, pure_eq_ok, checkedSub_eq_some] at h
    obtain ⟨subject, -, world, hdeposits, counter, hcounter, rfl⟩ := h
    exact ⟨tokens, deposits, hreturned, hdeposits, hcounter⟩

/-- On the pool, an action does its storage part, unless it is an invoke. -/
theorem applyAction_eq_ok {action : ServerAction}
    (h : applyAction sn invocation st action = .ok st') :
    storageAction st.world.pool action = .ok st'.world.pool ∨
      (∀ pool, storageAction pool action = .ok pool) ∧ ∃ input selector,
        applyInvokeAndDeposits sn invocation st input selector = .ok st' := by
  cases action with
  | writeOnce input =>
    obtain ⟨pool, hwrite, h⟩ := bind_eq_ok.mp h
    obtain rfl := pure_eq_ok.mp h
    exact Or.inl hwrite
  | transferFrom input =>
    simp only [applyAction, applyTransferFrom, bind_eq_ok, pure_eq_ok] at h
    obtain ⟨subject, -, _, ⟨tokens, -, rfl⟩, rfl⟩ := h
    exact Or.inl rfl
  | transferTo input =>
    simp only [applyAction, applyTransferTo, bind_eq_ok, pure_eq_ok] at h
    obtain ⟨_, ⟨tokens, -, rfl⟩, rfl⟩ := h
    exact Or.inl rfl
  | invoke input | invokeWithComputation input =>
    exact Or.inr ⟨fun _ => rfl, input, _, h⟩
  | emitOpenNoteCreated event =>
    obtain ⟨counter, -, h⟩ := bind_eq_ok.mp h
    obtain rfl := pure_eq_ok.mp h
    exact Or.inl rfl
  | append _ | emitViewingKeySet _ | emitWithdrawal _ | emitDeposit _ | emitEncNoteCreated _
  | emitNoteUsed _ =>
    obtain rfl := pure_eq_ok.mp h
    exact Or.inl rfl

/-- A block with an external call is one of the two invokes. -/
theorem Block.eq_of_invoked {b : Block} {input : InvokeInput} {selector : Felt}
    (h : b.invoked = some (input, selector)) :
    b = .invoke input ∧ selector = invokeSelector ∨
      b = .invokeWithComputation input ∧ selector = invokeWithComputationSelector := by
  cases b with
  | invoke input' =>
    obtain ⟨rfl, rfl⟩ := Prod.mk.inj (Option.some.inj h)
    exact Or.inl ⟨rfl, rfl⟩
  | invokeWithComputation input' =>
    obtain ⟨rfl, rfl⟩ := Prod.mk.inj (Option.some.inj h)
    exact Or.inr ⟨rfl, rfl⟩
  | _ => cases h

/-- Applying the server actions of an invoke is the invoke. -/
theorem invoked_of_serverActions {b : Block} {input : InvokeInput} {selector : Felt}
    (hb : b.invoked = some (input, selector))
    (h : (b.serverActions sn).foldlM (applyAction sn invocation) st = .ok st') :
    ∃ tokens deposits, Invoked invocation input selector st st' tokens deposits := by
  obtain ⟨rfl, rfl⟩ | ⟨rfl, rfl⟩ := Block.eq_of_invoked hb
  all_goals
    simp only [Block.serverActions, foldlM_cons_eq_ok, foldlM_nil_eq_ok, applyAction,
      exists_eq_right] at h
    exact applyInvokeAndDeposits_eq_ok h

/-! ### Deposits on the book -/

/-- Overwriting the packed value of a note in play changes one word of its record. -/
theorem view_update_note (hD : NoCollision sn D) {words : ℕ → Felt} {n : NoteKey}
    (hn : (Slot.note n).Covered D) (packedValue : Felt) :
    view sn D (Function.update words ((Slot.note n).base sn) packedValue) =
      Function.update (view sn D words) (.note n)
        (Function.update (view sn D words (.note n)) 0 packedValue) := by
  funext s j
  by_cases hcovered : s.Covered D ∧ j < s.var.size
  · obtain ⟨hs, hj⟩ := hcovered
    rw [view_of_covered hs hj]
    -- Without collisions only the note itself has a word at this address.
    by_cases haddress : s.base sn + j = (Slot.note n).base sn
    · obtain ⟨rfl, rfl⟩ := Slot.eq_of_overlap (j := 0) hD hs hn hj (StorageVar.size_pos _) haddress
      rw [haddress, Function.update_self, Function.update_self, Function.update_self]
    · rw [Function.update_of_ne haddress]
      by_cases hsame : s = .note n
      · subst hsame
        have hoffset : j ≠ 0 := by
          rintro rfl
          exact haddress rfl
        rw [Function.update_self, Function.update_of_ne hoffset, view_of_covered hs hj]
      · rw [Function.update_of_ne hsame, view_of_covered hs hj]
  · rw [view, if_neg hcovered]
    by_cases hsame : s = .note n
    · subst hsame
      have hoffset : j ≠ 0 := by
        rintro rfl
        exact hcovered ⟨hn, StorageVar.size_pos _⟩
      rw [Function.update_self, Function.update_of_ne hoffset, view, if_neg hcovered]
    · rw [Function.update_of_ne hsame, view, if_neg hcovered]

/-- A deposit overwrites the packed value of an open note that awaits its amount. -/
theorem Deposited.overwrites (hD : NoCollision sn D) {depositor : ContractAddress}
    {deposit : OpenNoteDeposit} {world world' : World sn}
    (h : Deposited depositor deposit world world') (hkey : deposit.noteId ∈ D.keys)
    (hnamed : NotesNamed sn D world.pool.words) :
    ∃ (n : NoteKey) (packedValue : Felt), (Slot.note n).Covered D ∧ n.id sn = deposit.noteId ∧
      view sn D world.pool.words (.note n) 0 = openNotePackedValue ∧
      pack openNoteSalt deposit.amount = .ok packedValue ∧
      view sn D world'.pool.words = Function.update (view sn D world.pool.words) (.note n)
        (Function.update (view sn D world.pool.words (.note n)) 0 packedValue) ∧
      NotesNamed sn D world'.pool.words := by
  have hused : world.pool.words (sn.entry .notes deposit.noteId).val ≠ 0 := by
    rw [h.awaits]
    exact openNotePackedValue_ne_zero
  -- The slot of the deposit is in use, so that it is the record of a note in play.
  obtain ⟨n, hn, hid⟩ := hnamed deposit.noteId (Or.inl hkey) hused
  obtain ⟨packedValue, hpack, hwords⟩ := h.recorded
  have hbase : (sn.entry .notes deposit.noteId).val = (Slot.note n).base sn := by
    rw [← hid]
    rfl
  refine ⟨n, packedValue, hn, hid, ?_, hpack, ?_, ?_⟩
  · rw [view_head hn, ← hbase]
    exact h.awaits
  · rw [hwords, hbase]
    exact view_update_note hD hn packedValue
  · intro key hiskey hstored
    refine hnamed key hiskey ?_
    rw [hwords] at hstored
    by_cases hsame : (sn.entry .notes key).val = (sn.entry .notes deposit.noteId).val
    · rw [hsame]
      exact hused
    · rwa [Function.update_of_ne hsame] at hstored

/-- A deposit fills an open note of the book, in the note's own token. -/
theorem Deposited.fills (hD : NoCollision sn D) {depositor : ContractAddress}
    {deposit : OpenNoteDeposit} {world world' : World sn}
    (h : Deposited depositor deposit world world') (hkey : deposit.noteId ∈ D.keys)
    (hB : WellFormed sn D (book sn D world.pool)) (hnamed : NotesNamed sn D world.pool.words) :
    ∃ n : NoteKey, (Slot.note n).Covered D ∧ n.id sn = deposit.noteId ∧
      n.token = deposit.token ∧
      Fills n deposit.amount (book sn D world.pool) (book sn D world'.pool) ∧
      NotesNamed sn D world'.pool.words := by
  obtain ⟨n, packedValue, hn, hid, hawaits, hpack, hview, hnamed'⟩ := h.overwrites hD hkey hnamed
  have htoken : n.token = deposit.token := by
    have hnonzero : view sn D world.pool.words (.note n) 0 ≠ 0 := by
      rw [hawaits]
      exact openNotePackedValue_ne_zero
    -- A note that awaits its amount is no encrypted one, and so its second word is its token.
    rcases hB.readable n hnonzero with ⟨salt, amount, hsmall, -, hpacked⟩ | ⟨-, hstored⟩
    · have hopen : sn.encNotePackedValue n.channelKey n.token n.index salt amount =
          .ok openNotePackedValue := hpacked.trans (congrArg _ hawaits)
      exact absurd pack_open_zero (encNotePackedValue_ne_open hsmall hopen)
    · have hword : view sn D world.pool.words (.note n) 1 = ContractAddress.toFelt deposit.token := by
        rw [view_of_covered hn (show 1 < StorageVar.notes.size by decide)]
        have htoken := h.token
        rw [← hid] at htoken
        exact htoken
      exact ContractAddress.toFelt_inj.mp (hstored.symm.trans hword)
  refine ⟨n, hn, hid, htoken, ⟨hawaits, h.amount_ne, ?_, ?_, ?_, ?_⟩, hnamed'⟩
  · change _ = Except.ok (view sn D world'.pool.words (.note n) 0)
    rw [hview, Function.update_self, Function.update_self]
    exact hpack
  · intro j hj
    change view sn D world'.pool.words (.note n) j = view sn D world.pool.words (.note n) j
    rw [hview, Function.update_self, Function.update_of_ne hj]
  · intro s hs
    change view sn D world'.pool.words s = view sn D world.pool.words s
    rw [hview, Function.update_of_ne hs]
  · rw [h.frame]
    rfl

end PrivacyPool
