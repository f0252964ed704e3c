import PrivacyPool.Refinement.View

/-!
# Compiling is checking

Each client action compiles to the server actions of a block, and compiling
succeeds only when the block is enabled on the storage it is compiled on. The
running balances change by the credit of the block.

## Main definitions

* `Block.Of` — the block of a client action
* `TokenBalances.credit` — the running balance of a token

## Main results

* `compileAction_block` — a compiled client action is an enabled block
-/

namespace PrivacyPool

open Fallible WriteOnce

/-! ### Running balances -/

namespace TokenBalances

variable {balances balances' : TokenBalances} {token t : ContractAddress} {amount : U128}

/-- The running balance of a token. -/
def credit (balances : TokenBalances) (t : ContractAddress) : ℤ :=
  (balances.entry (ContractAddress.toFelt t)).val

theorem lookup_filter_ne {key key' : Felt} (h : key' ≠ key) (entries : List (Felt × U128)) :
    (entries.filter fun e => e.1 ≠ key).lookup key' = entries.lookup key' := by
  induction entries with
  | nil => rfl
  | cons e rest ih =>
    obtain ⟨k, v⟩ := e
    by_cases hk : k = key
    · subst hk
      rw [List.filter_cons_of_neg (by simp), ih, List.lookup_cons, beq_eq_false_iff_ne.mpr h]
    · rw [List.filter_cons_of_pos (by simpa using hk), List.lookup_cons, List.lookup_cons, ih]

theorem entry_finalize (balances : TokenBalances) (key key' : Felt) (newValue : U128) :
    (balances.finalize key newValue).entry key' =
      if key' = key then newValue else balances.entry key' := by
  split_ifs with h
  · subst h
    simp [entry, finalize]
  · rw [entry, finalize, List.lookup_cons, beq_eq_false_iff_ne.mpr h]
    dsimp only
    rw [lookup_filter_ne h, entry]

/-- A new value for one token changes the credit of that token. -/
theorem credit_finalize {newValue : U128} (t : ContractAddress) :
    (balances.finalize (ContractAddress.toFelt token) newValue).credit t =
      if t = token then (newValue.val : ℤ) else balances.credit t := by
  rw [credit, entry_finalize]
  simp only [ContractAddress.toFelt_inj]
  split_ifs <;> rfl

theorem credit_addBalance (h : balances.addBalance token amount = .ok balances')
    (t : ContractAddress) : balances'.credit t = balances.credit t + amountOf token amount t := by
  simp only [addBalance, bind_eq_ok, checkedAdd_eq_ok, pure_eq_ok] at h
  obtain ⟨newValue, hsum, rfl⟩ := h
  rw [credit_finalize, amountOf]
  split_ifs with ht
  · subst ht
    rw [credit, hsum]
    push_cast
    rfl
  · exact (Int.add_zero _).symm

theorem credit_subtractBalance (h : balances.subtractBalance token amount = .ok balances')
    (t : ContractAddress) : balances'.credit t = balances.credit t - amountOf token amount t := by
  simp only [subtractBalance, bind_eq_ok, expect_eq_ok, checkedSub_eq_some, pure_eq_ok] at h
  obtain ⟨newValue, hdiff, rfl⟩ := h
  rw [credit_finalize, amountOf]
  split_ifs with ht
  · subst ht
    rw [credit, ← hdiff]
    push_cast
    omega
  · exact (Int.sub_zero _).symm

/-- Balances that are valid at the end are all zero. -/
theorem credit_of_assertValid (h : balances.assertValid = .ok ()) (t : ContractAddress) :
    balances.credit t = 0 := by
  have hzero := assertValid_eq_ok.mp h
  rw [credit, entry]
  cases hlookup : balances.entries.lookup (ContractAddress.toFelt t) with
  | none => rfl
  | some v =>
    obtain ⟨before, after, hentries, -⟩ := List.lookup_eq_some_iff.mp hlookup
    have hmem : (ContractAddress.toFelt t, v) ∈ balances.entries := by
      rw [hentries]
      exact List.mem_append_right _ List.mem_cons_self
    have hv : v = 0 := hzero _ hmem
    rw [Option.getD_some, hv]
    rfl

end TokenBalances

/-! ### Blocks of client actions -/

/-- The block of a client action of a user. -/
inductive Block.Of (userAddr : ContractAddress) (userPrivateKey : Felt) :
    ClientAction → Block → Prop
  | setViewingKey {input : SetViewingKeyInput} {publicKey : Felt} {enc : EncPrivateKey} :
      Of userAddr userPrivateKey (.setViewingKey input)
        (.setViewingKey userAddr userPrivateKey publicKey enc)
  | openChannel {input : OpenChannelInput} {channelKey publicKey : Felt}
      {outgoing : EncOutgoingChannelInfo} {info : EncChannelInfo} :
      Of userAddr userPrivateKey (.openChannel input)
        (.openChannel ⟨channelKey, userAddr, input.recipientAddr, publicKey⟩ userPrivateKey
          input.index outgoing info)
  | openSubchannel {input : OpenSubchannelInput} {info : EncSubchannelInfo} :
      Of userAddr userPrivateKey (.openSubchannel input)
        (.openSubchannel userAddr
          ⟨input.channelKey, input.recipientAddr, input.recipientPublicKey, input.token⟩
          input.index info)
  | createEncNote {input : CreateEncNoteInput} {channelKey packedValue : Felt} :
      Of userAddr userPrivateKey (.createEncNote input)
        (.createEncNote ⟨userAddr, userPrivateKey, input.recipientAddr, input.recipientPublicKey,
          ⟨channelKey, input.token, input.index⟩⟩ input.salt input.amount packedValue)
  | createOpenNote {input : CreateOpenNoteInput} {channelKey : Felt} {enc : EncUserAddr} :
      Of userAddr userPrivateKey (.createOpenNote input)
        (.createOpenNote ⟨userAddr, userPrivateKey, input.recipientAddr, input.recipientPublicKey,
          ⟨channelKey, input.token, input.index⟩⟩ enc)
  | deposit {input : DepositInput} :
      Of userAddr userPrivateKey (.deposit input) (.deposit userAddr input.token input.amount)
  | useNote {input : UseNoteInput} {publicKey : Felt} {amount : U128} :
      Of userAddr userPrivateKey (.useNote input) (.useNote userAddr userPrivateKey publicKey
        ⟨input.channelKey, input.token, input.index⟩ amount)
  | withdraw {input : WithdrawInput} {enc : EncUserAddr} :
      Of userAddr userPrivateKey (.withdraw input)
        (.withdraw enc input.toAddr input.token input.amount)
  | invokeExternal {input : InvokeExternalInput} :
      Of userAddr userPrivateKey (.invokeExternal input)
        (.invoke ⟨input.contractAddress, input.calldata⟩)
  | computeAndInvoke {input : ComputeAndInvokeInput} {calldata : Span Felt} :
      Of userAddr userPrivateKey (.computeAndInvoke input)
        (.invokeWithComputation ⟨input.contractAddress, calldata⟩)

/-- What compiling a client action establishes: its server actions are those of a
block, the block is enabled, and the balances change by its credit. -/
structure BlockOf (sn : Starknet) (D : Domain) (pool : Pool) (userAddr : ContractAddress)
    (userPrivateKey : Felt) (action : ClientAction) (actions : List ServerAction)
    (balances balances' : TokenBalances) (b : Block) : Prop where
  of : b.Of userAddr userPrivateKey action
  actions : actions = b.serverActions sn
  enabled : Enabled sn D (view sn D pool.words) b
  covered : ∀ p ∈ b.puts, p.1.Covered D
  credit : ∀ t, balances'.credit t = balances.credit t + b.credit t

section Compile

variable {sn : Starknet} {D : Domain} {pool : Pool} {call : CallContract}
  {userAddr : ContractAddress} {userPrivateKey : Felt} {balances balances' : TokenBalances}
  {actions : List ServerAction}

/-- The check of the previous index, on the ledger. -/
theorem previous_used (slot : Usize → Slot) {index : Usize}
    (hcovered : ∀ i ∈ previousIndex index, (slot i).Covered D)
    (h : index = 0 ∨ pool.read sn (slot (index - 1)).var ((slot (index - 1)).key sn) 0 ≠ 0) :
    index = 0 ∨ view sn D pool.words (slot (index - 1)) 0 ≠ 0 := by
  by_cases hzero : index = 0
  · exact Or.inl hzero
  · have hslot := hcovered _ (mem_previousIndex hzero)
    exact Or.inr (used_of_read hslot (h.resolve_left hzero))

theorem setViewingKey_block {input : SetViewingKeyInput} (hnonzero : userPrivateKey ≠ 0)
    (hcanonical : isCanonicalKey userPrivateKey)
    (hcovered : (ClientAction.setViewingKey input).Covered sn D pool userAddr userPrivateKey)
    (h : setViewingKey sn pool userAddr userPrivateKey input = .ok actions) :
    ∃ b, BlockOf sn D pool userAddr userPrivateKey (.setViewingKey input) actions balances
      balances b := by
  simp only [setViewingKey, bind_eq_ok, pure_eq_ok] at h
  obtain ⟨_, -, publicKey, hderived, enc, -, rfl⟩ := h
  have hkey := hcovered.keys userAddr (List.mem_singleton_self _)
  refine ⟨.setViewingKey userAddr userPrivateKey publicKey enc, .setViewingKey, rfl,
    .setViewingKey hnonzero hcanonical hderived, ?_, fun t => (Int.add_zero _).symm⟩
  simp only [Block.puts, List.forall_mem_cons, List.not_mem_nil, IsEmpty.forall_iff, implies_true,
    and_true]
  exact ⟨hkey, hkey⟩

theorem openChannel_block {input : OpenChannelInput}
    (hcovered : (ClientAction.openChannel input).Covered sn D pool userAddr userPrivateKey)
    (h : openChannel sn pool userAddr userPrivateKey input = .ok actions) :
    ∃ b, BlockOf sn D pool userAddr userPrivateKey (.openChannel input) actions balances
      balances b := by
  simp only [openChannel, OpenChannelInput.assertValid, bind_eq_ok, require_eq_ok, exists_and_left,
    exists_const, pure_eq_ok] at h
  obtain ⟨⟨hto, -, -⟩, hsender, derived, hderived, hauthenticated, hrecipient, hprevious, info,
    hinfo, rfl⟩ := h
  -- The records that the compiler reads and writes are in play.
  have hspans := hcovered.spans
  simp only [ClientAction.hashedSpans, List.mem_append, List.mem_cons, List.not_mem_nil, or_false,
    List.mem_map] at hspans
  have hsenderCovered : (Slot.publicKey userAddr).Covered D :=
    hcovered.keys userAddr List.mem_cons_self
  have hrecipientCovered : (Slot.publicKey input.recipientAddr).Covered D :=
    hcovered.keys _ (List.mem_cons_of_mem _ List.mem_cons_self)
  have hreadSender : _ = view sn D pool.words (.publicKey userAddr) 0 := read_eq hsenderCovered
  have hreadRecipient : _ = view sn D pool.words (.publicKey input.recipientAddr) 0 :=
    read_eq hrecipientCovered
  refine ⟨.openChannel ⟨_, userAddr, input.recipientAddr, _⟩ userPrivateKey input.index _ info,
    .openChannel, rfl, ?_, ?_, fun t => (Int.add_zero _).symm⟩
  · refine .openChannel (used_of_read hsenderCovered hsender) ?_ hto hreadRecipient.symm hrecipient
      (previous_used (.outgoingChannel userAddr userPrivateKey) ?_ hprevious) rfl
      (hspans _ (Or.inl (Or.inl rfl))) ⟨_, hinfo⟩
    · rw [hderived, ← hauthenticated]
      exact congrArg Except.ok hreadSender
    · exact fun i hi => hspans _ (Or.inr ⟨i, hi, rfl⟩)
  · simp only [Block.puts, List.forall_mem_cons, List.not_mem_nil, IsEmpty.forall_iff,
      implies_true, and_true]
    exact ⟨hspans _ (Or.inl (Or.inr (Or.inl rfl))), hspans _ (Or.inl (Or.inr (Or.inr rfl)))⟩

theorem openSubchannel_block {input : OpenSubchannelInput}
    (hcovered : (ClientAction.openSubchannel input).Covered sn D pool userAddr userPrivateKey)
    (h : openSubchannel sn pool userAddr input = .ok actions) :
    ∃ b, BlockOf sn D pool userAddr userPrivateKey (.openSubchannel input) actions balances
      balances b := by
  simp only [openSubchannel, OpenSubchannelInput.assertValid, bind_eq_ok, require_eq_ok,
    exists_and_left, exists_const, pure_eq_ok] at h
  obtain ⟨⟨-, -, htoken, -⟩, hchannel, hprevious, rfl⟩ := h
  have hspans := hcovered.spans
  simp only [ClientAction.hashedSpans, List.mem_append, List.mem_cons, List.not_mem_nil, or_false,
    List.mem_map] at hspans
  have hchannelCovered : (Slot.channelExists ⟨input.channelKey, userAddr, input.recipientAddr,
      input.recipientPublicKey⟩).Covered D := hspans _ (Or.inl (Or.inl rfl))
  refine ⟨.openSubchannel userAddr
    ⟨input.channelKey, input.recipientAddr, input.recipientPublicKey, input.token⟩ input.index _,
    .openSubchannel, rfl, ?_, ?_, fun t => (Int.add_zero _).symm⟩
  · refine .openSubchannel htoken ?_
      (previous_used (.subchannelToken input.channelKey) ?_ hprevious)
    · exact used_of_read hchannelCovered hchannel
    · exact fun i hi => hspans _ (Or.inr ⟨i, hi, rfl⟩)
  · simp only [Block.puts, List.forall_mem_cons, List.not_mem_nil, IsEmpty.forall_iff,
      implies_true, and_true]
    exact ⟨hspans _ (Or.inl (Or.inr (Or.inr rfl))), hspans _ (Or.inl (Or.inr (Or.inl rfl)))⟩

/-- The checks shared by the creations of notes enable the creation. -/
theorem prepareNoteCreation_enabled {recipientAddr token : ContractAddress}
    {recipientPublicKey channelKey storageAddress noteId : Felt} {index : Usize}
    (hrecipient : recipientAddr ≠ 0) (htoken : token ≠ 0)
    (hspans : let channelKey :=
        sn.computeChannelKey userAddr userPrivateKey recipientAddr recipientPublicKey
      ∀ span ∈ [channelKeySpan userAddr userPrivateKey recipientAddr recipientPublicKey,
        subchannelMarkerSpan channelKey recipientAddr recipientPublicKey token,
        noteIdSpan channelKey token index] ++
        (previousIndex index).map (noteIdSpan channelKey token), span ∈ D.spans)
    (h : prepareNoteCreation sn pool userAddr userPrivateKey recipientAddr recipientPublicKey token
      index = .ok (channelKey, storageAddress, noteId)) :
    NoteCreation.Enabled sn D (view sn D pool.words) ⟨userAddr, userPrivateKey, recipientAddr,
      recipientPublicKey, ⟨channelKey, token, index⟩⟩ ∧
    (Slot.note ⟨channelKey, token, index⟩).Covered D ∧
    storageAddress = (Slot.note ⟨channelKey, token, index⟩).address sn ∧
    noteId = NoteKey.id ⟨channelKey, token, index⟩ sn := by
  simp only [prepareNoteCreation, bind_eq_ok, require_eq_ok, exists_and_left, exists_const,
    pure_eq_ok, Prod.mk.injEq] at h
  obtain ⟨hsubchannel, hprevious, rfl, rfl, rfl⟩ := h
  simp only [List.mem_append, List.mem_cons, List.not_mem_nil, or_false, List.mem_map] at hspans
  refine ⟨⟨hrecipient, htoken, rfl, hspans _ (Or.inl (Or.inl rfl)), ?_, ?_⟩,
    hspans _ (Or.inl (Or.inr (Or.inr rfl))), rfl, rfl⟩
  · have hcovered : (Slot.subchannelExists ⟨_, recipientAddr, recipientPublicKey, token⟩).Covered D :=
      hspans _ (Or.inl (Or.inr (Or.inl rfl)))
    exact used_of_read hcovered hsubchannel
  · exact previous_used (fun i => .note ⟨_, token, i⟩)
      (fun i hi => hspans _ (Or.inr ⟨i, hi, rfl⟩)) hprevious

theorem createEncNote_block {input : CreateEncNoteInput}
    (hcovered : (ClientAction.createEncNote input).Covered sn D pool userAddr userPrivateKey)
    (h : createEncNote sn pool userAddr userPrivateKey input balances = .ok (actions, balances')) :
    ∃ b, BlockOf sn D pool userAddr userPrivateKey (.createEncNote input) actions balances
      balances' b := by
  simp only [createEncNote, CreateEncNoteInput.assertValid, bind_eq_ok, require_eq_ok,
    exists_and_left, exists_const, pure_eq_ok, Prod.mk.injEq] at h
  obtain ⟨⟨hto, -, htoken, -, hsmall, hlarge⟩, ⟨channelKey, storageAddress, noteId⟩, hprepare,
    packedValue, hpacked, -, balances'', hbalances, rfl, rfl⟩ := h
  obtain ⟨hcreation, hnote, rfl, rfl⟩ :=
    prepareNoteCreation_enabled hto htoken hcovered.spans hprepare
  refine ⟨_, .createEncNote, rfl, .createEncNote hcreation hsmall hlarge hpacked, ?_, ?_⟩
  · simpa [Block.puts] using hnote
  · intro t
    rw [TokenBalances.credit_subtractBalance hbalances]
    rfl

theorem createOpenNote_block {input : CreateOpenNoteInput}
    (hcovered : (ClientAction.createOpenNote input).Covered sn D pool userAddr userPrivateKey)
    (h : createOpenNote sn pool userAddr userPrivateKey input = .ok actions) :
    ∃ b, BlockOf sn D pool userAddr userPrivateKey (.createOpenNote input) actions balances
      balances b := by
  simp only [createOpenNote, CreateOpenNoteInput.assertValid, bind_eq_ok, require_eq_ok,
    exists_and_left, exists_const, pure_eq_ok] at h
  obtain ⟨⟨hto, -, htoken, -⟩, ⟨channelKey, storageAddress, noteId⟩, hprepare, -, enc, -, rfl⟩ := h
  obtain ⟨hcreation, hnote, rfl, rfl⟩ :=
    prepareNoteCreation_enabled hto htoken hcovered.spans hprepare
  refine ⟨_, .createOpenNote, rfl, .createOpenNote hcreation, ?_, fun t => (Int.add_zero _).symm⟩
  simpa [Block.puts] using hnote

theorem useNote_block {input : UseNoteInput} (hcanonical : isCanonicalKey userPrivateKey)
    (hcovered : (ClientAction.useNote input).Covered sn D pool userAddr userPrivateKey)
    (h : useNote sn pool userAddr userPrivateKey input balances = .ok (actions, balances')) :
    ∃ b, BlockOf sn D pool userAddr userPrivateKey (.useNote input) actions balances
      balances' b := by
  simp only [useNote, bind_eq_ok, require_eq_ok, exists_and_left, exists_const, pure_eq_ok,
    Prod.mk.injEq] at h
  obtain ⟨_, -, publicKey, hderived, hsubchannel, hnote, amount, hdecoded, hamount, balances'',
    hbalances, rfl, rfl⟩ := h
  -- The records that the compiler reads and writes are in play.
  have hspans := hcovered.spans
  simp only [ClientAction.hashedSpans, hderived, List.mem_append, List.mem_cons,
    List.not_mem_nil, or_false] at hspans
  have hsubchannelCovered : (Slot.subchannelExists
      ⟨input.channelKey, userAddr, publicKey, input.token⟩).Covered D := hspans _ (Or.inl rfl)
  have hnoteCovered : (Slot.note ⟨input.channelKey, input.token, input.index⟩).Covered D :=
    hspans _ (Or.inr (Or.inl rfl))
  have hread : pool.read sn .notes (sn.computeNoteId input.channelKey input.token input.index) 0 =
      view sn D pool.words (.note ⟨input.channelKey, input.token, input.index⟩) 0 :=
    read_eq hnoteCovered
  refine ⟨.useNote userAddr userPrivateKey publicKey
    ⟨input.channelKey, input.token, input.index⟩ amount, .useNote, rfl, ?_, ?_, ?_⟩
  · refine .useNote hcanonical hderived (used_of_read hsubchannelCovered hsubchannel)
      (used_of_read hnoteCovered hnote) ?_ hamount
    rw [← hread]
    exact hdecoded
  · simp only [Block.puts, List.mem_singleton, forall_eq]
    exact hspans _ (Or.inr (Or.inr rfl))
  · intro t
    rw [TokenBalances.credit_addBalance hbalances]
    rfl

/-- A compiled client action is an enabled block. -/
theorem compileAction_block {action : ClientAction} (hnonzero : userPrivateKey ≠ 0)
    (hcanonical : isCanonicalKey userPrivateKey)
    (hcovered : action.Covered sn D pool userAddr userPrivateKey)
    (h : compileAction sn pool call userAddr userPrivateKey balances action =
      .ok (actions, balances')) :
    ∃ b, BlockOf sn D pool userAddr userPrivateKey action actions balances balances' b := by
  cases action with
  | setViewingKey input =>
    simp only [compileAction, bind_eq_ok, pure_eq_ok, Prod.mk.injEq] at h
    obtain ⟨actions', h, rfl, rfl⟩ := h
    exact setViewingKey_block hnonzero hcanonical hcovered h
  | openChannel input =>
    simp only [compileAction, bind_eq_ok, pure_eq_ok, Prod.mk.injEq] at h
    obtain ⟨actions', h, rfl, rfl⟩ := h
    exact openChannel_block hcovered h
  | openSubchannel input =>
    simp only [compileAction, bind_eq_ok, pure_eq_ok, Prod.mk.injEq] at h
    obtain ⟨actions', h, rfl, rfl⟩ := h
    exact openSubchannel_block hcovered h
  | createEncNote input => exact createEncNote_block hcovered h
  | createOpenNote input =>
    simp only [compileAction, bind_eq_ok, pure_eq_ok, Prod.mk.injEq] at h
    obtain ⟨actions', h, rfl, rfl⟩ := h
    exact createOpenNote_block hcovered h
  | deposit input =>
    simp only [compileAction, deposit, DepositInput.assertValid, bind_eq_ok, require_eq_ok,
      exists_and_left, exists_const, pure_eq_ok, Prod.mk.injEq] at h
    obtain ⟨⟨-, hamount⟩, balances'', hbalances, rfl, rfl⟩ := h
    refine ⟨.deposit userAddr input.token input.amount, .deposit, rfl, .deposit hamount,
      by simp [Block.puts], fun t => ?_⟩
    rw [TokenBalances.credit_addBalance hbalances]
    rfl
  | useNote input => exact useNote_block hcanonical hcovered h
  | withdraw input =>
    simp only [compileAction, withdraw, WithdrawInput.assertValid, bind_eq_ok, require_eq_ok,
      exists_and_left, exists_const, pure_eq_ok, Prod.mk.injEq] at h
    obtain ⟨⟨hto, -, -, -⟩, balances'', hbalances, enc, -, rfl, rfl⟩ := h
    refine ⟨.withdraw enc input.toAddr input.token input.amount, .withdraw, rfl, .withdraw hto,
      by simp [Block.puts], fun t => ?_⟩
    rw [TokenBalances.credit_subtractBalance hbalances]
    rfl
  | invokeExternal input =>
    simp only [compileAction, invokeExternal, bind_eq_ok, pure_eq_ok, Prod.mk.injEq] at h
    obtain ⟨actions', ⟨_, -, rfl⟩, rfl, rfl⟩ := h
    exact ⟨_, .invokeExternal, rfl, .invoke, by simp [Block.puts], fun t => (Int.add_zero _).symm⟩
  | computeAndInvoke input =>
    simp only [compileAction, computeAndInvoke, bind_eq_ok, pure_eq_ok, Prod.mk.injEq] at h
    obtain ⟨actions', ⟨_, -, result, -, _, -, calldata, -, rfl⟩, rfl, rfl⟩ := h
    exact ⟨_, .computeAndInvoke, rfl, .invokeWithComputation, by simp [Block.puts],
      fun t => (Int.add_zero _).symm⟩

end Compile

end PrivacyPool
