import PrivacyPool.Refinement.Invariant

/-!
# Compiling and applying agree

What the client simulates is what the server executes: the storage part of the
compiled list takes the storage it was compiled on to the simulated one, and on
any other storage it either meets a word that is already written, or adds the
same words and the same entries. Every compiled list writes some word that was
zero and never becomes zero again, so it cannot be applied a second time.

## Main definitions

* `storageCells`, `appended` — the words and the entries that a list adds
* `Amended` — a storage in which some open notes have received their amount
* `Label.applied` — the list that a step applies

## Main results

* `compile_apply_agreement` — the simulation and the server agree on storage
* `no_replay` — a run applies no list twice
-/

namespace PrivacyPool

open Fallible WriteOnce

variable {sn : Starknet} {D : Domain} {visited : List (World sn)} {labels : List (Label sn)}
  {world world' : World sn} {pool pool' : Pool} {actions : List ServerAction}

/-! ### The storage part of a list -/

/-- The words a server action writes. -/
def ServerAction.cells : ServerAction → ℕ → Option Felt
  | .writeOnce input => input.cells
  | .append _ | .transferFrom _ | .transferTo _ | .invoke _ | .invokeWithComputation _
  | .emitViewingKeySet _ | .emitWithdrawal _ | .emitDeposit _ | .emitOpenNoteCreated _
  | .emitEncNoteCreated _ | .emitNoteUsed _ => fun _ => none

/-- The entry a server action appends to the vector of a recipient. -/
def ServerAction.entry (recipient : ContractAddress) : ServerAction → Option EncChannelInfo
  | .append input => if input.recipientAddr = recipient then some input.encChannelInfo else none
  | .writeOnce _ | .transferFrom _ | .transferTo _ | .invoke _ | .invokeWithComputation _
  | .emitViewingKeySet _ | .emitWithdrawal _ | .emitDeposit _ | .emitOpenNoteCreated _
  | .emitEncNoteCreated _ | .emitNoteUsed _ => none

/-- The words a list of server actions writes. -/
def storageCells : List ServerAction → ℕ → Option Felt
  | [] => fun _ => none
  | action :: rest => fun a => (storageCells rest a).or (action.cells a)

/-- The entries a list appends to the vector of a recipient, one for each of its
`Append` actions to the recipient. -/
def appended (actions : List ServerAction) (recipient : ContractAddress) : List EncChannelInfo :=
  actions.filterMap (ServerAction.entry recipient)

/-- The storage with the words and the entries of a list added. -/
def Pool.extend (pool : Pool) (actions : List ServerAction) : Pool :=
  { pool with
    words := overlay pool.words (storageCells actions)
    recipientChannels := fun recipient =>
      pool.recipientChannels recipient ++ appended actions recipient }

/-- The storage part of one action adds its words, which were blank, and its entry. -/
theorem storageAction_eq_ok {action : ServerAction} (h : storageAction pool action = .ok pool') :
    Blank pool.words action.cells ∧ pool' = { pool with
      words := overlay pool.words action.cells
      recipientChannels := fun recipient =>
        pool.recipientChannels recipient ++ (action.entry recipient).toList } := by
  cases action with
  | writeOnce input =>
    obtain ⟨-, -, hblank, rfl⟩ := applyWriteOnce_eq_ok.mp h
    exact ⟨hblank, by simp [ServerAction.entry, ServerAction.cells]⟩
  | append input =>
    obtain rfl := pure_eq_ok.mp h
    refine ⟨fun _ _ hcell => by simp [ServerAction.cells] at hcell, ?_⟩
    have hchannels : (pool.applyAppend input).recipientChannels = fun recipient =>
        pool.recipientChannels recipient ++
          ((ServerAction.append input).entry recipient).toList := by
      funext recipient
      by_cases hto : recipient = input.recipientAddr
      · subst hto
        simp [Pool.applyAppend, ServerAction.entry]
      · simp [Pool.applyAppend, ServerAction.entry, Function.update_of_ne hto, Ne.symm hto]
    rw [← hchannels]
    rfl
  | _ =>
    obtain rfl := pure_eq_ok.mp h
    exact ⟨fun _ _ hcell => by simp [ServerAction.cells] at hcell,
      by simp [ServerAction.entry]; rfl⟩

/-- The storage part of a list adds its words, which were blank, and its entries. -/
theorem storage_eq_ok (h : actions.foldlM storageAction pool = .ok pool') :
    Blank pool.words (storageCells actions) ∧ pool' = pool.extend actions := by
  induction actions generalizing pool with
  | nil =>
    obtain rfl := foldlM_nil_eq_ok.mp h
    refine ⟨fun _ _ hcell => by simp [storageCells] at hcell, ?_⟩
    simp [Pool.extend, appended, storageCells]
    rfl
  | cons action rest ih =>
    obtain ⟨next, hstep, hrest⟩ := foldlM_cons_eq_ok.mp h
    obtain ⟨hfirst, rfl⟩ := storageAction_eq_ok hstep
    obtain ⟨hblank, rfl⟩ := ih hrest
    refine ⟨hfirst.or hblank, ?_⟩
    simp only [Pool.extend, overlay_overlay, storageCells, appended, List.append_assoc]
    congr 1
    funext recipient
    cases hentry : action.entry recipient <;> simp [hentry]

/-- A written word stays written through the storage part of a list. -/
theorem storage_ne_zero (h : actions.foldlM storageAction pool = .ok pool') {a : ℕ}
    (ha : pool.words a ≠ 0) : pool'.words a ≠ 0 := by
  obtain ⟨hblank, rfl⟩ := storage_eq_ok h
  simp only [Pool.extend]
  rwa [overlay_of_ne_zero hblank ha]

/-! ### Dependence on the storage -/

/-- Whether the write loop fails otherwise than on a written word does not depend
on the storage. -/
theorem writeWords_cases {base offset : ℕ} {value : List Felt} {words words₁ : ℕ → Felt}
    (h : writeWords base offset value words = .ok words₁) (words' : ℕ → Felt) :
    (∃ words₂, writeWords base offset value words' = .ok words₂) ∨
      writeWords base offset value words' = .error .nonZeroValue := by
  induction value generalizing offset words words' with
  | nil => exact Or.inl ⟨words', rfl⟩
  | cons felt rest ih =>
    simp only [writeWords, bind_eq_ok, require_eq_ok, exists_and_left, exists_const] at h
    obtain ⟨-, hoffset, hrest⟩ := h
    by_cases hzero : words' (base + offset) = 0
    · rcases ih hrest (Function.update words' (base + offset) felt) with ⟨words₂, hok⟩ | herror
      · refine Or.inl ⟨words₂, ?_⟩
        rw [writeWords, require_of _ hzero, require_of _ hoffset]
        exact hok
      · right
        rw [writeWords, require_of _ hzero, require_of _ hoffset]
        exact herror
    · right
      rw [writeWords, require, if_neg hzero]
      rfl

theorem applyWriteOnce_cases {input : WriteOnceInput} {pool₁ : Pool}
    (h : pool.applyWriteOnce input = .ok pool₁) (pool' : Pool) :
    (∃ pool₂, pool'.applyWriteOnce input = .ok pool₂) ∨
      pool'.applyWriteOnce input = .error .nonZeroValue := by
  simp only [Pool.applyWriteOnce, bind_eq_ok, require_eq_ok, exists_and_left, exists_const] at h
  obtain ⟨hne, hhead, words₁, hwrite, -⟩ := h
  unfold Pool.applyWriteOnce
  rw [require_of _ hne, require_of _ hhead]
  rcases writeWords_cases hwrite pool'.words with ⟨words₂, hok⟩ | herror
  · refine Or.inl ⟨{ pool' with words := words₂ }, ?_⟩
    exact bind_eq_ok.mpr ⟨(), rfl, bind_eq_ok.mpr ⟨(), rfl, bind_eq_ok.mpr ⟨words₂, hok, rfl⟩⟩⟩
  · right
    change (writeWords _ 0 input.value.1 pool'.words >>= _) = _
    rw [herror]
    rfl

/-- The storage part of a list that succeeded on some storage succeeds on any
other, or fails on a word that is already written. -/
theorem storage_cases {pool₁ : Pool} (h : actions.foldlM storageAction pool = .ok pool₁)
    (pool' : Pool) :
    (∃ pool₂, actions.foldlM storageAction pool' = .ok pool₂) ∨
      actions.foldlM storageAction pool' = .error .nonZeroValue := by
  induction actions generalizing pool pool' with
  | nil => exact Or.inl ⟨pool', rfl⟩
  | cons action rest ih =>
    obtain ⟨next, hstep, hrest⟩ := foldlM_cons_eq_ok.mp h
    have hfirst : (∃ next', storageAction pool' action = .ok next') ∨
        storageAction pool' action = .error .nonZeroValue := by
      cases action with
      | writeOnce input => exact applyWriteOnce_cases hstep pool'
      | _ => exact Or.inl ⟨_, rfl⟩
    rcases hfirst with ⟨next', hok⟩ | herror
    · rw [List.foldlM_cons, hok]
      exact ih hrest next'
    · right
      rw [List.foldlM_cons, herror]
      rfl

/-! ### The whole list -/

/-- The second storage is the first one with amounts for some of its open notes. -/
structure Amended (pool pool' : Pool) : Prop where
  frame : pool' = { pool with words := pool'.words }
  words : ∀ a, pool'.words a = pool.words a ∨
    pool.words a = openNotePackedValue ∧
      ∃ amount, amount ≠ 0 ∧ pack openNoteSalt amount = .ok (pool'.words a)

namespace Amended

theorem refl (pool : Pool) : Amended pool pool := ⟨rfl, fun _ => Or.inl rfl⟩

/-- The same words are written in both storages. -/
theorem words_eq_zero (h : Amended pool pool') (a : ℕ) :
    pool'.words a = 0 ↔ pool.words a = 0 := by
  rcases h.words a with hsame | ⟨hawaits, amount, -, hpack⟩
  · rw [hsame]
  · refine iff_of_false (pack_ne_zero (by decide) hpack) ?_
    rw [hawaits]
    exact openNotePackedValue_ne_zero

/-- The storage part of an action acts on both storages alike. -/
theorem storageAction (h : Amended pool pool') {action : ServerAction} {next' : Pool}
    (hstep : storageAction pool' action = .ok next') :
    ∃ next, PrivacyPool.storageAction pool action = .ok next ∧ Amended next next' := by
  cases action with
  | writeOnce input =>
    obtain ⟨hhead, hlength, hblank, rfl⟩ := applyWriteOnce_eq_ok.mp hstep
    have hblank' : Blank pool.words input.cells :=
      fun a w hw => (h.words_eq_zero a).mp (hblank a w hw)
    refine ⟨_, applyWriteOnce_eq_ok.mpr ⟨hhead, hlength, hblank', rfl⟩, ?_, fun a => ?_⟩
    · rw [h.frame]
    · cases hcell : input.cells a with
      | some w => exact Or.inl ((overlay_of_some hcell).trans (overlay_of_some hcell).symm)
      | none =>
        dsimp only
        rw [overlay_of_none hcell, overlay_of_none hcell]
        exact h.words a
  | append input =>
    obtain rfl := pure_eq_ok.mp hstep
    refine ⟨_, rfl, ?_, h.words⟩
    rw [h.frame]
    rfl
  | _ =>
    obtain rfl := pure_eq_ok.mp hstep
    exact ⟨pool, rfl, h⟩

/-- A deposit amends one more open note. -/
theorem deposit (h : Amended pool world.pool) {depositor : ContractAddress}
    {deposit : OpenNoteDeposit} (hdeposited : Deposited depositor deposit world world') :
    Amended pool world'.pool := by
  obtain ⟨packedValue, hpack, hwords⟩ := hdeposited.recorded
  refine ⟨?_, fun a => ?_⟩
  · rw [hdeposited.frame, h.frame]
  · rw [hwords]
    by_cases ha : a = (sn.entry .notes deposit.noteId).val
    · -- A note that already has its amount is not filled again.
      subst ha
      rw [Function.update_self]
      refine Or.inr ⟨?_, deposit.amount, hdeposited.amount_ne, hpack⟩
      rcases h.words (sn.entry .notes deposit.noteId).val with hsame | ⟨hawaits, -⟩
      · exact hsame.symm.trans hdeposited.awaits
      · exact hawaits
    · rw [Function.update_of_ne ha]
      exact h.words a

theorem deposits (h : Amended pool world.pool) {depositor : ContractAddress}
    {deposits : List OpenNoteDeposit}
    (hdeposits : deposits.foldlM (depositToOpenNote sn depositor) world = .ok world') :
    Amended pool world'.pool :=
  foldlM_invariant (fun w : World sn => Amended pool w.pool)
    (fun _ _ _ _ hs hstep => hs.deposit (depositToOpenNote_eq_ok hstep)) h hdeposits

end Amended

/-- Applying an action does its storage part, and amends open notes. -/
theorem applyAction_amended {invocation : Invocation sn} {st st' : ApplyState sn}
    {action : ServerAction} (hamended : Amended pool st.world.pool)
    (h : applyAction sn invocation st action = .ok st') :
    ∃ next, storageAction pool action = .ok next ∧ Amended next st'.world.pool := by
  obtain hstep | ⟨hneutral, input, selector, hinvoke⟩ := applyAction_eq_ok h
  · exact hamended.storageAction hstep
  · -- The call leaves the pool alone; the deposits that follow it amend open notes.
    obtain ⟨tokens, deposits, hinvoked⟩ := applyInvokeAndDeposits_eq_ok hinvoke
    have hcalled : Amended pool ({ st.world with tokens }.emit
        (.externalContractInvoked ⟨input.contractAddress, selector⟩)).pool := hamended
    exact ⟨pool, hneutral pool, hcalled.deposits hinvoked.deposited⟩

/-- Applying a list does its storage part, and amends open notes. -/
theorem foldlM_applyAction_amended {invocation : Invocation sn} {st st' : ApplyState sn}
    (hamended : Amended pool st.world.pool)
    (h : actions.foldlM (applyAction sn invocation) st = .ok st') :
    ∃ next, actions.foldlM storageAction pool = .ok next ∧ Amended next st'.world.pool := by
  induction actions generalizing pool st with
  | nil =>
    obtain rfl := foldlM_nil_eq_ok.mp h
    exact ⟨pool, rfl, hamended⟩
  | cons action rest ih =>
    obtain ⟨middle, hstep, hrest⟩ := foldlM_cons_eq_ok.mp h
    obtain ⟨next, hfirst, hmiddle⟩ := applyAction_amended hamended hstep
    obtain ⟨last, hlast, hend⟩ := ih hmiddle hrest
    exact ⟨last, foldlM_cons_eq_ok.mpr ⟨next, hfirst, hlast⟩, hend⟩

/-- The simulation of the compile loop is the storage part of what it compiles. -/
theorem compile_storage {call : CallContract} {userAddr : ContractAddress} {userPrivateKey : Felt}
    {clientActions : List ClientAction} {state state' : CompileState}
    (hstate : state.serverActions.foldlM storageAction pool = .ok state.pool)
    (h : clientActions.foldlM (compileStep sn call userAddr userPrivateKey) state = .ok state') :
    state'.serverActions.foldlM storageAction pool = .ok state'.pool := by
  refine foldlM_invariant
    (fun s : CompileState => s.serverActions.foldlM storageAction pool = .ok s.pool)
    (fun action _ s s' hs hstep => ?_) hstate h
  simp only [compileStep, bind_eq_ok, pure_eq_ok] at hstep
  obtain ⟨phase, -, ⟨compiled, balances⟩, -, ⟨next, flag⟩, happly, rfl⟩ := hstep
  exact foldlM_append_eq_ok.mpr ⟨s.pool, hs, clientApplyActions_storage happly⟩

/-- **Agreement.** The storage part of a compiled list takes the storage it was
compiled on to the simulated one. On any storage it fails on a word that is
already written, or adds the same words, all of them to blank storage, and one
entry for each `Append`. Applying the whole list does its storage part, and gives
some of the open notes their amounts. -/
theorem compile_apply_agreement {call : CallContract} {simulated : Pool}
    {userAddr : ContractAddress} {userPrivateKey : Felt} {clientActions : List ClientAction}
    (h : main sn call pool userAddr userPrivateKey clientActions = .ok (actions, simulated)) :
    actions.foldlM storageAction pool = .ok simulated ∧
    simulated = pool.extend actions ∧
    (∀ pool' : Pool, actions.foldlM storageAction pool' = .error .nonZeroValue ∨
      Blank pool'.words (storageCells actions) ∧
        actions.foldlM storageAction pool' = .ok (pool'.extend actions)) ∧
    (∀ (invocation : Invocation sn) (st st' : ApplyState sn),
      actions.foldlM (applyAction sn invocation) st = .ok st' →
      actions.foldlM storageAction st.world.pool = .ok (st.world.pool.extend actions) ∧
        Amended (st.world.pool.extend actions) st'.world.pool) := by
  obtain ⟨-, -, -, state, hloop, -, -, rfl, rfl⟩ := main_eq_ok h
  have hstart : (CompileState.start pool).serverActions.foldlM storageAction pool =
      .ok (CompileState.start pool).pool := rfl
  have hstorage := compile_storage hstart hloop
  refine ⟨hstorage, (storage_eq_ok hstorage).2, fun pool' => ?_, fun invocation st st' hrun => ?_⟩
  · rcases storage_cases hstorage pool' with ⟨pool₂, hok⟩ | herror
    · obtain ⟨hblank, rfl⟩ := storage_eq_ok hok
      exact Or.inr ⟨hblank, hok⟩
    · exact Or.inl herror
  · obtain ⟨next, hnext, hamended⟩ := foldlM_applyAction_amended (Amended.refl _) hrun
    obtain ⟨-, rfl⟩ := storage_eq_ok hnext
    exact ⟨hnext, hamended⟩

theorem compile_apply_agreement_sample :
    Sample.spending.actions.1.foldlM storageAction Sample.funded.pool =
      .ok Sample.spending.simulated ∧
    Sample.spending.actions.1.foldlM storageAction Sample.spent.pool = .error .nonZeroValue := by
  obtain ⟨hsame, -, hother, -⟩ := compile_apply_agreement Sample.spending_compiled
  refine ⟨hsame, (hother Sample.spent.pool).resolve_right fun hblank => ?_⟩
  have hwritten : Sample.spent.pool.read Starknet.sample .nullifiers 7 0 = 0 :=
    hblank.1 _ 1 (by decide +kernel)
  revert hwritten
  decide +kernel

/-! ### Replay -/

/-- The list that a step applies. -/
def Label.applied : Label sn → List (Span ServerAction)
  | .apply sub => [sub.actions]
  | .admin _ _ | .environment => []

/-- Some word that a write of the list starts with is written. -/
def Replayed (words : ℕ → Felt) (actions : Span ServerAction) : Prop :=
  ∃ input, .writeOnce input ∈ actions.1 ∧
    words (storageBaseAddressFromFelt252 input.storageAddress) ≠ 0

/-- A write finds its first word zero, and leaves it non-zero for good. -/
theorem storage_mem_writeOnce (h : actions.foldlM storageAction pool = .ok pool')
    {input : WriteOnceInput} (hmem : .writeOnce input ∈ actions) :
    pool.words (storageBaseAddressFromFelt252 input.storageAddress) = 0 ∧
      pool'.words (storageBaseAddressFromFelt252 input.storageAddress) ≠ 0 := by
  induction actions generalizing pool with
  | nil => exact absurd hmem List.not_mem_nil
  | cons action rest ih =>
    obtain ⟨next, hstep, hrest⟩ := foldlM_cons_eq_ok.mp h
    rcases List.mem_cons.mp hmem with rfl | hmem
    · obtain ⟨hhead, -, hblank, rfl⟩ := applyWriteOnce_eq_ok.mp hstep
      cases hvalue : input.value.1 with
      | nil => exact absurd (by rw [hvalue]; rfl) hhead
      | cons w value =>
        have hcell : input.cells (storageBaseAddressFromFelt252 input.storageAddress) = some w := by
          rw [WriteOnceInput.cells, hvalue]
          exact wordsAt_eq_some.mpr ⟨0, rfl, rfl⟩
        refine ⟨hblank _ w hcell, storage_ne_zero hrest ?_⟩
        dsimp only
        rw [overlay_of_some hcell]
        rw [hvalue] at hhead
        exact hhead
    · obtain ⟨hzero, hset⟩ := ih hrest hmem
      refine ⟨?_, hset⟩
      by_contra hused
      have hsingle : [action].foldlM storageAction pool = .ok next :=
        foldlM_cons_eq_ok.mpr ⟨next, hstep, rfl⟩
      exact storage_ne_zero hsingle hused hzero

/-- The simulation sets its flag only at a write. -/
theorem exists_writeOnce_of_flag {flag : Bool}
    (h : clientApplyActions pool flag actions = .ok (pool', true)) :
    flag = true ∨ ∃ input, .writeOnce input ∈ actions := by
  induction actions generalizing pool flag with
  | nil =>
    obtain ⟨-, rfl⟩ := Prod.mk.inj (foldlM_nil_eq_ok.mp h)
    exact Or.inl rfl
  | cons action rest ih =>
    obtain ⟨⟨next, flag₁⟩, hstep, hrest⟩ := foldlM_cons_eq_ok.mp h
    rcases ih hrest with rfl | ⟨input, hmem⟩
    · cases action with
      | writeOnce input => exact Or.inr ⟨input, List.mem_cons_self⟩
      | _ => exact Or.inl (Prod.mk.inj (pure_eq_ok.mp hstep)).2
    · exact Or.inr ⟨input, List.mem_cons_of_mem _ hmem⟩

/-- A list that passed the replay check writes something. -/
theorem exists_writeOnce_of_compiled {call : CallContract} {userAddr : ContractAddress}
    {userPrivateKey : Felt} {clientActions : List ClientAction} {simulated : Pool}
    (h : main sn call pool userAddr userPrivateKey clientActions = .ok (actions, simulated)) :
    ∃ input, .writeOnce input ∈ actions := by
  obtain ⟨-, -, -, state, hloop, hreplay, -, rfl, -⟩ := main_eq_ok h
  refine foldlM_invariant (fun s : CompileState => s.hasReplayProtection = true →
    ∃ input, .writeOnce input ∈ s.serverActions) (fun action _ s s' hs hstep => ?_) ?_ hloop hreplay
  · simp only [compileStep, bind_eq_ok, pure_eq_ok] at hstep
    obtain ⟨phase, -, ⟨compiled, balances⟩, -, ⟨next, flag⟩, happly, rfl⟩ := hstep
    intro hflag
    dsimp only at hflag
    subst hflag
    rcases exists_writeOnce_of_flag happly with hbefore | ⟨input, hmem⟩
    · obtain ⟨input, hmem⟩ := hs hbefore
      exact ⟨input, List.mem_append_left _ hmem⟩
    · exact ⟨input, List.mem_append_right _ hmem⟩
  · intro hstart
    exact absurd hstart (by simp [CompileState.start])

/-- An applied submission does its storage part, and amends open notes. -/
theorem Submission.Applies.storage {sub : Submission sn} (h : sub.Applies world world') :
    ∃ next, sub.actions.1.foldlM storageAction world.enter.pool = .ok next ∧
      ∀ a, world'.pool.words a = 0 ↔ next.words a = 0 := by
  obtain ⟨tokens, st, haccepted⟩ := applyActions_iff.mp h
  obtain ⟨next, hnext, hamended⟩ :=
    foldlM_applyAction_amended (Amended.refl _) haccepted.applied
  refine ⟨next, hnext, fun a => ?_⟩
  rw [haccepted.result]
  exact hamended.words_eq_zero a

/-- A step applies a list that was not applied before, and what is written stays
written. -/
theorem step_applied {label : Label sn} (h : PoolStep sn D visited label world world') :
    Marks (fun (w : World sn) => Replayed w.pool.words) world label.applied world' := by
  cases label with
  | apply sub =>
    obtain ⟨-, hcompiled, -, happlies⟩ := h
    obtain ⟨next, hnext, hwords⟩ := happlies.storage
    refine Marks.singleton ?_ ?_ ?_
    · rintro ⟨input, hmem, hused⟩
      exact hused (storage_mem_writeOnce hnext hmem).1
    · obtain ⟨input, hmem⟩ := exists_writeOnce_of_compiled hcompiled
      refine ⟨input, hmem, ?_⟩
      rw [Ne, hwords]
      exact (storage_mem_writeOnce hnext hmem).2
    · rintro actions ⟨input, hmem, hused⟩
      refine ⟨input, hmem, ?_⟩
      rw [Ne, hwords]
      exact storage_ne_zero hnext hused
  | admin caller call =>
    refine Marks.nil fun actions hreplayed => ?_
    rw [(applyAdmin_sameUserData h).words]
    exact hreplayed
  | environment =>
    have henvironment : EnvironmentStep world world' := h
    refine Marks.nil fun actions hreplayed => ?_
    rw [henvironment.pool]
    exact hreplayed

/-- **No replay.** Whoever submits it, however often and whatever is applied in
between, a run applies no compiled list twice. -/
theorem no_replay (run : PoolRun sn D visited labels world) :
    (labels.flatMap Label.applied).Nodup :=
  (run.marks _ Label.applied fun _ _ _ _ _ _ h => step_applied h).1

theorem no_replay_sample :
    ([Label.apply Sample.spending, .apply Sample.funding].flatMap Label.applied).Nodup :=
  no_replay Sample.run

end PrivacyPool
