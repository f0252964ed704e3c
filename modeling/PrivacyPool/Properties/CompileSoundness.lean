import PrivacyPool.Refinement.Compile
import PrivacyPool.System.Run

/-!
# What a compiled list satisfies

A list of client actions that `main` accepts goes through the phases in order,
with an invoke only at its end; in every token it pays out no more than it has
taken in so far, and all of it at the end; and it writes to a slot that must be
empty. What a used note brings in is the amount its slot holds when the action is
reached, which an earlier action of the same list may have written.

## Main definitions

* `ClientAction.inflow`, `ClientAction.outflow` — what an action brings in and pays out
* `compiledState` — the variables of the loop of `main` after a list
* `paidIn`, `paidOut` — the totals of a list
* `CompilesSoundly` — the conditions on a list

## Main results

* `main_compilesSoundly` — accepted lists satisfy the conditions, and all others are rejected
-/

namespace PrivacyPool

open Fallible

/-! ### Totals of a list -/

/-- What an action brings in of a token: a deposit its amount, a used note the
amount stored for it. -/
def ClientAction.inflow (sn : Starknet) (pool : Pool) (t : ContractAddress) : ClientAction → ℤ
  | .deposit input => amountOf input.token input.amount t
  | .useNote input =>
    amountOf input.token (valueOr 0 (sn.decodeNoteAmount
      (pool.read sn .notes (sn.computeNoteId input.channelKey input.token input.index) 0)
      input.channelKey input.token input.index)) t
  | .setViewingKey _ | .openChannel _ | .openSubchannel _ | .createEncNote _ | .createOpenNote _
  | .withdraw _ | .invokeExternal _ | .computeAndInvoke _ => 0

/-- What an action pays out of a token. -/
def ClientAction.outflow (t : ContractAddress) : ClientAction → ℤ
  | .createEncNote input => amountOf input.token input.amount t
  | .withdraw input => amountOf input.token input.amount t
  | .setViewingKey _ | .openChannel _ | .openSubchannel _ | .deposit _ | .createOpenNote _
  | .useNote _ | .invokeExternal _ | .computeAndInvoke _ => 0

section Compile

variable (sn : Starknet) (call : CallContract) (userAddr : ContractAddress)
  (userPrivateKey : Felt)

/-- The variables of the loop of `main` after a list. An action that does not
compile leaves them as they are. -/
def compiledState (state : CompileState) (clientActions : List ClientAction) : CompileState :=
  clientActions.foldl (fun state action =>
    valueOr state (compileStep sn call userAddr userPrivateKey state action)) state

/-- What a list brings in of a token. -/
def paidIn (t : ContractAddress) (state : CompileState) : List ClientAction → ℤ
  | [] => 0
  | action :: rest => action.inflow sn state.pool t +
      paidIn t (compiledState sn call userAddr userPrivateKey state [action]) rest

/-- What a list pays out of a token. -/
def paidOut (t : ContractAddress) (clientActions : List ClientAction) : ℤ :=
  (clientActions.map fun action => action.outflow t).sum

/-- The conditions that `main` puts on a list as a whole. -/
structure CompilesSoundly (pool : Pool) (clientActions : List ClientAction) : Prop where
  /-- The phases do not decrease. -/
  phases : clientActions.Pairwise fun a b => a.phase ≤ b.phase
  /-- An invoke is the last action. -/
  invokeLast : ∀ before action after, clientActions = before ++ action :: after →
    action.phase = invokePhase → after = []
  /-- No prefix pays out more than it takes in. -/
  covered : ∀ before, before <+: clientActions → ∀ t, paidOut t before ≤
    paidIn sn call userAddr userPrivateKey t (CompileState.start pool) before
  /-- No running balance exceeds a `u128`. -/
  bounded : ∀ before, before <+: clientActions → ∀ t,
    paidIn sn call userAddr userPrivateKey t (CompileState.start pool) before -
      paidOut t before ≤ 2 ^ 128 - 1
  /-- The whole list pays out all it takes in. -/
  balanced : ∀ t, paidIn sn call userAddr userPrivateKey t (CompileState.start pool)
    clientActions = paidOut t clientActions
  /-- One of the server actions is a `WriteOnce`. -/
  guarded : ∃ input, ServerAction.writeOnce input ∈
    (compiledState sn call userAddr userPrivateKey (CompileState.start pool)
      clientActions).serverActions

end Compile

/-! ### What one step does -/

section Step

variable {sn : Starknet} {call : CallContract} {userAddr : ContractAddress}
  {userPrivateKey : Felt} {pool : Pool} {state state' : CompileState}
  {balances balances' : TokenBalances} {actions : List ServerAction} {action : ClientAction}
  {clientActions : List ClientAction}

/-- Compiling an action moves every balance by what the action brings in and pays
out. -/
theorem compileAction_credit
    (h : compileAction sn pool call userAddr userPrivateKey balances action =
      .ok (actions, balances')) (t : ContractAddress) :
    balances'.credit t = balances.credit t + action.inflow sn pool t - action.outflow t := by
  have hunchanged (hsame : balances = balances') (hin : action.inflow sn pool t = 0)
      (hout : action.outflow t = 0) :
      balances'.credit t = balances.credit t + action.inflow sn pool t - action.outflow t := by
    rw [hsame, hin, hout, add_zero, sub_zero]
  cases action with
  | deposit input =>
    simp only [compileAction, deposit, bind_eq_ok, pure_eq_ok, Prod.mk.injEq] at h
    obtain ⟨_, -, _, hbalances, -, rfl⟩ := h
    rw [TokenBalances.credit_addBalance hbalances]
    exact (sub_zero _).symm
  | useNote input =>
    simp only [compileAction, useNote, bind_eq_ok, require_eq_ok, exists_and_left, exists_const,
      pure_eq_ok, Prod.mk.injEq] at h
    obtain ⟨_, -, _, -, -, -, amount, hamount, -, _, hbalances, -, rfl⟩ := h
    rw [TokenBalances.credit_addBalance hbalances, ClientAction.inflow, hamount]
    exact (sub_zero _).symm
  | createEncNote input =>
    simp only [compileAction, createEncNote, bind_eq_ok, require_eq_ok, exists_and_left,
      exists_const, pure_eq_ok, Prod.mk.injEq] at h
    obtain ⟨_, -, _, -, _, -, -, _, hbalances, -, rfl⟩ := h
    rw [TokenBalances.credit_subtractBalance hbalances, ClientAction.inflow, add_zero,
      ClientAction.outflow]
  | withdraw input =>
    simp only [compileAction, withdraw, bind_eq_ok, pure_eq_ok, Prod.mk.injEq] at h
    obtain ⟨_, -, _, hbalances, _, -, -, rfl⟩ := h
    rw [TokenBalances.credit_subtractBalance hbalances, ClientAction.inflow, add_zero,
      ClientAction.outflow]
  | setViewingKey input | openChannel input | openSubchannel input | createOpenNote input
  | invokeExternal input | computeAndInvoke input =>
    simp only [compileAction, bind_eq_ok, pure_eq_ok, Prod.mk.injEq] at h
    obtain ⟨_, -, -, hsame⟩ := h
    exact hunchanged hsame rfl rfl

/-- The simulation reports replay protection when it has met a `WriteOnce`. -/
theorem clientApplyActions_guarded {simulated : Pool} {hasReplayProtection : Bool}
    (h : clientApplyActions pool hasReplayProtection actions = .ok (simulated, true)) :
    hasReplayProtection = true ∨ ∃ input, ServerAction.writeOnce input ∈ actions := by
  refine foldlM_invariant (fun state : Pool × Bool => state.2 = true →
    hasReplayProtection = true ∨ ∃ input, ServerAction.writeOnce input ∈ actions) ?_ Or.inl h rfl
  intro action hmem state state' hstate hstep
  cases action with
  | writeOnce input => exact fun _ => Or.inr ⟨input, hmem⟩
  | append | transferFrom | transferTo | invoke | invokeWithComputation | emitViewingKeySet
  | emitWithdrawal | emitDeposit | emitOpenNoteCreated | emitEncNoteCreated | emitNoteUsed =>
    obtain rfl := pure_eq_ok.mp hstep
    exact hstate

/-- What one turn of the loop of `main` has done. -/
structure Compiled (sn : Starknet) (state state' : CompileState) (action : ClientAction) :
    Prop where
  ordered : state.currPhase ≤ action.phase
  advanced : state'.currPhase = if action.phase = invokePhase then action.phase + 1 else action.phase
  credit : ∀ t, state'.tokenBalances.credit t =
    state.tokenBalances.credit t + action.inflow sn state.pool t - action.outflow t
  kept : state.serverActions ⊆ state'.serverActions
  guarded : state'.hasReplayProtection = true → state.hasReplayProtection = true ∨
    ∃ input, ServerAction.writeOnce input ∈ state'.serverActions

theorem compileStep_compiled
    (h : compileStep sn call userAddr userPrivateKey state action = .ok state') :
    Compiled sn state state' action := by
  simp only [compileStep, ClientAction.assertAndAdvancePhase, bind_eq_ok, require_eq_ok,
    exists_and_left, exists_const, pure_eq_ok] at h
  obtain ⟨phase, ⟨hordered, hphase⟩, ⟨actions, balances⟩, hcompile, ⟨pool, flag⟩, happly, rfl⟩ := h
  refine ⟨hordered, hphase.symm, compileAction_credit hcompile, List.subset_append_left _ _, ?_⟩
  intro hguarded
  obtain rfl : flag = true := hguarded
  refine (clientApplyActions_guarded happly).imp_right ?_
  rintro ⟨input, hmem⟩
  exact ⟨input, List.mem_append_right _ hmem⟩

/-! ### What a run of steps does -/

/-- The loop arrives where the compiled state says. -/
theorem compiledState_eq {s s' : CompileState}
    (h : clientActions.foldlM (compileStep sn call userAddr userPrivateKey) s = .ok s') :
    compiledState sn call userAddr userPrivateKey s clientActions = s' := by
  induction clientActions generalizing s with
  | nil => exact foldlM_nil_eq_ok.mp h
  | cons action rest ih =>
    obtain ⟨t, hstep, hrest⟩ := foldlM_cons_eq_ok.mp h
    rw [← ih hrest, compiledState, List.foldl_cons, hstep]
    rfl

theorem phase_le (action : ClientAction) : action.phase ≤ invokePhase := by
  cases action <;> exact Nat.le_of_ble_eq_true rfl

/-- The phases of a compiled list do not decrease, from the current phase on. -/
theorem phases_of_foldlM
    (h : clientActions.foldlM (compileStep sn call userAddr userPrivateKey) state = .ok state') :
    (∀ a ∈ clientActions, state.currPhase ≤ a.phase) ∧
      clientActions.Pairwise fun a b => a.phase ≤ b.phase := by
  induction clientActions generalizing state with
  | nil => exact ⟨nofun, List.Pairwise.nil⟩
  | cons action rest ih =>
    obtain ⟨middle, hstep, hrest⟩ := foldlM_cons_eq_ok.mp h
    obtain ⟨hphases, hsorted⟩ := ih hrest
    have hcompiled := compileStep_compiled hstep
    have hle : action.phase ≤ middle.currPhase := by
      rw [hcompiled.advanced]
      split_ifs <;> omega
    have hlater : ∀ b ∈ rest, action.phase ≤ b.phase := fun b hb => hle.trans (hphases b hb)
    refine ⟨?_, List.pairwise_cons.mpr ⟨hlater, hsorted⟩⟩
    intro b hb
    rcases List.mem_cons.mp hb with rfl | hb
    · exact hcompiled.ordered
    · exact hcompiled.ordered.trans (hlater b hb)

/-- Nothing compiles after an invoke. -/
theorem eq_nil_of_invoke {rest : List ClientAction} (hinvoke : action.phase = invokePhase)
    (h : (action :: rest).foldlM (compileStep sn call userAddr userPrivateKey) state =
      .ok state') : rest = [] := by
  obtain ⟨middle, hstep, hrest⟩ := foldlM_cons_eq_ok.mp h
  have hpast : middle.currPhase = invokePhase + 1 := by
    rw [(compileStep_compiled hstep).advanced, if_pos hinvoke, hinvoke]
  refine List.eq_nil_iff_forall_not_mem.mpr fun b hb => ?_
  have hle := (phases_of_foldlM hrest).1 b hb
  have := phase_le b
  omega

/-- A compiled list moves every balance by its totals. -/
theorem credit_of_foldlM (t : ContractAddress)
    (h : clientActions.foldlM (compileStep sn call userAddr userPrivateKey) state = .ok state') :
    state'.tokenBalances.credit t = state.tokenBalances.credit t +
      paidIn sn call userAddr userPrivateKey t state clientActions - paidOut t clientActions := by
  induction clientActions generalizing state with
  | nil =>
    obtain rfl := foldlM_nil_eq_ok.mp h
    simp [paidIn, paidOut]
  | cons action rest ih =>
    obtain ⟨middle, hstep, hrest⟩ := foldlM_cons_eq_ok.mp h
    have hmiddle : compiledState sn call userAddr userPrivateKey state [action] = middle :=
      compiledState_eq (foldlM_cons_eq_ok.mpr ⟨middle, hstep, rfl⟩)
    have hcredit := (compileStep_compiled hstep).credit t
    rw [ih hrest, hcredit, paidIn, hmiddle, paidOut, paidOut, List.map_cons, List.sum_cons]
    omega

/-- A list that ends with replay protection has emitted a `WriteOnce`. -/
theorem guarded_of_foldlM
    (h : clientActions.foldlM (compileStep sn call userAddr userPrivateKey)
      (CompileState.start pool) = .ok state')
    (hguarded : state'.hasReplayProtection = true) :
    ∃ input, ServerAction.writeOnce input ∈ state'.serverActions := by
  refine foldlM_invariant (fun state : CompileState => state.hasReplayProtection = true →
    ∃ input, ServerAction.writeOnce input ∈ state.serverActions) ?_
    (fun hstart => (Bool.false_ne_true hstart).elim) h hguarded
  intro action _ s s' hs hstep hs'
  have hcompiled := compileStep_compiled hstep
  rcases hcompiled.guarded hs' with hbefore | hhere
  · obtain ⟨input, hmem⟩ := hs hbefore
    exact ⟨input, hcompiled.kept hmem⟩
  · exact hhere

end Step

/-! ### Accepted lists -/

section Main

variable {sn : Starknet} {call : CallContract} {pool simulated : Pool}
  {userAddr : ContractAddress} {userPrivateKey : Felt} {clientActions : List ClientAction}
  {serverActions : List ServerAction}

/-- The loop of an accepted list, and the checks after it. -/
theorem run_of_main
    (h : main sn call pool userAddr userPrivateKey clientActions =
      .ok (serverActions, simulated)) :
    ∃ state, clientActions.foldlM (compileStep sn call userAddr userPrivateKey)
        (CompileState.start pool) = .ok state ∧ state.hasReplayProtection = true ∧
      state.tokenBalances.assertValid = .ok () ∧ state.serverActions = serverActions := by
  simp only [main, bind_eq_ok, require_eq_ok, exists_and_left, exists_const, pure_eq_ok,
    Prod.mk.injEq] at h
  obtain ⟨-, -, -, state, hrun, hguarded, ⟨⟩, hvalid, hactions, -⟩ := h
  exact ⟨state, hrun, hguarded, hvalid, hactions⟩

theorem compilesSoundly_of_main
    (h : main sn call pool userAddr userPrivateKey clientActions =
      .ok (serverActions, simulated)) :
    CompilesSoundly sn call userAddr userPrivateKey pool clientActions := by
  obtain ⟨state, hrun, hguarded, hvalid, -⟩ := run_of_main h
  have hstart : ∀ t, (CompileState.start pool).tokenBalances.credit t = 0 := fun _ => rfl
  -- The balance of every prefix is a 128-bit word: it was never negative, and never too large.
  have hbegins : ∀ before, before <+: clientActions → ∀ t, ∃ balance : U128,
      (balance.val : ℤ) = paidIn sn call userAddr userPrivateKey t (CompileState.start pool) before -
        paidOut t before := by
    rintro before ⟨after, rfl⟩ t
    obtain ⟨middle, hbefore, -⟩ := foldlM_append_eq_ok.mp hrun
    refine ⟨middle.tokenBalances.entry (ContractAddress.toFelt t), ?_⟩
    have hcredit := credit_of_foldlM t hbefore
    rw [hstart, zero_add] at hcredit
    exact hcredit
  constructor
  · exact (phases_of_foldlM hrun).2
  · rintro before action after rfl hinvoke
    obtain ⟨middle, -, hafter⟩ := foldlM_append_eq_ok.mp hrun
    exact eq_nil_of_invoke hinvoke hafter
  · intro before hbefore t
    obtain ⟨balance, hbalance⟩ := hbegins before hbefore t
    omega
  · intro before hbefore t
    obtain ⟨balance, hbalance⟩ := hbegins before hbefore t
    have := balance.isLt
    omega
  -- The list ends with all balances at zero.
  · intro t
    have hcredit := credit_of_foldlM t hrun
    rw [TokenBalances.credit_of_assertValid hvalid, hstart] at hcredit
    omega
  · rw [compiledState_eq hrun]
    exact guarded_of_foldlM hrun hguarded

/-- What `main` accepts satisfies the conditions, and its server actions have a
`WriteOnce`; a list that violates one of them is rejected. -/
theorem main_compilesSoundly (sn : Starknet) (call : CallContract) (pool : Pool)
    (userAddr : ContractAddress) (userPrivateKey : Felt) (clientActions : List ClientAction) :
    (∀ serverActions simulated, main sn call pool userAddr userPrivateKey clientActions =
        .ok (serverActions, simulated) →
      CompilesSoundly sn call userAddr userPrivateKey pool clientActions ∧
        ∃ input, ServerAction.writeOnce input ∈ serverActions) ∧
    (¬CompilesSoundly sn call userAddr userPrivateKey pool clientActions →
      ∃ e, main sn call pool userAddr userPrivateKey clientActions = .error e) := by
  constructor
  · intro serverActions simulated h
    refine ⟨compilesSoundly_of_main h, ?_⟩
    obtain ⟨state, hrun, hguarded, -, rfl⟩ := run_of_main h
    exact guarded_of_foldlM hrun hguarded
  · intro hunsound
    cases h : main sn call pool userAddr userPrivateKey clientActions with
    | error e => exact ⟨e, rfl⟩
    | ok result => exact absurd (compilesSoundly_of_main h) hunsound

end Main

/-- The list that funds the sample user. -/
theorem main_compilesSoundly_sample :
    CompilesSoundly Starknet.sample Sample.funding.call Sample.funding.userAddr
      Sample.funding.userPrivateKey Sample.deployed.pool Sample.funding.clientActions :=
  ((main_compilesSoundly Starknet.sample Sample.funding.call Sample.deployed.pool
    Sample.funding.userAddr Sample.funding.userPrivateKey Sample.funding.clientActions).1 _ _
    Sample.funding_compiled).1

end PrivacyPool
