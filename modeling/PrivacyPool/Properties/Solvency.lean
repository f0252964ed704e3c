import PrivacyPool.Refinement.Invariant

/-!
# Solvency

The pool holds at least what it owes: in every reachable state, its balance of a
token covers the decoded amounts of all notes of the token that are not
nullified. While a list is applied, the balance covers the running balance of
the list as well, so that no withdrawal fails for lack of funds.

## Main results

* `run_solvent` — the balance covers the debt in every reachable state
* `run_covers_transferTo` — it covers every transfer out of the pool
* `pool_solvent` — both, with the owner of a nullifier
-/

namespace PrivacyPool

open Fallible WriteOnce

variable {sn : Starknet} {D : Domain} {visited : List (World sn)} {labels : List (Label sn)}
  {world world' : World sn}

/-- The fee is not taken from the pool. -/
theorem held_le_of_collectFee (hexact : ExactTransfers sn) {tx : TxInfo}
    (h : collectFee sn world tx = .ok world') (t : ContractAddress) :
    world.held t ≤ world'.held t := by
  unfold collectFee at h
  split_ifs at h
  · obtain ⟨tokens, htransfer, h⟩ := bind_eq_ok.mp h
    obtain rfl := pure_eq_ok.mp h
    have hbalance := hexact.transferFrom_balance (transferred_eq_ok.mp htransfer) t
    simp only [World.held, hbalance]
    exact Nat.le_add_right _ _
  · obtain rfl := pure_eq_ok.mp h
    exact le_rfl

/-- What is owed and in transit is covered after any number of blocks. -/
theorem solvent_performs (hD : NoCollision sn D) (hexact : ExactTransfers sn)
    (hkeys : PublicKeysDistinct sn) {invocation : Invocation sn}
    (hconfined : invocation.Confined D) {blocks : List Block} {moves : List Move}
    {st st' : ApplyState sn} (h : Performs D invocation blocks moves st st')
    (hsound : Sound sn D st.world.pool) {t : ContractAddress}
    (hsolvent : debt sn (view sn D st.world.pool.words) t ≤ st.world.held t) :
    (debt sn (view sn D st'.world.pool.words) t : ℤ) + (blocks.map fun b => b.credit t).sum ≤
      st'.world.held t := by
  obtain ⟨emitted, ops, -, hlogged, hpaid⟩ := h.simulated.log
  have hheld := held_le_of_trace hexact hconfined hpaid t
  rw [hlogged.held t] at hheld
  have hstart : (debt sn (view sn D st.world.pool.words) t : ℤ) + 0 ≤ st.world.held t := by
    rw [add_zero]
    exact_mod_cast hsolvent
  exact solvent_trace hD hkeys h.simulated.trace hsound.wellFormed hstart hheld
    (by rw [zero_add, h.credit t])

/-- A submission keeps the pool solvent. -/
theorem Submission.Performed.solvent (hD : NoCollision sn D) (hexact : ExactTransfers sn)
    (hkeys : PublicKeysDistinct sn) {sub : Submission sn} (hcovered : sub.Covered D)
    {blocks : List Block} {moves : List Move} (h : sub.Performed D blocks moves world world')
    (hsound : Sound sn D world.pool) {t : ContractAddress}
    (hsolvent : debt sn (view sn D world.pool.words) t ≤ world.held t) :
    debt sn (view sn D world'.pool.words) t ≤ world'.held t := by
  obtain ⟨tokens, emitted, ops, hfee, -, hlogged, hpaid⟩ := h.log
  have hpaidFee := held_le_of_collectFee hexact hfee t
  have hheld := held_le_of_trace hexact hcovered.invocation hpaid t
  rw [hlogged.held t] at hheld
  have hstart : (debt sn (view sn D world.pool.words) t : ℤ) + 0 ≤
      sn.balanceOf tokens t sn.contractAddress := by
    rw [add_zero]
    exact_mod_cast hsolvent.trans hpaidFee
  have hcovers := solvent_trace hD hkeys h.trace hsound.wellFormed hstart hheld rfl
  rw [h.credit t, add_zero, add_zero] at hcovers
  exact_mod_cast hcovers

theorem debt_of_blank (t : ContractAddress) : debt sn (fun _ => 0) t = 0 := by
  refine Finset.sum_eq_zero fun n _ => ?_
  rw [owed_of_unspent fun _ => rfl]
  exact noteValue_of_blank rfl

/-- **Solvency.** In every reachable state, the pool's balance of a token covers
the value of its notes that are not nullified. -/
theorem run_solvent (hD : NoCollision sn D) (hexact : ExactTransfers sn)
    (hkeys : PublicKeysDistinct sn) (run : PoolRun sn D visited labels world)
    (t : ContractAddress) : debt sn (view sn D world.pool.words) t ≤ world.held t := by
  induction run with
  | start h =>
    have hview : view sn D _ = fun _ => 0 := congrArg Book.ledger (Deployed.book_eq D h)
    rw [hview, debt_of_blank]
    exact Nat.zero_le _
  | step run hstep ih =>
    rename_i visited labels label current next
    cases label with
    | apply sub =>
      have hsound := (run_invariant hD run _ run.mem_visited).1.sound
      obtain ⟨blocks, moves, hperformed⟩ := step_performed hD run hstep
      obtain ⟨-, -, hcovered, -⟩ := hstep
      exact hperformed.solvent hD hexact hkeys hcovered hsound ih
    | admin caller call =>
      have same := applyAdmin_sameUserData hstep
      rw [World.held, same.tokens, same.words]
      exact ih
    | environment =>
      have henvironment : EnvironmentStep current next := hstep
      rw [henvironment.pool]
      exact ih.trans (henvironment.balance t)

/-! ### Transfers out of the pool -/

/-- A transfer out of the pool is the first action of a withdrawal. -/
theorem split_transferTo {blocks : List Block} {before after : List ServerAction}
    {input : TransferToInput}
    (h : blocks.flatMap (Block.serverActions sn) = before ++ .transferTo input :: after) :
    ∃ first enc last, blocks = first ++ .withdraw enc input.toAddr input.token input.amount :: last ∧
      before = first.flatMap (Block.serverActions sn) := by
  induction blocks generalizing before with
  | nil => simp at h
  | cons b rest ih =>
    rw [List.flatMap_cons] at h
    rcases List.append_eq_append_iff.mp h with ⟨middle, hbefore, hrest⟩ | ⟨middle, hblock, hrest⟩
    · obtain ⟨first, enc, last, rfl, rfl⟩ := ih hrest
      exact ⟨b :: first, enc, last, rfl, by rw [hbefore, List.flatMap_cons]⟩
    · cases middle with
      | nil =>
        have hrest' : rest.flatMap (Block.serverActions sn) = [] ++ .transferTo input :: after :=
          hrest.symm
        obtain ⟨first, enc, last, rfl, hnil⟩ := ih hrest'
        refine ⟨b :: first, enc, last, rfl, ?_⟩
        rw [List.flatMap_cons, ← hnil, List.append_nil, hblock, List.append_nil]
      | cons action middle =>
        -- The transfer lies in the block itself, so the block is a withdrawal.
        obtain ⟨rfl, -⟩ := List.cons.inj hrest
        have hmem : ServerAction.transferTo input ∈ b.serverActions sn := by
          rw [hblock]
          exact List.mem_append_right _ List.mem_cons_self
        cases b with
        | withdraw enc toAddr token amount =>
          simp only [Block.serverActions, List.mem_cons, ServerAction.transferTo.injEq,
            reduceCtorEq, List.not_mem_nil, or_false] at hmem
          subst hmem
          cases before with
          | nil => exact ⟨[], enc, rest, rfl, rfl⟩
          | cons action before =>
            simp only [Block.serverActions, List.cons_append, List.cons.injEq] at hblock
            cases before with
            | nil => simp at hblock
            | cons action' before => simp at hblock
        | _ => simp [Block.serverActions, toWriteOnceAction] at hmem

/-- When a compiled list reaches a transfer out of the pool, the pool has the
balance for it, and the transfer succeeds. -/
theorem run_covers_transferTo (hD : NoCollision sn D) (hexact : ExactTransfers sn)
    (hkeys : PublicKeysDistinct sn) (run : PoolRun sn D visited labels world)
    {sub : Submission sn} (hbase : sub.base ∈ visited) (hcompiled : sub.Compiled)
    (hcovered : sub.Covered D) {before after : List ServerAction} {input : TransferToInput}
    (hactions : sub.actions.1 = before ++ .transferTo input :: after) {st : ApplyState sn}
    (hreaches : sub.Reaches world before st) :
    input.amount.val ≤ st.world.held input.token ∧
      ∃ st', applyAction sn sub.invocation st (.transferTo input) = .ok st' := by
  have hinvariant := run_invariant hD run
  have hsound := (hinvariant _ run.mem_visited).1.sound
  obtain ⟨hbaseInvariant, holder⟩ := hinvariant _ hbase
  obtain ⟨blocks, hblocks⟩ := submission_blocks hcompiled hcovered
  rw [hblocks.actions] at hactions
  -- The transfer is the first action of a withdrawal.
  obtain ⟨first, enc, last, rfl, rfl⟩ := split_transferTo hactions
  obtain ⟨tokens, hfee, happlied⟩ := hreaches
  -- Perform the blocks before the withdrawal.
  obtain ⟨reached, hfirst, hlast⟩ := hblocks.checked.split
  have hsound' : Sound sn D (ApplyState.mk { world.enter with tokens } 0 none).world.pool :=
    ⟨hsound.wellFormed, hsound.named⟩
  obtain ⟨moves, hperforms, -, -⟩ := simulate_blocks hD hcovered.invocation hfirst
    hbaseInvariant.sound.wellFormed.headed hsound' holder.ledger happlied
  have hstart := (run_solvent hD hexact hkeys run input.token).trans
    (held_le_of_collectFee hexact hfee input.token)
  have hsolvent := solvent_performs (t := input.token) hD hexact hkeys hcovered.invocation hperforms
    hsound' hstart
  -- The running balance is still not negative after the withdrawal.
  have hcredit := hblocks.credit_nonneg input.token
    (first ++ [.withdraw enc input.toAddr input.token input.amount])
    (List.prefix_append_right_inj first |>.mpr (List.prefix_append [_] last))
  rw [List.map_append, List.sum_append, List.map_singleton, List.sum_singleton] at hcredit
  have hwithdrawn : (Block.withdraw enc input.toAddr input.token input.amount).credit input.token =
      -(input.amount.val : ℤ) := by
    simp [Block.credit, amountOf]
  rw [hwithdrawn] at hcredit
  have hcovers : input.amount.val ≤ st.world.held input.token := by omega
  refine ⟨hcovers, ?_⟩
  have hto : input.toAddr ≠ 0 := by
    cases hlast with
    | cons hchecked _ =>
      cases hchecked.enabled with
      | withdraw hto => exact hto
  obtain ⟨after, htransfer⟩ := Option.isSome_iff_exists.mp (hexact.transfer_succeeds hto hcovers)
  refine ⟨{ st with world := { st.world with tokens := after } }, ?_⟩
  simp only [applyAction, applyTransferTo, transferred, bind_eq_ok, pure_eq_ok, expect_eq_ok]
  exact ⟨_, ⟨after, htransfer, rfl⟩, rfl⟩

/-- The pool is solvent in every reachable state, whatever lists were compiled on
whatever earlier states: its balance covers the notes that are not nullified, and
every transfer out of the pool that a compiled list reaches. A nullifier is only
ever set under the key of the owner of the note's subchannel. -/
theorem pool_solvent (hD : NoCollision sn D) (hexact : ExactTransfers sn)
    (hkeys : PublicKeysDistinct sn) (run : PoolRun sn D visited labels world) :
    (∀ t, debt sn (view sn D world.pool.words) t ≤ world.held t) ∧
    (∀ sub : Submission sn, sub.base ∈ visited → sub.Compiled → sub.Covered D →
      ∀ before input after st, sub.actions.1 = before ++ .transferTo input :: after →
        sub.Reaches world before st → input.amount.val ≤ st.world.held input.token ∧
          ∃ st', applyAction sn sub.invocation st (.transferTo input) = .ok st') ∧
    (∀ n k, view sn D world.pool.words (.nullifier n k) 0 ≠ 0 → isCanonicalKey k ∧
      ∃ owner publicKey, sn.derivePublicKey k = .ok publicKey ∧
        view sn D world.pool.words
          (.subchannelExists ⟨n.channelKey, owner, publicKey, n.token⟩) 0 ≠ 0) := by
  refine ⟨run_solvent hD hexact hkeys run, ?_, fun n k hused => ?_⟩
  · intro sub hbase hcompiled hcovered before input after st hactions hreaches
    exact run_covers_transferTo hD hexact hkeys run hbase hcompiled hcovered hactions hreaches
  · have hsound := (run_invariant hD run _ run.mem_visited).1.sound
    have hby := hsound.wellFormed.nullifiers n k hused
    exact ⟨hby.canonical, hby.owner⟩

theorem pool_solvent_sample : Sample.spent.held 77 = 40 ∧
    debt Starknet.sample (view Starknet.sample Domain.sample Sample.spent.pool.words) 77 ≤ 40 := by
  have hheld : Sample.spent.held 77 = 40 := by decide +kernel
  have hsolvent := (pool_solvent sample_noCollision Starknet.sample_exactTransfers
    Starknet.sample_publicKeysDistinct Sample.run).1 77
  exact ⟨hheld, hheld ▸ hsolvent⟩

end PrivacyPool
