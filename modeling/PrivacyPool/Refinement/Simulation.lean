import PrivacyPool.Refinement.Apply
import PrivacyPool.Refinement.Compile

/-!
# A submission is a run of the book

A list is compiled on one storage and applied on a later one. The compiled list
is a list of blocks, each checked on the storage that the simulation had reached;
applying it performs the same blocks on the book, since checked blocks stay
enabled. An invoke is followed by the open notes that its deposits fill.

## Main definitions

* `Sound` — the invariants of the pool's storage
* `Block.Checked` — a block as the compile loop leaves it
* `Simulated` — the effect of a list of moves on the world

## Main results

* `compile_blocks` — a compiled list is a list of checked blocks
* `simulate_block` — applying a block performs it on the book
* `simulate_blocks` — applying a compiled list is a run of the book
-/

namespace PrivacyPool

open Fallible WriteOnce

/-- The invariants of the pool's storage. -/
structure Sound (sn : Starknet) (D : Domain) (pool : Pool) : Prop where
  wellFormed : WellFormed sn D (book sn D pool)
  named : NotesNamed sn D pool.words

/-- What stands on the left of a list relation is related to something on the right. -/
theorem mem_forall₂_left {α β : Type*} {R : α → β → Prop} {as : List α} {bs : List β}
    (h : List.Forall₂ R as bs) {a : α} (ha : a ∈ as) : ∃ b ∈ bs, R a b := by
  obtain ⟨i, hi, rfl⟩ := List.mem_iff_getElem.mp ha
  have hi' : i < bs.length := by rwa [← h.length_eq]
  exact ⟨bs[i], List.getElem_mem hi', h.get hi hi'⟩

/-! ### The compile loop -/

/-- A block as the compile loop leaves it: enabled, and simulated. -/
structure Block.Checked (sn : Starknet) (D : Domain) (b : Block) (pool pool' : Pool) : Prop where
  enabled : Enabled sn D (view sn D pool.words) b
  covered : ∀ p ∈ b.puts, p.1.Covered D
  storage : (b.serverActions sn).foldlM storageAction pool = .ok pool'

section Compile

variable {sn : Starknet} {D : Domain} {call : CallContract} {userAddr : ContractAddress}
  {userPrivateKey : Felt}

/-- The simulation of the client is the storage part of the server actions. -/
theorem clientApplyActions_storage {actions : List ServerAction} {pool pool' : Pool}
    {flag flag' : Bool} (h : clientApplyActions pool flag actions = .ok (pool', flag')) :
    actions.foldlM storageAction pool = .ok pool' := by
  induction actions generalizing pool flag with
  | nil =>
    obtain ⟨rfl, -⟩ := Prod.mk.inj (foldlM_nil_eq_ok.mp h)
    exact foldlM_nil_eq_ok.mpr rfl
  | cons action rest ih =>
    obtain ⟨⟨next, flag₁⟩, hstep, hrest⟩ := foldlM_cons_eq_ok.mp h
    refine foldlM_cons_eq_ok.mpr ⟨next, ?_, ih hrest⟩
    cases action with
    | writeOnce input =>
      simp only [clientApplyAction, bind_eq_ok, pure_eq_ok, Prod.mk.injEq] at hstep
      obtain ⟨pool₁, hwrite, rfl, -⟩ := hstep
      exact hwrite
    | append input =>
      simp only [clientApplyAction, pure_eq_ok, Prod.mk.injEq] at hstep
      exact pure_eq_ok.mpr hstep.1
    | _ =>
      simp only [clientApplyAction, pure_eq_ok, Prod.mk.injEq] at hstep
      exact pure_eq_ok.mpr hstep.1

/-- One step of the compile loop checks a block. -/
theorem compileStep_block {state state' : CompileState} {action : ClientAction}
    (hnonzero : userPrivateKey ≠ 0) (hcanonical : isCanonicalKey userPrivateKey)
    (hcovered : action.Covered sn D state.pool userAddr userPrivateKey)
    (h : compileStep sn call userAddr userPrivateKey state action = .ok state') :
    ∃ b : Block, b.Of userAddr userPrivateKey action ∧ b.Checked sn D state.pool state'.pool ∧
      state'.serverActions = state.serverActions ++ b.serverActions sn ∧
      ∀ t, state'.tokenBalances.credit t = state.tokenBalances.credit t + b.credit t := by
  simp only [compileStep, bind_eq_ok, pure_eq_ok] at h
  obtain ⟨phase, -, ⟨actions, balances⟩, hcompile, ⟨pool, flag⟩, happly, rfl⟩ := h
  obtain ⟨b, hb⟩ := compileAction_block hnonzero hcanonical hcovered hcompile
  have hactions := hb.actions
  subst hactions
  exact ⟨b, hb.of, ⟨hb.enabled, hb.covered, clientApplyActions_storage happly⟩, rfl, hb.credit⟩

/-- A compiled list as a list of checked blocks: its server actions are those of
the blocks, and the running balances never fall below zero on the way. -/
structure CompiledTo (sn : Starknet) (D : Domain) (userAddr : ContractAddress)
    (userPrivateKey : Felt) (clientActions : List ClientAction) (state state' : CompileState)
    (blocks : List Block) : Prop where
  of : List.Forall₂ (Block.Of userAddr userPrivateKey) clientActions blocks
  checked : Trace (Block.Checked sn D) state.pool blocks state'.pool
  actions : state'.serverActions = state.serverActions ++ blocks.flatMap (Block.serverActions sn)
  credit : ∀ t, state'.tokenBalances.credit t =
    state.tokenBalances.credit t + (blocks.map fun b => b.credit t).sum
  credit_nonneg : ∀ t, ∀ before, before <+: blocks →
    0 ≤ state.tokenBalances.credit t + (before.map fun b => b.credit t).sum

/-- A compiled list is a list of checked blocks. -/
theorem compile_blocks {state state' : CompileState} {clientActions : List ClientAction}
    (hnonzero : userPrivateKey ≠ 0) (hcanonical : isCanonicalKey userPrivateKey)
    (hcovered : CompileCovered sn D call userAddr userPrivateKey state clientActions)
    (h : clientActions.foldlM (compileStep sn call userAddr userPrivateKey) state = .ok state') :
    ∃ blocks, CompiledTo sn D userAddr userPrivateKey clientActions state state' blocks := by
  induction clientActions generalizing state with
  | nil =>
    obtain rfl := foldlM_nil_eq_ok.mp h
    refine ⟨[], .nil, .nil _, by simp, by simp, fun t before hbefore => ?_⟩
    rw [List.prefix_nil.mp hbefore]
    exact Int.natCast_nonneg _
  | cons action rest ih =>
    obtain ⟨next, hstep, hrest⟩ := foldlM_cons_eq_ok.mp h
    obtain ⟨b, hof, hchecked, hactions, hcredit⟩ :=
      compileStep_block hnonzero hcanonical hcovered.1 hstep
    obtain ⟨blocks, hcompiled⟩ := ih (hcovered.2 next hstep) hrest
    refine ⟨b :: blocks, .cons hof hcompiled.of, .cons hchecked hcompiled.checked, ?_,
      fun t => ?_, fun t before hbefore => ?_⟩
    · rw [hcompiled.actions, hactions, List.flatMap_cons, List.append_assoc]
    · rw [hcompiled.credit, hcredit, List.map_cons, List.sum_cons, add_assoc]
    · rcases List.prefix_cons_iff.mp hbefore with rfl | ⟨before', rfl, hbefore'⟩
      · exact Int.natCast_nonneg _
      · have hlater := hcompiled.credit_nonneg t before' hbefore'
        rw [List.map_cons, List.sum_cons, ← add_assoc, ← hcredit t]
        exact hlater

/-- A checked block applies to the book of the simulation. -/
theorem Block.Checked.applies (hD : NoCollision sn D) {b : Block} {pool pool' : Pool}
    (h : b.Checked sn D pool pool') (hheaded : Headed (view sn D pool.words)) :
    b.Applies sn D (book sn D pool) (book sn D pool') := by
  have hstored := Block.storage hD hheaded h.covered h.storage
  exact ⟨h.enabled, h.covered, hstored.fresh, hstored.ledger, hstored.channels⟩

/-- The simulation itself is a run of the book. -/
theorem checked_trace (hD : NoCollision sn D) {blocks : List Block} {pool pool' : Pool}
    (h : Trace (Block.Checked sn D) pool blocks pool') (hheaded : Headed (view sn D pool.words)) :
    Trace (Move.Step sn D) (book sn D pool) (blocks.map .block) (book sn D pool') := by
  induction h with
  | nil _ => exact .nil _
  | cons hchecked _ ih =>
    have happlies := hchecked.applies hD hheaded
    exact .cons happlies (ih (headed_step (m := .block _) happlies hheaded))

end Compile

/-! ### Events of open notes -/

/-- The ids of the open notes that events report as created. -/
def createdIds (events : List Event) : List Felt :=
  events.filterMap fun
    | .openNoteCreated event => some event.noteId
    | _ => none

/-- The deposits to open notes that events report. -/
def depositEvents (events : List Event) : List Events.OpenNoteDeposited :=
  events.filterMap fun
    | .openNoteDeposited event => some event
    | _ => none

/-- The event of a deposit to an open note. -/
def OpenNoteDeposit.event (depositor : ContractAddress) (deposit : OpenNoteDeposit) :
    Events.OpenNoteDeposited :=
  ⟨depositor, deposit.token, deposit.noteId, deposit.amount⟩

/-- The event reports that the note received the amount. -/
def Reports (sn : Starknet) (event : Events.OpenNoteDeposited) (f : NoteKey × U128) : Prop :=
  f.1.id sn = event.noteId ∧ f.1.token = event.token ∧ f.2 = event.amount

/-- What the events and the token movements of a run say about its moves. -/
structure Logged (sn : Starknet) (moves : List Move) (emitted : List Event)
    (ops : List TokenOp) : Prop where
  created : createdIds emitted = (moves.flatMap Move.created).map fun n => n.id sn
  deposited : List.Forall₂ (Reports sn) (depositEvents emitted) (moves.flatMap Move.fills)
  pulled : ops.filterMap TokenOp.pulled = depositEvents emitted
  invoked : ∀ event, .pull event ∈ ops →
    ∃ input selector, .call input selector ∈ ops ∧ input.contractAddress = event.depositor
  held : ∀ t, (ops.map fun op => op.held t).sum = (moves.map fun m => m.held t).sum

/-- The effect of a list of moves on the world. -/
structure Simulated {sn : Starknet} (D : Domain) (invocation : Invocation sn) (moves : List Move)
    (world world' : World sn) : Prop where
  trace : Trace (Move.Step sn D) (book sn D world.pool) moves (book sn D world'.pool)
  named : NotesNamed sn D world'.pool.words
  frame : world'.pool = { world.pool with
    words := world'.pool.words, recipientChannels := world'.pool.recipientChannels }
  log : ∃ emitted ops, world'.events = world.events ++ emitted ∧ Logged sn moves emitted ops ∧
    Trace (TokenOp.Step invocation) world.tokens ops world'.tokens

section Apply

variable {sn : Starknet} {D : Domain} {invocation : Invocation sn}

theorem Logged.append {moves moves' : List Move} {emitted emitted' : List Event}
    {ops ops' : List TokenOp} (h : Logged sn moves emitted ops)
    (h' : Logged sn moves' emitted' ops') :
    Logged sn (moves ++ moves') (emitted ++ emitted') (ops ++ ops') where
  created := by
    have hhead := h.created
    have htail := h'.created
    unfold createdIds at hhead htail ⊢
    rw [List.filterMap_append, hhead, htail, List.flatMap_append, List.map_append]
  deposited := by
    have hhead := h.deposited
    have htail := h'.deposited
    unfold depositEvents at hhead htail ⊢
    rw [List.filterMap_append, List.flatMap_append]
    exact List.rel_append hhead htail
  pulled := by
    have hhead := h.pulled
    have htail := h'.pulled
    unfold depositEvents at hhead htail ⊢
    rw [List.filterMap_append, List.filterMap_append, hhead, htail]
  invoked := by
    intro event hevent
    rcases List.mem_append.mp hevent with hevent | hevent
    · obtain ⟨input, selector, hcall, hsame⟩ := h.invoked event hevent
      exact ⟨input, selector, List.mem_append_left _ hcall, hsame⟩
    · obtain ⟨input, selector, hcall, hsame⟩ := h'.invoked event hevent
      exact ⟨input, selector, List.mem_append_right _ hcall, hsame⟩
  held t := by
    rw [List.map_append, List.map_append, List.sum_append, List.sum_append, h.held, h'.held]

theorem Simulated.nil {world : World sn} (hnamed : NotesNamed sn D world.pool.words) :
    Simulated D invocation [] world world :=
  ⟨.nil _, hnamed, rfl, [], [], (List.append_nil _).symm,
    ⟨rfl, .nil, rfl, by simp, fun _ => rfl⟩, .nil _⟩

theorem Simulated.append {moves moves' : List Move} {world world' world'' : World sn}
    (h : Simulated D invocation moves world world')
    (h' : Simulated D invocation moves' world' world'') :
    Simulated D invocation (moves ++ moves') world world'' := by
  obtain ⟨emitted, ops, hevents, hlogged, hpaid⟩ := h.log
  obtain ⟨emitted', ops', hevents', hlogged', hpaid'⟩ := h'.log
  exact ⟨h.trace.append h'.trace, h'.named, by rw [h'.frame, h.frame],
    emitted ++ emitted', ops ++ ops', by rw [hevents', hevents, List.append_assoc],
    hlogged.append hlogged', hpaid.append hpaid'⟩

/-! ### Deposits -/

/-- The effect of a list of deposits to open notes. -/
structure Filling (D : Domain) (invocation : Invocation sn) (depositor : ContractAddress)
    (deposits : List OpenNoteDeposit) (fills : List (NoteKey × U128)) (world world' : World sn) :
    Prop where
  trace : Trace (Move.Step sn D) (book sn D world.pool) (fills.map fun f => .fill f.1 f.2)
    (book sn D world'.pool)
  named : NotesNamed sn D world'.pool.words
  frame : world'.pool = { world.pool with words := world'.pool.words }
  events : world'.events =
    world.events ++ deposits.map fun d => .openNoteDeposited (d.event depositor)
  paid : Trace (TokenOp.Step invocation) world.tokens
    (deposits.map fun d => .pull (d.event depositor)) world'.tokens
  reports : List.Forall₂ (fun d f => Reports sn (d.event depositor) f) deposits fills

/-- The deposits of an invoke fill open notes, one each. -/
theorem deposits_filling (invocation : Invocation sn) (hD : NoCollision sn D)
    {depositor : ContractAddress} {deposits : List OpenNoteDeposit} {world world' : World sn}
    (hkeys : ∀ d ∈ deposits, d.noteId ∈ D.keys) (hsound : Sound sn D world.pool)
    (h : deposits.foldlM (depositToOpenNote sn depositor) world = .ok world') :
    ∃ fills, Filling D invocation depositor deposits fills world world' := by
  induction deposits generalizing world with
  | nil =>
    obtain rfl := foldlM_nil_eq_ok.mp h
    exact ⟨[], .nil _, hsound.named, rfl, by simp, .nil _, .nil⟩
  | cons deposit rest ih =>
    obtain ⟨next, hstep, hrest⟩ := foldlM_cons_eq_ok.mp h
    have hdeposited := depositToOpenNote_eq_ok hstep
    obtain ⟨n, -, hid, htoken, hfills, hnamed⟩ :=
      hdeposited.fills hD (hkeys deposit List.mem_cons_self) hsound.wellFormed hsound.named
    have hsound' : Sound sn D next.pool :=
      ⟨Move.Step.wellFormed (m := .fill n deposit.amount) hD hsound.wellFormed hfills, hnamed⟩
    obtain ⟨fills, hfilling⟩ := ih (fun d hd => hkeys d (List.mem_cons_of_mem _ hd)) hsound' hrest
    refine ⟨(n, deposit.amount) :: fills, .cons hfills hfilling.trace, hfilling.named, ?_, ?_,
      .cons hdeposited.pulled hfilling.paid, .cons ⟨hid, htoken, rfl⟩ hfilling.reports⟩
    · rw [hfilling.frame, hdeposited.frame]
    · rw [hfilling.events, hdeposited.events, List.append_assoc]
      rfl

/-! ### Blocks -/

/-- The counter of open notes follows the moves. -/
def Counted (moves : List Move) (st st' : ApplyState sn) : Prop :=
  st'.undepositedOpenNotes.val + (moves.flatMap Move.filled).length =
    st.undepositedOpenNotes.val + (moves.flatMap Move.created).length

theorem logged_block {b : Block} (hb : b.invoked = none) :
    Logged sn [.block b] (b.events sn) b.tokenOps := by
  cases b with
  | invoke _ | invokeWithComputation _ => exact absurd hb (by simp [Block.invoked])
  | _ => exact ⟨rfl, .nil, rfl, by simp [Block.tokenOps], fun _ => rfl⟩

theorem logged_invoke {b : Block} {input : InvokeInput} {selector : Felt}
    (hb : b.invoked = some (input, selector)) {deposits : List OpenNoteDeposit}
    {fills : List (NoteKey × U128)}
    (hreports : List.Forall₂ (fun d f => Reports sn (d.event input.contractAddress) f)
      deposits fills) :
    Logged sn (.block b :: fills.map fun f => .fill f.1 f.2)
      (.externalContractInvoked ⟨input.contractAddress, selector⟩ ::
        deposits.map fun d => .openNoteDeposited (d.event input.contractAddress))
      (.call input selector :: deposits.map fun d => .pull (d.event input.contractAddress)) := by
  -- An invocation creates no note; the events of the fills are those of its deposits.
  have hcreated : (Move.block b).created = [] := by
    obtain ⟨rfl, -⟩ | ⟨rfl, -⟩ := Block.eq_of_invoked hb <;> rfl
  have hdeposits : depositEvents (.externalContractInvoked ⟨input.contractAddress, selector⟩ ::
      deposits.map fun d => .openNoteDeposited (d.event input.contractAddress)) =
      deposits.map fun d => d.event input.contractAddress := by
    rw [depositEvents, List.filterMap_cons_none rfl, List.filterMap_map]
    exact congrFun List.filterMap_eq_map deposits
  have hfills : (Move.block b :: fills.map fun f => Move.fill f.1 f.2).flatMap Move.fills = fills := by
    simp [Move.fills, List.flatMap_cons, List.flatMap_map]
  have hheld : (Move.block b).held = 0 := by
    obtain ⟨rfl, -⟩ | ⟨rfl, -⟩ := Block.eq_of_invoked hb <;> rfl
  refine ⟨?_, ?_, ?_, ?_, fun t => ?_⟩
  · have hnone : (fills.map fun f => Move.fill f.1 f.2).flatMap Move.created = [] := by
      simp [List.flatMap_map, Move.created]
    rw [List.flatMap_cons, hcreated, hnone, createdIds, List.filterMap_cons_none rfl,
      List.filterMap_map]
    exact List.filterMap_eq_nil_iff.mpr fun _ _ => rfl
  · rw [hdeposits, hfills, List.forall₂_map_left_iff]
    exact hreports
  · rw [hdeposits, List.filterMap_cons_none rfl, List.filterMap_map]
    exact congrFun List.filterMap_eq_map deposits
  · intro event hevent
    simp only [List.mem_cons, reduceCtorEq, List.mem_map, TokenOp.pull.injEq, false_or] at hevent
    obtain ⟨d, -, rfl⟩ := hevent
    exact ⟨input, selector, List.mem_cons_self, rfl⟩
  · rw [List.map_cons, List.map_cons, List.sum_cons, List.sum_cons, hheld, List.map_map,
      List.map_map]
    congr 1
    clear hdeposits hfills
    induction hreports with
    | nil => rfl
    | cons hreport _ ih =>
      obtain ⟨-, htoken, hamount⟩ := hreport
      rw [List.map_cons, List.map_cons, List.sum_cons, List.sum_cons, ih]
      simp only [Function.comp_apply, TokenOp.held, Move.held, htoken, hamount]

/-- The block of a move. -/
def Move.block? : Move → Option Block
  | block b => some b
  | fill _ _ => none

/-- What applying a block, or a list of them, does: a run of moves in which the
blocks appear in order. -/
structure Performs (D : Domain) (invocation : Invocation sn) (blocks : List Block)
    (moves : List Move) (st st' : ApplyState sn) : Prop where
  simulated : Simulated D invocation moves st.world st'.world
  counted : Counted moves st st'
  performed : moves.filterMap Move.block? = blocks
  credit : ∀ t, (moves.map fun m => m.credit t).sum = (blocks.map fun b => b.credit t).sum

theorem Performs.append {blocks blocks' : List Block} {moves moves' : List Move}
    {st st' st'' : ApplyState sn} (h : Performs D invocation blocks moves st st')
    (h' : Performs D invocation blocks' moves' st' st'') :
    Performs D invocation (blocks ++ blocks') (moves ++ moves') st st'' where
  simulated := h.simulated.append h'.simulated
  counted := by
    have hfirst := h.counted
    have hsecond := h'.counted
    unfold Counted at hfirst hsecond ⊢
    rw [List.flatMap_append, List.flatMap_append, List.length_append, List.length_append]
    omega
  performed := by rw [List.filterMap_append, h.performed, h'.performed]
  credit t := by
    rw [List.map_append, List.map_append, List.sum_append, List.sum_append, h.credit, h'.credit]

theorem Performs.nil {st : ApplyState sn} (hnamed : NotesNamed sn D st.world.pool.words) :
    Performs D invocation [] [] st st :=
  ⟨Simulated.nil hnamed, rfl, rfl, fun _ => rfl⟩

variable {st st' : ApplyState sn}

/-- Applying a block that is not an invoke performs it on the book. -/
theorem simulate_plain (hD : NoCollision sn D) {b : Block}
    (hb : b.invoked = none) (hsound : Sound sn D st.world.pool)
    (henabled : Enabled sn D (view sn D st.world.pool.words) b)
    (hcovered : ∀ p ∈ b.puts, p.1.Covered D)
    (h : (b.serverActions sn).foldlM (applyAction sn invocation) st = .ok st') :
    Performs D invocation [b] [.block b] st st' := by
  have happlied := applied_of_serverActions hb h
  have hstored := Block.storage hD hsound.wellFormed.headed hcovered happlied.storage
  refine ⟨⟨.single ⟨henabled, hcovered, hstored.fresh, hstored.ledger, hstored.channels⟩,
    hstored.notesNamed hD hcovered hsound.named, hstored.frame, b.events sn, b.tokenOps,
    happlied.events, logged_block hb, happlied.paid⟩, ?_, rfl, fun t => rfl⟩
  have hcount := happlied.undeposited
  unfold Counted
  rw [List.flatMap_singleton, List.flatMap_singleton, hcount]
  rfl

/-- Applying an invoke leaves the book to the deposits that follow it. -/
theorem simulate_invoke (hD : NoCollision sn D)
    (hconfined : invocation.Confined D) {b : Block} {input : InvokeInput} {selector : Felt}
    (hb : b.invoked = some (input, selector)) (hsound : Sound sn D st.world.pool)
    (h : (b.serverActions sn).foldlM (applyAction sn invocation) st = .ok st') :
    ∃ fills : List (NoteKey × U128),
      Performs D invocation [b] (.block b :: fills.map fun f => .fill f.1 f.2) st st' := by
  obtain ⟨tokens, deposits, hinvoked⟩ := invoked_of_serverActions hb h
  obtain ⟨returnData, addresses, hcalled, hreturned⟩ := hinvoked.called
  -- The call itself touches neither the book nor the counter.
  have hcalledSound : Sound sn D ({ st.world with tokens }.emit
      (.externalContractInvoked ⟨input.contractAddress, selector⟩)).pool := hsound
  obtain ⟨fills, hfilling⟩ := deposits_filling invocation hD
    (hconfined.noteIds hcalled hreturned) hcalledSound hinvoked.deposited
  have henabled : Enabled sn D (view sn D st.world.pool.words) b := by
    obtain ⟨rfl, -⟩ | ⟨rfl, -⟩ := Block.eq_of_invoked hb
    · exact .invoke
    · exact .invokeWithComputation
  have hputs : b.puts = [] := by
    obtain ⟨rfl, -⟩ | ⟨rfl, -⟩ := Block.eq_of_invoked hb <;> rfl
  -- The block itself writes nothing.
  have happlies : b.Applies sn D (book sn D st.world.pool) (book sn D st.world.pool) := by
    refine ⟨henabled, by simp [hputs], fun p hp => ?_, ?_, ?_⟩
    · rw [hputs] at hp
      exact absurd hp List.not_mem_nil
    · rw [Block.write, hputs, List.foldl_nil]
    · obtain ⟨rfl, -⟩ | ⟨rfl, -⟩ := Block.eq_of_invoked hb <;> rfl
  have hlength : fills.length = deposits.1.length := hfilling.reports.length_eq.symm
  refine ⟨fills, ⟨.cons happlies hfilling.trace, hfilling.named, by rw [hfilling.frame]; rfl,
    _, _, ?_, logged_invoke hb hfilling.reports, .cons ?_ hfilling.paid⟩, ?_, ?_, fun t => ?_⟩
  · rw [hfilling.events]
    simp [World.emit]
  · exact ⟨st.world, returnData, rfl, hcalled⟩
  · have hcount := hinvoked.undeposited
    have hcreated : (Move.block b :: fills.map fun f => Move.fill f.1 f.2).flatMap Move.created =
        [] := by
      have hnone : (Move.block b).created = [] := by
        obtain ⟨rfl, -⟩ | ⟨rfl, -⟩ := Block.eq_of_invoked hb <;> rfl
      rw [List.flatMap_cons, hnone]
      simp [List.flatMap_map, Move.created]
    have hfilled : (Move.block b :: fills.map fun f => Move.fill f.1 f.2).flatMap Move.filled =
        fills.map Prod.fst := by
      rw [List.flatMap_cons, List.flatMap_map, List.map_eq_flatMap]
      rfl
    unfold Counted
    rw [hcreated, hfilled, List.length_map, hlength, List.length_nil]
    exact hcount
  · rw [List.filterMap_cons_some (show Move.block? (.block b) = some b from rfl),
      List.filterMap_map]
    congr 1
    exact List.filterMap_eq_nil_iff.mpr fun _ _ => rfl
  · have hnone : (fills.map ((fun m : Move => m.credit t) ∘ fun f => Move.fill f.1 f.2)).sum = 0 :=
      List.sum_eq_zero fun x hx => by
        obtain ⟨f, -, rfl⟩ := List.mem_map.mp hx
        rfl
    rw [List.map_cons, List.map_map, List.sum_cons, hnone, add_zero]
    exact (List.sum_singleton).symm

/-- Applying a block performs it on the book. -/
theorem simulate_block (hD : NoCollision sn D)
    (hconfined : invocation.Confined D) {b : Block} (hsound : Sound sn D st.world.pool)
    (henabled : Enabled sn D (view sn D st.world.pool.words) b)
    (hcovered : ∀ p ∈ b.puts, p.1.Covered D)
    (h : (b.serverActions sn).foldlM (applyAction sn invocation) st = .ok st') :
    ∃ fills : List (NoteKey × U128),
      Performs D invocation [b] (.block b :: fills.map fun f => .fill f.1 f.2) st st' := by
  cases hb : b.invoked with
  | none => exact ⟨[], simulate_plain hD hb hsound henabled hcovered h⟩
  | some call => exact simulate_invoke hD hconfined hb hsound h

/-- **Simulation.** Applying a compiled list on a later storage than it was
compiled on is a run of the book, and the storage stays later than that of the
simulation. -/
theorem simulate_blocks (hD : NoCollision sn D)
    (hconfined : invocation.Confined D) {blocks : List Block} {pool pool' : Pool}
    (hchecked : Trace (Block.Checked sn D) pool blocks pool')
    (hheaded : Headed (view sn D pool.words)) (hsound : Sound sn D st.world.pool)
    (hlater : Later (view sn D pool.words) (view sn D st.world.pool.words))
    (h : (blocks.flatMap (Block.serverActions sn)).foldlM (applyAction sn invocation) st =
      .ok st') :
    ∃ moves, Performs D invocation blocks moves st st' ∧ Sound sn D st'.world.pool ∧
      Later (view sn D pool'.words) (view sn D st'.world.pool.words) := by
  induction hchecked generalizing st with
  | nil _ =>
    obtain rfl := foldlM_nil_eq_ok.mp h
    exact ⟨[], Performs.nil hsound.named, hsound, hlater⟩
  | cons hfirst _ ih =>
    rename_i b blocks pool₀ pool₁ pool₂ _
    rw [List.flatMap_cons] at h
    obtain ⟨next, happly, hrest⟩ := foldlM_append_eq_ok.mp h
    obtain ⟨fills, hperforms⟩ := simulate_block hD hconfined hsound
      (hfirst.enabled.mono hlater) hfirst.covered happly
    have hsim := hfirst.applies hD hheaded
    have hsound' : Sound sn D next.world.pool :=
      ⟨wellFormed_trace hD hperforms.simulated.trace hsound.wellFormed,
        hperforms.simulated.named⟩
    -- Both storages perform the block; the fills come after it.
    have hlater' : Later (view sn D pool₁.words) (view sn D next.world.pool.words) := by
      cases hperforms.simulated.trace with
      | cons hblock htail =>
        rename_i B
        have happlies : b.Applies sn D (book sn D st.world.pool) B := hblock
        have hboth := Block.later_write_both b hlater
        have hledger : view sn D pool₁.words = b.write (view sn D pool₀.words) := hsim.ledger
        have hledger' : B.ledger = b.write (view sn D st.world.pool.words) := happlies.ledger
        rw [← hledger, ← hledger'] at hboth
        exact hboth.trans (later_trace htail)
    obtain ⟨moves, hperforms', hsound'', hlater''⟩ :=
      ih (headed_step (m := .block b) hsim hheaded) hsound' hlater' hrest
    exact ⟨_, hperforms.append hperforms', hsound'', hlater''⟩

end Apply

end PrivacyPool
