import PrivacyPool.Refinement.Simulation

/-!
# Invariants of every run

A submission performs a run of the book, whatever earlier state it was compiled
on; administration and the rest of the chain leave the book alone. So the book of
every reachable state is well-formed, no open note waits for its amount between
transactions, and the records of an earlier state are kept in every later one.

## Main definitions

* `Accepted` — the parts of a successful `apply_actions`
* `Submission.Performed` — a submission as a run of the book
* `Invariant`, `Older` — what holds of every state, and between two states of a run

## Main results

* `submission_performed` — an applied submission is a run of the book
* `run_invariant` — every run keeps the invariant and the order
-/

namespace PrivacyPool

open Fallible WriteOnce

variable {sn : Starknet} {D : Domain}

/-! ### Taking calls apart -/

/-- The parts of a successful run of `main`. -/
theorem main_eq_ok {call : CallContract} {pool simulated : Pool} {userAddr : ContractAddress}
    {userPrivateKey : Felt} {clientActions : List ClientAction} {actions : List ServerAction}
    (h : main sn call pool userAddr userPrivateKey clientActions = .ok (actions, simulated)) :
    userAddr ≠ 0 ∧ userPrivateKey ≠ 0 ∧ isCanonicalKey userPrivateKey ∧
      ∃ state, clientActions.foldlM (compileStep sn call userAddr userPrivateKey)
        (CompileState.start pool) = .ok state ∧ state.hasReplayProtection = true ∧
        state.tokenBalances.assertValid = .ok () ∧ state.serverActions = actions ∧
        state.pool = simulated := by
  simp only [main, bind_eq_ok, require_eq_ok, exists_and_left, exists_const, pure_eq_ok,
    Prod.mk.injEq] at h
  obtain ⟨huser, hkey, hcanonical, state, hloop, hreplay, _, hvalid, hactions, hpool⟩ := h
  exact ⟨huser, hkey, hcanonical, state, hloop, hreplay, hvalid, hactions, hpool⟩

/-- The world inside a guarded call. -/
def World.enter (world : World sn) : World sn :=
  { world with pool := { world.pool with entered := true } }

/-- The parts of a successful `apply_actions`: the fee leaves the tokens `tokens`,
and the loop over the actions ends in `st`. -/
structure Accepted (invocation : Invocation sn) (tx : TxInfo) (actions : Span ServerAction)
    (screening : Option ScreeningAttestation) (world world' : World sn) (tokens : sn.Tokens)
    (st : ApplyState sn) : Prop where
  unlocked : world.pool.entered = false
  unpaused : world.pool.paused = false
  proof : validateProof sn world.enter tx actions = .ok ()
  fee : collectFee sn world.enter tx = .ok { world.enter with tokens }
  applied : actions.1.foldlM (applyAction sn invocation) ⟨{ world.enter with tokens }, 0, none⟩ =
    .ok st
  deposited : st.undepositedOpenNotes = 0
  screened : checkScreening sn st.world screening st.screeningSubject = .ok ()
  result : world' = guardEnd sn st.world

/-- Collecting the fee changes the tokens only. -/
theorem collectFee_eq_ok {tx : TxInfo} {world world' : World sn}
    (h : collectFee sn world tx = .ok world') : world' = { world with tokens := world'.tokens } := by
  unfold collectFee at h
  split_ifs at h
  · obtain ⟨tokens, -, h⟩ := bind_eq_ok.mp h
    obtain rfl := pure_eq_ok.mp h
    rfl
  · obtain rfl := pure_eq_ok.mp h
    rfl

theorem applyActions_iff {invocation : Invocation sn} {tx : TxInfo} {actions : Span ServerAction}
    {screening : Option ScreeningAttestation} {world world' : World sn} :
    applyActions sn invocation tx world actions screening = .ok world' ↔
      ∃ tokens st, Accepted invocation tx actions screening world world' tokens st := by
  simp only [applyActions, applyAllActions, guardStart, bind_eq_ok, require_eq_ok, pure_eq_ok,
    exists_and_left, exists_const]
  constructor
  · rintro ⟨_, ⟨hunlocked, rfl⟩, hunpaused, _, hproof, paid, hfee, ⟨after, subject⟩,
      ⟨st, happlied, hdeposited, hresult⟩, _, hscreened, rfl⟩
    obtain ⟨rfl, rfl⟩ := Prod.mk.inj hresult
    have hpaid := collectFee_eq_ok hfee
    rw [hpaid] at hfee happlied
    exact ⟨paid.tokens, st, hunlocked, hunpaused, hproof, hfee, happlied, hdeposited, hscreened,
      rfl⟩
  · rintro ⟨tokens, st, h⟩
    exact ⟨world.enter, ⟨h.unlocked, rfl⟩, h.unpaused, _, h.proof, _, h.fee, _,
      ⟨st, h.applied, h.deposited, rfl⟩, _, h.screened, h.result.symm⟩

/-! ### Submissions -/

/-- A list that is being applied has paid its fee and applied the actions `before`. -/
def Submission.Reaches (sub : Submission sn) (world : World sn) (before : List ServerAction)
    (st : ApplyState sn) : Prop :=
  ∃ tokens, collectFee sn world.enter sub.tx = .ok { world.enter with tokens } ∧
    before.foldlM (applyAction sn sub.invocation) ⟨{ world.enter with tokens }, 0, none⟩ = .ok st

/-- A compiled submission as a list of checked blocks, whose credits never fall
below zero and cancel in the end. -/
structure Submission.BlocksOf (D : Domain) (sub : Submission sn) (blocks : List Block) :
    Prop where
  of : List.Forall₂ (Block.Of sub.userAddr sub.userPrivateKey) sub.clientActions blocks
  checked : Trace (Block.Checked sn D) sub.base.pool blocks sub.simulated
  actions : sub.actions.1 = blocks.flatMap (Block.serverActions sn)
  credit : ∀ t, (blocks.map fun b => b.credit t).sum = 0
  credit_nonneg : ∀ t, ∀ before, before <+: blocks → 0 ≤ (before.map fun b => b.credit t).sum

/-- A compiled submission is a list of checked blocks. -/
theorem submission_blocks {sub : Submission sn} (hcompiled : sub.Compiled)
    (hcovered : sub.Covered D) : ∃ blocks, sub.BlocksOf D blocks := by
  obtain ⟨-, hnonzero, hcanonical, state, hloop, -, hvalid, hactions, hpool⟩ := main_eq_ok hcompiled
  obtain ⟨blocks, hto⟩ := compile_blocks hnonzero hcanonical hcovered.compile hloop
  have hstart : ∀ t, (CompileState.start sub.base.pool).tokenBalances.credit t = 0 := fun _ => rfl
  refine ⟨blocks, hto.of, ?_, ?_, fun t => ?_, fun t before hbefore => ?_⟩
  · rw [← hpool]
    exact hto.checked
  · rw [← hactions, hto.actions]
    rfl
  · have hend := TokenBalances.credit_of_assertValid hvalid t
    rw [hto.credit t, hstart, zero_add] at hend
    exact hend
  · have hnonneg := hto.credit_nonneg t before hbefore
    rw [hstart, zero_add] at hnonneg
    exact hnonneg

/-- A submission as a run of the book. -/
structure Submission.Performed (D : Domain) (sub : Submission sn) (blocks : List Block)
    (moves : List Move) (world world' : World sn) : Prop where
  blocks_of : sub.BlocksOf D blocks
  performed : moves.filterMap Move.block? = blocks
  trace : Trace (Move.Step sn D) (book sn D world.pool) moves (book sn D world'.pool)
  named : NotesNamed sn D world'.pool.words
  frame : world'.pool = { world.pool with
    words := world'.pool.words, recipientChannels := world'.pool.recipientChannels }
  credit : ∀ t, (moves.map fun m => m.credit t).sum = 0
  balanced : (moves.flatMap Move.filled).length = (moves.flatMap Move.created).length
  log : ∃ tokens emitted ops,
    collectFee sn world.enter sub.tx = .ok { world.enter with tokens } ∧
    world'.events = world.events ++ emitted ∧ Logged sn moves emitted ops ∧
    Trace (TokenOp.Step sub.invocation) tokens ops world'.tokens

/-- An applied submission is a run of the book, on any later storage than the one
it was compiled on. -/
theorem submission_performed (hD : NoCollision sn D) {sub : Submission sn} {world world' : World sn}
    (hcompiled : sub.Compiled) (hcovered : sub.Covered D)
    (hheaded : Headed (view sn D sub.base.pool.words)) (hsound : Sound sn D world.pool)
    (hlater : Later (view sn D sub.base.pool.words) (view sn D world.pool.words))
    (happlies : sub.Applies world world') :
    ∃ blocks moves, sub.Performed D blocks moves world world' := by
  obtain ⟨blocks, hblocks⟩ := submission_blocks hcompiled hcovered
  obtain ⟨tokens, st, haccepted⟩ := applyActions_iff.mp happlies
  have happlied := haccepted.applied
  rw [hblocks.actions] at happlied
  have hsound' : Sound sn D (ApplyState.mk { world.enter with tokens } 0 none).world.pool :=
    ⟨hsound.wellFormed, hsound.named⟩
  obtain ⟨moves, hperforms, -, -⟩ := simulate_blocks hD hcovered.invocation hblocks.checked hheaded
    hsound' hlater happlied
  obtain ⟨emitted, ops, hevents, hlogged, hpaid⟩ := hperforms.simulated.log
  have hresult := haccepted.result
  subst hresult
  refine ⟨blocks, moves, hblocks, hperforms.performed, hperforms.simulated.trace,
    hperforms.simulated.named, ?_, fun t => ?_, ?_, tokens, emitted, ops, haccepted.fee, hevents,
    hlogged, hpaid⟩
  -- The blocks leave the guard as they find it.
  · have hframe := hperforms.simulated.frame
    have hunlocked := haccepted.unlocked
    simp only [guardEnd]
    rw [hframe]
    simp only [World.enter, ← hunlocked]
  · rw [hperforms.credit t, hblocks.credit t]
  · have hcount := hperforms.counted
    unfold Counted at hcount
    rw [haccepted.deposited] at hcount
    simpa using hcount

/-! ### Runs -/

/-- What holds of every state of a run. -/
structure Invariant (D : Domain) (world : World sn) : Prop where
  sound : Sound sn D world.pool
  filled : awaiting (view sn D world.pool.words) = ∅
  unlocked : world.pool.entered = false
  auditor : (sn.newFromX world.pool.auditorPublicKey).isSome

/-- The user data of the earlier state is kept in the later one. -/
structure Older (D : Domain) (earlier later : World sn) : Prop where
  ledger : Later (view sn D earlier.pool.words) (view sn D later.pool.words)
  channels : ∀ recipient,
    earlier.pool.recipientChannels recipient <+: later.pool.recipientChannels recipient

theorem Older.refl (D : Domain) (world : World sn) : Older D world world :=
  ⟨Later.refl _, fun _ => List.prefix_refl _⟩

theorem Older.trans {a b c : World sn} (h : Older D a b) (h' : Older D b c) : Older D a c :=
  ⟨h.ledger.trans h'.ledger, fun recipient => (h.channels recipient).trans (h'.channels recipient)⟩

/-- A run of the book leads to later data. -/
theorem older_of_trace {moves : List Move} {world world' : World sn}
    (trace : Trace (Move.Step sn D) (book sn D world.pool) moves (book sn D world'.pool)) :
    Older D world world' :=
  ⟨later_trace trace, fun recipient =>
    trace.climb (fun _ => True) (fun B B' => B.channels recipient <+: B'.channels recipient)
      (fun _ => List.prefix_refl _) List.IsPrefix.trans
      (fun _ _ _ _ h => ⟨trivial, Move.Step.channels_prefix h recipient⟩) trivial⟩

/-- A state whose user data is the same has the same invariant. -/
theorem Invariant.of_sameUserData {world world' : World sn} (h : Invariant D world)
    (same : SameUserData world world') : Invariant D world' ∧ Older D world world' := by
  have hbook : book sn D world'.pool = book sn D world.pool := by
    rw [book, same.words, same.recipientChannels, book]
  refine ⟨⟨⟨?_, ?_⟩, ?_, ?_, same.auditor h.auditor⟩, ⟨?_, fun recipient => ?_⟩⟩
  · rw [hbook]
    exact h.sound.wellFormed
  · rw [same.words]
    exact h.sound.named
  · rw [same.words]
    exact h.filled
  · rw [same.entered]
    exact h.unlocked
  · rw [same.words]
    exact Later.refl _
  · rw [same.recipientChannels]

theorem book_of_blank {pool : Pool} (hwords : pool.words = fun _ => 0)
    (hchannels : pool.recipientChannels = fun _ => []) : book sn D pool = Book.blank := by
  have hview : view sn D pool.words = fun _ => 0 := by
    funext s j
    rw [view, hwords]
    split_ifs <;> rfl
  rw [book, hview, hchannels]
  rfl

/-- The book of a deployed pool is blank. -/
theorem Deployed.book_eq (D : Domain) {world : World sn} (h : Deployed world) :
    book sn D world.pool = Book.blank := by
  obtain ⟨before, roles, auditorPublicKey, screenerPublicKey, blocks, hblank, hrun⟩ := h
  obtain ⟨hwords, hchannels, -, -⟩ := constructor_eq_ok hblank hrun
  exact book_of_blank hwords hchannels

/-- A deployed pool satisfies the invariant. -/
theorem Deployed.invariant {world : World sn} (h : Deployed world) : Invariant D world := by
  have hbook := h.book_eq D
  obtain ⟨before, roles, auditorPublicKey, screenerPublicKey, blocks, hblank, hrun⟩ := h
  obtain ⟨hwords, hchannels, hunlocked, hauditor⟩ := constructor_eq_ok hblank hrun
  have hview : view sn D world.pool.words = fun _ => 0 := congrArg Book.ledger hbook
  refine ⟨⟨?_, ?_⟩, ?_, hunlocked, hauditor⟩
  · rw [hbook]
    exact Book.blank_wellFormed sn D
  · intro key _ hused
    rw [hwords] at hused
    exact absurd rfl hused
  · rw [hview]
    refine Finset.filter_eq_empty_iff.mpr fun n _ hawaits => ?_
    exact openNotePackedValue_ne_zero hawaits.symm

/-- A submission keeps the invariant. -/
theorem Submission.Performed.invariant (hD : NoCollision sn D) {sub : Submission sn}
    {blocks : List Block} {moves : List Move} {world world' : World sn}
    (h : sub.Performed D blocks moves world world') (hworld : Invariant D world) :
    Invariant D world' := by
  refine ⟨⟨wellFormed_trace hD h.trace hworld.sound.wellFormed, h.named⟩, ?_, ?_, ?_⟩
  · -- As many open notes are filled as are created, and none waited before.
    have hcount := congrArg Multiset.card (awaiting_trace h.trace)
    rw [Multiset.card_add, Multiset.card_add, Multiset.coe_card, Multiset.coe_card,
      h.balanced] at hcount
    have hbefore : (awaiting (book sn D world.pool).ledger).val.card = 0 :=
      Finset.card_eq_zero.mpr hworld.filled
    exact Finset.card_eq_zero.mp (by
      change (awaiting (book sn D world'.pool).ledger).val.card = 0
      omega)
  · rw [h.frame]
    exact hworld.unlocked
  · rw [h.frame]
    exact hworld.auditor

/-- One step keeps the invariant and leads to later data. -/
theorem invariant_step (hD : NoCollision sn D) {visited : List (World sn)} {label : Label sn}
    {world world' : World sn} (hvisited : ∀ p ∈ visited, Invariant D p ∧ Older D p world)
    (hworld : Invariant D world) (h : PoolStep sn D visited label world world') :
    Invariant D world' ∧ Older D world world' := by
  cases label with
  | apply sub =>
    obtain ⟨hbase, hcompiled, hcovered, happlies⟩ := h
    obtain ⟨hinvariant, holder⟩ := hvisited _ hbase
    obtain ⟨blocks, moves, hperformed⟩ := submission_performed hD hcompiled hcovered
      hinvariant.sound.wellFormed.headed hworld.sound holder.ledger happlies
    exact ⟨hperformed.invariant hD hworld, older_of_trace hperformed.trace⟩
  | admin caller call => exact hworld.of_sameUserData (applyAdmin_sameUserData h)
  | environment =>
    have henvironment : EnvironmentStep world world' := h
    have hpool := henvironment.pool
    refine ⟨⟨⟨?_, ?_⟩, ?_, ?_, ?_⟩, ?_, fun recipient => ?_⟩ <;> rw [hpool]
    · exact hworld.sound.wellFormed
    · exact hworld.sound.named
    · exact hworld.filled
    · exact hworld.unlocked
    · exact hworld.auditor
    · exact Later.refl _

/-- **Invariant of runs.** Every state of a run satisfies the invariant, and its
user data is kept in the current state. -/
theorem run_invariant (hD : NoCollision sn D) {visited : List (World sn)} {labels : List (Label sn)}
    {world : World sn} (run : PoolRun sn D visited labels world) :
    ∀ p ∈ visited, Invariant D p ∧ Older D p world :=
  run.ordered (Invariant D) (Older D) (Older.refl D) Older.trans (fun _ h => Deployed.invariant h)
    fun _ _ _ _ hvisited hcurrent hstep => invariant_step hD hvisited (hvisited _ hcurrent).1 hstep

/-- The submission of a step is a run of the book. -/
theorem step_performed (hD : NoCollision sn D) {visited : List (World sn)}
    {labels : List (Label sn)} {world world' : World sn} (run : PoolRun sn D visited labels world)
    {sub : Submission sn} (h : PoolStep sn D visited (.apply sub) world world') :
    ∃ blocks moves, sub.Performed D blocks moves world world' := by
  obtain ⟨hbase, hcompiled, hcovered, happlies⟩ := h
  have hinvariant := run_invariant hD run
  obtain ⟨hbaseInvariant, holder⟩ := hinvariant _ hbase
  exact submission_performed hD hcompiled hcovered hbaseInvariant.sound.wellFormed.headed
    (hinvariant _ run.mem_visited).1.sound holder.ledger happlies

end PrivacyPool
