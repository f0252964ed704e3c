import PrivacyPool.Refinement.Invariant

/-!
# Who spends a note, and how often

A note is used at most once, since using it sets its nullifier and a note has one
nullifier: the key it is derived from is the canonical key of the owner of the
note's channel. The owner is fixed by the channel key, which hashes the recipient
and its public key, so nobody else has a use of the note accepted.

## Main definitions

* `Label.usedNotes` — the notes that the submission of a step uses
* `AcceptsUse` — `main` accepts a list that uses a note
* `Opens` — a client action opens a channel

## Main results

* `no_double_spend` — a run uses no note twice
* `spend_authority` — only the recipient of a channel spends its notes
-/

namespace PrivacyPool

open Fallible WriteOnce

variable {sn : Starknet} {D : Domain} {visited : List (World sn)} {labels : List (Label sn)}
  {world world' : World sn} {B B' : Book}

/-! ### Double spending -/

/-- The note a client action uses. -/
def ClientAction.usedNote : ClientAction → Option NoteKey
  | .useNote input => some ⟨input.channelKey, input.token, input.index⟩
  | .setViewingKey _ | .openChannel _ | .openSubchannel _ | .deposit _ | .createEncNote _
  | .createOpenNote _ | .withdraw _ | .invokeExternal _ | .computeAndInvoke _ => none

/-- The notes that the submission of a step uses. -/
def Label.usedNotes : Label sn → List NoteKey
  | .apply sub => sub.clientActions.filterMap ClientAction.usedNote
  | .admin _ _ | .environment => []

/-- The note a block uses. -/
def Block.usedNote : Block → Option NoteKey
  | .useNote _ _ _ note _ => some note
  | .setViewingKey _ _ _ _ | .openChannel _ _ _ _ _ | .openSubchannel _ _ _ _
  | .createEncNote _ _ _ _ | .createOpenNote _ _ | .deposit _ _ _ | .withdraw _ _ _ _ | .invoke _
  | .invokeWithComputation _ => none

/-- The note a move uses. -/
def Move.used (m : Move) : List NoteKey := (m.block?.bind Block.usedNote).toList

theorem flatMap_used (moves : List Move) :
    moves.flatMap Move.used = (moves.filterMap Move.block?).filterMap Block.usedNote := by
  rw [List.filterMap_filterMap, List.filterMap_eq_flatMap_toList]
  rfl

/-- The blocks of a compiled list use the notes that its client actions name. -/
theorem usedNotes_of_blocks {userAddr : ContractAddress} {userPrivateKey : Felt}
    {clientActions : List ClientAction} {blocks : List Block}
    (h : List.Forall₂ (Block.Of userAddr userPrivateKey) clientActions blocks) :
    blocks.filterMap Block.usedNote = clientActions.filterMap ClientAction.usedNote := by
  induction h with
  | nil => rfl
  | cons hof _ ih =>
    rw [List.filterMap_cons, List.filterMap_cons, ih]
    cases hof <;> rfl

/-- A note that is spent stays spent. -/
theorem Later.spent {L L' : Ledger} (h : Later L L') {n : NoteKey} (hn : ¬ Unspent L n) :
    ¬ Unspent L' n := by
  intro hunspent
  refine hn fun k => ?_
  by_contra hused
  exact h.head_ne_zero hused (hunspent k)

/-- A run of the book uses notes that are unspent before, and none twice. -/
theorem used_marks (hD : NoCollision sn D) (hkeys : PublicKeysDistinct sn) {moves : List Move}
    (trace : Trace (Move.Step sn D) B moves B') (hB : WellFormed sn D B) :
    Marks (fun (B : Book) n => ¬ Unspent B.ledger n) B (moves.flatMap Move.used) B' := by
  refine trace.marks (WellFormed sn D) _ _ (fun m B B' hB h => ⟨h.wellFormed hD hB, ?_⟩) hB
  have hkept : ∀ n, ¬ Unspent B.ledger n → ¬ Unspent B'.ledger n := fun n => h.later.spent
  cases m with
  | fill _ _ => exact Marks.nil hkept
  | block b =>
    have happlies : b.Applies sn D B B' := h
    cases b with
    | useNote owner privateKey publicKey note amount =>
      have hfresh := congrFun (happlies.fresh _ (List.mem_singleton_self _)).1 0
      refine Marks.singleton (fun hspent => hspent ?_) (fun hunspent => ?_) hkept
      · exact hB.unspent_of_fresh hD hkeys happlies.enabled hfresh
      · -- The nullifier of the note is set now.
        have hset := hunspent privateKey
        rw [happlies.ledger, Block.write_of_mem (List.mem_singleton_self _)] at hset
        exact absurd hset (by decide)
    | _ => exact Marks.nil hkept

/-- A step uses notes that are unspent before, and none twice. -/
theorem step_usedNotes (hD : NoCollision sn D) (hkeys : PublicKeysDistinct sn)
    (run : PoolRun sn D visited labels world) {label : Label sn}
    (h : PoolStep sn D visited label world world') :
    Marks (fun (w : World sn) n => ¬ Unspent (view sn D w.pool.words) n) world label.usedNotes
      world' := by
  have hvisited := run_invariant hD run
  have hworld := (hvisited _ run.mem_visited).1
  have hkept := fun n => (invariant_step hD hvisited hworld h).2.ledger.spent (n := n)
  cases label with
  | apply sub =>
    obtain ⟨blocks, moves, hperformed⟩ := step_performed hD run h
    have hmarks := used_marks hD hkeys hperformed.trace hworld.sound.wellFormed
    rw [flatMap_used, hperformed.performed, usedNotes_of_blocks hperformed.blocks_of.of] at hmarks
    exact ⟨hmarks.nodup, hmarks.fresh, hmarks.after, hkept⟩
  | admin caller call => exact Marks.nil hkept
  | environment => exact Marks.nil hkept

/-- **No double spend.** Over a whole run, whatever lists were compiled on
whatever earlier states and by whom, no note is used twice. -/
theorem no_double_spend (hD : NoCollision sn D) (hkeys : PublicKeysDistinct sn)
    (run : PoolRun sn D visited labels world) : (labels.flatMap Label.usedNotes).Nodup :=
  (run.marks _ Label.usedNotes fun _ _ _ _ _ run h => step_usedNotes hD hkeys run h).1

theorem no_double_spend_sample :
    ([Label.apply Sample.spending, .apply Sample.funding].flatMap Label.usedNotes).Nodup :=
  no_double_spend sample_noCollision Starknet.sample_publicKeysDistinct Sample.run

/-! ### Spend authority -/

/-- Compiled for the user, the client action opens the channel. -/
def Opens (sn : Starknet) (c : Channel) (userAddr : ContractAddress) (userPrivateKey : Felt)
    (action : ClientAction) : Prop :=
  ∃ input : OpenChannelInput, action = .openChannel input ∧ userAddr = c.senderAddr ∧
    input.recipientAddr = c.recipientAddr ∧
    c.key = sn.computeChannelKey userAddr userPrivateKey c.recipientAddr c.recipientPublicKey

/-- `main` accepts a list of the user in which the note is used after the actions
`before`. -/
def AcceptsUse (sn : Starknet) (D : Domain) (pool : Pool) (userAddr : ContractAddress)
    (userPrivateKey : Felt) (before : List ClientAction) (input : UseNoteInput)
    (simulated : Pool) : Prop :=
  ∃ call after actions,
    main sn call pool userAddr userPrivateKey (before ++ .useNote input :: after) =
      .ok (actions, simulated) ∧
    CompileCovered sn D call userAddr userPrivateKey (CompileState.start pool)
      (before ++ .useNote input :: after)

/-- A channel that is open after a run of the book was open before it, or was
opened by a client action of the run. -/
theorem opened_trace {userAddr : ContractAddress} {userPrivateKey : Felt}
    {clientActions : List ClientAction} {blocks : List Block} {moves : List Move}
    (hof : List.Forall₂ (Block.Of userAddr userPrivateKey) clientActions blocks)
    (hblocks : ∀ b, .block b ∈ moves → b ∈ blocks)
    (trace : Trace (Move.Step sn D) B moves B') {c : Channel}
    (hc : B'.ledger (.channelExists c) 0 ≠ 0) :
    B.ledger (.channelExists c) 0 ≠ 0 ∨
      ∃ action ∈ clientActions, Opens sn c userAddr userPrivateKey action := by
  rcases used_trace trace hc with hold | ⟨b, value, B₁, B₂, hb, hmem, happlies⟩
  · exact Or.inl hold
  · right
    obtain ⟨action, haction, hblock⟩ := mem_forall₂_left hof.flip (hblocks b hb)
    cases happlies.enabled with
    | openChannel hsender hauthenticated hnonzero hrecipient hregistered hprevious hkey hcovered
        hinfo =>
      simp only [Block.puts, List.mem_cons, Prod.mk.injEq, Slot.channelExists.injEq, reduceCtorEq,
        false_and, List.not_mem_nil, or_false] at hmem
      obtain ⟨rfl, -⟩ := hmem
      cases hblock with
      | openChannel => exact ⟨_, haction, _, rfl, rfl, rfl, hkey⟩
    | _ => simp [Block.puts] at hmem

/-- A channel that is open was opened by an applied submission. -/
theorem run_channel_opened (hD : NoCollision sn D) (run : PoolRun sn D visited labels world)
    {c : Channel} (hc : view sn D world.pool.words (.channelExists c) 0 ≠ 0) :
    ∃ sub, .apply sub ∈ labels ∧
      ∃ action ∈ sub.clientActions, Opens sn c sub.userAddr sub.userPrivateKey action := by
  induction run with
  | start h =>
    have hview := congrArg Book.ledger (Deployed.book_eq D h)
    exact absurd (congrFun (congrFun hview _) 0) hc
  | step run hstep ih =>
    rename_i visited labels label current next
    -- The channel was open before the step, or the step is a submission that opens it.
    suffices hcases : view sn D current.pool.words (.channelExists c) 0 ≠ 0 ∨
        ∃ sub, label = .apply sub ∧
          ∃ action ∈ sub.clientActions, Opens sn c sub.userAddr sub.userPrivateKey action by
      rcases hcases with hold | ⟨sub, rfl, hopens⟩
      · obtain ⟨sub, hsub, hopens⟩ := ih hold
        exact ⟨sub, List.mem_cons_of_mem _ hsub, hopens⟩
      · exact ⟨sub, List.mem_cons_self, hopens⟩
    cases label with
    | apply sub =>
      obtain ⟨blocks, moves, hperformed⟩ := step_performed hD run hstep
      refine (opened_trace hperformed.blocks_of.of (fun b hb => ?_) hperformed.trace hc).imp_right
        fun hopens => ⟨sub, rfl, hopens⟩
      rw [← hperformed.performed]
      exact List.mem_filterMap.mpr ⟨_, hb, rfl⟩
    | admin caller call =>
      rw [(applyAdmin_sameUserData hstep).words] at hc
      exact Or.inl hc
    | environment =>
      have henvironment : EnvironmentStep current next := hstep
      rw [henvironment.pool] at hc
      exact Or.inl hc

/-- A channel stays opened. -/
theorem OpenedWith.trace {moves : List Move} (h : Trace (Move.Step sn D) B moves B') {c : Channel}
    {k : Felt} (hopened : OpenedWith sn D B.ledger c k) : OpenedWith sn D B'.ledger c k :=
  h.invariant (fun B => OpenedWith sn D B.ledger c k) (fun _ _ _ hs hstep => hs.step hstep) hopened

/-- A list that uses a note is compiled through a book in which the user's channel
is open: open from the start, or opened earlier in the list. -/
theorem AcceptsUse.channel (hD : NoCollision sn D) {pool simulated : Pool}
    {userAddr : ContractAddress} {userPrivateKey : Felt} {before : List ClientAction}
    {input : UseNoteInput}
    (h : AcceptsUse sn D pool userAddr userPrivateKey before input simulated)
    (hB : WellFormed sn D (book sn D pool)) :
    ∃ c publicKey senderPrivateKey, c.key = input.channelKey ∧ c.recipientAddr = userAddr ∧
      c.recipientPublicKey = publicKey ∧ isCanonicalKey userPrivateKey ∧
      sn.derivePublicKey userPrivateKey = .ok publicKey ∧
      OpenedWith sn D (view sn D simulated.words) c senderPrivateKey ∧
      (view sn D pool.words (.channelExists c) 0 ≠ 0 ∨
        ∃ action ∈ before, Opens sn c userAddr userPrivateKey action) := by
  obtain ⟨call, after, actions, hmain, hcovered⟩ := h
  obtain ⟨-, hnonzero, hcanonical, state, hloop, -, -, -, rfl⟩ := main_eq_ok hmain
  obtain ⟨blocks, hto⟩ := compile_blocks hnonzero hcanonical hcovered hloop
  -- Split the blocks at the use of the note.
  have hfirst := List.forall₂_take before.length hto.of
  have hrest := List.forall₂_drop before.length hto.of
  rw [List.take_left] at hfirst
  rw [List.drop_left] at hrest
  have htrace := checked_trace hD hto.checked hB.headed
  have hchecked := hto.checked
  rw [← List.take_append_drop before.length blocks] at htrace hchecked
  generalize blocks.take before.length = first at hfirst htrace hchecked
  generalize blocks.drop before.length = rest at hrest htrace hchecked
  cases hrest with
  | cons huse hafter =>
    rename_i b rest
    rw [List.map_append, List.map_cons] at htrace
    obtain ⟨middle, hbefore, hlast⟩ := htrace.split
    have hmiddle := wellFormed_trace hD hbefore hB
    cases huse with
    | useNote =>
      rename_i publicKey amount
      cases hlast with
      | cons hblock hlast =>
        have happlies : Block.Applies sn D _ middle _ := hblock
        cases happlies.enabled with
        | useNote _ hderived hsubchannel hnote hdecoded hamount =>
          -- The note lies in a subchannel, whose channel was opened.
          obtain ⟨-, sender, hchannel⟩ := hmiddle.subchannels _ hsubchannel
          obtain ⟨senderPrivateKey, hopened⟩ := hmiddle.channels _ hchannel
          refine ⟨_, publicKey, senderPrivateKey, rfl, rfl, rfl, hcanonical, hderived, ?_,
            opened_trace hfirst (by simp) hbefore hchannel⟩
          exact hopened.trace (.cons hblock hlast)

/-- **Spend authority.** When `main` accepts the use of a note, its channel was
opened with the user as recipient and the user's registered public key, by an
applied submission or earlier in the same list. And whatever list is compiled on
whatever state of a run, the notes of an open channel are only used by its
recipient, with the one canonical key of the registered public key. -/
theorem spend_authority (hD : NoCollision sn D) (hkeys : PublicKeysDistinct sn)
    (run : PoolRun sn D visited labels world) :
    (∀ userAddr userPrivateKey before input simulated,
      AcceptsUse sn D world.pool userAddr userPrivateKey before input simulated →
      ∃ c : Channel, c.key = input.channelKey ∧ c.recipientAddr = userAddr ∧
        sn.derivePublicKey userPrivateKey = .ok c.recipientPublicKey ∧
        c.recipientPublicKey ≠ 0 ∧
        simulated.read sn .publicKey (ContractAddress.toFelt userAddr) 0 =
          c.recipientPublicKey ∧
        ((∃ sub, .apply sub ∈ labels ∧ ∃ action ∈ sub.clientActions,
            Opens sn c sub.userAddr sub.userPrivateKey action) ∨
          ∃ action ∈ before, Opens sn c userAddr userPrivateKey action)) ∧
    (∀ base ∈ visited, ∀ userAddr userPrivateKey before input simulated,
      AcceptsUse sn D base.pool userAddr userPrivateKey before input simulated →
      ∀ c : Channel, c.key = input.channelKey →
        view sn D world.pool.words (.channelExists c) 0 ≠ 0 →
        userAddr = c.recipientAddr ∧
        world.pool.read sn .publicKey (ContractAddress.toFelt userAddr) 0 =
          c.recipientPublicKey ∧
        isCanonicalKey userPrivateKey ∧
        sn.derivePublicKey userPrivateKey = .ok c.recipientPublicKey ∧
        ∀ k, isCanonicalKey k → sn.derivePublicKey k = .ok c.recipientPublicKey →
          k = userPrivateKey) := by
  have hinvariant := run_invariant hD run
  have hworld := (hinvariant _ run.mem_visited).1.sound.wellFormed
  refine ⟨fun userAddr userPrivateKey before input simulated haccepts => ?_,
    fun base hbase userAddr userPrivateKey before input simulated haccepts c hkey hc => ?_⟩
  · obtain ⟨c, publicKey, senderPrivateKey, hkey, hrecipient, hpublic, -, hderived, hopened,
      hhistory⟩ := haccepts.channel hD hworld
    subst hrecipient hpublic
    refine ⟨c, hkey, rfl, hderived, hopened.registered, hopened.read_publicKey, ?_⟩
    exact hhistory.imp_left (run_channel_opened hD run)
  · obtain ⟨c', publicKey, senderPrivateKey, hkey', hrecipient, hpublic, hcanonical, hderived,
      hopened, -⟩ := haccepts.channel hD (hinvariant _ hbase).1.sound.wellFormed
    -- The key of a channel in play has one channel, and its public key one canonical key.
    obtain ⟨k, hopened'⟩ := hworld.channels c hc
    obtain rfl := channel_eq_of_opened hD hopened hopened' (hkey'.trans hkey.symm)
    subst hrecipient hpublic
    exact ⟨rfl, hopened'.read_publicKey, hcanonical, hderived,
      fun k' hk' hderived' => eq_of_derivePublicKey hkeys hk' hcanonical hderived' hderived⟩

theorem spend_authority_sample :
    ∃ c : Channel, c.key = 1 ∧ c.recipientAddr = 5 ∧ c.recipientPublicKey = 3 := by
  have haccepts : AcceptsUse Starknet.sample Domain.sample Sample.spent.pool 5 3 [] ⟨1, 77, 1⟩
      (valueOr ([], Sample.spent.pool) (main Starknet.sample (fun _ _ _ => .error [])
        Sample.spent.pool 5 3 [.useNote ⟨1, 77, 1⟩, .withdraw ⟨9, 77, 40, 9⟩])).2 :=
    ⟨fun _ _ _ => .error [], [.withdraw ⟨9, 77, 40, 9⟩], _,
      eq_ok_valueOr ([], Sample.spent.pool) (by decide +kernel), by decide +kernel⟩
  obtain ⟨c, hkey, hrecipient, hderived, -⟩ := (spend_authority sample_noCollision
    Starknet.sample_publicKeysDistinct Sample.run).1 5 3 [] ⟨1, 77, 1⟩ _ haccepts
  have hpublic : Starknet.sample.derivePublicKey 3 = .ok 3 := by decide +kernel
  exact ⟨c, hkey, hrecipient, Except.ok.inj (hderived.symm.trans hpublic)⟩

end PrivacyPool
