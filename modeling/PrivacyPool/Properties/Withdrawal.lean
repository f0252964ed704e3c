import Mathlib.Algebra.Order.BigOperators.Group.Finset
import PrivacyPool.Properties.Solvency

/-!
# Funds are never stuck

The owner of a note that has an amount and no nullifier can always take the
amount out: using the note and withdrawing it compiles, and the compiled list
applies to the state it was compiled on. Every check on the way holds by the
structure of the book, and the transfer out of the pool succeeds by solvency.

## Main definitions

* `Spendable` — an unspent note of a user with its amount

## Main results

* `main_withdraw` — using the note and withdrawing its amount compiles
* `funds_never_stuck` — the compiled list applies
-/

namespace PrivacyPool

open Fallible WriteOnce

variable {sn : Starknet} {D : Domain} {visited : List (World sn)} {labels : List (Label sn)}
  {world : World sn}

/-- The note has an amount and no nullifier, and lies in a channel whose recipient
is the user, registered with the canonical private key. -/
structure Spendable (sn : Starknet) (D : Domain) (pool : Pool) (n : NoteKey) (amount : U128)
    (userAddr : ContractAddress) (userPrivateKey : Felt) : Prop where
  stored : view sn D pool.words (.note n) 0 ≠ 0
  decoded : sn.decodeNoteAmount (pool.read sn .notes (n.id sn) 0) n.channelKey n.token n.index =
    .ok amount
  amount_ne : amount ≠ 0
  unspent : pool.read sn .nullifiers
    (sn.computeNullifier n.channelKey n.token n.index userPrivateKey) 0 = 0
  channel : ∃ c : Channel, c.key = n.channelKey ∧ c.recipientAddr = userAddr ∧
    view sn D pool.words (.channelExists c) 0 ≠ 0
  canonical : isCanonicalKey userPrivateKey
  registered : sn.derivePublicKey userPrivateKey =
    .ok (pool.read sn .publicKey (ContractAddress.toFelt userAddr) 0)

/-- What the checks on the way of a spendable note ask for. -/
structure Spendable.Checks (sn : Starknet) (D : Domain) (pool : Pool) (n : NoteKey)
    (userAddr : ContractAddress) (userPrivateKey publicKey : Felt) : Prop where
  user_ne : userAddr ≠ 0
  key_ne : userPrivateKey ≠ 0
  token_ne : n.token ≠ 0
  derived : sn.derivePublicKey userPrivateKey = .ok publicKey
  subchannel :
    view sn D pool.words (.subchannelExists ⟨n.channelKey, userAddr, publicKey, n.token⟩) 0 ≠ 0

/-- A spendable note passes the checks. -/
theorem Spendable.checks (hD : NoCollision sn D) (hkeys : PublicKeysDistinct sn) {pool : Pool}
    {n : NoteKey} {amount : U128} {userAddr : ContractAddress} {userPrivateKey : Felt}
    (h : Spendable sn D pool n amount userAddr userPrivateKey)
    (hB : WellFormed sn D (book sn D pool)) :
    ∃ publicKey, Spendable.Checks sn D pool n userAddr userPrivateKey publicKey := by
  obtain ⟨c, hkey, rfl, hc⟩ := h.channel
  obtain ⟨senderPrivateKey, hopened⟩ := hB.channels c hc
  have hread := hopened.read_publicKey
  have hderived := h.registered
  rw [hread] at hderived
  -- The note lies in a subchannel, and that in the channel with the note's key.
  obtain ⟨recipientAddr, recipientPublicKey, hsubchannel⟩ := hB.notes n h.stored
  obtain ⟨htoken, sender, hchannel⟩ := hB.subchannels _ hsubchannel
  obtain rfl := hB.channel_eq hD hc hchannel hkey
  -- The registered key is the user's own.
  obtain ⟨k, hnonzero, hcanonical, hk⟩ := hB.keys recipientAddr
    (by rw [hopened.recipient]; exact hopened.registered)
  rw [hopened.recipient] at hk
  obtain rfl := eq_of_derivePublicKey hkeys h.canonical hcanonical hderived hk
  exact ⟨recipientPublicKey, hopened.recipient_ne, hnonzero, htoken, hderived, hsubchannel⟩

/-- The owner's key is the only one a spendable note could be nullified with. -/
theorem Spendable.unspent_all (hD : NoCollision sn D) (hkeys : PublicKeysDistinct sn) {pool : Pool}
    {n : NoteKey} {amount : U128} {userAddr : ContractAddress} {userPrivateKey publicKey : Felt}
    (h : Spendable sn D pool n amount userAddr userPrivateKey)
    (hB : WellFormed sn D (book sn D pool))
    (hchecks : Spendable.Checks sn D pool n userAddr userPrivateKey publicKey) :
    Unspent (view sn D pool.words) n := by
  intro k
  by_contra hused
  obtain rfl := hB.nullifier_eq hD hkeys hused h.canonical hchecks.derived hchecks.subchannel
  have hslot : (Slot.nullifier n k).Covered D := covered_of_view hused
  exact hused ((read_eq hslot).symm.trans h.unspent)

/-! ### Compiling -/

theorem addBalance_nil (token : ContractAddress) (amount : U128) :
    (⟨[]⟩ : TokenBalances).addBalance token amount =
      .ok ⟨[(ContractAddress.toFelt token, amount)]⟩ := by
  have hsum : checkedAdd (0 : U128) amount = .ok amount := by
    rw [checkedAdd_eq_ok]
    exact (Nat.zero_add _).symm
  exact bind_eq_ok.mpr ⟨amount, hsum, rfl⟩

theorem subtractBalance_self (token : ContractAddress) (amount : U128) :
    (⟨[(ContractAddress.toFelt token, amount)]⟩ : TokenBalances).subtractBalance token amount =
      .ok ⟨[(ContractAddress.toFelt token, 0)]⟩ := by
  have hentry : (⟨[(ContractAddress.toFelt token, amount)]⟩ : TokenBalances).entry
      (ContractAddress.toFelt token) = amount := by
    simp [TokenBalances.entry]
  have hdiff : checkedSub amount amount = some 0 := by
    rw [checkedSub_eq_some]
    exact Nat.zero_add _
  refine bind_eq_ok.mpr ⟨0, ?_, ?_⟩
  · rw [hentry, hdiff]
    rfl
  · simp [TokenBalances.finalize]

/-- Encrypting an address to a valid auditor key succeeds. -/
theorem exists_encryptUserAddr (hcurve : PrimeOrder sn) {random auditorPublicKey : Felt}
    (hrandom : random.val % curveOrder ≠ 0) (hauditor : (sn.newFromX auditorPublicKey).isSome)
    (userAddr : ContractAddress) :
    ∃ enc, sn.encryptUserAddr random auditorPublicKey userAddr = .ok enc := by
  obtain ⟨point, hpoint⟩ := Option.isSome_iff_exists.mp hauditor
  obtain ⟨hephemeral, hshared⟩ := hcurve hrandom hpoint
  obtain ⟨ephemeral, hephemeral⟩ := Option.isSome_iff_exists.mp hephemeral
  obtain ⟨shared, hshared⟩ := Option.isSome_iff_exists.mp hshared
  simp only [Starknet.encryptUserAddr, Starknet.computeSharedX, bind_eq_ok, expect_eq_ok, pure_eq_ok]
  exact ⟨_, _, ⟨_, hephemeral, _, hpoint, _, hshared, rfl⟩, rfl⟩

/-- The client actions that take a note out of the pool. -/
def withdrawNote (n : NoteKey) (amount : U128) (toAddr : ContractAddress) (random : Felt) :
    List ClientAction :=
  [.useNote ⟨n.channelKey, n.token, n.index⟩, .withdraw ⟨toAddr, n.token, amount, random⟩]

/-- The server actions they compile to. -/
def withdrawNoteActions (sn : Starknet) (n : NoteKey) (amount : U128) (userPrivateKey : Felt)
    (toAddr : ContractAddress) (enc : EncUserAddr) : List ServerAction :=
  [toWriteOnceAction (Slot.address sn (.nullifier n userPrivateKey)) true,
    .emitNoteUsed ⟨(Slot.nullifier n userPrivateKey).key sn⟩,
    .transferTo ⟨toAddr, n.token, amount⟩, .emitWithdrawal ⟨enc, toAddr, n.token, amount⟩]

/-- The nullifier of a spendable note can be written. -/
theorem Spendable.applyWriteOnce {pool : Pool} {n : NoteKey} {amount : U128}
    {userAddr : ContractAddress} {userPrivateKey : Felt}
    (h : Spendable sn D pool n amount userAddr userPrivateKey) (value : Span Felt)
    (hvalue : value.1 = [1]) (pool' : Pool) (hwords : pool'.words = pool.words) :
    ∃ words, pool'.applyWriteOnce ⟨Slot.address sn (.nullifier n userPrivateKey), value⟩ =
      .ok { pool' with words } := by
  refine ⟨_, applyWriteOnce_eq_ok.mpr ⟨?_, ?_, ?_, rfl⟩⟩
  · rw [hvalue]
    decide
  · rw [hvalue]
    decide
  · rw [WriteOnceInput.cells, Slot.address, storageBaseAddress_entry, blank_wordsAt_iff]
    intro i hi
    dsimp only at hi
    rw [hvalue, List.length_singleton, Nat.lt_one_iff] at hi
    subst hi
    rw [hwords]
    exact h.unspent

/-- Using a spendable note compiles. -/
theorem Spendable.useNote {pool : Pool} {n : NoteKey} {amount : U128} {userAddr : ContractAddress}
    {userPrivateKey publicKey : Felt} (h : Spendable sn D pool n amount userAddr userPrivateKey)
    (hchecks : Spendable.Checks sn D pool n userAddr userPrivateKey publicKey) :
    PrivacyPool.useNote sn pool userAddr userPrivateKey ⟨n.channelKey, n.token, n.index⟩ ⟨[]⟩ =
      .ok ([toWriteOnceAction (Slot.address sn (.nullifier n userPrivateKey)) true,
        .emitNoteUsed ⟨(Slot.nullifier n userPrivateKey).key sn⟩],
        ⟨[(ContractAddress.toFelt n.token, amount)]⟩) := by
  have hsubchannel : pool.read sn .subchannelExists
      (sn.computeSubchannelMarker n.channelKey userAddr publicKey n.token) 0 ≠ 0 := by
    have hslot := covered_of_view hchecks.subchannel
    exact fun hzero => hchecks.subchannel ((read_eq hslot).symm.trans hzero)
  have hnote : pool.read sn .notes (sn.computeNoteId n.channelKey n.token n.index) 0 ≠ 0 := by
    have hslot := covered_of_view h.stored
    exact fun hzero => h.stored ((read_eq hslot).symm.trans hzero)
  simp only [PrivacyPool.useNote, UseNoteInput.assertValid, bind_eq_ok, require_eq_ok,
    exists_and_left, exists_const, pure_eq_ok]
  exact ⟨hchecks.token_ne, publicKey, hchecks.derived, hsubchannel, hnote, amount, h.decoded,
    h.amount_ne, _, addBalance_nil n.token amount, rfl⟩

/-- Using a spendable note compiles to its nullifier, and leaves the amount as the balance. -/
theorem compileStep_useNote {pool : Pool} {n : NoteKey} {amount : U128} {userAddr : ContractAddress}
    {userPrivateKey publicKey : Felt} (h : Spendable sn D pool n amount userAddr userPrivateKey)
    (hchecks : Spendable.Checks sn D pool n userAddr userPrivateKey publicKey)
    (call : CallContract) :
    ∃ words, compileStep sn call userAddr userPrivateKey (CompileState.start pool)
      (.useNote ⟨n.channelKey, n.token, n.index⟩) = .ok
      { pool := { pool with words }
        serverActions := [toWriteOnceAction (Slot.address sn (.nullifier n userPrivateKey)) true,
          .emitNoteUsed ⟨(Slot.nullifier n userPrivateKey).key sn⟩]
        currPhase := 4
        tokenBalances := ⟨[(ContractAddress.toFelt n.token, amount)]⟩
        hasReplayProtection := true } := by
  obtain ⟨words, hwrite⟩ := h.applyWriteOnce ⟨serialize true, by decide⟩ rfl pool rfl
  have hsimulated : clientApplyActions pool false
      [toWriteOnceAction (Slot.address sn (.nullifier n userPrivateKey)) true,
        .emitNoteUsed ⟨(Slot.nullifier n userPrivateKey).key sn⟩] =
      .ok ({ pool with words }, true) :=
    foldlM_cons_eq_ok.mpr ⟨_, bind_eq_ok.mpr ⟨_, hwrite, rfl⟩, rfl⟩
  exact ⟨words, bind_eq_ok.mpr ⟨4, rfl, bind_eq_ok.mpr ⟨_, h.useNote hchecks,
    bind_eq_ok.mpr ⟨_, hsimulated, rfl⟩⟩⟩⟩

/-- Withdrawing the whole balance of a token compiles to a transfer and its event. -/
theorem withdraw_all (hcurve : PrimeOrder sn) {pool : Pool} {token : ContractAddress}
    {amount : U128} {userAddr toAddr : ContractAddress} {random : Felt} (htoken : token ≠ 0)
    (hamount : amount ≠ 0) (hauditor : (sn.newFromX pool.auditorPublicKey).isSome)
    (hto : toAddr ≠ 0) (hrandom : random.val % curveOrder ≠ 0) :
    ∃ enc, withdraw sn pool userAddr ⟨toAddr, token, amount, random⟩
        ⟨[(ContractAddress.toFelt token, amount)]⟩ =
      .ok ([.transferTo ⟨toAddr, token, amount⟩, .emitWithdrawal ⟨enc, toAddr, token, amount⟩],
        ⟨[(ContractAddress.toFelt token, 0)]⟩) := by
  obtain ⟨enc, henc⟩ := exists_encryptUserAddr hcurve hrandom hauditor userAddr
  have hrandom_ne : random ≠ 0 := by
    rintro rfl
    exact hrandom (Nat.zero_mod _)
  refine ⟨enc, ?_⟩
  simp only [withdraw, WithdrawInput.assertValid, bind_eq_ok, require_eq_ok, exists_and_left,
    exists_const, pure_eq_ok]
  exact ⟨⟨hto, htoken, hamount, hrandom_ne⟩, _, subtractBalance_self token amount, enc, henc, rfl⟩

/-- Using a spendable note and withdrawing its amount compiles. -/
theorem main_withdraw (hcurve : PrimeOrder sn) {pool : Pool} {n : NoteKey} {amount : U128}
    {userAddr toAddr : ContractAddress} {userPrivateKey publicKey random : Felt}
    (h : Spendable sn D pool n amount userAddr userPrivateKey)
    (hchecks : Spendable.Checks sn D pool n userAddr userPrivateKey publicKey)
    (hauditor : (sn.newFromX pool.auditorPublicKey).isSome) (hto : toAddr ≠ 0)
    (hrandom : random.val % curveOrder ≠ 0) (call : CallContract) :
    ∃ enc simulated, main sn call pool userAddr userPrivateKey
        (withdrawNote n amount toAddr random) =
      .ok (withdrawNoteActions sn n amount userPrivateKey toAddr enc, simulated) := by
  obtain ⟨words, hfirst⟩ := compileStep_useNote h hchecks call
  obtain ⟨enc, hwithdraw⟩ := withdraw_all hcurve hchecks.token_ne h.amount_ne
    (show (sn.newFromX ({ pool with words } : Pool).auditorPublicKey).isSome from hauditor) hto hrandom
  have hvalid : (⟨[(ContractAddress.toFelt n.token, 0)]⟩ : TokenBalances).assertValid = .ok () :=
    TokenBalances.assertValid_eq_ok.mpr fun e he => congrArg Prod.snd (List.mem_singleton.mp he)
  refine ⟨enc, { pool with words }, ?_⟩
  simp only [main, bind_eq_ok, require_eq_ok, exists_and_left, exists_const, pure_eq_ok]
  exact ⟨hchecks.user_ne, hchecks.key_ne, h.canonical, _, foldlM_cons_eq_ok.mpr ⟨_, hfirst,
    foldlM_cons_eq_ok.mpr ⟨_, bind_eq_ok.mpr ⟨6, rfl, bind_eq_ok.mpr ⟨_, hwithdraw,
      bind_eq_ok.mpr ⟨_, rfl, rfl⟩⟩⟩, rfl⟩⟩, rfl, (), hvalid, rfl⟩

/-! ### Applying -/

/-- The pool holds the amount of a spendable note. -/
theorem Spendable.amount_le_held (hD : NoCollision sn D) (hexact : ExactTransfers sn)
    (hkeys : PublicKeysDistinct sn) (run : PoolRun sn D visited labels world) {n : NoteKey}
    {amount : U128} {userAddr : ContractAddress} {userPrivateKey publicKey : Felt}
    (h : Spendable sn D world.pool n amount userAddr userPrivateKey)
    (hchecks : Spendable.Checks sn D world.pool n userAddr userPrivateKey publicKey) :
    amount.val ≤ world.held n.token := by
  have hB := (run_invariant hD run _ run.mem_visited).1.sound.wellFormed
  have hunspent := h.unspent_all hD hkeys hB hchecks
  have hvalue : owed sn (view sn D world.pool.words) n = amount.val := by
    rw [owed_of_unspent hunspent, noteValue_of_ok]
    rw [view_head (covered_of_view h.stored)]
    exact h.decoded
  calc amount.val = owed sn (view sn D world.pool.words) n := hvalue.symm
    _ ≤ debt sn (view sn D world.pool.words) n.token :=
        Finset.single_le_sum (fun _ _ => Nat.zero_le _) (Finset.mem_filter.mpr ⟨Finset.mem_univ n, rfl⟩)
    _ ≤ world.held n.token := run_solvent hD hexact hkeys run n.token

/-- **Funds are never stuck.** In every reachable state that is not paused, the
owner of an unspent note with an amount can use it and withdraw its amount to any
address: the list compiles, and what it compiles to applies to that state, with a
valid proof and the fee paid. -/
theorem funds_never_stuck (hD : NoCollision sn D) (hexact : ExactTransfers sn)
    (hkeys : PublicKeysDistinct sn) (hcurve : PrimeOrder sn)
    (run : PoolRun sn D visited labels world) (hunpaused : world.pool.paused = false)
    {n : NoteKey} {amount : U128} {userAddr toAddr : ContractAddress}
    {userPrivateKey random : Felt} (call : CallContract)
    (h : Spendable sn D world.pool n amount userAddr userPrivateKey) (hto : toAddr ≠ 0)
    (hrandom : random.val % curveOrder ≠ 0) :
    ∃ (actions : Span ServerAction) (simulated : Pool),
      main sn call world.pool userAddr userPrivateKey (withdrawNote n amount toAddr random) =
        .ok (actions.1, simulated) ∧
      ∀ (invocation : Invocation sn) (tx : TxInfo) (paid : World sn),
        validateProof sn world.enter tx actions = .ok () →
        collectFee sn world.enter tx = .ok paid →
        ∃ world', applyActions sn invocation tx world actions none = .ok world' := by
  have hinvariant := (run_invariant hD run _ run.mem_visited).1
  obtain ⟨publicKey, hchecks⟩ := h.checks hD hkeys hinvariant.sound.wellFormed
  obtain ⟨enc, simulated, hmain⟩ :=
    main_withdraw hcurve h hchecks hinvariant.auditor hto hrandom call
  refine ⟨⟨withdrawNoteActions sn n amount userPrivateKey toAddr enc, show 4 < 2 ^ 32 by decide⟩,
    simulated, hmain, fun invocation tx paid hproof hfee => ?_⟩
  -- The fee is not taken from the pool, so the pool still holds the amount.
  have hpaid := collectFee_eq_ok hfee
  have hfeeHeld := held_le_of_collectFee hexact hfee n.token
  have hheld : amount.val ≤ sn.balanceOf paid.tokens n.token sn.contractAddress :=
    (h.amount_le_held hD hexact hkeys run hchecks).trans hfeeHeld
  obtain ⟨tokens, htransfer⟩ :=
    Option.isSome_iff_exists.mp (hexact.transfer_succeeds hto hheld)
  obtain ⟨words, hwrite⟩ := h.applyWriteOnce ⟨serialize true, by decide⟩ rfl paid.pool
    (by rw [hpaid]; rfl)
  rw [hpaid] at hfee
  -- Each action of the list applies: the nullifier is fresh, and the transfer is covered.
  have happlied : (withdrawNoteActions sn n amount userPrivateKey toAddr enc).foldlM
      (applyAction sn invocation) ⟨{ world.enter with tokens := paid.tokens }, 0, none⟩ =
      .ok ⟨{ pool := { paid.pool with words }, tokens
             events := world.events ++ [.noteUsed ⟨(Slot.nullifier n userPrivateKey).key sn⟩,
               .withdrawal ⟨enc, toAddr, n.token, amount⟩]
             blockNumber := world.blockNumber
             blockTimestamp := world.blockTimestamp }, 0, none⟩ := by
    rw [hpaid] at hwrite
    have hnullified : applyAction sn invocation ⟨{ world.enter with tokens := paid.tokens }, 0, none⟩
        (toWriteOnceAction (Slot.address sn (.nullifier n userPrivateKey)) true) = .ok
        ⟨{ world.enter with pool := { paid.pool with words }, tokens := paid.tokens }, 0, none⟩ := by
      rw [hpaid]
      exact bind_eq_ok.mpr ⟨_, hwrite, rfl⟩
    simp only [withdrawNoteActions, foldlM_cons_eq_ok, foldlM_nil_eq_ok]
    refine ⟨_, hnullified, _, rfl, _, bind_eq_ok.mpr ⟨_, bind_eq_ok.mpr ⟨tokens, ?_, rfl⟩, rfl⟩, _,
      rfl, ?_⟩
    · exact transferred_eq_ok.mpr htransfer
    · simp [World.emit, World.enter]
  exact ⟨_, applyActions_iff.mpr ⟨paid.tokens, _, hinvariant.unlocked, hunpaused, hproof, hfee,
    happlied, rfl, rfl, rfl⟩⟩

theorem funds_never_stuck_sample : ∃ (actions : Span ServerAction) (simulated : Pool),
    main Starknet.sample (fun _ _ _ => .error []) Sample.spent.pool 5 3
      (withdrawNote ⟨1, 77, 1⟩ 40 9 9) = .ok (actions.1, simulated) ∧
    ∀ (invocation : Invocation Starknet.sample) (tx : TxInfo) (paid : World Starknet.sample),
      validateProof Starknet.sample Sample.spent.enter tx actions = .ok () →
      collectFee Starknet.sample Sample.spent.enter tx = .ok paid →
      ∃ world', applyActions Starknet.sample invocation tx Sample.spent actions none =
        .ok world' := by
  have hnote : (Slot.note ⟨1, 77, 1⟩).Covered Domain.sample :=
    show noteIdSpan 1 77 1 ∈ sampleSpans by decide +kernel
  have hchannel : (Slot.channelExists ⟨1, 5, 5, 3⟩).Covered Domain.sample :=
    show channelMarkerSpan 1 5 5 3 ∈ sampleSpans by decide +kernel
  refine funds_never_stuck sample_noCollision Starknet.sample_exactTransfers
    Starknet.sample_publicKeysDistinct Starknet.sample_primeOrder Sample.run (by decide +kernel) _
    ?_ (by decide +kernel) (by decide +kernel)
  exact
    { stored := used_of_read hnote (by decide +kernel)
      decoded := by decide +kernel
      amount_ne := by decide +kernel
      unspent := by decide +kernel
      channel := ⟨⟨1, 5, 5, 3⟩, rfl, rfl, used_of_read hchannel (by decide +kernel)⟩
      canonical := by decide +kernel
      registered := by decide +kernel }

end PrivacyPool
