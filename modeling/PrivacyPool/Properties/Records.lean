import Mathlib.Data.Fin.Basic
import PrivacyPool.Refinement.Invariant

/-!
# What is stored, and that it stays

The records of the pool form the tree that discovery walks: channels of a sender,
subchannels of a channel and notes of a subchannel are numbered from zero without
gaps, and every object lies in the one above it. A record that has been written
is kept word by word, between any two transactions and between any two server
actions of a transaction. The exception is an open note, whose packed value is
replaced once when the note receives its amount.

## Main definitions

* `Kept` — the written records of one storage are kept in another
* `ServerAction.Placed` — a write covers the record of one slot in play

## Main results

* `pool_structure` — the structure of the records, in every reachable state
* `storage_write_once` — written records are kept
-/

namespace PrivacyPool

open Fallible WriteOnce

variable {sn : Starknet} {D : Domain} {visited : List (World sn)} {labels : List (Label sn)}
  {world world' : World sn}

/-! ### Structure -/

theorem Contiguous.used_of_le {L : Ledger} {slot : Usize → Slot} (h : Contiguous L slot)
    {i j : Usize} (hij : i ≤ j) (hj : L (slot j) 0 ≠ 0) : L (slot i) 0 ≠ 0 := by
  obtain ⟨d, hd⟩ := Nat.exists_eq_add_of_le hij
  induction d generalizing j with
  | zero =>
    obtain rfl : j = i := Fin.ext hd
    exact hj
  | succ d ih =>
    have hne : j ≠ 0 := by
      rintro rfl
      simp at hd
    have hval := Fin.val_sub_one_of_ne_zero hne
    have hd' : (j - 1).val = i.val + d := by omega
    have hle : i ≤ j - 1 := by
      change i.val ≤ (j - 1).val
      omega
    exact ih hle ((h j hj).resolve_left hne) hd'

/-- Slots that are numbered in order are used from zero up to some count. -/
theorem Contiguous.exists_count {L : Ledger} {slot : Usize → Slot} (h : Contiguous L slot) :
    ∃ count, ∀ i, L (slot i) 0 ≠ 0 ↔ i.val < count := by
  classical
  by_cases hall : ∀ i, L (slot i) 0 ≠ 0
  · exact ⟨2 ^ 32, fun i => iff_of_true (hall i) i.isLt⟩
  · -- The count is the first index that is not used.
    have hex : ∃ m, ∃ hm : m < 2 ^ 32, ¬ L (slot ⟨m, hm⟩) 0 ≠ 0 := by
      obtain ⟨i, hi⟩ := not_forall.mp hall
      exact ⟨i.val, i.isLt, hi⟩
    obtain ⟨hbound, hfirst⟩ := Nat.find_spec hex
    refine ⟨Nat.find hex, fun i => ⟨fun hi => ?_, fun hi => ?_⟩⟩
    · by_contra hge
      exact hfirst (h.used_of_le (i := ⟨_, hbound⟩) (not_lt.mp hge) hi)
    · by_contra hunused
      exact Nat.find_min hex hi ⟨i.isLt, not_not.mpr hunused⟩

/-- **Structure.** In every reachable state: outgoing channels, subchannels and
notes are numbered from zero without gaps; the tokens of a channel are distinct;
a note lies in a subchannel, a subchannel in the channel with the hashed key; and
the vector of a recipient has one entry for each channel opened toward it. -/
theorem pool_structure (hD : NoCollision sn D) (run : PoolRun sn D visited labels world) :
    let L := view sn D world.pool.words
    (∀ sender key, ∃ count, ∀ i, L (.outgoingChannel sender key i) 0 ≠ 0 ↔ i.val < count) ∧
    (∀ channelKey, (∃ count, ∀ i, L (.subchannelToken channelKey i) 0 ≠ 0 ↔ i.val < count) ∧
      (∀ i, L (.subchannelToken channelKey i) 0 ≠ 0 → ∃ c : Subchannel, c.key = channelKey ∧
        L (.subchannelExists c) 0 ≠ 0 ∧
        tokenAt sn L channelKey i = ContractAddress.toFelt c.token) ∧
      ∀ i j, L (.subchannelToken channelKey i) 0 ≠ 0 → L (.subchannelToken channelKey j) 0 ≠ 0 →
        tokenAt sn L channelKey i = tokenAt sn L channelKey j → i = j) ∧
    (∀ channelKey token, ∃ count, ∀ i, L (.note ⟨channelKey, token, i⟩) 0 ≠ 0 ↔ i.val < count) ∧
    (∀ n : NoteKey, L (.note n) 0 ≠ 0 → ∃ recipientAddr recipientPublicKey,
      L (.subchannelExists ⟨n.channelKey, recipientAddr, recipientPublicKey, n.token⟩) 0 ≠ 0) ∧
    (∀ c : Subchannel, L (.subchannelExists c) 0 ≠ 0 → ∃ sender senderPrivateKey,
      L (.channelExists ⟨c.key, sender, c.recipientAddr, c.recipientPublicKey⟩) 0 ≠ 0 ∧
      c.key = sn.computeChannelKey sender senderPrivateKey c.recipientAddr
        c.recipientPublicKey) ∧
    (∀ recipient, ∃ opened : List Channel, opened.Nodup ∧
      (∀ c, c ∈ opened ↔ c.recipientAddr = recipient ∧ L (.channelExists c) 0 ≠ 0) ∧
      List.Forall₂ (Announces sn) (world.pool.recipientChannels recipient) opened) := by
  have hB := (run_invariant hD run _ run.mem_visited).1.sound.wellFormed
  refine ⟨fun sender key => (hB.numbered.outgoing sender key).exists_count, fun channelKey => ?_,
    fun channelKey token => (hB.numbered.notes channelKey token).exists_count, hB.notes,
    fun c hc => ?_, hB.listed⟩
  · exact ⟨(hB.numbered.subchannels channelKey).exists_count, hB.tokens channelKey,
      hB.tokensDistinct channelKey⟩
  · obtain ⟨-, sender, hchannel⟩ := hB.subchannels c hc
    obtain ⟨senderPrivateKey, hopened⟩ := hB.channels _ hchannel
    exact ⟨sender, senderPrivateKey, hchannel, hopened.key⟩

theorem pool_structure_sample : ∃ count, ∀ i,
    view Starknet.sample Domain.sample Sample.spent.pool.words (.note ⟨1, 77, i⟩) 0 ≠ 0 ↔
      i.val < count :=
  (pool_structure sample_noCollision Sample.run).2.2.1 1 77

/-! ### Write-once storage -/

/-- A slot in play some word of which is written in the earlier storage has the
same words in the later one, unless it is an open note that goes from
`pack(1, 0)` to `pack(1, amount)`; and the vectors keep their entries. -/
structure Kept (sn : Starknet) (D : Domain) (earlier later : Pool) : Prop where
  records : ∀ s : Slot, s.Covered D → ∀ i < s.var.size, earlier.words (s.base sn + i) ≠ 0 →
    (∀ j < s.var.size, later.words (s.base sn + j) = earlier.words (s.base sn + j)) ∨
    ∃ n amount, s = .note n ∧ amount ≠ 0 ∧
      pack openNoteSalt 0 = .ok (earlier.words (s.base sn)) ∧
      pack openNoteSalt amount = .ok (later.words (s.base sn)) ∧
      ∀ j < s.var.size, j ≠ 0 → later.words (s.base sn + j) = earlier.words (s.base sn + j)
  channels : ∀ recipient (i : ℕ) info, (earlier.recipientChannels recipient)[i]? = some info →
    (later.recipientChannels recipient)[i]? = some info

/-- What is kept twice is kept: an open note is filled only once. -/
theorem Kept.trans {earlier middle later : Pool} (h : Kept sn D earlier middle)
    (h' : Kept sn D middle later) : Kept sn D earlier later where
  records s hs i hi hused := by
    have hzero : 0 < s.var.size := (Nat.zero_le i).trans_lt hi
    rcases h.records s hs i hi hused with hfirst | ⟨n, amount, rfl, hamount, hempty, hfull, hrest⟩
    · have hused' : middle.words (s.base sn + i) ≠ 0 := hfirst i hi ▸ hused
      rcases h'.records s hs i hi hused' with hsecond | ⟨n, amount, rfl, hamount, hempty, hfull, hrest⟩
      · exact .inl fun j hj => (hsecond j hj).trans (hfirst j hj)
      · exact .inr ⟨n, amount, rfl, hamount, hempty.trans (congrArg Except.ok (hfirst 0 hzero)), hfull,
          fun j hj hne => (hrest j hj hne).trans (hfirst j hj)⟩
    · have hused' : middle.words ((Slot.note n).base sn + 0) ≠ 0 := pack_ne_zero (by decide) hfull
      rcases h'.records _ hs 0 hzero hused' with hsecond | ⟨_, _, -, -, hempty', -⟩
      · exact .inr ⟨n, amount, rfl, hamount, hempty,
          hfull.trans (congrArg Except.ok (hsecond 0 hzero).symm),
          fun j hj hne => (hsecond j hj).trans (hrest j hj hne)⟩
      · exact absurd (pack_injective hempty' hfull).2.symm hamount
  channels recipient i info hinfo := h'.channels recipient i info (h.channels recipient i info hinfo)

theorem Older.kept (h : Older D world world') : Kept sn D world.pool world'.pool where
  records s hs i hi hused := by
    have hwords : ∀ (w : World sn) (j : ℕ), j < s.var.size →
        view sn D w.pool.words s j = w.pool.words (s.base sn + j) :=
      fun w j hj => view_of_covered hs hj
    have hne : view sn D world.pool.words s ≠ 0 := by
      intro hzero
      rw [← hwords world i hi, hzero] at hused
      exact hused rfl
    rcases h.ledger s hne with hsame | hreceives
    · refine Or.inl fun j hj => ?_
      rw [← hwords world j hj, ← hwords world' j hj, hsame]
    · obtain ⟨n, rfl⟩ := hreceives.note
      obtain ⟨amount, hamount, hpack⟩ := hreceives.amount
      refine Or.inr ⟨n, amount, rfl, hamount, ?_, ?_, fun j hj hne => ?_⟩
      · have hawaits := hreceives.awaits
        rw [view_head hs] at hawaits
        rw [hawaits]
        exact pack_open_zero
      · rwa [view_head hs] at hpack
      · rw [← hwords world j hj, ← hwords world' j hj, hreceives.rest j hne]
  channels recipient i info hinfo := by
    obtain ⟨rest, hrest⟩ := h.channels recipient
    have hlt := (List.getElem?_eq_some_iff.mp hinfo).1
    rw [← hrest, List.getElem?_append_left hlt]
    exact hinfo

/-- A write covers the record of one slot in play. -/
def ServerAction.Placed (sn : Starknet) (D : Domain) : ServerAction → Prop
  | .writeOnce input => ∃ s : Slot, s.Covered D ∧ input.value.1.length ≤ s.var.size ∧
      input.storageAddress = s.address sn
  | .append _ | .transferFrom _ | .transferTo _ | .invoke _ | .invokeWithComputation _
  | .emitViewingKeySet _ | .emitWithdrawal _ | .emitDeposit _ | .emitOpenNoteCreated _
  | .emitEncNoteCreated _ | .emitNoteUsed _ => True

/-- The writes of a block are placed. -/
theorem Block.placed {b : Block} (hcovered : ∀ p ∈ b.puts, p.1.Covered D) :
    ∀ action ∈ b.serverActions sn, action.Placed sn D := by
  have hputs : ∀ p ∈ b.puts, p.1.Covered D ∧ p.2.length ≤ p.1.var.size :=
    fun p hp => ⟨hcovered p hp, Block.length_le_size hp⟩
  cases b <;>
    simp only [Block.puts, Block.serverActions, toWriteOnceAction, List.forall_mem_cons,
      List.not_mem_nil, IsEmpty.forall_iff, implies_true, and_true, ServerAction.Placed,
      true_and] at hputs ⊢
  case setViewingKey | openChannel | openSubchannel =>
    exact ⟨⟨_, hputs.1.1, hputs.1.2, rfl⟩, ⟨_, hputs.2.1, hputs.2.2, rfl⟩⟩
  case createEncNote | createOpenNote | useNote => exact ⟨_, hputs.1, hputs.2, rfl⟩

/-- What a single server action relies on: records start with a non-zero word,
and used note ids are named. -/
structure Steady (sn : Starknet) (D : Domain) (pool : Pool) : Prop where
  headed : Headed (view sn D pool.words)
  named : NotesNamed sn D pool.words

/-- The storage part of a placed action keeps the records that are there. -/
theorem storageAction_older (hD : NoCollision sn D) {action : ServerAction}
    (hplaced : action.Placed sn D) (hsteady : Steady sn D world.pool)
    (h : storageAction world.pool action = .ok world'.pool) :
    Steady sn D world'.pool ∧ Older D world world' := by
  cases action with
  | writeOnce input =>
    obtain ⟨s, hs, hlength, haddress⟩ := hplaced
    obtain ⟨address, value⟩ := input
    dsimp only at hlength haddress
    subst haddress
    obtain ⟨⟨hblank, hhead⟩, hview, hpool⟩ := write_slot hD hsteady.headed hs hlength h
    refine ⟨⟨?_, ?_⟩, ⟨fun s' hs' => Or.inl ?_, fun recipient => ?_⟩⟩
    · rw [hview]
      exact headed_update hsteady.headed (by rwa [record_zero])
    · refine hsteady.named.of_changed hD fun a ha => ⟨s, hs, ?_⟩
      rw [hpool] at ha
      exact mem_of_overlay_ne hlength ha
    · -- The slot that is written was blank, so it is another one.
      have hne : s' ≠ s := by
        rintro rfl
        exact hs' hblank
      rw [hview, Function.update_of_ne hne]
    · rw [hpool]
  -- An append only adds to the channels of one recipient.
  | append input =>
    have hpool := pure_eq_ok.mp h
    refine ⟨⟨?_, ?_⟩, ?_, fun recipient => ?_⟩ <;> rw [← hpool]
    · exact hsteady.headed
    · exact hsteady.named
    · exact Later.refl _
    · by_cases hto : recipient = input.recipientAddr
      · subst hto
        simp only [Pool.applyAppend, Function.update_self]
        exact List.prefix_append _ _
      · simp only [Pool.applyAppend, Function.update_of_ne hto]
        exact List.prefix_refl _
  -- The other actions have no storage part.
  | _ =>
    have hpool := pure_eq_ok.mp h
    refine ⟨⟨?_, ?_⟩, ?_, fun recipient => ?_⟩ <;> rw [← hpool]
    · exact hsteady.headed
    · exact hsteady.named
    · exact Later.refl _

/-- Deposits keep the records that are there, and amend open notes. -/
theorem deposits_older (hD : NoCollision sn D) {depositor : ContractAddress}
    {deposits : List OpenNoteDeposit} (hkeys : ∀ d ∈ deposits, d.noteId ∈ D.keys)
    (hsteady : Steady sn D world.pool)
    (h : deposits.foldlM (depositToOpenNote sn depositor) world = .ok world') :
    Steady sn D world'.pool ∧ Older D world world' := by
  induction deposits generalizing world with
  | nil =>
    obtain rfl := foldlM_nil_eq_ok.mp h
    exact ⟨hsteady, Older.refl D world⟩
  | cons deposit rest ih =>
    obtain ⟨next, hstep, hrest⟩ := foldlM_cons_eq_ok.mp h
    have hdeposited := depositToOpenNote_eq_ok hstep
    obtain ⟨n, packedValue, hn, -, hawaits, hpack, hview, hnamed⟩ :=
      hdeposited.overwrites hD (hkeys deposit List.mem_cons_self) hsteady.named
    have hheaded : Headed (view sn D next.pool.words) := by
      rw [hview]
      refine headed_update hsteady.headed ?_
      rw [Function.update_self]
      exact pack_ne_zero (by decide) hpack
    have holder : Older D world next := by
      refine ⟨fun s hs => ?_, fun recipient => by rw [hdeposited.frame]⟩
      rw [hview]
      -- The note of the deposit is amended, every other record kept.
      by_cases hsame : s = .note n
      · subst hsame
        rw [Function.update_self]
        refine Or.inr ⟨⟨n, rfl⟩, hawaits, ⟨deposit.amount, hdeposited.amount_ne, ?_⟩, ?_⟩
        · simpa only [Function.update_self] using hpack
        · exact fun j hj => Function.update_of_ne hj _ _
      · exact Or.inl (Function.update_of_ne hsame _ _)
    obtain ⟨hsteady', holder'⟩ :=
      ih (fun d hd => hkeys d (List.mem_cons_of_mem _ hd)) ⟨hheaded, hnamed⟩ hrest
    exact ⟨hsteady', holder.trans holder'⟩

/-- An invoke amends open notes and keeps every other record. -/
theorem applyInvoke_older (hD : NoCollision sn D) {invocation : Invocation sn}
    (hconfined : invocation.Confined D) {st st' : ApplyState sn} {input : InvokeInput}
    {selector : Felt} (hsteady : Steady sn D st.world.pool)
    (h : applyInvokeAndDeposits sn invocation st input selector = .ok st') :
    Steady sn D st'.world.pool ∧ Older D st.world st'.world := by
  obtain ⟨tokens, deposits, hinvoked⟩ := applyInvokeAndDeposits_eq_ok h
  obtain ⟨returnData, addresses, hcalled, hreturned⟩ := hinvoked.called
  have hcalledSteady : Steady sn D ({ st.world with tokens }.emit
      (.externalContractInvoked ⟨input.contractAddress, selector⟩)).pool := hsteady
  obtain ⟨hsteady', holder⟩ := deposits_older hD (hconfined.noteIds hcalled hreturned)
    hcalledSteady hinvoked.deposited
  exact ⟨hsteady', holder.ledger, holder.channels⟩

/-- One server action of a compiled list keeps the records that are there. -/
theorem applyAction_older (hD : NoCollision sn D) {invocation : Invocation sn}
    (hconfined : invocation.Confined D) {st st' : ApplyState sn} {action : ServerAction}
    (hplaced : action.Placed sn D) (hsteady : Steady sn D st.world.pool)
    (h : applyAction sn invocation st action = .ok st') :
    Steady sn D st'.world.pool ∧ Older D st.world st'.world := by
  obtain hstep | ⟨-, input, selector, hinvoke⟩ := applyAction_eq_ok h
  · exact storageAction_older hD hplaced hsteady hstep
  · exact applyInvoke_older hD hconfined hsteady hinvoke

/-- The server actions of a compiled list keep the records that are there. -/
theorem foldlM_applyAction_older (hD : NoCollision sn D) {invocation : Invocation sn}
    (hconfined : invocation.Confined D) {st st' : ApplyState sn} {actions : List ServerAction}
    (hplaced : ∀ action ∈ actions, action.Placed sn D) (hsteady : Steady sn D st.world.pool)
    (h : actions.foldlM (applyAction sn invocation) st = .ok st') :
    Steady sn D st'.world.pool ∧ Older D st.world st'.world := by
  induction actions generalizing st with
  | nil =>
    obtain rfl := foldlM_nil_eq_ok.mp h
    exact ⟨hsteady, Older.refl D st.world⟩
  | cons action rest ih =>
    obtain ⟨next, hstep, hrest⟩ := foldlM_cons_eq_ok.mp h
    obtain ⟨hfirst, holder⟩ :=
      applyAction_older hD hconfined (hplaced action List.mem_cons_self) hsteady hstep
    obtain ⟨hlast, holder'⟩ := ih (fun a ha => hplaced a (List.mem_cons_of_mem _ ha)) hfirst hrest
    exact ⟨hlast, holder.trans holder'⟩

/-- **Write-once storage.** Written records are kept between any two states of a
run, and between any two points of a list that is being applied. -/
theorem storage_write_once (hD : NoCollision sn D) (run : PoolRun sn D visited labels world) :
    (∀ p ∈ visited, Kept sn D p.pool world.pool) ∧
    (∀ sub : Submission sn, sub.base ∈ visited → sub.Compiled → sub.Covered D →
      ∀ before between after st st', sub.actions.1 = before ++ between ++ after →
        sub.Reaches world before st →
        between.foldlM (applyAction sn sub.invocation) st = .ok st' →
        Kept sn D world.pool st.world.pool ∧ Kept sn D st.world.pool st'.world.pool) := by
  have hinvariant := run_invariant hD run
  refine ⟨fun p hp => (hinvariant p hp).2.kept, ?_⟩
  intro sub hbase hcompiled hcovered before between after st st' hactions hreaches hbetween
  obtain ⟨blocks, hblocks⟩ := submission_blocks hcompiled hcovered
  -- The actions of a compiled list write at the places of records in play.
  have hplaced : ∀ action ∈ before ++ between ++ after, action.Placed sn D := by
    intro action haction
    rw [← hactions, hblocks.actions] at haction
    obtain ⟨b, hb, haction⟩ := List.mem_flatMap.mp haction
    obtain ⟨_, _, hchecked⟩ := hblocks.checked.exists_of_mem hb
    exact Block.placed hchecked.covered action haction
  have hsound := (hinvariant _ run.mem_visited).1.sound
  obtain ⟨tokens, -, hbefore⟩ := hreaches
  have hworldSteady : Steady sn D (ApplyState.mk { world.enter with tokens } 0 none).world.pool :=
    ⟨hsound.wellFormed.headed, hsound.named⟩
  obtain ⟨hsteady, holder⟩ := foldlM_applyAction_older hD hcovered.invocation
    (fun a ha => hplaced a (by simp [ha])) hworldSteady hbefore
  obtain ⟨-, holder'⟩ := foldlM_applyAction_older hD hcovered.invocation
    (fun a ha => hplaced a (by simp [ha])) hsteady hbetween
  -- Entering the pool and paying the fee write no record.
  have hstart : Older D world { world.enter with tokens } :=
    ⟨Later.refl _, fun _ => List.prefix_refl _⟩
  exact ⟨(hstart.trans holder).kept, holder'.kept⟩

theorem storage_write_once_sample :
    Kept Starknet.sample Domain.sample Sample.funded.pool Sample.spent.pool :=
  (storage_write_once sample_noCollision Sample.run).1 _ (by simp)

end PrivacyPool
