import PrivacyPool.Refinement.Invariant

/-!
# Open notes are filled at once

The server counts open notes without remembering which they are. Still each open
note is filled exactly once, by a deposit of the transaction that created it, in
its own token and with the amount that was pulled from the invoked contract: a
deposit to a note that does not await its amount is refused, and no note awaits
its amount between transactions, so that the counter reaching zero leaves none
behind.

## Main results

* `Submission.Performed.filled_perm` — a transaction fills what it created
* `open_notes_filled` — the effect of a transaction on open notes
-/

namespace PrivacyPool

open Fallible WriteOnce

variable {sn : Starknet} {D : Domain} {visited : List (World sn)} {labels : List (Label sn)}
  {world world' : World sn} {sub : Submission sn} {blocks : List Block} {moves : List Move}

/-- A submission fills the open notes it creates, each once. -/
theorem Submission.Performed.filled_perm (h : sub.Performed D blocks moves world world')
    (hworld : Invariant D world) (hworld' : Invariant D world') :
    (moves.flatMap Move.filled).Perm (moves.flatMap Move.created) := by
  have hwaits := awaiting_trace h.trace
  have hbefore : (awaiting (book sn D world.pool).ledger).val = 0 :=
    Finset.val_eq_zero.mpr hworld.filled
  have hafter : (awaiting (book sn D world'.pool).ledger).val = 0 :=
    Finset.val_eq_zero.mpr hworld'.filled
  rw [hbefore, hafter, zero_add, zero_add] at hwaits
  exact Multiset.coe_eq_coe.mp hwaits

/-- Notes in play have distinct ids. -/
theorem NoteKey.id_injOn (hD : NoCollision sn D) :
    Set.InjOn (fun n : NoteKey => n.id sn) {n | (Slot.note n).Covered D} := by
  intro n hn n' hn' hid
  exact Slot.note.inj (Slot.eq_of_key_eq hD hn hn' rfl hid)

/-- An open note that a submission creates is in play. -/
theorem Submission.Performed.created_covered (h : sub.Performed D blocks moves world world')
    {n : NoteKey} (hn : n ∈ moves.flatMap Move.created) : (Slot.note n).Covered D :=
  covered_of_view ((created_marks h.trace).after n hn)

/-- The deposits that a submission reports name the notes it fills. -/
theorem map_noteId_depositEvents {emitted : List Event} {ops : List TokenOp}
    (h : Logged sn moves emitted ops) :
    (depositEvents emitted).map (fun event => event.noteId) =
      (moves.flatMap Move.filled).map fun n => n.id sn := by
  have hreports := h.deposited
  have hfilled : moves.flatMap Move.filled = (moves.flatMap Move.fills).map Prod.fst :=
    List.map_flatMap.symm
  rw [hfilled, List.map_map]
  generalize depositEvents emitted = events at hreports
  generalize moves.flatMap Move.fills = fills at hreports
  induction hreports with
  | nil => rfl
  | cons hreport _ ih => rw [List.map_cons, List.map_cons, ih, ← hreport.1, Function.comp_apply]

/-- **Open notes.** After a successful `apply_actions` of a compiled list no open
note is without its amount. The deposits of the transaction fill the open notes
that it created, each once, and no others; each fills a note that did not exist
before, in the note's token, with the amount that is recorded and that was pulled
from a contract that the transaction called. Every other open note was there
before and is unchanged. -/
theorem open_notes_filled (hD : NoCollision sn D) (run : PoolRun sn D visited labels world)
    (h : PoolStep sn D visited (.apply sub) world world') :
    (∀ key, D.IsKey sn key →
      unpack (world'.pool.read sn .notes key 0) ≠ .ok (openNoteSalt, 0)) ∧
    ∃ tokens emitted ops, world'.events = world.events ++ emitted ∧
      (createdIds emitted).Nodup ∧
      ((depositEvents emitted).map fun event => event.noteId).Perm (createdIds emitted) ∧
      (∀ event ∈ depositEvents emitted, ∃ n : NoteKey, (Slot.note n).Covered D ∧
        n.id sn = event.noteId ∧ n.token = event.token ∧ event.amount ≠ 0 ∧
        view sn D world.pool.words (.note n) = 0 ∧
        pack openNoteSalt event.amount = .ok (view sn D world'.pool.words (.note n) 0)) ∧
      (∀ n amount, pack openNoteSalt amount = .ok (view sn D world'.pool.words (.note n) 0) →
        view sn D world'.pool.words (.note n) = view sn D world.pool.words (.note n) ∨
        n.id sn ∈ createdIds emitted) ∧
      collectFee sn world.enter sub.tx = .ok { world.enter with tokens } ∧
      Trace (TokenOp.Step sub.invocation) tokens ops world'.tokens ∧
      ops.filterMap TokenOp.pulled = depositEvents emitted ∧
      (∀ event, .pull event ∈ ops → ∃ input selector, .call input selector ∈ ops ∧
        input.contractAddress = event.depositor) := by
  have hvisited := run_invariant hD run
  have hworld := (hvisited _ run.mem_visited).1
  have hworld' := (invariant_step hD hvisited hworld h).1
  obtain ⟨blocks, moves, hperformed⟩ := step_performed hD run h
  obtain ⟨tokens, emitted, ops, hfee, hevents, hlogged, hpaid⟩ := hperformed.log
  have hperm := hperformed.filled_perm hworld hworld'
  have hmarks := created_marks hperformed.trace
  refine ⟨fun key hkey hunpack => ?_, tokens, emitted, ops, hevents, ?_, ?_, fun event hevent => ?_,
    fun n amount hopen => ?_, hfee, hpaid, hlogged.pulled, hlogged.invoked⟩
  · -- A note without its amount would be one that waits.
    have hword : world'.pool.words (sn.entry .notes key).val = openNotePackedValue :=
      eq_openNotePackedValue_of_unpack hunpack
    have hused : world'.pool.words (sn.entry .notes key).val ≠ 0 := by
      rw [hword]
      exact openNotePackedValue_ne_zero
    obtain ⟨n, hn, rfl⟩ := hworld'.sound.named key hkey hused
    have hawaits : n ∈ awaiting (view sn D world'.pool.words) :=
      mem_awaiting.mpr ((view_head hn).trans hword)
    rw [hworld'.filled] at hawaits
    exact absurd hawaits (Finset.notMem_empty n)
  · rw [hlogged.created]
    exact hmarks.nodup.map_on fun n hn n' hn' hid => NoteKey.id_injOn hD
      (hperformed.created_covered hn) (hperformed.created_covered hn') hid
  · rw [hlogged.created, map_noteId_depositEvents hlogged]
    exact hperm.map _
  -- A deposit fills a note that the list has created, which was blank before.
  · obtain ⟨⟨n, amount⟩, hfill, hid, htoken, hamount⟩ :=
      mem_forall₂_left hlogged.deposited hevent
    dsimp only at hid htoken hamount
    subst hamount
    have hcreated : n ∈ moves.flatMap Move.created := by
      refine hperm.subset ?_
      obtain ⟨m, hm, hmem⟩ := List.mem_flatMap.mp hfill
      exact List.mem_flatMap.mpr ⟨m, hm, List.mem_map.mpr ⟨_, hmem, rfl⟩⟩
    obtain ⟨hne, hpack⟩ := filled_record hperformed.trace hfill
    refine ⟨n, hperformed.created_covered hcreated, hid, htoken, hne, ?_, hpack⟩
    exact hworld.sound.wellFormed.headed _ (not_not.mp (hmarks.fresh n hcreated))
  -- An open note that was there before is no waiting one, so that it stays.
  · by_cases hblank : view sn D world.pool.words (.note n) 0 = 0
    · right
      rw [hlogged.created]
      exact List.mem_map.mpr ⟨n, mem_created hperformed.trace hblank hopen, rfl⟩
    · left
      refine (later_trace hperformed.trace).record_eq hblank fun hawaits => ?_
      have hmem : n ∈ awaiting (view sn D world.pool.words) := mem_awaiting.mpr hawaits
      rw [hworld.filled] at hmem
      exact absurd hmem (Finset.notMem_empty n)

theorem open_notes_filled_sample :
    unpack (Sample.spent.pool.read Starknet.sample .notes 8 0) = .ok (openNoteSalt, 40) ∧
    ∀ key, Domain.sample.IsKey Starknet.sample key →
      unpack (Sample.spent.pool.read Starknet.sample .notes key 0) ≠ .ok (openNoteSalt, 0) :=
  ⟨by decide +kernel,
    (open_notes_filled sample_noCollision Sample.funding_run Sample.spending_step).1⟩

end PrivacyPool
