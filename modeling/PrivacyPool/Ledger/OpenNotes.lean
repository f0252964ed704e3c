import Mathlib.Tactic.Abel
import PrivacyPool.Ledger.Solvency

/-!
# Open notes that await their amount

The server counts the open notes of a transaction that have not received their
amount, without remembering which they are. The count is right because creating
an open note adds one note to those that wait, and a deposit removes one: a
deposit to a note that does not wait is refused.

## Main definitions

* `awaiting` — the open notes without their amount
* `Move.created`, `Move.filled` — the open notes a move creates and fills

## Main results

* `awaiting_trace` — the notes that wait, and those filled on the way, are those
  that waited and those created on the way
* `created_marks` — a run creates no open note twice
* `filled_record`, `mem_created` — filled notes keep their amount, and new open
  notes were created as such
-/

namespace PrivacyPool

open WriteOnce Classical

/-- The open notes that await their amount. -/
noncomputable def awaiting (L : Ledger) : Finset NoteKey :=
  Finset.univ.filter fun n => L (.note n) 0 = openNotePackedValue

/-- The open note a move creates. -/
def Move.created : Move → List NoteKey
  | block (.createOpenNote creation _) => [creation.note]
  | block _ | fill _ _ => []

/-- The open note a move fills, with the amount. -/
def Move.fills : Move → List (NoteKey × U128)
  | block _ => []
  | fill n amount => [(n, amount)]

/-- The open note a move fills. -/
def Move.filled (m : Move) : List NoteKey := m.fills.map Prod.fst

variable {sn : Starknet} {D : Domain} {B B' : Book} {L : Ledger} {n : NoteKey}

theorem mem_awaiting : n ∈ awaiting L ↔ L (.note n) 0 = openNotePackedValue := by
  simp [awaiting]

/-- A new open note is one more that waits. -/
theorem awaiting_create {creation : NoteCreation} {enc : EncUserAddr}
    (h : (Block.createOpenNote creation enc).Applies sn D B B') :
    creation.note ∉ awaiting B.ledger ∧
      awaiting B'.ledger = insert creation.note (awaiting B.ledger) := by
  have hblank := congrFun (h.fresh _ (List.mem_singleton_self _)).1 0
  refine ⟨fun hmem => ?_, Finset.ext fun n => ?_⟩
  · exact openNotePackedValue_ne_zero ((mem_awaiting.mp hmem).symm.trans hblank)
  · rw [Finset.mem_insert, mem_awaiting, mem_awaiting, h.ledger]
    by_cases hn : n = creation.note
    · subst hn
      rw [Block.write_of_mem (List.mem_singleton_self _)]
      exact iff_of_true rfl (Or.inl rfl)
    · rw [Block.write_of_not_mem (by simp [Block.puts, hn])]
      exact ⟨Or.inr, fun h => h.resolve_left hn⟩

/-- A note that receives its amount waits no longer. -/
theorem awaiting_fill {amount : U128} (h : Fills n amount B B') :
    n ∈ awaiting B.ledger ∧ awaiting B'.ledger = (awaiting B.ledger).erase n := by
  refine ⟨mem_awaiting.mpr h.awaits, Finset.ext fun n' => ?_⟩
  rw [Finset.mem_erase, mem_awaiting, mem_awaiting]
  by_cases hn : n' = n
  · subst hn
    exact iff_of_false (pack_open_ne h.amount_ne h.packed) fun hne => hne.1 rfl
  · rw [h.others _ (by simpa using hn)]
    exact ⟨fun hawaits => ⟨hn, hawaits⟩, fun hboth => hboth.2⟩

/-- Other blocks leave the notes alone that wait. -/
theorem awaiting_of_not_open {b : Block} (h : b.Applies sn D B B')
    (hopen : ∀ creation enc, b ≠ .createOpenNote creation enc) :
    awaiting B'.ledger = awaiting B.ledger := by
  refine Finset.ext fun n => ?_
  rw [mem_awaiting, mem_awaiting, h.ledger]
  cases henabled : h.enabled with
  | createOpenNote hcreation => exact absurd rfl (hopen _ _)
  | createEncNote hcreation hsmall hlarge hpacked =>
    rename_i creation salt amount packedValue
    by_cases hn : n = creation.note
    · subst hn
      have hblank := congrFun (h.fresh _ (List.mem_singleton_self _)).1 0
      rw [Block.write_of_mem (List.mem_singleton_self _)]
      refine iff_of_false ?_ fun hawaits => openNotePackedValue_ne_zero (hawaits.symm.trans hblank)
      rintro rfl
      exact encNotePackedValue_ne_open hsmall hpacked pack_open_zero
    · rw [Block.write_of_not_mem (by simp [Block.puts, hn])]
  | _ => rw [Block.write_of_not_mem (by simp [Block.puts])]

/-- A move creates and fills the notes it says. -/
theorem awaiting_step {m : Move} (h : m.Step sn D B B') :
    (awaiting B'.ledger).val + (m.filled : Multiset NoteKey) =
      (awaiting B.ledger).val + (m.created : Multiset NoteKey) := by
  cases m with
  | fill n amount =>
    obtain ⟨hmem, hrest⟩ := awaiting_fill h
    have hsplit : n ::ₘ (awaiting B.ledger).val.erase n = (awaiting B.ledger).val :=
      Multiset.cons_erase hmem
    calc (awaiting B'.ledger).val + ((Move.fill n amount).filled : Multiset NoteKey)
        = (awaiting B.ledger).val.erase n + {n} := by rw [hrest, Finset.erase_val]; rfl
      _ = n ::ₘ (awaiting B.ledger).val.erase n := by rw [add_comm, Multiset.singleton_add]
      _ = (awaiting B.ledger).val := hsplit
      _ = (awaiting B.ledger).val + ((Move.fill n amount).created : Multiset NoteKey) :=
          (add_zero _).symm
  | block b =>
    by_cases hopen : ∃ creation enc, b = .createOpenNote creation enc
    · obtain ⟨creation, enc, rfl⟩ := hopen
      obtain ⟨hnew, hmore⟩ := awaiting_create h
      rw [hmore, Finset.insert_val_of_notMem hnew, ← Multiset.singleton_add,
        add_comm ({creation.note} : Multiset NoteKey)]
      exact add_zero _
    · have hnone : ∀ creation enc, b ≠ .createOpenNote creation enc :=
        fun creation enc hb => hopen ⟨creation, enc, hb⟩
      rw [awaiting_of_not_open h hnone]
      cases b with
      | createOpenNote creation enc => exact absurd rfl (hnone creation enc)
      | _ => rfl

/-- The notes that wait after a run, together with those it filled, are those
that waited before it and those it created. -/
theorem awaiting_trace {moves : List Move} (trace : Trace (Move.Step sn D) B moves B') :
    (awaiting B'.ledger).val + (moves.flatMap Move.filled : Multiset NoteKey) =
      (awaiting B.ledger).val + (moves.flatMap Move.created : Multiset NoteKey) := by
  induction trace with
  | nil _ => rfl
  | cons h _ ih =>
    rename_i m moves B₀ B₁ B₂ _
    have hstep := awaiting_step h
    rw [List.flatMap_cons, List.flatMap_cons, ← Multiset.coe_add, ← Multiset.coe_add]
    calc (awaiting B₂.ledger).val + (↑m.filled + ↑(moves.flatMap Move.filled))
        = (awaiting B₂.ledger).val + ↑(moves.flatMap Move.filled) + ↑m.filled := by abel
      _ = (awaiting B₁.ledger).val + ↑m.filled + ↑(moves.flatMap Move.created) := by
          rw [ih]
          abel
      _ = (awaiting B₀.ledger).val + (↑m.created + ↑(moves.flatMap Move.created)) := by
          rw [hstep, add_assoc]

/-- A run creates open notes where there was no note before, and none twice. -/
theorem created_marks {moves : List Move} (trace : Trace (Move.Step sn D) B moves B') :
    Marks (fun (B : Book) n => B.ledger (.note n) 0 ≠ 0) B (moves.flatMap Move.created) B' := by
  refine trace.marks (fun _ => True) _ _ (fun m B B' _ h => ⟨trivial, ?_⟩) trivial
  have hkept : ∀ n, B.ledger (.note n) 0 ≠ 0 → B'.ledger (.note n) 0 ≠ 0 :=
    fun n => (Move.Step.later h).head_ne_zero
  cases m with
  | fill _ _ => exact Marks.nil hkept
  | block b =>
    have happlies : b.Applies sn D B B' := h
    cases b with
    | createOpenNote creation enc =>
      have hblank := congrFun (happlies.fresh _ (List.mem_singleton_self _)).1 0
      refine Marks.singleton (fun hused => hused hblank) ?_ hkept
      rw [happlies.ledger, Block.write_of_mem (List.mem_singleton_self _)]
      exact openNotePackedValue_ne_zero
    | _ => exact Marks.nil hkept

/-- A note that a run fills holds its amount at the end. -/
theorem filled_record {moves : List Move} (trace : Trace (Move.Step sn D) B moves B')
    {amount : U128} (hn : (n, amount) ∈ moves.flatMap Move.fills) :
    amount ≠ 0 ∧ pack openNoteSalt amount = .ok (B'.ledger (.note n) 0) := by
  induction trace with
  | nil _ => exact absurd hn List.not_mem_nil
  | cons h htail ih =>
    rename_i m moves B₀ B₁ B₂
    rw [List.flatMap_cons, List.mem_append] at hn
    rcases hn with hfirst | hrest
    · cases m with
      | block b => exact absurd hfirst List.not_mem_nil
      | fill n' amount' =>
        obtain ⟨rfl, rfl⟩ := Prod.mk.inj (List.mem_singleton.mp hfirst)
        have hfills : Fills n amount B₀ B₁ := h
        -- The filled note awaits nothing, so the rest of the run keeps it.
        have hkept := (later_trace htail).record_eq (pack_ne_zero (by decide) hfills.packed)
          (pack_open_ne hfills.amount_ne hfills.packed)
        rw [hkept]
        exact ⟨hfills.amount_ne, hfills.packed⟩
    · exact ih hrest

/-- A note that was blank before a run and is an open note after it was created as
an open note. -/
theorem mem_created {moves : List Move} (trace : Trace (Move.Step sn D) B moves B') {amount : U128}
    (hblank : B.ledger (.note n) 0 = 0)
    (hopen : pack openNoteSalt amount = .ok (B'.ledger (.note n) 0)) :
    n ∈ moves.flatMap Move.created := by
  induction trace with
  | nil _ => exact absurd hblank (pack_ne_zero (by decide) hopen)
  | cons h htail ih =>
    rename_i m moves B₀ B₁ B₂
    rw [List.flatMap_cons, List.mem_append]
    by_cases hmiddle : B₁.ledger (.note n) 0 = 0
    · exact Or.inr (ih hmiddle hopen)
    · left
      obtain ⟨b, value, rfl, hmem, hvalue⟩ := (h.used_cases hmiddle).resolve_left (not_not.mpr hblank)
      have happlies : b.Applies sn D B₀ B₁ := h
      cases happlies.enabled with
      | createOpenNote hcreation =>
        simp only [Block.puts, List.mem_singleton, Prod.mk.injEq, Slot.note.injEq] at hmem
        exact List.mem_singleton.mpr hmem.1
      | createEncNote hcreation hsmall hlarge hpacked =>
        -- An encrypted note is kept, and is not an open one.
        rename_i creation salt hidden packedValue
        simp only [Block.puts, List.mem_singleton, Prod.mk.injEq, Slot.note.injEq] at hmem
        obtain ⟨rfl, rfl⟩ := hmem
        have hword : B₁.ledger (.note creation.note) 0 = packedValue := congrFun hvalue 0
        have hne : B₁.ledger (.note creation.note) 0 ≠ openNotePackedValue := by
          rw [hword]
          rintro rfl
          exact encNotePackedValue_ne_open hsmall hpacked pack_open_zero
        rw [(later_trace htail).record_eq hmiddle hne, hword] at hopen
        exact absurd hopen (encNotePackedValue_ne_open hsmall hpacked)
      | _ => simp [Block.puts] at hmem

end PrivacyPool
