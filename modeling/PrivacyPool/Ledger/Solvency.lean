import Mathlib.Algebra.BigOperators.Group.Finset.Basic
import Mathlib.Algebra.BigOperators.Ring.Finset
import Mathlib.Algebra.Order.Ring.Int
import Mathlib.Data.Fintype.Prod
import PrivacyPool.Ledger.Preservation

/-!
# What the pool owes

The value of the notes of a token that are not nullified is what the pool owes
its users. Each move changes it by exactly what the move says (`debt_step`), so
that the value held, owed and in transit stays in balance.

## Main definitions

* `noteValue`, `Unspent`, `debt` — the amount of a note, and what is owed in all

## Main results

* `debt_step`, `debt_trace` — moves change the debt by their stated amounts
* `solvent_trace` — a run of the book keeps the pool solvent
-/

namespace PrivacyPool

open WriteOnce Classical

noncomputable instance : Fintype NoteKey :=
  Fintype.ofInjective (fun n : NoteKey => (n.channelKey, n.token, n.index)) fun n n' h => by
    cases n
    cases n'
    simp_all

/-- The decoded amount of a note, zero when there is none. -/
def noteValue (sn : Starknet) (L : Ledger) (n : NoteKey) : ℕ :=
  match sn.decodeNoteAmount (L (.note n) 0) n.channelKey n.token n.index with
  | .ok amount => amount.val
  | .error _ => 0

/-- No nullifier of the note is set. -/
def Unspent (L : Ledger) (n : NoteKey) : Prop := ∀ k, L (.nullifier n k) 0 = 0

/-- What the pool owes for a note. -/
noncomputable def owed (sn : Starknet) (L : Ledger) (n : NoteKey) : ℕ :=
  if Unspent L n then noteValue sn L n else 0

/-- What the pool owes in a token. -/
noncomputable def debt (sn : Starknet) (L : Ledger) (t : ContractAddress) : ℕ :=
  ∑ n : NoteKey with n.token = t, owed sn L n

section

variable {sn : Starknet} {L L' : Ledger} {n : NoteKey}

theorem noteValue_of_ok {amount : U128}
    (h : sn.decodeNoteAmount (L (.note n) 0) n.channelKey n.token n.index = .ok amount) :
    noteValue sn L n = amount.val := by
  rw [noteValue, h]

/-- A blank note and an open one that awaits its amount are worth nothing. -/
theorem noteValue_of_blank (h : L (.note n) 0 = 0) : noteValue sn L n = 0 := by
  rw [noteValue, h]
  rfl

theorem noteValue_of_awaits (h : L (.note n) 0 = openNotePackedValue) : noteValue sn L n = 0 := by
  rw [noteValue, h, decodeNoteAmount_pack_open sn pack_open_zero]
  rfl

theorem owed_of_unspent (h : Unspent L n) : owed sn L n = noteValue sn L n := if_pos h

theorem owed_of_used {k : Felt} (h : L (.nullifier n k) 0 ≠ 0) : owed sn L n = 0 :=
  if_neg fun hunspent => h (hunspent k)

/-- What is owed for a note depends on its record and its nullifiers. -/
theorem owed_congr (hnote : L' (.note n) 0 = L (.note n) 0)
    (hnullifiers : ∀ k, L' (.nullifier n k) 0 = L (.nullifier n k) 0) :
    owed sn L' n = owed sn L n := by
  have hunspent : Unspent L' n ↔ Unspent L n := forall_congr' fun k => by rw [hnullifiers k]
  by_cases h : Unspent L n
  · rw [owed_of_unspent h, owed_of_unspent (hunspent.mpr h), noteValue, noteValue, hnote]
  · rw [owed, owed, if_neg h, if_neg fun h' => h (hunspent.mp h')]

/-- A change at one note changes the debt by what is owed for it. -/
theorem debt_of_others (hothers : ∀ n' ≠ n, owed sn L' n' = owed sn L n') (t : ContractAddress) :
    (debt sn L' t : ℤ) = debt sn L t +
      if t = n.token then (owed sn L' n : ℤ) - owed sn L n else 0 := by
  unfold debt
  split_ifs with ht
  · have hmem : n ∈ Finset.univ.filter fun n' : NoteKey => n'.token = t := by simp [ht]
    rw [← Finset.add_sum_erase _ _ hmem, ← Finset.add_sum_erase _ _ hmem]
    have hrest : ∑ n' ∈ (Finset.univ.filter fun n' : NoteKey => n'.token = t).erase n,
        owed sn L' n' = ∑ n' ∈ (Finset.univ.filter fun n' : NoteKey => n'.token = t).erase n,
        owed sn L n' :=
      Finset.sum_congr rfl fun n' hn' => hothers n' (Finset.ne_of_mem_erase hn')
    rw [hrest]
    push_cast
    omega
  · rw [add_zero, Finset.sum_congr rfl fun n' hn' => hothers n' ?_]
    rintro rfl
    exact ht (Finset.mem_filter.mp hn').2.symm

end

section

variable {sn : Starknet} {D : Domain} {B B' : Book}

/-- A blank or awaiting note has no nullifier. -/
theorem WellFormed.unspent (hB : WellFormed sn D B) {n : NoteKey}
    (h : B.ledger (.note n) 0 = 0 ∨ B.ledger (.note n) 0 = openNotePackedValue) :
    Unspent B.ledger n := by
  intro k
  by_contra hused
  have hby := hB.nullifiers n k hused
  rcases h with hzero | hawaits
  · exact hby.note hzero
  · exact hby.filled hawaits

/-- A note that is used with its owner's key for the first time is unspent. -/
theorem WellFormed.unspent_of_fresh (hD : NoCollision sn D) (hkeys : PublicKeysDistinct sn)
    (hB : WellFormed sn D B) {owner : ContractAddress} {k publicKey : Felt} {n : NoteKey}
    {amount : U128} (henabled : Enabled sn D B.ledger (.useNote owner k publicKey n amount))
    (hfresh : B.ledger (.nullifier n k) 0 = 0) : Unspent B.ledger n := by
  intro k'
  by_contra hused
  cases henabled with
  | useNote hcanonical hderived hsubchannel hnote hdecoded hamount =>
    obtain rfl := hB.nullifier_eq hD hkeys hused hcanonical hderived hsubchannel
    exact hused hfresh

/-- A block that writes no note and no nullifier leaves every note as it is. -/
theorem owed_write_of_not_mem {b : Block} {n : NoteKey} (h : b.Applies sn D B B')
    (hnote : ∀ value, (.note n, value) ∉ b.puts)
    (hnullifiers : ∀ k value, (.nullifier n k, value) ∉ b.puts) :
    owed sn B'.ledger n = owed sn B.ledger n := by
  rw [h.ledger]
  refine owed_congr ?_ fun k => ?_
  · rw [Block.write_of_not_mem hnote]
  · rw [Block.write_of_not_mem (hnullifiers k)]

/-- A new note was worth nothing before, and is then worth what it decodes to. -/
theorem debt_create (hB : WellFormed sn D B) {b : Block} (h : b.Applies sn D B B') {n : NoteKey}
    {value : List Felt} (hputs : b.puts = [(.note n, value)]) (t : ContractAddress) :
    (debt sn B'.ledger t : ℤ) = debt sn B.ledger t +
      if t = n.token then (noteValue sn B'.ledger n : ℤ) else 0 := by
  have hblank : B.ledger (.note n) 0 = 0 :=
    congrFun (h.fresh (.note n, value) (by rw [hputs]; exact List.mem_singleton_self _)).1 0
  have hunspent := hB.unspent (Or.inl hblank)
  have hunspent' : Unspent B'.ledger n := by
    intro k
    rw [h.ledger, Block.write_of_not_mem (by simp [hputs])]
    exact hunspent k
  have hothers : ∀ n' ≠ n, owed sn B'.ledger n' = owed sn B.ledger n' := fun n' hne =>
    owed_write_of_not_mem h (by simp [hputs, hne]) (by simp [hputs])
  rw [debt_of_others hothers, owed_of_unspent hunspent', owed_of_unspent hunspent,
    noteValue_of_blank hblank, Nat.cast_zero, sub_zero]

/-- Using a note takes what is owed for it off the debt. -/
theorem debt_useNote (hD : NoCollision sn D) (hkeys : PublicKeysDistinct sn)
    (hB : WellFormed sn D B) {owner : ContractAddress} {k publicKey : Felt} {n : NoteKey}
    {amount : U128} (h : (Block.useNote owner k publicKey n amount).Applies sn D B B')
    (t : ContractAddress) :
    (debt sn B'.ledger t : ℤ) = debt sn B.ledger t - amountOf n.token amount t := by
  have hmem : (Slot.nullifier n k, serialize true) ∈
      (Block.useNote owner k publicKey n amount).puts := List.mem_singleton_self _
  have hunspent := hB.unspent_of_fresh hD hkeys h.enabled (congrFun (h.fresh _ hmem).1 0)
  have hused : B'.ledger (.nullifier n k) 0 ≠ 0 := by
    rw [h.ledger, Block.write_of_mem hmem]
    decide
  have hothers : ∀ n' ≠ n, owed sn B'.ledger n' = owed sn B.ledger n' := fun n' hne =>
    owed_write_of_not_mem h (by simp [Block.puts]) (by simp [Block.puts, hne])
  have hvalue : noteValue sn B.ledger n = amount.val := by
    cases h.enabled with
    | useNote hcanonical hderived hsubchannel hnote hdecoded hamount =>
      exact noteValue_of_ok hdecoded
  rw [debt_of_others hothers, owed_of_used hused, owed_of_unspent hunspent, hvalue, amountOf]
  split_ifs <;> simp [sub_eq_add_neg]

/-- A note that receives its amount is then owed in full. -/
theorem debt_fill (hB : WellFormed sn D B) {n : NoteKey} {amount : U128}
    (h : Fills n amount B B') (t : ContractAddress) :
    (debt sn B'.ledger t : ℤ) = debt sn B.ledger t + amountOf n.token amount t := by
  have hunspent := hB.unspent (Or.inr h.awaits)
  have hunspent' : Unspent B'.ledger n := by
    intro k
    rw [h.others _ (by simp)]
    exact hunspent k
  have hothers : ∀ n' ≠ n, owed sn B'.ledger n' = owed sn B.ledger n' := fun n' hne =>
    owed_congr (by rw [h.others _ (by simpa using hne)]) fun k => by rw [h.others _ (by simp)]
  rw [debt_of_others hothers, owed_of_unspent hunspent', owed_of_unspent hunspent,
    noteValue_of_ok (decodeNoteAmount_pack_open sn h.packed), noteValue_of_awaits h.awaits,
    Nat.cast_zero, sub_zero, amountOf]

/-- A move changes the debt by its stated amount. -/
theorem debt_step (hD : NoCollision sn D) (hkeys : PublicKeysDistinct sn)
    (hB : WellFormed sn D B) {m : Move} (h : m.Step sn D B B') (t : ContractAddress) :
    (debt sn B'.ledger t : ℤ) = debt sn B.ledger t + m.debt t := by
  cases m with
  | fill note amount => exact debt_fill hB h t
  | block b =>
    have happlies : b.Applies sn D B B' := h
    cases henabled : happlies.enabled with
    -- A new note is worth what its packed value decrypts to.
    | createEncNote hcreation hsmall hlarge hpacked =>
      rename_i creation salt amount packedValue
      have hwritten : B'.ledger (.note creation.note) 0 = packedValue := by
        rw [happlies.ledger, Block.write_of_mem (List.mem_singleton_self _)]
        rfl
      have hdecoded : sn.decodeNoteAmount (B'.ledger (.note creation.note) 0)
          creation.note.channelKey creation.note.token creation.note.index = .ok amount := by
        rw [hwritten]
        exact decodeNoteAmount_encNotePackedValue sn hsmall hlarge hpacked
      rw [debt_create hB happlies rfl, noteValue_of_ok hdecoded]
      rfl
    -- An open note is worth nothing until it is filled.
    | createOpenNote hcreation =>
      rename_i creation enc
      have hwritten : B'.ledger (.note creation.note) 0 = openNotePackedValue := by
        rw [happlies.ledger, Block.write_of_mem (List.mem_singleton_self _)]
        rfl
      rw [debt_create hB happlies rfl, noteValue_of_awaits hwritten]
      simp [Move.debt]
    | useNote hcanonical hderived hsubchannel hnote hdecoded hamount =>
      rw [debt_useNote hD hkeys hB happlies]
      rfl
    -- The other blocks write no note and no nullifier.
    | _ =>
      have hsame : debt sn B'.ledger t = debt sn B.ledger t := Finset.sum_congr rfl fun n _ =>
        owed_write_of_not_mem happlies (by simp [Block.puts]) (by simp [Block.puts])
      rw [hsame]
      exact (add_zero _).symm

end

/-! ### Runs of the book -/

section

variable {sn : Starknet} {D : Domain} {B B' : Book} {moves : List Move}

theorem wellFormed_trace (hD : NoCollision sn D) (trace : Trace (Move.Step sn D) B moves B')
    (hB : WellFormed sn D B) : WellFormed sn D B' :=
  trace.invariant (WellFormed sn D) (fun _ _ _ hB h => Move.Step.wellFormed hD hB h) hB

theorem later_trace (trace : Trace (Move.Step sn D) B moves B') : Later B.ledger B'.ledger :=
  trace.climb (fun _ => True) (fun B B' => Later B.ledger B'.ledger) (fun _ => Later.refl _)
    Later.trans (fun _ _ _ _ h => ⟨trivial, Move.Step.later h⟩) trivial

theorem debt_trace (hD : NoCollision sn D) (hkeys : PublicKeysDistinct sn)
    (trace : Trace (Move.Step sn D) B moves B') (hB : WellFormed sn D B) (t : ContractAddress) :
    (debt sn B'.ledger t : ℤ) = debt sn B.ledger t + (moves.map fun m => m.debt t).sum :=
  trace.sum (WellFormed sn D) (fun B => (debt sn B.ledger t : ℤ)) (fun m => m.debt t)
    (fun _ _ _ hB h => ⟨Move.Step.wellFormed hD hB h, debt_step hD hkeys hB h t⟩) hB

/-- Value is conserved by the moves of a run. -/
theorem sum_held_eq (moves : List Move) (t : ContractAddress) :
    (moves.map fun m => m.held t).sum =
      (moves.map fun m => m.credit t).sum + (moves.map fun m => m.debt t).sum := by
  rw [← List.sum_map_add]
  exact congrArg (fun f => (moves.map f).sum) (funext fun m => m.held_eq t)

/-- What is owed and in transit stays covered along a run: when it is covered
before, and the pool receives at least what the moves say, it is covered after. -/
theorem solvent_trace (hD : NoCollision sn D) (hkeys : PublicKeysDistinct sn)
    (trace : Trace (Move.Step sn D) B moves B') (hB : WellFormed sn D B) {t : ContractAddress}
    {held held' credit credit' : ℤ} (hsolvent : debt sn B.ledger t + credit ≤ held)
    (hheld : held + (moves.map fun m => m.held t).sum ≤ held')
    (hcredit : credit' = credit + (moves.map fun m => m.credit t).sum) :
    debt sn B'.ledger t + credit' ≤ held' := by
  have hdebt := debt_trace hD hkeys trace hB t
  have hbalance := sum_held_eq moves t
  omega

end

end PrivacyPool
