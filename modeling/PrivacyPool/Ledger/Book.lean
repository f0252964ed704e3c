import PrivacyPool.System.Domain

/-!
# The book of user data

What the pool's storage is about, without addresses and hashes: a record for
each slot, and for each recipient the vector of channel infos. A record is blank
until it is written, and is then kept for good; only an open note is amended
once, when it receives its amount.

## Main definitions

* `Ledger`, `Book` — records by slot, and the vectors beside them
* `Receives` — an open note receives its amount
* `Later` — a ledger that an older one can have become
* `Headed` — a record whose first word is zero is blank
-/

namespace PrivacyPool

open WriteOnce

/-- The words of a record, zero past its end. -/
abbrev Record := ℕ → Felt

/-- A record with the given first words. -/
def record (value : List Felt) : Record := fun j => value.getD j 0

@[simp] theorem record_zero (value : List Felt) : record value 0 = value.headD 0 := by
  cases value <;> rfl

/-- User data by slot. -/
abbrev Ledger := Slot → Record

/-- User data: the records, and the vector of channel infos of each recipient. -/
structure Book where
  ledger : Ledger
  channels : ContractAddress → List EncChannelInfo

/-- An open note receives its amount. -/
structure Receives (s : Slot) (before after : Record) : Prop where
  note : ∃ n, s = .note n
  awaits : before 0 = openNotePackedValue
  amount : ∃ amount, amount ≠ 0 ∧ pack openNoteSalt amount = .ok (after 0)
  rest : ∀ j ≠ 0, after j = before j

/-- The later ledger keeps every record of the earlier, apart from open notes
that have received their amount. -/
def Later : Ledger → Ledger → Prop := Grows Receives

/-- A packed open note with an amount is not one that awaits its amount. -/
theorem pack_open_ne {amount : U128} {packedValue : Felt} (hamount : amount ≠ 0)
    (h : pack openNoteSalt amount = .ok packedValue) : packedValue ≠ openNotePackedValue := by
  rintro rfl
  exact hamount (pack_injective h pack_open_zero).2

theorem receives_final : Final Receives := by
  intro s before after h
  obtain ⟨amount, hamount, hpack⟩ := h.amount
  refine ⟨?_, ?_⟩
  · intro hzero
    exact pack_ne_zero (by decide) hpack (congrFun hzero 0)
  · intro z hagain
    exact pack_open_ne hamount hpack hagain.awaits

namespace Later

variable {L L' L'' : Ledger} {s : Slot}

theorem refl (L : Ledger) : Later L L := Grows.refl L

theorem trans (h : Later L L') (h' : Later L' L'') : Later L L'' := Grows.trans receives_final h h'

/-- A record that is not an open note awaiting its amount is kept. -/
theorem record_eq (h : Later L L') (hs : L s 0 ≠ 0) (hopen : L s 0 ≠ openNotePackedValue) :
    L' s = L s := by
  refine Grows.eq_of_not_amend h (fun hzero => hs (congrFun hzero 0)) ?_
  intro y hreceives
  exact hopen hreceives.awaits

/-- Records other than notes are kept. -/
theorem record_eq_of_not_note (h : Later L L') (hs : L s 0 ≠ 0) (hnote : ∀ n, s ≠ .note n) :
    L' s = L s := by
  refine Grows.eq_of_not_amend h (fun hzero => hs (congrFun hzero 0)) ?_
  intro y hreceives
  obtain ⟨n, hn⟩ := hreceives.note
  exact hnote n hn

/-- A used slot stays used. -/
theorem head_ne_zero (h : Later L L') (hs : L s 0 ≠ 0) : L' s 0 ≠ 0 := by
  rcases h s (fun hzero => hs (congrFun hzero 0)) with hsame | hreceives
  · rwa [hsame]
  · obtain ⟨amount, -, hpack⟩ := hreceives.amount
    exact pack_ne_zero (by decide) hpack

end Later

/-- A record whose first word is zero is blank. -/
def Headed (L : Ledger) : Prop := ∀ s, L s 0 = 0 → L s = 0

end PrivacyPool
