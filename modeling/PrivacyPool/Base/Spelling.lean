import Mathlib.Data.List.Induction
import Mathlib.Data.List.TakeWhile
import PrivacyPool.Base.Hex

/-!
# Spellings of hexadecimal numbers

A number has many hexadecimal spellings: the marker and the digits come in either
case, and zeros may lead. Lowering the digits and dropping the leading zeros takes every
spelling of a number to the one that `Hex.writeText` writes, so that comparing
normalised texts compares numbers.

## Main definitions

* `Hex.Spells` — a text is a hexadecimal spelling of a number
* `Hex.parsePrefix` — the number that the leading digits of a text stand for

## Main results

* `Hex.significant_of_read` — the significant digits are those of the number
* `Hex.writeText_injective` — different numbers are written differently
-/

namespace Hex

/-- A marker in either case, and then at least one digit. -/
def Spells (s : String) (n : ℕ) : Prop :=
  ∃ digits, (s.toList = '0' :: 'x' :: digits ∨ s.toList = '0' :: 'X' :: digits) ∧
    digits ≠ [] ∧ readNumeral 16 digits = some n

theorem spells_writeText (n : ℕ) : Spells (writeText n) n :=
  ⟨Nat.toDigits 16 n, Or.inl (by simp [writeText]), Nat.toDigits_ne_nil,
    readNumeral_toDigits (by decide) (by decide) n⟩

theorem Spells.readText {s : String} {n : ℕ} (h : Spells s n) : readText s = some n := by
  obtain ⟨digits, htext, hne, hread⟩ := h
  exact readText_of_hex htext hne hread

/-- A text spells one number. -/
theorem Spells.unique {s : String} {n m : ℕ} (h : Spells s n) (h' : Spells s m) : n = m :=
  Option.some.inj (h.readText.symm.trans h'.readText)

theorem writeText_injective : Function.Injective writeText := fun n m h =>
  (spells_writeText n).unique (h ▸ spells_writeText m)

/-! ### Digits -/

/-- Whether a character is a hexadecimal digit. -/
def isHexDigit (c : Char) : Bool := (digitValue c).isSome

theorem readDigit_eq_some {base n m : ℕ} {c : Char} :
    readDigit base n c = some m ↔ ∃ d, digitValue c = some d ∧ d < base ∧ m = base * n + d := by
  unfold readDigit
  cases digitValue c with
  | none => simp
  | some d =>
    simp only [Option.bind_eq_bind, Option.bind_some, Option.ite_none_right_eq_some,
      Option.some.injEq, exists_eq_left']
    exact and_congr_right fun _ => eq_comm

theorem readNumeral_concat {base n : ℕ} {digits : List Char} {c : Char} :
    readNumeral base (digits ++ [c]) = some n ↔
      ∃ m d, readNumeral base digits = some m ∧ digitValue c = some d ∧ d < base ∧
        n = base * m + d := by
  simp only [readNumeral, List.foldlM_append, List.foldlM_cons, List.foldlM_nil,
    Option.bind_eq_bind, Option.bind_eq_some_iff, Option.pure_def, Option.some.injEq,
    readDigit_eq_some]
  constructor
  · rintro ⟨m, hm, _, ⟨d, hd, hlt, rfl⟩, rfl⟩
    exact ⟨m, d, hm, hd, hlt, rfl⟩
  · rintro ⟨m, d, hm, hd, hlt, rfl⟩
    exact ⟨m, hm, _, ⟨d, hd, hlt, rfl⟩, rfl⟩

/-- The characters that are digits, by their code. -/
theorem digitValue_toLower (c : Char) {d : ℕ} (h : digitValue c = some d) :
    c.toLower = Nat.digitChar d ∧ d < 16 := by
  have hcode : c.toNat < 128 := by
    unfold digitValue at h
    split_ifs at h with h₁ h₂ h₃
    · exact Nat.lt_of_le_of_lt (UInt32.le_iff_toNat_le.mp h₁.2) (by decide)
    · exact Nat.lt_of_le_of_lt (UInt32.le_iff_toNat_le.mp h₂.2) (by decide)
    · exact Nat.lt_of_le_of_lt (UInt32.le_iff_toNat_le.mp h₃.2) (by decide)
  have hall : ∀ n < 128, ∀ e < 16, digitValue (Char.ofNat n) = some e →
      (Char.ofNat n).toLower = Nat.digitChar e := by
    decide +kernel
  have hsmall : ∀ n < 128, ∀ e ∈ digitValue (Char.ofNat n), e < 16 := by decide +kernel
  rw [← Char.ofNat_toNat c] at h ⊢
  have hlt := hsmall _ hcode d h
  exact ⟨hall _ hcode d hlt h, hlt⟩

theorem toDigits_lt {d : ℕ} (h : d < 16) : Nat.toDigits 16 d = [Nat.digitChar d] := by
  rw [Nat.toDigits_eq_if (by decide), if_pos h]

theorem toDigits_append {m d : ℕ} (hm : m ≠ 0) (hd : d < 16) :
    Nat.toDigits 16 (16 * m + d) = Nat.toDigits 16 m ++ [Nat.digitChar d] := by
  have hdiv : (16 * m + d) / 16 = m := by omega
  have hmod : (16 * m + d) % 16 = d := by omega
  rw [Nat.toDigits_eq_if (by decide), if_neg (by omega), hdiv, hmod]

/-- Lowered and without leading zeros, the digits of a number are those it is written
with. -/
theorem significant_of_read {digits : List Char} {n : ℕ} (h : readNumeral 16 digits = some n) :
    (digits.map Char.toLower).dropWhile (· == '0') = if n = 0 then [] else Nat.toDigits 16 n := by
  induction digits using List.reverseRecOn generalizing n with
  | nil =>
    obtain rfl : 0 = n := by simpa [readNumeral] using h
    rfl
  | append_singleton digits c ih =>
    obtain ⟨m, d, hm, hd, -, rfl⟩ := readNumeral_concat.mp h
    obtain ⟨hlower, hlt⟩ := digitValue_toLower c hd
    rw [List.map_append, List.map_singleton, List.dropWhile_append, ih hm, hlower]
    by_cases hzero : m = 0
    · -- The first significant digit, if there is one yet.
      subst hzero
      have hchar : ∀ e < 16, (Nat.digitChar e == '0') = decide (e = 0) := by decide
      simp only [if_true, List.isEmpty_nil, Nat.mul_zero, Nat.zero_add, List.dropWhile_cons,
        List.dropWhile_nil, hchar d hlt, decide_eq_true_eq, toDigits_lt hlt]
    · rw [if_neg hzero, if_neg (by simp), if_neg (by omega), toDigits_append hzero hlt]

/-- Digits in either case stand for one number. -/
theorem readNumeral_toLower {digits : List Char} (h : ∀ c ∈ digits, isHexDigit c = true) :
    ∃ n, readNumeral 16 digits = some n ∧ readNumeral 16 (digits.map Char.toLower) = some n := by
  induction digits using List.reverseRecOn with
  | nil => exact ⟨0, rfl, rfl⟩
  | append_singleton digits c ih =>
    rw [List.forall_mem_append] at h
    obtain ⟨m, hread, hlower⟩ := ih h.1
    obtain ⟨d, hd⟩ := Option.isSome_iff_exists.mp (h.2 c (List.mem_singleton_self c))
    obtain ⟨hc, hlt⟩ := digitValue_toLower c hd
    refine ⟨16 * m + d, readNumeral_concat.mpr ⟨m, d, hread, hd, hlt, rfl⟩, ?_⟩
    rw [List.map_append, List.map_singleton, hc]
    exact readNumeral_concat.mpr ⟨m, d, hlower, digitValue_digitChar d hlt, hlt, rfl⟩

/-! ### Leading digits -/

/-- The number that the digits at the start of a text stand for, absent where there are
none. -/
def parsePrefix (digits : List Char) : Option ℕ :=
  match digits.takeWhile isHexDigit with
  | [] => none
  | first :: rest => readNumeral 16 (first :: rest)

theorem isHexDigit_of_read {digits : List Char} {n : ℕ} (h : readNumeral 16 digits = some n) :
    ∀ c ∈ digits, isHexDigit c = true := isSome_digitValue_of_read h

/-- Digits alone are read whole. -/
theorem parsePrefix_of_read {digits : List Char} {n : ℕ} (hne : digits ≠ [])
    (h : readNumeral 16 digits = some n) : parsePrefix digits = some n := by
  have hall : digits.takeWhile isHexDigit = digits :=
    List.takeWhile_eq_self_iff.mpr (isHexDigit_of_read h)
  rw [parsePrefix, hall]
  cases digits with
  | nil => exact absurd rfl hne
  | cons first rest => exact h

end Hex
