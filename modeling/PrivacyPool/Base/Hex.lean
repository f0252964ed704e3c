import Mathlib.Data.Int.Cast.Defs
import Mathlib.Data.List.DropRight
import Mathlib.Data.List.Forall2
import Mathlib.Data.Nat.Notation

/-!
# Numerals

Reading the numerals that `Nat.toDigits` writes, in a base up to sixteen, the texts that `BigInt`
takes, and a list of texts element by element.

## Main definitions

* `readNumeral` — the number a list of digits stands for
* `readBigInt` — the number that `BigInt` makes of a text
* `readText`, `writeText` — numbers as texts, written in hexadecimal

## Main results

* `readNumeral_toDigits`, `readText_writeText` — reading what was written gives the
  number back
* `mapM_eq_some_iff` — a list is read when each of its elements is
-/

namespace Hex

/-- The value of a hexadecimal digit, in either case. -/
def digitValue (c : Char) : Option ℕ :=
  if '0' ≤ c ∧ c ≤ '9' then some (c.toNat - '0'.toNat)
  else if 'a' ≤ c ∧ c ≤ 'f' then some (c.toNat - 'a'.toNat + 10)
  else if 'A' ≤ c ∧ c ≤ 'F' then some (c.toNat - 'A'.toNat + 10)
  else none

/-- Append a digit to the number read so far. -/
def readDigit (base n : ℕ) (c : Char) : Option ℕ := do
  let d ← digitValue c
  if d < base then some (base * n + d) else none

/-- The number that a list of digits stands for, most significant digit first. -/
def readNumeral (base : ℕ) (digits : List Char) : Option ℕ :=
  digits.foldlM (readDigit base) 0

theorem digitValue_digitChar : ∀ d < 16, digitValue (Nat.digitChar d) = some d := by
  decide

theorem readDigit_digitChar {base d : ℕ} (hbase : base ≤ 16) (hd : d < base) (n : ℕ) :
    readDigit base n (Nat.digitChar d) = some (base * n + d) := by
  simp [readDigit, digitValue_digitChar d (Nat.lt_of_lt_of_le hd hbase), hd]

theorem readNumeral_append_digit {base d n : ℕ} {digits : List Char} (hbase : base ≤ 16)
    (hd : d < base) (hread : readNumeral base digits = some n) :
    readNumeral base (digits ++ [Nat.digitChar d]) = some (base * n + d) := by
  rw [readNumeral] at hread ⊢
  rw [List.foldlM_append, hread]
  simp [readDigit_digitChar hbase hd]

/-- Reading what `Nat.toDigits` writes gives the number back. -/
theorem readNumeral_toDigits {base : ℕ} (hone : 1 < base) (hbase : base ≤ 16) (n : ℕ) :
    readNumeral base (Nat.toDigits base n) = some n := by
  induction n using Nat.strongRecOn with
  | ind n ih =>
    rw [Nat.toDigits_eq_if hone]
    split
    · rename_i hlt
      simpa using readNumeral_append_digit hbase hlt (show readNumeral base [] = some 0 from rfl)
    · rename_i hge
      have hdiv : n / base < n := Nat.div_lt_self (by omega) hone
      have hmod : n % base < base := Nat.mod_lt n (by omega)
      rw [readNumeral_append_digit hbase hmod (ih _ hdiv), Nat.div_add_mod]

/-! ### Texts -/

/-- The white space and the line ends of ECMAScript. -/
def isBlank (c : Char) : Bool :=
  c.toNat ∈ [0x9, 0xa, 0xb, 0xc, 0xd, 0x20, 0xa0, 0x1680, 0x2028, 0x2029, 0x202f, 0x205f, 0x3000,
    0xfeff] || decide (0x2000 ≤ c.toNat ∧ c.toNat ≤ 0x200a)

/-- The base of the digits that follow a marker. -/
def markerBase (c : Char) : Option ℕ :=
  if c = 'x' ∨ c = 'X' then some 16
  else if c = 'o' ∨ c = 'O' then some 8
  else if c = 'b' ∨ c = 'B' then some 2
  else none

/-- Digits, of which there must be one. -/
def readDigits (base : ℕ) (digits : List Char) : Option ℕ :=
  if digits = [] then none else readNumeral base digits

/-- Digits without a sign, behind a marker if they are not decimal. -/
def readUnsigned (chars : List Char) : Option ℕ :=
  match chars with
  | '0' :: marker :: digits =>
    match markerBase marker with
    | some base => readDigits base digits
    | none => readDigits 10 chars
  | _ => readDigits 10 chars

/-- `BigInt` of a text: blanks around the number are dropped, nothing stands for zero, and only a
decimal number has a sign. Absent where it throws. -/
def readBigInt (text : List Char) : Option ℤ :=
  match (text.dropWhile isBlank).rdropWhile isBlank with
  | [] => some 0
  | c :: digits =>
    if c = '-' then (readDigits 10 digits).map fun n : ℕ => -(n : ℤ)
    else if c = '+' then (readDigits 10 digits).map Nat.cast
    else (readUnsigned (c :: digits)).map Nat.cast

/-- The number that a text stands for, if it is not negative. -/
def readText (s : String) : Option ℕ := (readBigInt s.toList).bind Int.toNat?

/-- A number in hexadecimal, behind its marker. -/
def writeText (n : ℕ) : String := "0x" ++ String.ofList (Nat.toDigits 16 n)

/-- Characters that are read are digits. -/
theorem isSome_digitValue_of_read {base start n : ℕ} {digits : List Char}
    (h : digits.foldlM (readDigit base) start = some n) : ∀ c ∈ digits, (digitValue c).isSome := by
  induction digits generalizing start with
  | nil => exact fun _ h => absurd h List.not_mem_nil
  | cons c digits ih =>
    rw [List.foldlM_cons] at h
    obtain ⟨m, hm, hrest⟩ := Option.bind_eq_some_iff.mp h
    obtain ⟨d, hd, -⟩ := Option.bind_eq_some_iff.mp hm
    exact List.forall_mem_cons.mpr ⟨Option.isSome_of_mem hd, ih hrest⟩

/-- A digit is no blank and no sign. -/
theorem not_blank_of_digit {c : Char} (h : (digitValue c).isSome) :
    isBlank c = false ∧ c ≠ '-' ∧ c ≠ '+' := by
  have hcode : c.toNat < 128 := by
    unfold digitValue at h
    split_ifs at h with h₁ h₂ h₃
    · exact Nat.lt_of_le_of_lt (UInt32.le_iff_toNat_le.mp h₁.2) (by decide)
    · exact Nat.lt_of_le_of_lt (UInt32.le_iff_toNat_le.mp h₂.2) (by decide)
    · exact Nat.lt_of_le_of_lt (UInt32.le_iff_toNat_le.mp h₃.2) (by decide)
    · cases h
  have hall : ∀ n < 128, (digitValue (Char.ofNat n)).isSome →
      isBlank (Char.ofNat n) = false ∧ Char.ofNat n ≠ '-' ∧ Char.ofNat n ≠ '+' := by
    decide +kernel
  rw [← Char.ofNat_toNat c] at h ⊢
  exact hall _ hcode h

theorem trim_eq {text : List Char} (h : ∀ c ∈ text, isBlank c = false) :
    (text.dropWhile isBlank).rdropWhile isBlank = text := by
  cases text with
  | nil => rfl
  | cons c text =>
    rw [List.dropWhile_cons_of_neg (by rw [h c List.mem_cons_self]; exact Bool.false_ne_true),
      List.rdropWhile_eq_self_iff]
    exact fun _ hlast => absurd hlast (by rw [h _ (List.getLast_mem _)]; exact Bool.false_ne_true)

/-- Digits behind a marker are read in its base. -/
theorem readBigInt_marker {marker : Char} {base n : ℕ} {digits : List Char}
    (hmarker : markerBase marker = some base) (hblank : isBlank marker = false)
    (hne : digits ≠ []) (hread : readNumeral base digits = some n) :
    readBigInt ('0' :: marker :: digits) = some (n : ℤ) := by
  have hdigits := isSome_digitValue_of_read hread
  have htrim : (('0' :: marker :: digits).dropWhile isBlank).rdropWhile isBlank =
      '0' :: marker :: digits := by
    refine trim_eq (List.forall_mem_cons.mpr ⟨by decide, List.forall_mem_cons.mpr ⟨hblank, ?_⟩⟩)
    exact fun c hc => (not_blank_of_digit (hdigits c hc)).1
  rw [readBigInt, htrim]
  dsimp only
  rw [if_neg (by decide), if_neg (by decide), readUnsigned]
  rw [hmarker]
  dsimp only
  rw [readDigits, if_neg hne, hread]
  rfl

/-- A decimal numeral has no marker. -/
theorem readBigInt_toDigits (n : ℕ) : readBigInt (Nat.toDigits 10 n) = some (n : ℤ) := by
  have hread := readNumeral_toDigits (by decide : 1 < 10) (by decide) n
  have hdigits := isSome_digitValue_of_read hread
  have hisDigit : ∀ c ∈ Nat.toDigits 10 n, c.isDigit = true := fun c hc =>
    Nat.isDigit_of_mem_toDigits (by decide) (by decide) hc
  have hne : Nat.toDigits 10 n ≠ [] := Nat.toDigits_ne_nil
  have htrim := trim_eq fun c hc => (not_blank_of_digit (hdigits c hc)).1
  generalize Nat.toDigits 10 n = text at hread hdigits hisDigit hne htrim
  obtain ⟨c, digits, rfl⟩ := List.exists_cons_of_ne_nil hne
  obtain ⟨-, hminus, hplus⟩ := not_blank_of_digit (hdigits c List.mem_cons_self)
  -- The second letter of a numeral is a digit, and no digit is a marker.
  have hunsigned : readUnsigned (c :: digits) = readDigits 10 (c :: digits) := by
    unfold readUnsigned
    split
    · next marker rest heq =>
      have hmarker : marker.isDigit = true :=
        hisDigit marker (heq ▸ List.mem_cons_of_mem _ List.mem_cons_self)
      have hnone : markerBase marker = none := by
        unfold markerBase
        split_ifs with hx ho hb
        · rcases hx with rfl | rfl <;> cases hmarker
        · rcases ho with rfl | rfl <;> cases hmarker
        · rcases hb with rfl | rfl <;> cases hmarker
        · rfl
      rw [hnone]
    · rfl
  rw [readBigInt, htrim]
  dsimp only
  rw [if_neg hminus, if_neg hplus, hunsigned, readDigits, if_neg hne, hread]
  rfl

/-- Behind a minus a decimal numeral is read as a negative number. -/
theorem readBigInt_neg_toDigits (n : ℕ) :
    readBigInt ('-' :: Nat.toDigits 10 n) = some (-(n : ℤ)) := by
  have hread := readNumeral_toDigits (by decide : 1 < 10) (by decide) n
  have hdigits := isSome_digitValue_of_read hread
  have htrim : (('-' :: Nat.toDigits 10 n).dropWhile isBlank).rdropWhile isBlank =
      '-' :: Nat.toDigits 10 n :=
    trim_eq (List.forall_mem_cons.mpr
      ⟨by decide, fun c hc => (not_blank_of_digit (hdigits c hc)).1⟩)
  rw [readBigInt, htrim]
  dsimp only
  rw [if_pos rfl, readDigits, if_neg Nat.toDigits_ne_nil, hread]
  rfl

/-- A hexadecimal text stands for the number of its digits. -/
theorem readText_of_hex {s : String} {digits : List Char} {n : ℕ}
    (htext : s.toList = '0' :: 'x' :: digits ∨ s.toList = '0' :: 'X' :: digits)
    (hne : digits ≠ []) (hread : readNumeral 16 digits = some n) : readText s = some n := by
  have hbig : readBigInt s.toList = some (n : ℤ) := by
    rcases htext with htext | htext
    · rw [htext]
      exact readBigInt_marker rfl (by decide) hne hread
    · rw [htext]
      exact readBigInt_marker rfl (by decide) hne hread
  rw [readText, hbig]
  rfl

theorem readText_writeText (n : ℕ) : readText (writeText n) = some n :=
  readText_of_hex (.inl (by simp [writeText])) Nat.toDigits_ne_nil
    (readNumeral_toDigits (by decide) (by decide) n)

variable {α β : Type*}

theorem mapM_eq_some_iff {f : α → Option β} {as : List α} {bs : List β} :
    as.mapM f = some bs ↔ List.Forall₂ (fun a b => f a = some b) as bs := by
  induction as generalizing bs with
  | nil => cases bs <;> simp
  | cons a as ih =>
    cases bs with
    | nil => simp [List.mapM_cons, Option.bind_eq_some_iff]
    | cons b bs => simp [List.mapM_cons, ih, Option.bind_eq_some_iff]

end Hex
