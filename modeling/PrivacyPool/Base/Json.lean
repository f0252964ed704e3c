import Mathlib.Data.List.Nodup
import PrivacyPool.Base.AddressMap

/-!
# JSON texts

Writing and reading JSON, on texts of UTF-16 code units. What a number is and how it is
written is left open: numbers are a type with a format.

## Main definitions

* `NumberFormat` — how numbers are written and read
* `Value` — a JSON value
* `stringify`, `parse` — writing a value, and reading one

## Main results

* `readString_quote` — strings are read as they were written, with or without escapes
* `parse_stringify` — so are values
-/

namespace Json

/-- A text by its UTF-16 code units. -/
abbrev Text := List UInt16

/-- A text of ASCII characters. -/
def units (s : String) : Text := s.toList.map fun c => UInt16.ofNat c.toNat

/-! ### Code units -/

def quoteMark : UInt16 := 0x22
def plus : UInt16 := 0x2b
def comma : UInt16 := 0x2c
def minus : UInt16 := 0x2d
def point : UInt16 := 0x2e
def slash : UInt16 := 0x2f
def colon : UInt16 := 0x3a
def openBracket : UInt16 := 0x5b
def backslash : UInt16 := 0x5c
def closeBracket : UInt16 := 0x5d
def openBrace : UInt16 := 0x7b
def closeBrace : UInt16 := 0x7d

/-- A decimal digit. -/
def isDigit (c : UInt16) : Bool := 0x30 ≤ c ∧ c ≤ 0x39

/-- The code units of numbers. -/
def isNumberUnit (c : UInt16) : Bool :=
  isDigit c || c = plus || c = minus || c = point || c = 0x65 || c = 0x45

/-- The blanks of the grammar. -/
def isSpace (c : UInt16) : Bool := c = 0x20 || c = 0x09 || c = 0x0a || c = 0x0d

/-- The first half of a pair of surrogates. -/
def isHighSurrogate (c : UInt16) : Bool := 0xd800 ≤ c ∧ c ≤ 0xdbff

/-- The second half of a pair of surrogates. -/
def isLowSurrogate (c : UInt16) : Bool := 0xdc00 ≤ c ∧ c ≤ 0xdfff

/-- How numbers are written and read. -/
class NumberFormat (N : Type) where
  write : N → Text
  read : Text → Option N
  read_write : ∀ x, read (write x) = some x
  isNumberUnit : ∀ x, ∀ c ∈ write x, isNumberUnit c = true
  head : ∀ x, ∃ c text, write x = c :: text ∧ (isDigit c = true ∨ c = minus)

/-! ### Strings -/

/-- A digit of an escape, in lower case. -/
def hexDigit (d : ℕ) : UInt16 := UInt16.ofNat (if d < 10 then 0x30 + d else 0x57 + d)

/-- The value of a digit of an escape, in either case. -/
def hexValue (c : UInt16) : Option ℕ :=
  if 0x30 ≤ c ∧ c ≤ 0x39 then some (c.toNat - 0x30)
  else if 0x61 ≤ c ∧ c ≤ 0x66 then some (c.toNat - 0x57)
  else if 0x41 ≤ c ∧ c ≤ 0x46 then some (c.toNat - 0x37)
  else none

/-- The code unit that four hexadecimal digits stand for. -/
def hexUnit (a b c d : UInt16) : Option UInt16 := do
  let a ← hexValue a
  let b ← hexValue b
  let c ← hexValue c
  let d ← hexValue d
  return UInt16.ofNat (((a * 16 + b) * 16 + c) * 16 + d)

/-- `UnicodeEscape` -/
def unicodeEscape (c : UInt16) : Text :=
  [backslash, 0x75, hexDigit (c.toNat / 4096), hexDigit (c.toNat / 256 % 16),
    hexDigit (c.toNat / 16 % 16), hexDigit (c.toNat % 16)]

/-- The letters of the escapes with a letter, and the code units they stand for. -/
def escapes : List (UInt16 × UInt16) :=
  [(quoteMark, quoteMark), (backslash, backslash), (0x62, 0x08), (0x74, 0x09), (0x6e, 0x0a),
    (0x66, 0x0c), (0x72, 0x0d)]

/-- A code unit between the quotes, when it is not a surrogate. -/
def quoteUnit (c : UInt16) : Text :=
  match escapes.find? fun entry => entry.2 = c with
  | some entry => [backslash, entry.1]
  | none => if c < 0x20 then unicodeEscape c else [c]

/-- `QuoteJSONString`, between the quotes: a surrogate without its other half is escaped. -/
def quoteUnits : Text → Text
  | [] => []
  | [c] => if isHighSurrogate c || isLowSurrogate c then unicodeEscape c else quoteUnit c
  | c :: c' :: rest =>
    if isHighSurrogate c && isLowSurrogate c' then c :: c' :: quoteUnits rest
    else if isHighSurrogate c || isLowSurrogate c then unicodeEscape c ++ quoteUnits (c' :: rest)
    else quoteUnit c ++ quoteUnits (c' :: rest)

/-- A text between quotation marks, with its escapes. -/
def quote (s : Text) : Text := quoteMark :: (quoteUnits s ++ [quoteMark])

/-- The code unit of an escape with a letter. -/
def unescape (letter : UInt16) : Option UInt16 :=
  if letter = slash then some slash
  else (escapes.find? fun entry => entry.1 = letter).map Prod.snd

/-- The string up to its closing quote, and what is after it. -/
def readString : Text → Option (Text × Text)
  | [] => none
  | c :: rest =>
    if c = quoteMark then some ([], rest)
    else if c = backslash then
      match rest with
      | [] => none
      | letter :: rest =>
        if letter = 0x75 then
          match rest with
          | a :: b :: c :: d :: rest =>
            (hexUnit a b c d).bind fun unit => (readString rest).map fun (s, rest) => (unit :: s, rest)
          | _ => none
        else (unescape letter).bind fun unit =>
          (readString rest).map fun (s, rest) => (unit :: s, rest)
    else if c < 0x20 then none
    else (readString rest).map fun (s, rest) => (c :: s, rest)

theorem hexValue_hexDigit : ∀ d < 16, hexValue (hexDigit d) = some d := by decide

theorem hexUnit_unicodeEscape (c : UInt16) :
    hexUnit (hexDigit (c.toNat / 4096)) (hexDigit (c.toNat / 256 % 16))
      (hexDigit (c.toNat / 16 % 16)) (hexDigit (c.toNat % 16)) = some c := by
  have hlt := c.toNat_lt
  have hnumber : ((c.toNat / 4096 * 16 + c.toNat / 256 % 16) * 16 + c.toNat / 16 % 16) * 16 +
      c.toNat % 16 = c.toNat := by omega
  unfold hexUnit
  rw [hexValue_hexDigit _ (by omega), hexValue_hexDigit _ (by omega), hexValue_hexDigit _ (by omega),
    hexValue_hexDigit _ (by omega)]
  change some (UInt16.ofNat _) = some c
  rw [hnumber, UInt16.ofNat_toNat]

/-- An escaped code unit is read back. -/
theorem readString_unicodeEscape (c : UInt16) (text : Text) :
    readString (unicodeEscape c ++ text) =
      (readString text).map fun (s, rest) => (c :: s, rest) := by
  have hunit := hexUnit_unicodeEscape c
  unfold unicodeEscape
  simp only [List.cons_append, List.nil_append]
  rw [readString]
  simp [show backslash ≠ quoteMark by decide, hunit]

/-- A code unit that stands for itself is read as such. -/
theorem readString_unit {c : UInt16} (hquote : c ≠ quoteMark) (hescape : c ≠ backslash)
    (hcontrol : ¬c < 0x20) (text : Text) :
    readString (c :: text) = (readString text).map fun (s, rest) => (c :: s, rest) := by
  rw [readString.eq_def]
  simp only [if_neg hquote, if_neg hescape, if_neg hcontrol]

theorem unescape_escapes : ∀ entry ∈ escapes, unescape entry.1 = some entry.2 ∧
    entry.1 ≠ 0x75 := by
  simp only [escapes, List.forall_mem_cons, List.not_mem_nil, false_implies, implies_true,
    and_true]
  decide

theorem readString_quoteUnit (c : UInt16) (text : Text) :
    readString (quoteUnit c ++ text) = (readString text).map fun (s, rest) => (c :: s, rest) := by
  unfold quoteUnit
  split
  · rename_i entry hfind
    obtain ⟨hunescape, hletter⟩ := unescape_escapes entry (List.mem_of_find?_eq_some hfind)
    obtain rfl : entry.2 = c := by simpa using List.find?_some hfind
    rw [List.cons_append, List.singleton_append, readString.eq_def]
    simp [show backslash ≠ quoteMark by decide, hletter, hunescape]
  · rename_i hfind
    have hnone : ∀ entry ∈ escapes, entry.2 ≠ c := fun entry hentry hsame =>
      List.find?_eq_none.mp hfind entry hentry (decide_eq_true hsame)
    split_ifs with hcontrol
    · exact readString_unicodeEscape c text
    · exact readString_unit (hnone (quoteMark, quoteMark) (by decide)).symm
        (hnone (backslash, backslash) (by decide)).symm hcontrol text

/-- A surrogate is none of the code units with a meaning. -/
theorem readString_surrogate {c : UInt16} (h : isHighSurrogate c = true ∨ isLowSurrogate c = true)
    (text : Text) :
    readString (c :: text) = (readString text).map fun (s, rest) => (c :: s, rest) := by
  have hlarge : (0xd800 : UInt16) ≤ c := by
    unfold isHighSurrogate isLowSurrogate at h
    rcases h with h | h
    · exact (of_decide_eq_true h).1
    · exact UInt16.le_trans (by decide) (of_decide_eq_true h).1
  have hsmall : ∀ d : UInt16, d < 0xd800 → c ≠ d := by
    rintro d hd rfl
    exact absurd hlarge (UInt16.not_le.mpr hd)
  refine readString_unit (hsmall _ (by decide)) (hsmall _ (by decide)) (fun hcontrol => ?_) text
  exact absurd (UInt16.lt_trans hcontrol (by decide : (0x20 : UInt16) < 0xd800))
    (UInt16.not_lt.mpr hlarge)

/-- A string is read as it was written. -/
theorem readString_quote (s rest : Text) :
    readString (quoteUnits s ++ quoteMark :: rest) = some (s, rest) := by
  induction s using quoteUnits.induct with
  | case1 =>
    rw [quoteUnits, List.nil_append, readString.eq_def]
    simp
  | case2 c hsurrogate =>
    rw [quoteUnits, if_pos hsurrogate, readString_unicodeEscape, readString.eq_def]
    simp
  | case3 c hother =>
    rw [quoteUnits, if_neg hother, readString_quoteUnit, readString.eq_def]
    simp
  | case4 c c' text hpair ih =>
    obtain ⟨hhigh, hlow⟩ := Bool.and_eq_true_iff.mp hpair
    rw [quoteUnits, if_pos hpair, List.cons_append, List.cons_append,
      readString_surrogate (.inl hhigh), readString_surrogate (.inr hlow), ih]
    rfl
  | case5 c c' text hpair hsurrogate ih =>
    rw [quoteUnits, if_neg hpair, if_pos hsurrogate, List.append_assoc, readString_unicodeEscape, ih]
    rfl
  | case6 c c' text hpair hother ih =>
    rw [quoteUnits, if_neg hpair, if_neg hother, List.append_assoc, readString_quoteUnit, ih]
    rfl

/-! ### Values -/

/-- A JSON value. The members of an object are in the order of their text. -/
inductive Value (N : Type)
  | null
  | bool (b : Bool)
  | number (x : N)
  | string (s : Text)
  | array (elements : List (Value N))
  | object (members : List (Text × Value N))

variable {N : Type} [NumberFormat N]

mutual

/-- The text of a value. -/
def stringify : Value N → Text
  | .null => units "null"
  | .bool true => units "true"
  | .bool false => units "false"
  | .number x => NumberFormat.write x
  | .string s => quote s
  | .array elements => openBracket :: stringifyElements true elements
  | .object members => openBrace :: stringifyMembers true members

/-- The elements of an array, up to its closing bracket. -/
def stringifyElements : Bool → List (Value N) → Text
  | _, [] => [closeBracket]
  | first, value :: elements =>
    (if first then [] else [comma]) ++ stringify value ++ stringifyElements false elements

/-- The members of an object, up to its closing brace. -/
def stringifyMembers : Bool → List (Text × Value N) → Text
  | _, [] => [closeBrace]
  | first, member :: members =>
    (if first then [] else [comma]) ++ stringifyMember member ++ stringifyMembers false members

/-- A member of an object: its key, a colon and its value. -/
def stringifyMember : Text × Value N → Text
  | (key, value) => quote key ++ colon :: stringify value

end

/-- The text after white space. -/
def skip : Text → Text
  | [] => []
  | c :: rest => if isSpace c then skip rest else c :: rest

/-- A literal or a number. -/
def readPlain (text : Text) : Option (Value N × Text) :=
  if units "null" <+: text then some (.null, text.drop 4)
  else if units "true" <+: text then some (.bool true, text.drop 4)
  else if units "false" <+: text then some (.bool false, text.drop 5)
  else (NumberFormat.read (text.takeWhile isNumberUnit)).map fun x =>
    (.number x, text.dropWhile isNumberUnit)

/-- The text after a mark. -/
def expect (mark : UInt16) (text : Text) : Option Text :=
  match skip text with
  | [] => none
  | c :: rest => if c = mark then some rest else none

/-- The text after the comma that separates an element or a member from the one before. -/
def separator (first : Bool) (text : Text) : Option Text :=
  if first then some text else expect comma text

/-- The members of an object: a later one with the same key replaces an earlier one. -/
def collect (members : List (Text × Value N)) : List (Text × Value N) :=
  members.foldl (fun collected member => AddressMap.set collected member.1 member.2) []

mutual

/-- A value, and what is after it. -/
def readValue : ℕ → Text → Option (Value N × Text)
  | 0, _ => none
  | fuel + 1, text =>
    match skip text with
    | [] => none
    | c :: rest =>
      if c = quoteMark then (readString rest).map fun (s, rest) => (.string s, rest)
      else if c = openBracket then
        (readElements fuel true rest).map fun (elements, rest) => (.array elements, rest)
      else if c = openBrace then
        (readMembers fuel true rest).map fun (members, rest) => (.object (collect members), rest)
      else readPlain (c :: rest)

/-- The elements of an array, from the first one or from after an element. -/
def readElements : ℕ → Bool → Text → Option (List (Value N) × Text)
  | 0, _, _ => none
  | fuel + 1, first, text =>
    match expect closeBracket text with
    | some rest => some ([], rest)
    | none => do
      let text ← separator first text
      let (value, text) ← readValue fuel text
      let (elements, text) ← readElements fuel false text
      return (value :: elements, text)

/-- The members of an object, from the first one or from after a member. -/
def readMembers : ℕ → Bool → Text → Option (List (Text × Value N) × Text)
  | 0, _, _ => none
  | fuel + 1, first, text =>
    match expect closeBrace text with
    | some rest => some ([], rest)
    | none => do
      let text ← separator first text
      let text ← expect quoteMark text
      let (key, text) ← readString text
      let text ← expect colon text
      let (value, text) ← readValue fuel text
      let (members, text) ← readMembers fuel false text
      return ((key, value) :: members, text)

end

/-- The value that a text stands for. -/
def parse (text : Text) : Option (Value N) :=
  match readValue (text.length + 1) text with
  | some (value, rest) => if skip rest = [] then some value else none
  | none => none

/-! ### Reading what was written -/

mutual

/-- No object has a key twice. -/
def Value.Distinct : Value N → Prop
  | .array elements => DistinctElements elements
  | .object members => (HashMap.keys members).Nodup ∧ DistinctMembers members
  | _ => True

/-- The objects in the elements of an array have distinct keys. -/
def DistinctElements : List (Value N) → Prop
  | [] => True
  | value :: elements => value.Distinct ∧ DistinctElements elements

/-- The objects in the members of an object have distinct keys. -/
def DistinctMembers : List (Text × Value N) → Prop
  | [] => True
  | member :: members => DistinctMember member ∧ DistinctMembers members

/-- The objects in the value of a member have distinct keys. -/
def DistinctMember : Text × Value N → Prop
  | (_, value) => value.Distinct

end

/-- A text that does not go on with a number. -/
def Ends (text : Text) : Prop := ∀ c ∈ text.head?, isNumberUnit c = false

theorem ends_cons {c : UInt16} (h : isNumberUnit c = false) (text : Text) : Ends (c :: text) := by
  intro c' hc'
  obtain rfl := Option.some.inj hc'
  exact h

theorem skip_cons {c : UInt16} (h : isSpace c = false) (text : Text) :
    skip (c :: text) = c :: text := by
  rw [skip, if_neg (by simp [h])]

theorem expect_self {mark : UInt16} (h : isSpace mark = false) (text : Text) :
    expect mark (mark :: text) = some text := by
  unfold expect
  rw [skip_cons h]
  exact if_pos rfl

theorem expect_other {mark c : UInt16} (h : isSpace c = false) (hne : c ≠ mark) (text : Text) :
    expect mark (c :: text) = none := by
  unfold expect
  rw [skip_cons h]
  exact if_neg hne

omit [NumberFormat N] in
/-- Members with different keys are collected as they are. -/
theorem collect_eq {members : List (Text × Value N)} (h : (HashMap.keys members).Nodup) :
    collect members = members :=
  AddressMap.foldl_set_eq (m := []) h

/-- The first code unit of a number is a digit or a minus. -/
theorem number_head {c : UInt16} (h : isDigit c = true ∨ c = minus) :
    isSpace c = false ∧ c ≠ closeBracket ∧ c ≠ quoteMark ∧ c ≠ openBracket ∧ c ≠ openBrace ∧
      c ≠ 0x6e ∧ c ≠ 0x74 ∧ c ≠ 0x66 := by
  rcases h with hdigit | rfl
  · obtain ⟨hlow, hhigh⟩ := of_decide_eq_true hdigit
    have hne : ∀ d : UInt16, d < 0x30 ∨ 0x39 < d → c ≠ d := by
      rintro d hd rfl
      rcases hd with hd | hd
      · exact UInt16.not_le.mpr hd hlow
      · exact UInt16.not_le.mpr hd hhigh
    refine ⟨?_, hne _ (by decide), hne _ (by decide), hne _ (by decide), hne _ (by decide),
      hne _ (by decide), hne _ (by decide), hne _ (by decide)⟩
    unfold isSpace
    simp [hne 0x20 (by decide), hne 0x09 (by decide), hne 0x0a (by decide), hne 0x0d (by decide)]
  · decide

/-- A value does not begin with white space or a closing bracket. -/
theorem stringify_head (value : Value N) : ∃ c text, stringify value = c :: text ∧
    isSpace c = false ∧ c ≠ closeBracket := by
  cases value with
  | null => exact ⟨0x6e, units "ull", rfl, by decide, by decide⟩
  | bool b =>
    cases b with
    | true => exact ⟨0x74, units "rue", rfl, by decide, by decide⟩
    | false => exact ⟨0x66, units "alse", rfl, by decide, by decide⟩
  | number x =>
    obtain ⟨c, text, htext, hhead⟩ := NumberFormat.head x
    obtain ⟨hspace, hbracket, -⟩ := number_head hhead
    exact ⟨c, text, htext, hspace, hbracket⟩
  | string s => exact ⟨quoteMark, _, rfl, by decide, by decide⟩
  | array elements => exact ⟨openBracket, _, rfl, by decide, by decide⟩
  | object members => exact ⟨openBrace, _, rfl, by decide, by decide⟩

/-- A number is read up to its end. -/
theorem readPlain_number (x : N) {rest : Text} (hends : Ends rest) :
    readPlain (NumberFormat.write x ++ rest) = some (.number x, rest) := by
  have hall := NumberFormat.isNumberUnit x
  obtain ⟨c, text, htext, hhead⟩ := NumberFormat.head x
  obtain ⟨-, -, -, -, -, hnull, htrue, hfalse⟩ := number_head hhead
  have hliteral : ∀ (d : UInt16) (literal : Text), c ≠ d →
      ¬(d :: literal) <+: NumberFormat.write x ++ rest := by
    rintro d literal hne ⟨more, hmore⟩
    rw [htext, List.cons_append, List.cons_append] at hmore
    exact hne (List.cons.inj hmore).1.symm
  have hnotNull : ¬units "null" <+: _ := hliteral 0x6e (units "ull") hnull
  have hnotTrue : ¬units "true" <+: _ := hliteral 0x74 (units "rue") htrue
  have hnotFalse : ¬units "false" <+: _ := hliteral 0x66 (units "alse") hfalse
  have hrest : rest.takeWhile isNumberUnit = [] ∧ rest.dropWhile isNumberUnit = rest := by
    cases rest with
    | nil => exact ⟨rfl, rfl⟩
    | cons c rest =>
      have hc := hends c rfl
      simp [hc]
  unfold readPlain
  rw [if_neg hnotNull, if_neg hnotTrue, if_neg hnotFalse,
    List.takeWhile_append_of_pos hall, List.dropWhile_append_of_pos hall, hrest.1, hrest.2,
    List.append_nil, NumberFormat.read_write]
  rfl

theorem readPlain_literal (rest : Text) :
    readPlain (units "null" ++ rest) = some (Value.null (N := N), rest) ∧
      readPlain (units "true" ++ rest) = some (Value.bool (N := N) true, rest) ∧
      readPlain (units "false" ++ rest) = some (Value.bool (N := N) false, rest) := by
  have hother : ∀ {c d : UInt16} {text literal : Text}, c ≠ d → ¬(d :: literal) <+: c :: text := by
    rintro c d text literal hne ⟨more, hmore⟩
    exact hne (List.cons.inj hmore).1.symm
  refine ⟨if_pos (List.prefix_append _ _), ?_, ?_⟩
  · exact (if_neg (hother (by decide))).trans (if_pos (List.prefix_append _ _))
  · exact (if_neg (hother (by decide))).trans
      ((if_neg (hother (by decide))).trans (if_pos (List.prefix_append _ _)))

/-- A plain value is read as a literal or a number. -/
theorem readValue_plain {fuel : ℕ} {c : UInt16} {text : Text} (hspace : isSpace c = false)
    (hquote : c ≠ quoteMark) (hbracket : c ≠ openBracket) (hbrace : c ≠ openBrace) :
    readValue (N := N) (fuel + 1) (c :: text) = readPlain (c :: text) := by
  rw [readValue, skip_cons hspace]
  simp only [if_neg hquote, if_neg hbracket, if_neg hbrace]

/-- After an element or a member comes a comma or a closing mark. -/
theorem stringifyElements_tail (elements : List (Value N)) (rest : Text) :
    Ends (stringifyElements false elements ++ rest) ∧
      0 < (stringifyElements false elements).length := by
  cases elements with
  | nil =>
    rw [stringifyElements]
    exact ⟨ends_cons (by decide) _, Nat.one_pos⟩
  | cons value elements =>
    rw [stringifyElements, if_neg Bool.false_ne_true, List.append_assoc, List.singleton_append]
    exact ⟨ends_cons (by decide) _, Nat.succ_pos _⟩

theorem stringifyMembers_tail (members : List (Text × Value N)) (rest : Text) :
    Ends (stringifyMembers false members ++ rest) ∧
      0 < (stringifyMembers false members).length := by
  cases members with
  | nil =>
    rw [stringifyMembers]
    exact ⟨ends_cons (by decide) _, Nat.one_pos⟩
  | cons member members =>
    rw [stringifyMembers, if_neg Bool.false_ne_true, List.append_assoc, List.singleton_append]
    exact ⟨ends_cons (by decide) _, Nat.succ_pos _⟩

theorem stringify_length_pos (value : Value N) : 0 < (stringify value).length := by
  obtain ⟨c, text, htext, -⟩ := stringify_head value
  rw [htext]
  exact Nat.succ_pos _

/-- The separator in front of an element or a member is read, if there is one. -/
theorem readSeparator {close c : UInt16} {text : Text} (hclose : comma ≠ close)
    (hspace : isSpace c = false) (hne : c ≠ close) (first : Bool) :
    expect close ((if first then [] else [comma]) ++ c :: text) = none ∧
      separator first ((if first then [] else [comma]) ++ c :: text) = some (c :: text) := by
  cases first with
  | true => exact ⟨expect_other hspace hne text, rfl⟩
  | false =>
    have hcomma : isSpace comma = false := by decide
    exact ⟨expect_other hcomma hclose _, expect_self hcomma _⟩

mutual

/-- A value is read as it was written, with what is after it left over. -/
theorem readValue_stringify : ∀ (value : Value N) (fuel : ℕ) (rest : Text), value.Distinct →
    (stringify value).length ≤ fuel → Ends rest →
      readValue fuel (stringify value ++ rest) = some (value, rest)
  -- Every text has at least one character, so the fuel cannot be used up.
  | value, 0, rest, _, hfuel, _ => by
    obtain ⟨c, text, htext, -⟩ := stringify_head value
    rw [htext] at hfuel
    cases hfuel
  -- Literals and numbers are read by the case of neither a text nor a bracket.
  | .null, fuel + 1, rest, _, _, _ =>
    (readValue_plain (by decide) (by decide) (by decide) (by decide)).trans
      (readPlain_literal rest).1
  | .bool true, fuel + 1, rest, _, _, _ =>
    (readValue_plain (by decide) (by decide) (by decide) (by decide)).trans
      (readPlain_literal rest).2.1
  | .bool false, fuel + 1, rest, _, _, _ =>
    (readValue_plain (by decide) (by decide) (by decide) (by decide)).trans
      (readPlain_literal rest).2.2
  | .number x, fuel + 1, rest, _, _, hends => by
    have hplain := readPlain_number x hends
    obtain ⟨c, text, htext, hhead⟩ := NumberFormat.head x
    obtain ⟨hspace, -, hquote, hbracket, hbrace, -⟩ := number_head hhead
    rw [htext] at hplain
    rw [stringify, htext, List.cons_append, readValue_plain hspace hquote hbracket hbrace]
    exact hplain
  -- Texts, arrays and objects are told by their first character.
  | .string s, fuel + 1, rest, _, _, _ => by
    have hread := readString_quote s rest
    rw [stringify, quote, List.cons_append, List.append_assoc, readValue, skip_cons (by decide)]
    simp only [if_pos, List.singleton_append, hread, Option.map_some]
  | .array elements, fuel + 1, rest, hdistinct, hfuel, _ => by
    rw [stringify, List.length_cons] at hfuel
    have hread := readElements_stringify elements true fuel rest hdistinct (by omega)
    rw [stringify, List.cons_append, readValue, skip_cons (by decide)]
    simp only [if_neg (show openBracket ≠ quoteMark by decide), if_pos, hread, Option.map_some]
  | .object members, fuel + 1, rest, hdistinct, hfuel, _ => by
    rw [stringify, List.length_cons] at hfuel
    obtain ⟨hkeys, hmembers⟩ := hdistinct
    have hread := readMembers_stringify members true fuel rest hmembers (by omega)
    rw [stringify, List.cons_append, readValue, skip_cons (by decide)]
    simp only [if_neg (show openBrace ≠ quoteMark by decide),
      if_neg (show openBrace ≠ openBracket by decide), if_pos, hread, Option.map_some,
      collect_eq hkeys]

theorem readElements_stringify : ∀ (elements : List (Value N)) (first : Bool) (fuel : ℕ)
    (rest : Text), DistinctElements elements → (stringifyElements first elements).length ≤ fuel →
      readElements fuel first (stringifyElements first elements ++ rest) = some (elements, rest)
  | [], first, 0, rest, _, hfuel => by
    rw [stringifyElements] at hfuel
    cases hfuel
  | [], first, fuel + 1, rest, _, _ => by
    rw [stringifyElements, List.singleton_append, readElements, expect_self (by decide)]
  | value :: elements, first, 0, rest, _, hfuel => by
    have hpos := stringify_length_pos value
    rw [stringifyElements, List.length_append, List.length_append] at hfuel
    omega
  | value :: elements, first, fuel + 1, rest, hdistinct, hfuel => by
    obtain ⟨hvalue, helements⟩ := hdistinct
    obtain ⟨hends, hlength⟩ := stringifyElements_tail elements rest
    have hpos := stringify_length_pos value
    rw [stringifyElements, List.length_append, List.length_append] at hfuel
    have hread := readValue_stringify value fuel (stringifyElements false elements ++ rest) hvalue
      (by omega) hends
    have hrest := readElements_stringify elements false fuel rest helements (by omega)
    obtain ⟨c, text, htext, hspace, hclose⟩ := stringify_head value
    rw [htext, List.cons_append] at hread
    rw [stringifyElements, htext, List.append_assoc, List.append_assoc, List.cons_append,
      readElements]
    obtain ⟨hother, hseparator⟩ := readSeparator (by decide) hspace hclose first
    rw [hother]
    simp [hseparator, hread, hrest]

theorem readMembers_stringify : ∀ (members : List (Text × Value N)) (first : Bool) (fuel : ℕ)
    (rest : Text), DistinctMembers members → (stringifyMembers first members).length ≤ fuel →
      readMembers fuel first (stringifyMembers first members ++ rest) = some (members, rest)
  | [], first, 0, rest, _, hfuel => by
    rw [stringifyMembers] at hfuel
    cases hfuel
  | [], first, fuel + 1, rest, _, _ => by
    rw [stringifyMembers, List.singleton_append, readMembers, expect_self (by decide)]
  | (key, value) :: members, first, 0, rest, _, hfuel => by
    rw [stringifyMembers, stringifyMember, quote, List.length_append, List.length_append] at hfuel
    simp at hfuel
  | (key, value) :: members, first, fuel + 1, rest, hdistinct, hfuel => by
    obtain ⟨hvalue, hmembers⟩ := hdistinct
    obtain ⟨hends, hlength⟩ := stringifyMembers_tail members rest
    rw [stringifyMembers, stringifyMember, quote, List.length_append, List.length_append,
      List.cons_append, List.length_cons, List.length_append, List.length_cons] at hfuel
    have hread := readValue_stringify value fuel (stringifyMembers false members ++ rest) hvalue
      (by omega) hends
    have hrest := readMembers_stringify members false fuel rest hmembers (by omega)
    have hkey := readString_quote key (colon :: (stringify value ++
      (stringifyMembers false members ++ rest)))
    have hcomma : comma ≠ closeBrace := by decide
    have hquote : quoteMark ≠ closeBrace := by decide
    have hspace : isSpace quoteMark = false := by decide
    obtain ⟨hother, hseparator⟩ : _ ∧ separator first ((if first then [] else [comma]) ++
        quoteMark :: (quoteUnits key ++ quoteMark :: colon :: (stringify value ++
          (stringifyMembers false members ++ rest)))) = some _ :=
      readSeparator hcomma hspace hquote first
    -- The text up to the value, with the comma that all members but the first have.
    have htext : stringifyMembers first ((key, value) :: members) ++ rest =
        (if first then [] else [comma]) ++ quoteMark :: (quoteUnits key ++ quoteMark :: colon ::
          (stringify value ++ (stringifyMembers false members ++ rest))) := by
      rw [stringifyMembers, stringifyMember, quote]
      simp
    rw [htext, readMembers, hother]
    simp [hseparator, expect_self hspace,
      expect_self (show isSpace colon = false by decide), hkey, hread, hrest]

end

/-- A value whose objects have no key twice is read as it was written. -/
theorem parse_stringify {value : Value N} (h : value.Distinct) :
    parse (stringify value) = some value := by
  have hread := readValue_stringify value ((stringify value).length + 1) [] h (Nat.le_succ _)
    (fun _ hc => nomatch hc)
  rw [List.append_nil] at hread
  unfold parse
  rw [hread]
  rfl

end Json
