import PrivacyPool.Sdk.ChannelSerde

/-!
# Stored values are read as they were written

## Main results

* `stored_values_round_trip` — values, channels and witnesses come back from their texts
-/

namespace PrivacyPool.Sdk

open Json Sdk.Serde

/-- **Round trip of stored values.** Whatever numbers are, a value of any nesting comes back from
its text, if its objects have no marker as a field and its maps and sets have no key twice,
and so do all channels and witnesses. -/
theorem stored_values_round_trip (N : Type) [JsNumber N] [DecidableEq N] :
    (∀ value : JsValue N, Storable value → jsonParse (jsonStringify value) = some value) ∧
    (∀ channel : Channel N, decodeChannel (encodeChannel channel) = .ok channel) ∧
    ∀ witness : Witness N, decodeWitness (encodeWitness witness) = .ok witness :=
  ⟨fun _ h => jsonParse_jsonStringify h, decodeChannel_encodeChannel, decodeWitness_encodeWitness⟩

namespace Sample

theorem bigintToString_eq (n : ℤ) : ∃ digits : List Char,
    (∀ c ∈ digits, c.isDigit = true) ∧ digits ≠ [] ∧
      (bigintToString n = minus :: digits.map toUnit ∨ bigintToString n = digits.map toUnit) := by
  refine ⟨Nat.toDigits 10 n.natAbs,
    fun c hc => Nat.isDigit_of_mem_toDigits (by decide) (by decide) hc, Nat.toDigits_ne_nil, ?_⟩
  unfold bigintToString
  split_ifs
  · exact .inl rfl
  · exact .inr rfl

theorem isDigit_toUnit {c : Char} (h : c.isDigit = true) : Json.isDigit (toUnit c) = true := by
  obtain ⟨hlow, hhigh⟩ := Char.isDigit_iff_toNat.mp h
  have hlow : 48 ≤ c.toNat := hlow
  have hhigh : c.toNat ≤ 57 := hhigh
  have hval : (toUnit c).toNat = c.toNat := by
    unfold toUnit
    rw [UInt16.toNat_ofNat', Nat.mod_eq_of_lt (by omega)]
  unfold Json.isDigit
  refine decide_eq_true ⟨UInt16.le_iff_toNat_le.mpr ?_, UInt16.le_iff_toNat_le.mpr ?_⟩
  · rw [hval]
    exact hlow
  · rw [hval]
    exact hhigh

/-- Integers in place of numbers. -/
instance integers : JsNumber ℤ where
  write := bigintToString
  read := stringToBigint
  read_write := stringToBigint_bigintToString
  isNumberUnit n c hc := by
    obtain ⟨digits, hdigits, -, htext⟩ := bigintToString_eq n
    have hdigit : ∀ c ∈ digits.map toUnit, isNumberUnit c = true := by
      intro c hc
      obtain ⟨d, hd, rfl⟩ := List.mem_map.mp hc
      unfold isNumberUnit
      rw [isDigit_toUnit (hdigits d hd)]
      rfl
    rcases htext with htext | htext
    · rw [htext] at hc
      rcases List.mem_cons.mp hc with rfl | hc
      · decide
      · exact hdigit c hc
    · rw [htext] at hc
      exact hdigit c hc
  head n := by
    obtain ⟨digits, hdigits, hne, htext⟩ := bigintToString_eq n
    rcases htext with htext | htext
    · exact ⟨minus, _, htext, .inr rfl⟩
    · obtain ⟨d, digits, rfl⟩ := List.exists_cons_of_ne_nil hne
      exact ⟨toUnit d, _, htext, .inl (isDigit_toUnit (hdigits d List.mem_cons_self))⟩
  one := 1
  toInteger := some

/-- A map from a big integer to a set of maps. -/
def nestedMap : JsValue ℤ :=
  .map [(.bigint 5, .set [.map [(.string (units "a"), .number (-3))], .null])]

end Sample

/-- A map that nests in a set that nests in a map comes back. -/
theorem stored_values_round_trip_sample :
    jsonParse (jsonStringify Sample.nestedMap) = some Sample.nestedMap := by
  have hnested : Storable Sample.nestedMap :=
    ⟨List.pairwise_singleton _ _, ⟨trivial, ⟨by decide, ⟨⟨List.pairwise_singleton _ _,
      ⟨trivial, trivial⟩, trivial⟩, trivial, trivial⟩⟩⟩, trivial⟩
  exact (stored_values_round_trip ℤ).1 Sample.nestedMap hnested

end PrivacyPool.Sdk
