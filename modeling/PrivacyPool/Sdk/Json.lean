import Mathlib.Data.Int.Notation
import PrivacyPool.Base.Hex
import PrivacyPool.Base.Json

/-!
# Stored values

`utils/json.ts`: big integers, maps and sets are stored in JSON as objects with a marker.
Writing replaces them from the outside in, and reading restores them from the inside out.

## Main definitions

* `JsValue` — a value of the language
* `replacer`, `reviver` — what becomes of a value when it is written or read
* `jsonStringify`, `jsonParse` — the text of a value, and the value of a text

## Main results

* `jsonParse_jsonStringify` — a value is read as it was written
-/

namespace PrivacyPool.Sdk

open Json

/-- What a text begins with that stands for a big integer. -/
def BIGINT_PREFIX : Text := units "__bigint__:"

/-- The member that marks a map. -/
def MAP_MARKER : Text := units "__map__"

/-- The member that marks a set. -/
def SET_MARKER : Text := units "__set__"

/-- A value of the language: the fields of an object and the entries of a map are in their
order. -/
inductive JsValue (N : Type)
  | bigint (n : ℤ)
  | string (s : Text)
  | number (x : N)
  | bool (b : Bool)
  | null
  | array (elements : List (JsValue N))
  | object (fields : List (Text × JsValue N))
  | map (entries : List (JsValue N × JsValue N))
  | set (elements : List (JsValue N))

/-! ### Big integers -/

def toUnit (c : Char) : UInt16 := UInt16.ofNat c.toNat

def toChar (unit : UInt16) : Char := Char.ofNat unit.toNat

/-- `toString()` of a big integer -/
def bigintToString (n : ℤ) : Text :=
  if n < 0 then minus :: (Nat.toDigits 10 n.natAbs).map toUnit
  else (Nat.toDigits 10 n.natAbs).map toUnit

/-- `BigInt(text)`, absent where it throws -/
def stringToBigint (text : Text) : Option ℤ := Hex.readBigInt (text.map toChar)

variable {N : Type}

/-! ### Writing -/

/-- The value that is written in place of another. -/
def replacer : JsValue N → JsValue N
  | .bigint n => .object [(BIGINT_PREFIX, .string (bigintToString n))]
  | .map entries => .object [(MAP_MARKER, .array (entries.map fun (k, v) => .array [k, v]))]
  | .set elements => .object [(SET_MARKER, .array elements)]
  | value => value

mutual

/-- `JSON.stringify(value, replacer)` before it is a text: the replacer is applied to a value,
and then to what the replaced value consists of. -/
def serialize : JsValue N → Value N
  | .bigint n => .object [(BIGINT_PREFIX, .string (bigintToString n))]
  | .string s => .string s
  | .number x => .number x
  | .bool b => .bool b
  | .null => .null
  | .array elements => .array (serializeElements elements)
  | .object fields => .object (serializeFields fields)
  | .map entries => .object [(MAP_MARKER, .array (serializeEntries entries))]
  | .set elements => .object [(SET_MARKER, .array (serializeElements elements))]

def serializeElements : List (JsValue N) → List (Value N)
  | [] => []
  | value :: elements => serialize value :: serializeElements elements

def serializeFields : List (Text × JsValue N) → List (Text × Value N)
  | [] => []
  | field :: fields => serializeField field :: serializeFields fields

def serializeField : Text × JsValue N → Text × Value N
  | (key, value) => (key, serialize value)

def serializeEntries : List (JsValue N × JsValue N) → List (Value N)
  | [] => []
  | entry :: entries => serializeEntry entry :: serializeEntries entries

def serializeEntry : JsValue N × JsValue N → Value N
  | (key, value) => .array [serialize key, serialize value]

end

/-- The text of a value, big integers, maps and sets included. -/
def jsonStringify [NumberFormat N] (value : JsValue N) : Text := stringify (serialize value)

/-! ### Reading -/

variable [DecidableEq N]

/-- Whether two keys of a map are the same. Objects that have been read are not. -/
def sameValueZero : JsValue N → JsValue N → Bool
  | .bigint m, .bigint n => m = n
  | .string s, .string t => s = t
  | .number x, .number y => x = y
  | .bool b, .bool c => b = c
  | .null, .null => true
  | _, _ => false

/-- `map.set(key, value)` -/
def mapSet {β : Type} (entries : List (JsValue N × β)) (entry : JsValue N × β) :
    List (JsValue N × β) :=
  if entries.any fun old => sameValueZero old.1 entry.1 then
    entries.map fun old => if sameValueZero old.1 entry.1 then (old.1, entry.2) else old
  else entries ++ [entry]

/-- `set.add(value)` -/
def setAdd (elements : List (JsValue N)) (value : JsValue N) : List (JsValue N) :=
  if elements.any fun old => sameValueZero old value then elements else elements ++ [value]

/-- An entry for `new Map`, which is read at the indices zero and one. -/
def toEntry : JsValue N → Option (JsValue N × JsValue N)
  | .array (key :: value :: _) => some (key, value)
  | _ => none

/-- `new Map(entries)`, absent where it throws -/
def newMap : JsValue N → Option (JsValue N)
  | .array items => (items.mapM toEntry).map fun entries => .map (entries.foldl mapSet [])
  | .null => some (.map [])
  | _ => none

/-- `new Set(elements)`, absent where it throws -/
def newSet : JsValue N → Option (JsValue N)
  | .array elements => some (.set (elements.foldl setAdd []))
  | .null => some (.set [])
  | _ => none

/-- `BigInt(value)`, absent where it throws -/
def newBigint : JsValue N → Option (JsValue N)
  | .string s => (stringToBigint s).map .bigint
  | .bigint n => some (.bigint n)
  | .bool b => some (.bigint b.toNat)
  | _ => none

/-- What a value that has been read stands for, when its parts have been restored. -/
def reviver (value : JsValue N) : Option (JsValue N) :=
  match value with
  | .object fields =>
    match AddressMap.get fields BIGINT_PREFIX, AddressMap.get fields MAP_MARKER,
      AddressMap.get fields SET_MARKER with
    | some digits, _, _ => newBigint digits
    | none, some entries, _ => newMap entries
    | none, none, some elements => newSet elements
    | none, none, none => some value
  | _ => some value

mutual

/-- `JSON.parse(text, reviver)` once the text has been read. -/
def revive : Value N → Option (JsValue N)
  | .null => reviver .null
  | .bool b => reviver (.bool b)
  | .number x => reviver (.number x)
  | .string s => reviver (.string s)
  | .array elements => (reviveElements elements).bind fun elements => reviver (.array elements)
  | .object members => (reviveMembers members).bind fun fields => reviver (.object fields)

def reviveElements : List (Value N) → Option (List (JsValue N))
  | [] => some []
  | value :: elements => do
    let value ← revive value
    let elements ← reviveElements elements
    return value :: elements

def reviveMembers : List (Text × Value N) → Option (List (Text × JsValue N))
  | [] => some []
  | member :: members => do
    let field ← reviveMember member
    let fields ← reviveMembers members
    return field :: fields

def reviveMember : Text × Value N → Option (Text × JsValue N)
  | (key, value) => (revive value).map fun value => (key, value)

end

/-- Absent where it throws. -/
def jsonParse [NumberFormat N] (text : Text) : Option (JsValue N) := (parse text).bind revive

/-! ### The digits of big integers -/

theorem toChar_toUnit {c : Char} (h : c.isDigit = true) : toChar (toUnit c) = c := by
  have hlt : c.toNat < 2 ^ 16 := by
    have hhigh : c.toNat ≤ 57 := (Char.isDigit_iff_toNat.mp h).2
    omega
  change Char.ofNat (UInt16.ofNat c.toNat).toNat = c
  rw [UInt16.toNat_ofNat', Nat.mod_eq_of_lt hlt, Char.ofNat_toNat]

theorem map_toChar_map_toUnit {digits : List Char} (h : ∀ c ∈ digits, c.isDigit = true) :
    (digits.map toUnit).map toChar = digits := by
  rw [List.map_map]
  exact (List.map_congr_left fun c hc => toChar_toUnit (h c hc)).trans (List.map_id digits)

/-- A big integer is read from its digits. -/
theorem stringToBigint_bigintToString (n : ℤ) : stringToBigint (bigintToString n) = some n := by
  have hdigits : ∀ c ∈ Nat.toDigits 10 n.natAbs, c.isDigit = true := fun c hc =>
    Nat.isDigit_of_mem_toDigits (by decide) (by decide) hc
  unfold bigintToString stringToBigint
  split_ifs with hneg
  · rw [List.map_cons, map_toChar_map_toUnit hdigits]
    refine (Hex.readBigInt_neg_toDigits n.natAbs).trans (congrArg some ?_)
    omega
  · rw [map_toChar_map_toUnit hdigits, Hex.readBigInt_toDigits]
    exact congrArg some (show (n.natAbs : ℤ) = n by omega)

/-! ### Values that can be stored -/

mutual

/-- A value whose objects have no field twice and none of the markers, and whose maps and sets
have no key or element twice. -/
def Storable : JsValue N → Prop
  | .array elements => StorableElements elements
  | .object fields => (HashMap.keys fields).Nodup ∧ BIGINT_PREFIX ∉ HashMap.keys fields ∧
      MAP_MARKER ∉ HashMap.keys fields ∧ SET_MARKER ∉ HashMap.keys fields ∧ StorableFields fields
  | .map entries =>
    entries.Pairwise (fun entry entry' => sameValueZero entry.1 entry'.1 = false) ∧
      StorableEntries entries
  | .set elements =>
    elements.Pairwise (fun value value' => sameValueZero value value' = false) ∧
      StorableElements elements
  | _ => True

def StorableElements : List (JsValue N) → Prop
  | [] => True
  | value :: elements => Storable value ∧ StorableElements elements

def StorableFields : List (Text × JsValue N) → Prop
  | [] => True
  | field :: fields => StorableField field ∧ StorableFields fields

def StorableField : Text × JsValue N → Prop
  | (_, value) => Storable value

def StorableEntries : List (JsValue N × JsValue N) → Prop
  | [] => True
  | entry :: entries => StorableEntry entry ∧ StorableEntries entries

def StorableEntry : JsValue N × JsValue N → Prop
  | (key, value) => Storable key ∧ Storable value

end

/-- Entries with different keys make a map as they are. -/
theorem foldl_mapSet {β : Type} {entries : List (JsValue N × β)}
    (h : entries.Pairwise fun entry entry' => sameValueZero entry.1 entry'.1 = false) :
    entries.foldl mapSet [] = entries := by
  have hall : ∀ old : List (JsValue N × β), (old ++ entries).Pairwise
      (fun entry entry' => sameValueZero entry.1 entry'.1 = false) →
        entries.foldl mapSet old = old ++ entries := by
    clear h
    induction entries with
    | nil => simp
    | cons entry entries ih =>
      intro old hpairwise
      have hfresh : (old.any fun other => sameValueZero other.1 entry.1) = false := by
        refine List.any_eq_false.mpr fun other hother => ?_
        rw [(List.pairwise_append.mp hpairwise).2.2 other hother entry List.mem_cons_self]
        exact Bool.false_ne_true
      rw [List.foldl_cons, mapSet, if_neg (by rw [hfresh]; exact Bool.false_ne_true), ih,
        List.append_assoc]
      · rfl
      · rwa [List.append_assoc]
  exact hall [] h

/-- Different elements make a set as they are. -/
theorem foldl_setAdd {elements : List (JsValue N)}
    (h : elements.Pairwise fun value value' => sameValueZero value value' = false) :
    elements.foldl setAdd [] = elements := by
  have hall : ∀ old : List (JsValue N), (old ++ elements).Pairwise
      (fun value value' => sameValueZero value value' = false) →
        elements.foldl setAdd old = old ++ elements := by
    clear h
    induction elements with
    | nil => simp
    | cons value elements ih =>
      intro old hpairwise
      have hfresh : (old.any fun other => sameValueZero other value) = false := by
        refine List.any_eq_false.mpr fun other hother => ?_
        rw [(List.pairwise_append.mp hpairwise).2.2 other hother value List.mem_cons_self]
        exact Bool.false_ne_true
      rw [List.foldl_cons, setAdd, if_neg (by rw [hfresh]; exact Bool.false_ne_true), ih,
        List.append_assoc]
      · rfl
      · rwa [List.append_assoc]
  exact hall [] h

/-- An object without markers stays as it is. -/
theorem reviver_object {fields : List (Text × JsValue N)}
    (hbigint : BIGINT_PREFIX ∉ HashMap.keys fields) (hmap : MAP_MARKER ∉ HashMap.keys fields)
    (hset : SET_MARKER ∉ HashMap.keys fields) :
    reviver (.object fields) = some (.object fields) := by
  unfold reviver
  dsimp only
  rw [AddressMap.get_eq_none_iff.mpr hbigint, AddressMap.get_eq_none_iff.mpr hmap,
    AddressMap.get_eq_none_iff.mpr hset]

omit [DecidableEq N] in
/-- Entries are read from the pairs that stand for them. -/
theorem mapM_toEntry (entries : List (JsValue N × JsValue N)) :
    (entries.map fun entry => JsValue.array [entry.1, entry.2]).mapM toEntry = some entries := by
  induction entries with
  | nil => rfl
  | cons entry entries ih =>
    rw [List.map_cons, List.mapM_cons, ih]
    rfl

mutual

/-- A value that can be stored is restored. -/
theorem revive_serialize : ∀ value : JsValue N, Storable value →
    revive (serialize value) = some value
  | .bigint n, _ => by
    rw [serialize, revive]
    simp only [reviveMembers, reviveMember, revive, reviver, Option.map_some, Option.bind_eq_bind,
      Option.bind_some, Option.pure_def]
    exact congrArg (Option.map JsValue.bigint) (stringToBigint_bigintToString n)
  | .string s, _ => rfl
  | .number x, _ => rfl
  | .bool b, _ => rfl
  | .null, _ => rfl
  | .array elements, h => by
    rw [serialize, revive, reviveElements_serialize elements h]
    rfl
  -- An object keeps its members unless it looks like one of the three markers.
  | .object fields, h => by
    obtain ⟨-, hbigint, hmap, hset, hfields⟩ := h
    rw [serialize, revive, reviveMembers_serialize fields hfields]
    exact reviver_object hbigint hmap hset
  | .map entries, h => by
    obtain ⟨hpairwise, hentries⟩ := h
    have helements := reviveElements_serializeEntries entries hentries
    rw [serialize, revive]
    simp only [reviveMembers, reviveMember, revive, helements, reviver, Option.map_some,
      Option.bind_eq_bind, Option.bind_some, Option.pure_def]
    change newMap _ = _
    rw [newMap, mapM_toEntry, Option.map_some, foldl_mapSet hpairwise]
  | .set elements, h => by
    obtain ⟨hpairwise, helements⟩ := h
    have hread := reviveElements_serialize elements helements
    rw [serialize, revive]
    simp only [reviveMembers, reviveMember, revive, hread, reviver, Option.map_some,
      Option.bind_eq_bind, Option.bind_some, Option.pure_def]
    change newSet _ = _
    rw [newSet, foldl_setAdd hpairwise]

theorem reviveElements_serialize : ∀ elements : List (JsValue N), StorableElements elements →
    reviveElements (serializeElements elements) = some elements
  | [], _ => rfl
  | value :: elements, h => by
    rw [serializeElements, reviveElements, revive_serialize value h.1,
      reviveElements_serialize elements h.2]
    rfl

theorem reviveMembers_serialize : ∀ fields : List (Text × JsValue N), StorableFields fields →
    reviveMembers (serializeFields fields) = some fields
  | [], _ => rfl
  | (key, value) :: fields, h => by
    rw [serializeFields, serializeField, reviveMembers, reviveMember, revive_serialize value h.1,
      reviveMembers_serialize fields h.2]
    rfl

theorem reviveElements_serializeEntries : ∀ entries : List (JsValue N × JsValue N),
    StorableEntries entries → reviveElements (serializeEntries entries) =
      some (entries.map fun entry => JsValue.array [entry.1, entry.2])
  | [], _ => rfl
  | (key, value) :: entries, h => by
    rw [serializeEntries, serializeEntry, reviveElements,
      reviveElements_serializeEntries entries h.2, revive, reviveElements,
      revive_serialize key h.1.1, reviveElements, revive_serialize value h.1.2]
    rfl

end

omit [DecidableEq N] in
theorem keys_serializeFields (fields : List (Text × JsValue N)) :
    HashMap.keys (serializeFields fields) = HashMap.keys fields := by
  induction fields with
  | nil => rfl
  | cons field fields ih =>
    obtain ⟨key, value⟩ := field
    rw [serializeFields, serializeField, HashMap.keys, List.map_cons]
    exact congrArg (key :: ·) ih

mutual

/-- What is written has no member twice. -/
theorem distinct_serialize : ∀ value : JsValue N, Storable value → (serialize value).Distinct
  | .bigint n, _ => ⟨List.nodup_singleton _, trivial, trivial⟩
  | .string s, _ => trivial
  | .number x, _ => trivial
  | .bool b, _ => trivial
  | .null, _ => trivial
  | .array elements, h => distinct_serializeElements elements h
  | .object fields, h => by
    obtain ⟨hkeys, -, -, -, hfields⟩ := h
    refine ⟨?_, distinct_serializeFields fields hfields⟩
    rwa [keys_serializeFields]
  | .map entries, h =>
    ⟨List.nodup_singleton _, distinct_serializeEntries entries h.2, trivial⟩
  | .set elements, h =>
    ⟨List.nodup_singleton _, distinct_serializeElements elements h.2, trivial⟩

theorem distinct_serializeElements : ∀ elements : List (JsValue N), StorableElements elements →
    DistinctElements (serializeElements elements)
  | [], _ => trivial
  | value :: elements, h =>
    ⟨distinct_serialize value h.1, distinct_serializeElements elements h.2⟩

theorem distinct_serializeFields : ∀ fields : List (Text × JsValue N), StorableFields fields →
    DistinctMembers (serializeFields fields)
  | [], _ => trivial
  | (_, value) :: fields, h =>
    ⟨distinct_serialize value h.1, distinct_serializeFields fields h.2⟩

theorem distinct_serializeEntries : ∀ entries : List (JsValue N × JsValue N),
    StorableEntries entries → DistinctElements (serializeEntries entries)
  | [], _ => trivial
  | (key, value) :: entries, h =>
    ⟨⟨distinct_serialize key h.1.1, distinct_serialize value h.1.2, trivial⟩,
      distinct_serializeEntries entries h.2⟩

end

omit [DecidableEq N] in
/-- What is written in place of a value is written like the value. -/
theorem serialize_replacer (value : JsValue N) : serialize (replacer value) = serialize value := by
  have helements : ∀ entries : List (JsValue N × JsValue N),
      serializeElements (entries.map fun (k, v) => JsValue.array [k, v]) =
        serializeEntries entries := by
    intro entries
    induction entries with
    | nil => rfl
    | cons entry entries ih =>
      obtain ⟨key, value⟩ := entry
      rw [List.map_cons, serializeElements, serializeEntries, ih]
      rfl
  cases value with
  | map entries =>
    rw [replacer, serialize, serialize, serializeFields, serializeField, serialize, helements]
    rfl
  | _ => rfl

/-- A value that can be stored is read as it was written. -/
theorem jsonParse_jsonStringify [NumberFormat N] {value : JsValue N} (h : Storable value) :
    jsonParse (jsonStringify value) = some value := by
  unfold jsonParse jsonStringify
  rw [parse_stringify (distinct_serialize value h), Option.bind_some, revive_serialize value h]

end PrivacyPool.Sdk
