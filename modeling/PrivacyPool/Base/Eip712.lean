import Mathlib.Data.List.Sort
import Mathlib.Data.String.Basic
import PrivacyPool.Base.Bytes
import PrivacyPool.Base.Hex

/-!
# EIP-712

The digest that `eth_signTypedData_v4` assigns to typed data: the type string with
the referenced types sorted, the recursive encoding of the values, the hash of a
struct and the envelope with the domain separator. Values are JSON, as the wallet
receives them, and a value is encoded by recursion on it, for whatever type the
table prescribes at its place.

Of the atomic types, only `string`, `uint256` and `address` are covered.

## Main definitions

* `TypedData` — type tables, primary type, domain and message
* `encodeType`, `typeHash` — the string of a struct type and its hash
* `encodeValue` — the encoding of a value under a type
* `signingDigest` — the digest a wallet signs

## Main results

* `encodeValue_array`, `encodeValue_record` — the encoding of a list of values, and of
  a record field by field
-/

namespace Eip712

open Bytes

/-- A member of a struct type: its name and its type. -/
structure Field where
  name : String
  type : String
  deriving DecidableEq, Repr

/-- The struct types, each with its fields in order. -/
abbrev Types := List (String × List Field)

/-- The values that typed data is given as. -/
inductive Json
  | text (s : String)
  | array (elems : List Json)
  | record (members : List (String × Json))

/-- Typed data, as a wallet is asked to sign it. -/
structure TypedData where
  types : Types
  primaryType : String
  domain : Json
  message : Json

/-! ### Types -/

/-- The type of the elements of an array type. -/
def elementType (type : String) : Option String :=
  match type.toList.reverse with
  | ']' :: rest =>
    match rest.dropWhile (· ≠ '[') with
    | '[' :: name => some (String.ofList name.reverse)
    | _ => none
  | _ => none

/-- A type without its array brackets. -/
def baseType (type : String) : String := String.ofList (type.toList.takeWhile (· ≠ '['))

/-- Add a struct type and, through its fields, the ones it references. The fuel
bounds the nesting, which the number of types bounds. -/
def addReferenced (types : Types) : ℕ → List String → String → List String
  | 0, found, _ => found
  | fuel + 1, found, type =>
    if baseType type ∈ found then found else
      match types.lookup (baseType type) with
      | none => found
      | some fields =>
        (fields.map (·.type)).foldl (addReferenced types fuel) (found ++ [baseType type])

/-- The struct types that a type references, sorted by name. -/
def referencedTypes (types : Types) (type : String) : List String :=
  ((addReferenced types (types.length + 1) [] type).erase type).insertionSort (· ≤ ·)

/-- Texts one after the other, with a separator between them. -/
def joinWith (separator : String) : List String → String
  | [] => ""
  | [s] => s
  | s :: rest => s ++ separator ++ joinWith separator rest

/-- The string of one struct type. -/
def encodeFields (types : Types) (type : String) : String :=
  type ++ "(" ++
    joinWith "," (((types.lookup type).getD []).map fun field => field.type ++ " " ++ field.name) ++
    ")"

/-- The text of a struct type: its own members, and then those of the types that it refers to. -/
def encodeType (types : Types) (type : String) : String :=
  joinWith "" ((type :: referencedTypes types type).map (encodeFields types))

/-- The bytes of a text in UTF-8. -/
def utf8 (s : String) : List UInt8 := s.toUTF8.data.toList

variable (keccak : Keccak)

/-- The hash of the text of a type. -/
def typeHash (types : Types) (type : String) : List UInt8 :=
  keccak.hash (utf8 (encodeType types type))

/-! ### Values -/

/-- The encoding of an atomic value: a text by its hash, a number in its range as
a word. -/
def encodeAtom (type : String) (s : String) : Option (List UInt8) :=
  if type = "string" then some (keccak.hash (utf8 s))
  else if type = "uint256" then do
    let n ← Hex.readText s
    if n < 2 ^ 256 then some (word 32 n) else none
  else if type = "address" then do
    let n ← Hex.readText s
    if n < 2 ^ 160 then some (word 32 n) else none
  else none

mutual

/-- The encoding of a value under a type. -/
def encodeValue (types : Types) : Json → String → Option (List UInt8)
  | .text s, type => encodeAtom keccak type s
  | .array elems, type => do
    let element ← elementType type
    let encoded ← encodeElems types elems element
    return keccak.hash encoded.flatten
  | .record members, type => do
    let fields ← types.lookup type
    let encoders := encodeMembers types members
    let data ← fields.mapM fun field => do
      let encode ← encoders.lookup field.name
      encode field.type
    return keccak.hash (typeHash keccak types type ++ data.flatten)

/-- The encodings of the elements of an array. -/
def encodeElems (types : Types) : List Json → String → Option (List (List UInt8))
  | [], _ => some []
  | elem :: elems, type => do
    let first ← encodeValue types elem type
    let rest ← encodeElems types elems type
    return first :: rest

/-- The members of a record, each awaiting the type of its field. -/
def encodeMembers (types : Types) :
    List (String × Json) → List (String × (String → Option (List UInt8)))
  | [] => []
  | (name, value) :: members => (name, encodeValue types value) :: encodeMembers types members

end

/-! ### Rules -/

variable {keccak} {types : Types} {type : String}

theorem encodeElems_map {α : Type} {json : α → Json} {encoded : α → List UInt8} {items : List α}
    (h : ∀ item ∈ items, encodeValue keccak types (json item) type = some (encoded item)) :
    encodeElems keccak types (items.map json) type = some (items.map encoded) := by
  induction items with
  | nil => rfl
  | cons item items ih =>
    have hrest := ih fun i hi => h i (List.mem_cons_of_mem _ hi)
    simp [encodeElems, h item List.mem_cons_self, hrest]

/-- An array is encoded as the hash of its encoded elements, put together. -/
theorem encodeValue_array {element : String} {α : Type} {json : α → Json}
    {encoded : α → List UInt8} {items : List α} (htype : elementType type = some element)
    (h : ∀ item ∈ items, encodeValue keccak types (json item) element = some (encoded item)) :
    encodeValue keccak types (.array (items.map json)) type =
      some (keccak.hash (items.flatMap encoded)) := by
  simp [encodeValue, htype, encodeElems_map h, List.flatMap_def]

theorem lookup_encodeMembers (members : List (String × Json)) (name : String) :
    (encodeMembers keccak types members).lookup name =
      (members.lookup name).map (encodeValue keccak types) := by
  induction members with
  | nil => rfl
  | cons member members ih =>
    obtain ⟨name', value⟩ := member
    simp only [encodeMembers, List.lookup_cons, ih]
    split <;> rfl

/-- The member that a field names, encoded under the type of the field. -/
def EncodesField (keccak : Keccak) (types : Types) (members : List (String × Json))
    (field : Field) (bytes : List UInt8) : Prop :=
  ∃ value, members.lookup field.name = some value ∧
    encodeValue keccak types value field.type = some bytes

/-- A record is encoded as the hash of its type hash and its encoded fields. -/
theorem encodeValue_record {members : List (String × Json)} {fields : List Field}
    {data : List (List UInt8)} (hfields : types.lookup type = some fields)
    (hdata : List.Forall₂ (EncodesField keccak types members) fields data) :
    encodeValue keccak types (.record members) type =
      some (keccak.hash (typeHash keccak types type ++ data.flatten)) := by
  have hencoded : fields.mapM (fun field => do
      let encode ← (encodeMembers keccak types members).lookup field.name
      encode field.type) = some data := by
    rw [Hex.mapM_eq_some_iff]
    refine hdata.imp fun field bytes hfield => ?_
    obtain ⟨value, hlookup, hvalue⟩ := hfield
    simp [lookup_encodeMembers, hlookup, hvalue]
  simp only [encodeValue, hfields, Option.bind_eq_bind, Option.bind_some]
  simp only [Option.bind_eq_bind] at hencoded
  rw [hencoded]
  rfl

variable (keccak) (types) (type)

/-- `hashStruct` of a record. -/
def hashStruct (value : Json) : Option (List UInt8) :=
  match value with
  | .record members => encodeValue keccak types (.record members) type
  | _ => none

/-- The digest that a wallet signs for typed data. -/
def signingDigest (typedData : TypedData) : Option (List UInt8) := do
  let domainSeparator ← hashStruct keccak typedData.types "EIP712Domain" typedData.domain
  let structHash ← hashStruct keccak typedData.types typedData.primaryType typedData.message
  return keccak.hash ([0x19, 0x01] ++ domainSeparator ++ structHash)

end Eip712
