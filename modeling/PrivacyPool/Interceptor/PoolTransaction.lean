import PrivacyPool.Base.Spelling
import PrivacyPool.Contract.ClientSerde
import PrivacyPool.ShadowAccount.Accounts

/-!
# Pool transactions

How the interceptor reads a prove transaction: it normalises the felts that it compares,
recognises a single call of the pool, and decodes the client actions in it with the ABI
coder of starknet.js, which is a parameter here.

## Main definitions

* `normalizeFelt`, `parseFelt`, `parseInt` — how texts are read
* `AbiDecoder` — the ABI coder
* `isSinglePoolCall`, `decodeClientActions` — reading a transaction
* `poolCall` — the felts of a single call of the pool

## Main results

* `normalizeFelt_of_spells` — every spelling of a felt has one normal form
* `decodeClientActions_of_spells` — a call of the pool decodes to what it carries
-/

namespace PrivacyPool.Interceptor

open Hex

/-! ### Texts -/

/-- A hexadecimal text in lower case, behind its marker and without leading zeros. -/
def normalizeFelt (value : String) : String :=
  let lower := value.toList.map Char.toLower
  let hex := match lower with
    | '0' :: 'x' :: rest => rest
    | _ => lower
  let significant := hex.dropWhile (· == '0')
  "0x" ++ String.ofList (if significant = [] then ['0'] else significant)

/-- `BigInt` of a text, absent where it throws. -/
def parseFelt (value : String) : Option ℕ := readText value

/-- `parseInt` of a text in base 16, absent where it is not a number or negative. -/
def parseInt (value : String) : Option ℕ :=
  let unsigned := match value.toList with
    | '+' :: rest => rest
    | text => text
  match unsigned with
  | '0' :: 'x' :: digits => parsePrefix digits
  | '0' :: 'X' :: digits => parsePrefix digits
  | digits => parsePrefix digits

/-- Every spelling of a number has the normal form that the number is written in. -/
theorem normalizeFelt_of_spells {value : String} {n : ℕ} (h : Spells value n) :
    normalizeFelt value = writeText n := by
  obtain ⟨digits, htext, -, hread⟩ := h
  have hlower : value.toList.map Char.toLower = '0' :: 'x' :: digits.map Char.toLower := by
    rcases htext with htext | htext
    · rw [htext]
      rfl
    · rw [htext]
      rfl
  have hdigits : normalizeFelt value = "0x" ++ String.ofList
      (if (digits.map Char.toLower).dropWhile (· == '0') = [] then ['0']
        else (digits.map Char.toLower).dropWhile (· == '0')) := by
    unfold normalizeFelt
    rw [hlower]
    rfl
  rw [hdigits, significant_of_read hread, writeText]
  by_cases hzero : n = 0
  · subst hzero
    rfl
  · rw [if_neg hzero, if_neg Nat.toDigits_ne_nil]

theorem normalizeFelt_writeText (n : ℕ) : normalizeFelt (writeText n) = writeText n :=
  normalizeFelt_of_spells (spells_writeText n)

/-- Normal forms are equal exactly when the numbers are. -/
theorem normalizeFelt_eq_iff {value value' : String} {n m : ℕ} (h : Spells value n)
    (h' : Spells value' m) : normalizeFelt value = normalizeFelt value' ↔ n = m := by
  rw [normalizeFelt_of_spells h, normalizeFelt_of_spells h', writeText_injective.eq_iff]

theorem parseFelt_of_spells {value : String} {n : ℕ} (h : Spells value n) :
    parseFelt value = some n := h.readText

theorem parseInt_of_spells {value : String} {n : ℕ} (h : Spells value n) :
    parseInt value = some n := by
  obtain ⟨digits, htext, hne, hread⟩ := h
  rcases htext with htext | htext
  · rw [parseInt, htext]
    exact parsePrefix_of_read hne hread
  · rw [parseInt, htext]
    exact parsePrefix_of_read hne hread

/-- `num.toHex` of an address. -/
def addressHex (contractAddress : ContractAddress) : String :=
  writeText (ContractAddress.toFelt contractAddress).val

theorem addressHex_injective : Function.Injective addressHex := fun _ _ h =>
  ContractAddress.toFelt_inj.mp (Fin.ext (writeText_injective h))

theorem normalizeFelt_addressHex (contractAddress : ContractAddress) :
    normalizeFelt (addressHex contractAddress) = addressHex contractAddress :=
  normalizeFelt_writeText _

/-! ### Reading a transaction -/

/-- `decodeParameters` of starknet.js at the types that the interceptor decodes: the span of
client actions, the felts after the identity key of `privacy_compute`, and the calls and open
notes after the commitment of `privacy_invoke_with_computation`. -/
structure AbiDecoder where
  clientActions : List String → Option (List ClientAction)
  computeArguments : List String → Option (Felt × Felt)
  invokeArguments : List String → Option (List Call × List OpenNote)

/-- The transaction as far as the interceptor reads it. -/
structure ProveTxn where
  calldata : List String

/-- A pool call's decoded inner calldata. -/
structure PoolCallActions where
  userAddress : String
  viewingKey : Option ℕ
  actions : List ClientAction

/-- A transaction of one call, which is of the pool. -/
def isSinglePoolCall (transaction : ProveTxn) (poolAddress : String) : Bool :=
  match transaction.calldata with
  | callCount :: contractAddress :: _ :: _ :: _ :: _ :: _ :: _ =>
    normalizeFelt callCount == "0x1" && normalizeFelt contractAddress == normalizeFelt poolAddress
  | _ => false

/-- The user, the viewing key and the client actions of a call of the pool. -/
def decodeClientActions (decoder : AbiDecoder) (transaction : ProveTxn) (poolAddress : String) :
    Option PoolCallActions :=
  if isSinglePoolCall transaction poolAddress = true then do
    let innerCalldataLength ← parseInt (transaction.calldata.getD 3 "")
    -- The inner calldata start with the user and the viewing key.
    if innerCalldataLength < 3 then none else
      let innerCalldata := (transaction.calldata.drop 4).take innerCalldataLength
      let actions ← decoder.clientActions (innerCalldata.drop 2)
      return { userAddress := normalizeFelt (innerCalldata.getD 0 "")
               viewingKey := parseFelt (innerCalldata.getD 1 "")
               actions }
  else none

/-! ### Calls of the pool -/

/-- Texts that spell a list of felts. -/
abbrev SpellsAll (texts : List String) (felts : List Felt) : Prop :=
  List.Forall₂ (fun text felt => Spells text felt.val) texts felts

/-- The coder reads back what is serialised, however its felts are spelled. -/
structure AbiDecoder.Reads (decoder : AbiDecoder) : Prop where
  clientActions : ∀ {texts : List String} {actions : Span ClientAction},
    SpellsAll texts (serialize actions) → decoder.clientActions texts = some actions.1
  computeArguments : ∀ {texts : List String} {dappName nonce : Felt},
    SpellsAll texts [dappName, nonce] → decoder.computeArguments texts = some (dappName, nonce)
  invokeArguments : ∀ {texts : List String} {calls : Span Call} {openNotes : Span OpenNote},
    SpellsAll texts (serialize calls ++ serialize openNotes) →
      decoder.invokeArguments texts = some (calls.1, openNotes.1)

/-- The calldata of an account that makes one call of the pool. -/
def poolCall (poolAddress : ContractAddress) (selector : Felt) (inner : Span Felt) : List Felt :=
  serialize (⟨[⟨poolAddress, selector, inner⟩], one_lt_usize⟩ : Span Call)

theorem poolCall_eq (poolAddress : ContractAddress) (selector : Felt) (inner : Span Felt) :
    poolCall poolAddress selector inner = 1 :: ContractAddress.toFelt poolAddress :: selector ::
      Usize.toFelt ⟨inner.1.length, inner.2⟩ :: inner.1 := by
  have hfelts : inner.1.flatMap (fun felt => [felt]) = inner.1 := List.flatMap_singleton' _
  change 1 :: ContractAddress.toFelt poolAddress :: selector ::
    Usize.toFelt ⟨inner.1.length, inner.2⟩ :: (inner.1.flatMap (fun felt => [felt]) ++ []) = _
  rw [hfelts, List.append_nil]

variable {decoder : AbiDecoder} {transaction : ProveTxn} {poolAddress userAddr : ContractAddress}
  {poolText : String} {selector userPrivateKey : Felt} {clientActions : Span ClientAction}
  {inner : Span Felt}

/-- A single call of the pool decodes to the user, the key and the actions that it carries,
however its felts are spelled. -/
theorem decodeClientActions_of_spells (hdecoder : decoder.Reads)
    (hpool : Spells poolText (ContractAddress.toFelt poolAddress).val)
    (hinner : inner.1 = compileCalldata userAddr userPrivateKey clientActions)
    (h : SpellsAll transaction.calldata (poolCall poolAddress selector inner)) :
    isSinglePoolCall transaction poolText = true ∧
      decodeClientActions decoder transaction poolText =
        some ⟨addressHex userAddr, some userPrivateKey.val, clientActions.1⟩ := by
  rw [poolCall_eq] at h
  obtain ⟨callCount, _, hcount, h₁, hcalldata⟩ := List.forall₂_cons_right_iff.mp h
  obtain ⟨contract, _, hcontract, h₂, rfl⟩ := List.forall₂_cons_right_iff.mp h₁
  obtain ⟨entry, _, -, h₃, rfl⟩ := List.forall₂_cons_right_iff.mp h₂
  obtain ⟨length, texts, htextsLength, htexts, rfl⟩ := List.forall₂_cons_right_iff.mp h₃
  have hsize : texts.length = inner.1.length := htexts.length_eq
  rw [hinner] at htexts
  -- The inner calldata is the user, the key and the serialised actions.
  obtain ⟨user, _, huser, h₄, rfl⟩ := List.forall₂_cons_right_iff.mp htexts
  obtain ⟨key, actions, hkey, hactions, rfl⟩ := List.forall₂_cons_right_iff.mp h₄
  obtain ⟨first, rest, hrest⟩ : ∃ first rest, actions = first :: rest := by
    obtain ⟨first, rest, -, -, hrest⟩ := List.forall₂_cons_right_iff.mp hactions
    exact ⟨first, rest, hrest⟩
  have hcall : isSinglePoolCall transaction poolText = true := by
    rw [isSinglePoolCall, hcalldata, hrest]
    simp only [Bool.and_eq_true, beq_iff_eq]
    exact ⟨normalizeFelt_of_spells hcount, (normalizeFelt_eq_iff hcontract hpool).mpr rfl⟩
  have hnumber : parseInt length = some (user :: key :: actions).length := by
    rw [parseInt_of_spells htextsLength, hsize]
    rfl
  refine ⟨hcall, ?_⟩
  rw [decodeClientActions, if_pos hcall, hcalldata]
  simp only [List.getD_cons_succ, List.getD_cons_zero, List.drop_succ_cons, List.drop_zero,
    hnumber, Option.bind_eq_bind, Option.bind_some, List.take_length]
  rw [if_neg (by simp [hrest]), hdecoder.clientActions hactions, Option.bind_some,
    normalizeFelt_of_spells huser, parseFelt_of_spells hkey]
  rfl

end PrivacyPool.Interceptor
