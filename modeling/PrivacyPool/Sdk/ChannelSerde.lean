import PrivacyPool.Base.Fallible
import PrivacyPool.Sdk.Json

/-!
# Stored channels and witnesses

`channelSerde` and `witnessSerde` of `channel.ts`: what a wallet keeps of a channel and of a
note, as JSON texts. Reading checks every part.

## Main definitions

* `Channel`, `Witness` — a channel by its keys and the indices of its tokens, a note by its
  place in a channel
* `encodeChannel`, `decodeChannel`, `encodeWitness`, `decodeWitness` — their texts

## Main results

* `decodeChannel_encodeChannel`, `decodeWitness_encodeWitness` — they are read as they were
  written
-/

namespace PrivacyPool.Sdk.Serde

open Json Fallible HashMap

/-- Numbers, of which some are integers. -/
class JsNumber (N : Type) extends NumberFormat N where
  one : N
  toInteger : N → Option ℤ

variable {N : Type} [JsNumber N]

/-- Whether a number is a non-negative integer. -/
def isUint (x : N) : Bool := (JsNumber.toInteger x).any (0 ≤ ·)

/-- The place of a token in a channel and of its next note. -/
structure TokenChannel (N : Type) [JsNumber N] where
  tokenIndex : N
  noteNonce : N
  isUint_tokenIndex : isUint tokenIndex = true
  isUint_noteNonce : isUint noteNonce = true

/-- A channel, each token of which stands once. -/
structure Channel (N : Type) [JsNumber N] where
  publicKey : ℤ
  key : Option ℤ
  tokens : List (ℤ × TokenChannel N)
  nodup : (keys tokens).Nodup

/-- Witness for a note. -/
structure Witness (N : Type) [JsNumber N] where
  channelKey : ℤ
  nonce : N
  r : ℤ
  isUint_nonce : isUint nonce = true

/-- Ways to throw: a text that is no JSON, a value that is no number, and those with a message
of their own. -/
inductive DecodeError
  | syntaxError
  | notNumeric
  | notObject
  | message (text : String)
  deriving DecidableEq, Repr

/-! ### Writing -/

/-- The pair that a token is stored as. -/
def encodeToken (entry : ℤ × TokenChannel N) : JsValue N :=
  .array [.bigint entry.1, .object [(units "tokenIndex", .number entry.2.tokenIndex),
    (units "noteNonce", .number entry.2.noteNonce)]]

/-- The object that stands for a channel. A field that is undefined is not written. -/
def channelValue (channel : Channel N) : JsValue N :=
  .object ((units "v", .number JsNumber.one) ::
    channel.key.toList.map (fun key => (units "key", .bigint key)) ++
    [(units "recipientPublicKey", .bigint channel.publicKey),
      (units "tokens", .array (channel.tokens.map encodeToken))])

/-- A channel as text. -/
def encodeChannel (channel : Channel N) : Text := jsonStringify (channelValue channel)

/-- The object that a witness is stored as. -/
def witnessValue (witness : Witness N) : JsValue N :=
  .object [(units "v", .number JsNumber.one), (units "channelKey", .bigint witness.channelKey),
    (units "nonce", .object [(units "sequence", .number witness.nonce)]),
    (units "r", .bigint witness.r)]

/-- A witness as text. -/
def encodeWitness (witness : Witness N) : Text := jsonStringify (witnessValue witness)

/-! ### Reading -/

/-- `typeof value === "object"`, of a value that is not null -/
def isObject : JsValue N → Bool
  | .array _ | .object _ | .map _ | .set _ => true
  | _ => false

/-- `value[name]`, absent where it is undefined -/
def field (value : JsValue N) (name : Text) : Option (JsValue N) :=
  match value with
  | .object fields => AddressMap.get fields name
  | _ => none

/-- `BigInt(value)` -/
def toBigint : JsValue N → Option ℤ
  | .bigint n => some n
  | .number x => JsNumber.toInteger x
  | .string s => stringToBigint s
  | .bool b => some b.toNat
  | _ => none

/-- A big integer, or what `BigInt` makes of a number or a text. -/
def assertBigIntOr (message : String) (value : Option (JsValue N)) : Except DecodeError ℤ :=
  match value with
  | some (.bigint n) => .ok n
  | some (.number x) => expect (toBigint (.number x)) .notNumeric
  | some (.string s) => expect (stringToBigint s) .notNumeric
  | _ => .error (.message message)

/-- A key, which is a big integer. -/
def assertChannelKey (value : Option (JsValue N)) : Except DecodeError ℤ :=
  assertBigIntOr "Invalid channel key" value

/-- A big integer. -/
def assertBigInt (value : Option (JsValue N)) : Except DecodeError ℤ :=
  assertBigIntOr "Invalid bigint" value

/-- A key, or none for a missing one or null. -/
def assertOptionalChannelKey (value : Option (JsValue N)) : Except DecodeError (Option ℤ) :=
  match value with
  | none => .ok none
  | some .null => .ok none
  | some value => (assertChannelKey (some value)).map some

/-- A number that is a non-negative integer. -/
def assertUint (message : String) (value : Option (JsValue N)) :
    Except DecodeError {x : N // isUint x = true} :=
  match value with
  | some (.number x) => if h : isUint x = true then .ok ⟨x, h⟩ else .error (.message message)
  | _ => .error (.message message)

/-- A non-negative integer, or an object that has it as its sequence. -/
def assertSequence (message : String) (value : Option (JsValue N)) :
    Except DecodeError {x : N // isUint x = true} :=
  match value with
  | some (.number x) => assertUint message (some (.number x))
  | some value =>
    if isObject value then
      assertUint "Invalid nonce: sequence must be a non-negative integer"
        (field value (units "sequence"))
    else .error (.message "Invalid nonce: expected number or object")
  | none => .error (.message "Invalid nonce: expected number or object")

/-- The nonce of a note. -/
def assertNoteNonce (value : Option (JsValue N)) : Except DecodeError {x : N // isUint x = true} :=
  assertSequence "Invalid nonce: must be a non-negative integer" value

/-- The place of a token. -/
def assertTokenIndex (value : Option (JsValue N)) :
    Except DecodeError {x : N // isUint x = true} :=
  assertSequence "Invalid token index: must be a non-negative integer" value

/-- Whether a value is null. -/
def isNull : JsValue N → Bool
  | .null => true
  | _ => false

/-- An entry of the tokens. Only null has no fields to read. -/
def assertTokenEntry (entry : JsValue N) : Except DecodeError (JsValue N × TokenChannel N) :=
  match entry with
  | .array [token, nonces] => do
    require (isNull nonces = false) .notObject
    let tokenIndex ← assertTokenIndex (field nonces (units "tokenIndex"))
    let noteNonce ← assertNoteNonce (field nonces (units "noteNonce"))
    return (token, ⟨tokenIndex.val, noteNonce.val, tokenIndex.property, noteNonce.property⟩)
  | _ => .error (.message "Invalid token entry")

variable [DecidableEq N]

/-- The entries of the tokens, as those of a map. -/
def assertTokenEntries (value : Option (JsValue N)) :
    Except DecodeError (List (JsValue N × TokenChannel N)) :=
  match value with
  | some (.array entries) => do
    let entries ← entries.mapM assertTokenEntry
    return entries.foldl mapSet []
  | _ => .error (.message "Invalid tokens")

/-- Tokens that are set under their addresses, one after another. -/
def setTokens (entries : List (ℤ × TokenChannel N)) : List (ℤ × TokenChannel N) :=
  entries.foldl (fun tokens entry => AddressMap.set tokens entry.1 entry.2) []

omit [DecidableEq N] in
theorem nodup_setTokens (entries : List (ℤ × TokenChannel N)) :
    (keys (setTokens entries)).Nodup :=
  AddressMap.nodup_keys_foldl_set (m := []) List.nodup_nil

/-- `new Channel(publicKey, key, tokens)` -/
def newChannel (publicKey : ℤ) (key : Option ℤ) (entries : List (JsValue N × TokenChannel N)) :
    Except DecodeError (Channel N) := do
  let entries ← entries.mapM fun entry => do
    let token ← expect (toBigint entry.1) .notNumeric
    return (token, entry.2)
  return ⟨publicKey, key, setTokens entries, nodup_setTokens entries⟩

/-- The channel that a text stores. -/
def decodeChannel (blob : Text) : Except DecodeError (Channel N) := do
  let parsed : JsValue N ← expect (jsonParse blob) .syntaxError
  require (isObject parsed = true) (.message "Invalid channel payload")
  let decodedKey ← assertOptionalChannelKey (field parsed (units "key"))
  let decodedPublicKey ← assertChannelKey (field parsed (units "recipientPublicKey"))
  let decodedTokens ← assertTokenEntries (field parsed (units "tokens"))
  newChannel decodedPublicKey decodedKey decodedTokens

/-- The witness that a text stores. -/
def decodeWitness (blob : Text) : Except DecodeError (Witness N) := do
  let parsed : JsValue N ← expect (jsonParse blob) .syntaxError
  require (isObject parsed = true) (.message "Invalid witness payload")
  let decodedChannelKey ← assertChannelKey (field parsed (units "channelKey"))
  let decodedNonce ← assertNoteNonce (field parsed (units "nonce"))
  let decodedR ← assertBigInt (field parsed (units "r"))
  return ⟨decodedChannelKey, decodedNonce.val, decodedR, decodedNonce.property⟩

/-! ### Reading what was written -/

omit [DecidableEq N] in
theorem assertUint_number {x : N} (h : isUint x = true) (message : String) :
    assertUint message (some (.number x)) = .ok ⟨x, h⟩ :=
  dif_pos h

omit [DecidableEq N] in
/-- An entry of the tokens is read as it was written. -/
theorem assertTokenEntry_encodeToken (entry : ℤ × TokenChannel N) :
    assertTokenEntry (encodeToken entry) = .ok (.bigint entry.1, entry.2) := by
  have hindex := assertUint_number entry.2.isUint_tokenIndex
    "Invalid token index: must be a non-negative integer"
  have hnonce := assertUint_number entry.2.isUint_noteNonce
    "Invalid nonce: must be a non-negative integer"
  refine bind_eq_ok.mpr ⟨(), require_eq_ok.mpr rfl, bind_eq_ok.mpr ⟨_, hindex,
    bind_eq_ok.mpr ⟨_, hnonce, ?_⟩⟩⟩
  rfl

omit [DecidableEq N] in
theorem mapM_assertTokenEntry (entries : List (ℤ × TokenChannel N)) :
    (entries.map encodeToken).mapM assertTokenEntry =
      .ok (entries.map fun entry => (JsValue.bigint entry.1, entry.2)) := by
  induction entries with
  | nil => rfl
  | cons entry entries ih =>
    rw [List.map_cons, List.mapM_cons, assertTokenEntry_encodeToken, ih]
    rfl

/-- Tokens with different addresses are read as they were written. -/
theorem assertTokenEntries_encodeToken {entries : List (ℤ × TokenChannel N)}
    (h : (keys entries).Nodup) :
    assertTokenEntries (some (.array (entries.map encodeToken))) =
      .ok (entries.map fun entry => (JsValue.bigint entry.1, entry.2)) := by
  have hpairwise : (entries.map fun entry => (JsValue.bigint (N := N) entry.1, entry.2)).Pairwise
      fun entry entry' => sameValueZero entry.1 entry'.1 = false := by
    rw [List.pairwise_map]
    refine (List.pairwise_map.mp h).imp fun hne => ?_
    exact decide_eq_false hne
  refine bind_eq_ok.mpr ⟨_, mapM_assertTokenEntry entries, ?_⟩
  exact congrArg Except.ok (foldl_mapSet hpairwise)

omit [DecidableEq N] in
theorem setTokens_eq {entries : List (ℤ × TokenChannel N)} (h : (keys entries).Nodup) :
    setTokens entries = entries :=
  AddressMap.foldl_set_eq (m := []) h

omit [DecidableEq N] in
/-- A channel is made of its parts. -/
theorem newChannel_eq (channel : Channel N) :
    newChannel channel.publicKey channel.key
      (channel.tokens.map fun entry => (JsValue.bigint (N := N) entry.1, entry.2)) = .ok channel := by
  have hentries : ∀ entries : List (ℤ × TokenChannel N),
      (entries.map fun entry => (JsValue.bigint (N := N) entry.1, entry.2)).mapM (fun entry => do
        let token ← expect (toBigint entry.1) DecodeError.notNumeric
        return (token, entry.2)) = .ok entries := by
    intro entries
    induction entries with
    | nil => rfl
    | cons entry entries ih =>
      rw [List.map_cons, List.mapM_cons, ih]
      rfl
  refine bind_eq_ok.mpr ⟨_, hentries channel.tokens, ?_⟩
  have htokens := setTokens_eq channel.nodup
  cases channel
  simp only [pure_eq_ok, Channel.mk.injEq]
  exact ⟨trivial, trivial, htokens⟩

/-! ### Stored values -/

/-- Field names that are different and no markers. -/
def FieldNames (names : List Text) : Prop :=
  names.Nodup ∧ BIGINT_PREFIX ∉ names ∧ MAP_MARKER ∉ names ∧ SET_MARKER ∉ names

instance (names : List Text) : Decidable (FieldNames names) :=
  inferInstanceAs (Decidable (names.Nodup ∧ BIGINT_PREFIX ∉ names ∧ MAP_MARKER ∉ names ∧
    SET_MARKER ∉ names))

omit [JsNumber N] in
theorem storable_object {fields : List (Text × JsValue N)} {names : List Text}
    (hnames : FieldNames names) (hkeys : keys fields = names) (hfields : StorableFields fields) :
    Storable (.object fields) := by
  obtain ⟨hnodup, hbigint, hmap, hset⟩ := hnames
  subst hkeys
  exact ⟨hnodup, hbigint, hmap, hset, hfields⟩

theorem storableElements_encodeToken (entries : List (ℤ × TokenChannel N)) :
    StorableElements (entries.map encodeToken) := by
  have hnames : FieldNames [units "tokenIndex", units "noteNonce"] := by decide
  induction entries with
  | nil => trivial
  | cons entry entries ih =>
    exact ⟨⟨trivial, storable_object hnames rfl ⟨trivial, trivial, trivial⟩, trivial⟩, ih⟩

theorem storable_channelValue (channel : Channel N) : Storable (channelValue channel) := by
  have htokens := storableElements_encodeToken channel.tokens
  have hnames : FieldNames [units "v", units "recipientPublicKey", units "tokens"] := by decide
  have hnamesKey : FieldNames [units "v", units "key", units "recipientPublicKey",
      units "tokens"] := by decide
  obtain ⟨publicKey, key, tokens, hnodup⟩ := channel
  cases key with
  | none => exact storable_object hnames rfl ⟨trivial, trivial, htokens, trivial⟩
  | some key => exact storable_object hnamesKey rfl ⟨trivial, trivial, trivial, htokens, trivial⟩

theorem storable_witnessValue (witness : Witness N) : Storable (witnessValue witness) := by
  have hnames : FieldNames [units "v", units "channelKey", units "nonce", units "r"] := by decide
  have hsequence : FieldNames [units "sequence"] := by decide
  exact storable_object hnames rfl ⟨trivial, trivial,
    storable_object hsequence rfl ⟨trivial, trivial⟩, trivial, trivial⟩

/-- A channel is read as it was written. -/
theorem decodeChannel_encodeChannel (channel : Channel N) :
    decodeChannel (encodeChannel channel) = .ok channel := by
  have hparsed := jsonParse_jsonStringify (storable_channelValue channel)
  have htokens := assertTokenEntries_encodeToken channel.nodup
  have hnew := newChannel_eq channel
  refine bind_eq_ok.mpr ⟨_, expect_eq_ok.mpr hparsed, bind_eq_ok.mpr ⟨(), require_eq_ok.mpr rfl, ?_⟩⟩
  obtain ⟨publicKey, key, tokens, hnodup⟩ := channel
  cases key with
  | none =>
    exact bind_eq_ok.mpr ⟨none, rfl, bind_eq_ok.mpr ⟨publicKey, rfl,
      bind_eq_ok.mpr ⟨_, htokens, hnew⟩⟩⟩
  | some key =>
    exact bind_eq_ok.mpr ⟨some key, rfl, bind_eq_ok.mpr ⟨publicKey, rfl,
      bind_eq_ok.mpr ⟨_, htokens, hnew⟩⟩⟩

/-- A witness is read as it was written. -/
theorem decodeWitness_encodeWitness (witness : Witness N) :
    decodeWitness (encodeWitness witness) = .ok witness := by
  have hparsed := jsonParse_jsonStringify (storable_witnessValue witness)
  have hnonce := assertUint_number witness.isUint_nonce
    "Invalid nonce: sequence must be a non-negative integer"
  exact bind_eq_ok.mpr ⟨_, expect_eq_ok.mpr hparsed, bind_eq_ok.mpr ⟨(), require_eq_ok.mpr rfl,
    bind_eq_ok.mpr ⟨_, rfl, bind_eq_ok.mpr ⟨_, hnonce, bind_eq_ok.mpr ⟨_, rfl, rfl⟩⟩⟩⟩⟩

end PrivacyPool.Sdk.Serde
