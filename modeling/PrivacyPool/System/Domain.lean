import Mathlib.Data.List.Basic
import Mathlib.Data.Set.Function
import PrivacyPool.Contract.Client
import PrivacyPool.System.Assumptions

/-!
# Collision-freedom

A hash into field elements has collisions; what a cryptographic hash promises is
that none is ever met. The set of inputs that are hashed, in a run and in the
statement about it, is therefore named: a `Domain` holds the spans that are
hashed with Poseidon and the felts that are used as storage keys as they come.
`NoCollision` says that on this domain distinct spans have distinct hashes and
distinct storage entries do not overlap.

The slots of the pool's user data are named by what they are about (`Slot`)
rather than by hashes, and `Slot.eq_of_overlap` turns collision-freedom into the
one fact used afterwards: words of different slots have different addresses.

## Main definitions

* `Domain`, `NoCollision` — the inputs in play, and that they do not collide
* `Slot` — a record of user data, by its meaning
* `ClientAction.Covered` — the hash inputs of an action are in the domain
-/

namespace PrivacyPool

/-- The inputs in play: spans hashed with Poseidon, and felts that are storage
keys without being hashed first. -/
structure Domain where
  spans : Set (List Felt)
  keys : Set Felt

/-- The felts that are storage keys. -/
def Domain.IsKey (D : Domain) (sn : Starknet) (key : Felt) : Prop :=
  key ∈ D.keys ∨ ∃ span ∈ D.spans, sn.poseidonHashSpan span = key

/-- On the domain, hashes are collision-free and storage records do not overlap. -/
structure NoCollision (sn : Starknet) (D : Domain) : Prop where
  hash_injOn : Set.InjOn sn.poseidonHashSpan D.spans
  entry_disjoint : ∀ {var var' : StorageVar} {key key' : Felt} {i j : ℕ},
    D.IsKey sn key → D.IsKey sn key' → i < var.size → j < var'.size →
    (sn.entry var key).val + i = (sn.entry var' key').val + j →
    var = var' ∧ key = key' ∧ i = j

/-- The domain of the sample platform: the spans of its table, and small keys. -/
def Domain.sample : Domain := ⟨{span | span ∈ sampleSpans}, {key | key.val < 2 ^ 64}⟩

theorem Domain.sample_isKey {key : Felt} (h : Domain.sample.IsKey Starknet.sample key) :
    key.val < 2 ^ 64 := by
  rcases h with hkey | ⟨span, hspan, rfl⟩
  · exact hkey
  · have hindex : sampleSpans.idxOf span < 9 := List.idxOf_lt_length_of_mem hspan
    have hval : (Starknet.sample.poseidonHashSpan span).val ≤ sampleSpans.idxOf span + 1 :=
      Nat.mod_le _ _
    omega

theorem sample_noCollision : NoCollision Starknet.sample Domain.sample where
  hash_injOn := by
    intro span hspan span' hspan' hhash
    have hindex : sampleSpans.idxOf span < 9 := List.idxOf_lt_length_of_mem hspan
    have hindex' : sampleSpans.idxOf span' < 9 := List.idxOf_lt_length_of_mem hspan'
    have hvals : (sampleSpans.idxOf span + 1) % feltPrime =
        (sampleSpans.idxOf span' + 1) % feltPrime := congrArg Fin.val hhash
    have hprime : 10 < feltPrime := by decide
    rw [Nat.mod_eq_of_lt (by omega), Nat.mod_eq_of_lt (by omega)] at hvals
    exact (List.idxOf_inj hspan).mp (Nat.succ.inj hvals)
  entry_disjoint := by
    intro var var' key key' i j hkey hkey' hi hj h
    have hlt := Domain.sample_isKey hkey
    have hlt' := Domain.sample_isKey hkey'
    have hbound : ∀ (v : StorageVar), v.ctorIdx < 8 ∧ v.size ≤ 3 := by
      intro v
      cases v <;> decide
    -- Keys are 32 words apart, and variables 4, of which each takes at most 3.
    have hentry : ∀ (v : StorageVar) (x : Felt), x.val < 2 ^ 64 →
        (Starknet.sample.entry v x).val = x.val * 32 + 4 * v.ctorIdx := by
      intro v x hx
      have hidx := (hbound v).1
      exact Nat.mod_eq_of_lt (by omega)
    rw [hentry var key hlt, hentry var' key' hlt'] at h
    have hvar := hbound var
    have hvar' := hbound var'
    have hctor : var.ctorIdx = var'.ctorIdx := by omega
    refine ⟨?_, Fin.ext (by omega), by omega⟩
    revert hctor
    cases var <;> cases var' <;> decide

/-- A platform that hashes by looking up a table, with the storage of the sample platform,
has no collisions on that table and small keys. -/
theorem noCollision_of_table {sn : Starknet} {table : List (List Felt)}
    (hlength : table.length < 2 ^ 63)
    (hhash : ∀ span, sn.poseidonHashSpan span = Fin.ofNat feltPrime (table.idxOf span + 1))
    (hentry : sn.entry = Starknet.sample.entry) :
    NoCollision sn ⟨{span | span ∈ table}, {key | key.val < 2 ^ 64}⟩ := by
  have hprime : 2 ^ 64 < feltPrime := by decide
  have hval : ∀ span ∈ table, (sn.poseidonHashSpan span).val = table.idxOf span + 1 := by
    intro span hspan
    have hindex : table.idxOf span < table.length := List.idxOf_lt_length_of_mem hspan
    rw [hhash]
    exact Nat.mod_eq_of_lt (by omega)
  constructor
  · intro span hspan span' hspan' heq
    have hvals := congrArg Fin.val heq
    rw [hval span hspan, hval span' hspan'] at hvals
    exact (List.idxOf_inj hspan).mp (Nat.succ.inj hvals)
  · intro var var' key key' i j hkey hkey' hi hj h
    have hsmall : ∀ {k : Felt}, Domain.IsKey ⟨{span | span ∈ table}, {key | key.val < 2 ^ 64}⟩ sn k →
        k.val < 2 ^ 64 := by
      rintro k (hk | ⟨span, hspan, rfl⟩)
      · exact hk
      · have hindex : table.idxOf span < table.length := List.idxOf_lt_length_of_mem hspan
        rw [hval span hspan]
        omega
    have hsample : ∀ {k : Felt}, k.val < 2 ^ 64 → Domain.sample.IsKey Starknet.sample k :=
      fun hk => Or.inl hk
    rw [hentry] at h
    exact sample_noCollision.entry_disjoint (hsample (hsmall hkey)) (hsample (hsmall hkey')) hi hj h

/-! ### Slots -/

/-- A channel: its key, sender, recipient and the recipient's public key. -/
structure Channel where
  key : Felt
  senderAddr : ContractAddress
  recipientAddr : ContractAddress
  recipientPublicKey : Felt
  deriving DecidableEq, Repr

/-- A subchannel: its channel key, recipient, the recipient's public key and the
token. -/
structure Subchannel where
  key : Felt
  recipientAddr : ContractAddress
  recipientPublicKey : Felt
  token : ContractAddress
  deriving DecidableEq, Repr

/-- The name of a note. -/
structure NoteKey where
  channelKey : Felt
  token : ContractAddress
  index : Usize
  deriving DecidableEq, Repr

/-- A record of user data. -/
inductive Slot
  | publicKey (user : ContractAddress)
  | encPrivateKey (user : ContractAddress)
  | outgoingChannel (sender : ContractAddress) (key : Felt) (index : Usize)
  | channelExists (channel : Channel)
  | subchannelToken (channelKey : Felt) (index : Usize)
  | subchannelExists (subchannel : Subchannel)
  | note (note : NoteKey)
  | nullifier (note : NoteKey) (ownerPrivateKey : Felt)
  deriving DecidableEq, Repr

/-- What the marker of a channel hashes. -/
def Channel.span (c : Channel) : List Felt :=
  channelMarkerSpan c.key c.senderAddr c.recipientAddr c.recipientPublicKey

/-- What the marker of a subchannel hashes. -/
def Subchannel.span (c : Subchannel) : List Felt :=
  subchannelMarkerSpan c.key c.recipientAddr c.recipientPublicKey c.token

/-- What the id of a note hashes. -/
def NoteKey.span (n : NoteKey) : List Felt := noteIdSpan n.channelKey n.token n.index

/-- What the nullifier of a note hashes. -/
def NoteKey.nullifierSpan (n : NoteKey) (ownerPrivateKey : Felt) : List Felt :=
  PrivacyPool.nullifierSpan n.channelKey n.token n.index ownerPrivateKey

/-- The id of a note. -/
def NoteKey.id (n : NoteKey) (sn : Starknet) : Felt :=
  sn.computeNoteId n.channelKey n.token n.index

namespace Slot

/-- The map a slot belongs to. -/
def var : Slot → StorageVar
  | publicKey _ => .publicKey
  | encPrivateKey _ => .encPrivateKey
  | outgoingChannel _ _ _ => .outgoingChannels
  | channelExists _ => .channelExists
  | subchannelToken _ _ => .subchannelTokens
  | subchannelExists _ => .subchannelExists
  | note _ => .notes
  | nullifier _ _ => .nullifiers

/-- The key of a slot in its map. -/
def key (sn : Starknet) : Slot → Felt
  | publicKey user => ContractAddress.toFelt user
  | encPrivateKey user => ContractAddress.toFelt user
  | outgoingChannel sender key index => sn.computeOutgoingChannelId sender key index
  | channelExists c =>
    sn.computeChannelMarker c.key c.senderAddr c.recipientAddr c.recipientPublicKey
  | subchannelToken channelKey index => sn.computeSubchannelId channelKey index
  | subchannelExists c =>
    sn.computeSubchannelMarker c.key c.recipientAddr c.recipientPublicKey c.token
  | note n => n.id sn
  | nullifier n ownerPrivateKey =>
    sn.computeNullifier n.channelKey n.token n.index ownerPrivateKey

/-- The base address of a slot. -/
def base (sn : Starknet) (s : Slot) : ℕ := (sn.entry s.var (s.key sn)).val

/-- The input that names a slot is in play. -/
def Covered (D : Domain) : Slot → Prop
  | publicKey user => ContractAddress.toFelt user ∈ D.keys
  | encPrivateKey user => ContractAddress.toFelt user ∈ D.keys
  | outgoingChannel sender key index => outgoingChannelIdSpan sender key index ∈ D.spans
  | channelExists c => c.span ∈ D.spans
  | subchannelToken channelKey index => subchannelIdSpan channelKey index ∈ D.spans
  | subchannelExists c => c.span ∈ D.spans
  | note n => n.span ∈ D.spans
  | nullifier n ownerPrivateKey => n.nullifierSpan ownerPrivateKey ∈ D.spans

variable {sn : Starknet} {D : Domain} {s s' : Slot}

theorem isKey_of_covered (h : s.Covered D) : D.IsKey sn (s.key sn) := by
  cases s
  case publicKey | encPrivateKey => exact Or.inl h
  all_goals exact Or.inr ⟨_, h, rfl⟩

/-- Covered slots of one map with the same key are the same slot. -/
theorem eq_of_key_eq (hD : NoCollision sn D) (hs : s.Covered D) (hs' : s'.Covered D)
    (hvar : s.var = s'.var) (hkey : s.key sn = s'.key sn) : s = s' := by
  -- Each map has one kind of slot, so only the equal constructors remain.
  cases s <;> cases s' <;> try (exact StorageVar.noConfusion hvar)
  case publicKey.publicKey | encPrivateKey.encPrivateKey =>
    rw [ContractAddress.toFelt_inj.mp hkey]
  case outgoingChannel.outgoingChannel =>
    have hspan := hD.hash_injOn hs hs' hkey
    simp only [outgoingChannelIdSpan, List.cons.injEq, ContractAddress.toFelt_inj,
      Usize.toFelt_inj] at hspan
    obtain ⟨-, rfl, rfl, rfl, -⟩ := hspan
    rfl
  case channelExists.channelExists c c' =>
    have hspan := hD.hash_injOn hs hs' hkey
    cases c
    cases c'
    simp only [Channel.span, channelMarkerSpan, List.cons.injEq,
      ContractAddress.toFelt_inj] at hspan
    obtain ⟨-, rfl, rfl, rfl, rfl, -⟩ := hspan
    rfl
  case subchannelToken.subchannelToken =>
    have hspan := hD.hash_injOn hs hs' hkey
    simp only [subchannelIdSpan, List.cons.injEq, Usize.toFelt_inj] at hspan
    obtain ⟨-, rfl, rfl, -⟩ := hspan
    rfl
  case subchannelExists.subchannelExists c c' =>
    have hspan := hD.hash_injOn hs hs' hkey
    cases c
    cases c'
    simp only [Subchannel.span, subchannelMarkerSpan, List.cons.injEq,
      ContractAddress.toFelt_inj] at hspan
    obtain ⟨-, rfl, rfl, rfl, rfl, -⟩ := hspan
    rfl
  case note.note n n' =>
    have hspan := hD.hash_injOn hs hs' hkey
    cases n
    cases n'
    simp only [NoteKey.span, noteIdSpan, List.cons.injEq, ContractAddress.toFelt_inj,
      Usize.toFelt_inj] at hspan
    obtain ⟨-, rfl, rfl, rfl, -⟩ := hspan
    rfl
  case nullifier.nullifier n k n' k' =>
    have hspan := hD.hash_injOn hs hs' hkey
    cases n
    cases n'
    simp only [NoteKey.nullifierSpan, PrivacyPool.nullifierSpan, List.cons.injEq,
      ContractAddress.toFelt_inj, Usize.toFelt_inj] at hspan
    obtain ⟨-, rfl, rfl, rfl, -, rfl, -⟩ := hspan
    rfl

/-- Covered slots that share a word are the same slot, at the same offset. -/
theorem eq_of_overlap (hD : NoCollision sn D) (hs : s.Covered D) (hs' : s'.Covered D) {i j : ℕ}
    (hi : i < s.var.size) (hj : j < s'.var.size) (h : s.base sn + i = s'.base sn + j) :
    s = s' ∧ i = j := by
  obtain ⟨hvar, hkey, hoffset⟩ :=
    hD.entry_disjoint (isKey_of_covered hs) (isKey_of_covered hs') hi hj h
  exact ⟨eq_of_key_eq hD hs hs' hvar hkey, hoffset⟩

end Slot

/-! ### Hash inputs of client actions -/

/-- The index before `index`, if there is one. -/
def previousIndex (index : Usize) : List Usize := if index = 0 then [] else [index - 1]

theorem mem_previousIndex {index : Usize} (h : index ≠ 0) : index - 1 ∈ previousIndex index := by
  rw [previousIndex, if_neg h]
  exact List.mem_singleton_self _

/-- The spans that identify what a client action reads and writes, as compiled
for a user on a pool. -/
def ClientAction.hashedSpans (sn : Starknet) (pool : Pool) (userAddr : ContractAddress)
    (userPrivateKey : Felt) : ClientAction → List (List Felt)
  | .openChannel input =>
    let recipientPublicKey :=
      pool.read sn .publicKey (ContractAddress.toFelt input.recipientAddr) 0
    let channelKey :=
      sn.computeChannelKey userAddr userPrivateKey input.recipientAddr recipientPublicKey
    [channelKeySpan userAddr userPrivateKey input.recipientAddr recipientPublicKey,
      channelMarkerSpan channelKey userAddr input.recipientAddr recipientPublicKey,
      outgoingChannelIdSpan userAddr userPrivateKey input.index] ++
      (previousIndex input.index).map (outgoingChannelIdSpan userAddr userPrivateKey)
  | .openSubchannel input =>
    [channelMarkerSpan input.channelKey userAddr input.recipientAddr input.recipientPublicKey,
      subchannelMarkerSpan input.channelKey input.recipientAddr input.recipientPublicKey
        input.token,
      subchannelIdSpan input.channelKey input.index] ++
      (previousIndex input.index).map (subchannelIdSpan input.channelKey)
  | .createEncNote ⟨recipientAddr, recipientPublicKey, token, _, index, _⟩
  | .createOpenNote ⟨recipientAddr, recipientPublicKey, token, index, _⟩ =>
    let channelKey :=
      sn.computeChannelKey userAddr userPrivateKey recipientAddr recipientPublicKey
    [channelKeySpan userAddr userPrivateKey recipientAddr recipientPublicKey,
      subchannelMarkerSpan channelKey recipientAddr recipientPublicKey token,
      noteIdSpan channelKey token index] ++
      (previousIndex index).map (noteIdSpan channelKey token)
  -- The subchannel is looked up under the public key of the user.
  | .useNote input =>
    (match sn.derivePublicKey userPrivateKey with
      | .ok publicKey => [subchannelMarkerSpan input.channelKey userAddr publicKey input.token]
      | .error _ => []) ++
    [noteIdSpan input.channelKey input.token input.index,
      nullifierSpan input.channelKey input.token input.index userPrivateKey]
  | .setViewingKey _ | .deposit _ | .withdraw _ | .invokeExternal _ | .computeAndInvoke _ => []

/-- The accounts whose records a client action reads or writes. -/
def ClientAction.accounts (userAddr : ContractAddress) : ClientAction → List ContractAddress
  | .setViewingKey _ => [userAddr]
  | .openChannel input => [userAddr, input.recipientAddr]
  | .openSubchannel _ | .createEncNote _ | .createOpenNote _ | .useNote _ | .deposit _
  | .withdraw _ | .invokeExternal _ | .computeAndInvoke _ => []

/-- The hash inputs of a client action are in play. -/
structure ClientAction.Covered (sn : Starknet) (D : Domain) (pool : Pool)
    (userAddr : ContractAddress) (userPrivateKey : Felt) (action : ClientAction) : Prop where
  spans : ∀ span ∈ action.hashedSpans sn pool userAddr userPrivateKey, span ∈ D.spans
  keys : ∀ account ∈ action.accounts userAddr, ContractAddress.toFelt account ∈ D.keys

/-- The hash inputs met when a list is compiled are in play. -/
def CompileCovered (sn : Starknet) (D : Domain) (call : CallContract)
    (userAddr : ContractAddress) (userPrivateKey : Felt) : CompileState → List ClientAction → Prop
  | _, [] => True
  | state, action :: rest =>
    action.Covered sn D state.pool userAddr userPrivateKey ∧
      ∀ state', compileStep sn call userAddr userPrivateKey state action = .ok state' →
        CompileCovered sn D call userAddr userPrivateKey state' rest

section Decidable

variable {sn : Starknet} {D : Domain} [DecidablePred (· ∈ D.spans)] [DecidablePred (· ∈ D.keys)]

instance {pool : Pool} {userAddr : ContractAddress} {userPrivateKey : Felt}
    {action : ClientAction} : Decidable (action.Covered sn D pool userAddr userPrivateKey) :=
  have : Decidable (∀ account ∈ action.accounts userAddr, ContractAddress.toFelt account ∈ D.keys) :=
    List.decidableBAll _ _
  decidable_of_iff ((∀ span ∈ action.hashedSpans sn pool userAddr userPrivateKey, span ∈ D.spans) ∧
    ∀ account ∈ action.accounts userAddr, ContractAddress.toFelt account ∈ D.keys)
    ⟨fun h => ⟨h.1, h.2⟩, fun h => ⟨h.spans, h.keys⟩⟩

instance decidableCompileCovered (call : CallContract) (userAddr : ContractAddress)
    (userPrivateKey : Felt) : ∀ (state : CompileState) (actions : List ClientAction),
    Decidable (CompileCovered sn D call userAddr userPrivateKey state actions)
  | _, [] => isTrue trivial
  | state, action :: rest =>
    match hstep : compileStep sn call userAddr userPrivateKey state action with
    | .error e => decidable_of_iff (action.Covered sn D state.pool userAddr userPrivateKey)
      ⟨fun h => ⟨h, fun _ hok => by simp [hstep] at hok⟩, fun h => h.1⟩
    | .ok state' =>
      have := decidableCompileCovered call userAddr userPrivateKey state' rest
      decidable_of_iff (action.Covered sn D state.pool userAddr userPrivateKey ∧
        CompileCovered sn D call userAddr userPrivateKey state' rest)
        ⟨fun h => ⟨h.1, fun _ hok => by rw [hstep, Except.ok.injEq] at hok; exact hok ▸ h.2⟩,
          fun h => ⟨h.1, h.2 state' hstep⟩⟩

instance : DecidablePred (· ∈ Domain.sample.spans) :=
  fun span => inferInstanceAs (Decidable (span ∈ sampleSpans))

instance : DecidablePred (· ∈ Domain.sample.keys) :=
  fun key => inferInstanceAs (Decidable (key.val < 2 ^ 64))

end Decidable

end PrivacyPool
