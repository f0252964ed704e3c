import PrivacyPool.Discovery.Outgoing
import PrivacyPool.Properties.Codecs
import PrivacyPool.System.Run

/-!
# What the pool stores for a user

The records of a user form a tree: channels, their subchannels, and the notes of each
subchannel, all numbered from zero without a gap. Each record is the contract's own
encryption of what it stands for. The discovery service reads this tree back.

## Main definitions

* `StoredChannel`, `StoredSubchannel`, `StoredNote` — the tree of plain records
* `AccountStored` — the pool stores the tree of a recipient
* `unspentOf` — the un-nullified notes of the tree

## Main results

* `AccountStored.incomingHeld` — the service reads what is stored
* `unspentOf_nodup` — each note is there once
-/

namespace PrivacyPool.Discovery

open Fallible

/-- The salt and the amount of a note. -/
structure StoredNote where
  salt : U128
  amount : U128
  deriving DecidableEq, Repr, Inhabited

/-- A subchannel of a channel: its token and its notes, in order. -/
structure StoredSubchannel where
  token : ContractAddress
  notes : List StoredNote
  deriving DecidableEq, Repr

/-- A channel of a user, from the peer or toward it. -/
structure StoredChannel where
  peerAddr : ContractAddress
  channelKey : Felt
  subchannels : List StoredSubchannel
  deriving DecidableEq, Repr

/-! ### Storage -/

/-- The packed value is that of an open note or of an encrypted one. -/
def StoredNote.Packed (sn : Starknet) (channelKey : Felt) (token : ContractAddress) (index : Usize)
    (note : StoredNote) (packed : Felt) : Prop :=
  note.salt = openNoteSalt ∧ pack openNoteSalt note.amount = .ok packed ∨
    openNoteSalt < note.salt ∧ note.salt < twoPow120 ∧
      sn.encNotePackedValue channelKey token index note.salt note.amount = .ok packed

/-- The notes of a subchannel are stored at the indices from zero on, and at no other. -/
structure SubchannelStored (sn : Starknet) (pool : Pool) (channelKey : Felt)
    (subchannel : StoredSubchannel) : Prop where
  used_iff : ∀ index < 2 ^ 64,
    pool.read sn .notes
      (computeNoteId sn channelKey (ContractAddress.toFelt subchannel.token) index) 0 ≠ 0 ↔
        index < subchannel.notes.length
  packed : ∀ (index : Usize) (h : index.val < subchannel.notes.length),
    StoredNote.Packed sn channelKey subchannel.token index subchannel.notes[index.val]
      (pool.read sn .notes (sn.computeNoteId channelKey subchannel.token index) 0)
  length_le : subchannel.notes.length ≤ 2 ^ 32

/-- The subchannels of a channel are stored at the indices from zero on. -/
structure ChannelStored (sn : Starknet) (pool : Pool) (channelKey : Felt)
    (subchannels : List StoredSubchannel) : Prop where
  used_iff : ∀ index ≤ subchannels.length,
    pool.read sn .subchannelTokens (computeSubchannelId sn channelKey index) 0 ≠ 0 ↔
      index < subchannels.length
  encrypted : ∀ (index : Usize) (h : index.val < subchannels.length), ∃ salt,
    (⟨pool.read sn .subchannelTokens (sn.computeSubchannelId channelKey index) 0,
      pool.read sn .subchannelTokens (sn.computeSubchannelId channelKey index) 1⟩ :
        EncSubchannelInfo) =
      sn.encryptSubchannelInfo channelKey index subchannels[index.val].token salt
  length_le : subchannels.length ≤ 2 ^ 32
  nodup : (subchannels.map StoredSubchannel.token).Nodup
  stored : ∀ subchannel ∈ subchannels, SubchannelStored sn pool channelKey subchannel

/-- The vector of a recipient, whose length is a `u64`, announces the channels, which come from
different senders and have different keys, and each channel is stored. -/
structure AccountStored (sn : Starknet) (pool : Pool) (recipient : ContractAddress)
    (publicKey : Felt) (account : List StoredChannel) : Prop where
  announced : List.Forall₂
    (fun info channel => ∃ random, sn.encryptChannelInfo random publicKey channel.channelKey
      channel.peerAddr = .ok info)
    (pool.recipientChannels recipient) account
  length_lt : account.length < 2 ^ 64
  peers_nodup : (account.map StoredChannel.peerAddr).Nodup
  keys_nodup : (account.map StoredChannel.channelKey).Nodup
  stored : ∀ channel ∈ account, ChannelStored sn pool channel.channelKey channel.subchannels

/-- The outgoing channels of a sender are stored at the indices from zero on. They lead to
different recipients and have different keys, which belong to the registered public keys,
and each channel is stored. -/
structure SenderStored (sn : Starknet) (pool : Pool) (sender : ContractAddress)
    (viewingKey : Felt) (account : List StoredChannel) : Prop where
  used_iff : ∀ index ≤ account.length,
    pool.read sn .outgoingChannels
      (computeOutgoingChannelId sn (ContractAddress.toFelt sender) viewingKey index) 0 ≠ 0 ↔
        index < account.length
  encrypted : ∀ (index : Usize) (h : index.val < account.length), ∃ salt,
    (⟨pool.read sn .outgoingChannels (sn.computeOutgoingChannelId sender viewingKey index) 0,
      pool.read sn .outgoingChannels (sn.computeOutgoingChannelId sender viewingKey index) 1⟩ :
        EncOutgoingChannelInfo) =
      sn.encryptOutgoingChannelInfo sender viewingKey index account[index.val].peerAddr salt
  length_le : account.length ≤ 2 ^ 32
  key_eq : ∀ channel ∈ account, channel.channelKey = sn.computeChannelKey sender viewingKey
    channel.peerAddr (pool.read sn .publicKey (ContractAddress.toFelt channel.peerAddr) 0)
  peers_nodup : (account.map StoredChannel.peerAddr).Nodup
  keys_nodup : (account.map StoredChannel.channelKey).Nodup
  stored : ∀ channel ∈ account, ChannelStored sn pool channel.channelKey channel.subchannels

/-! ### The contents of stored channels -/

/-- The subchannels of a channel key, among those of some channels. -/
def subchannelsAt (account : List StoredChannel) (channelKey : Felt) : List StoredSubchannel :=
  (account.find? fun channel => channel.channelKey = channelKey).elim []
    StoredChannel.subchannels

/-- The tokens and note counts of stored channels. -/
def contentsOf (account : List StoredChannel) : Contents where
  tokens channelKey := (subchannelsAt account channelKey).map
    fun subchannel => ContractAddress.toFelt subchannel.token
  count channelKey token := ((subchannelsAt account channelKey).find?
    fun subchannel => ContractAddress.toFelt subchannel.token = token).elim 0
      fun subchannel => subchannel.notes.length

/-- With distinct keys, a search by the key of a member finds the member. -/
theorem find?_eq_some_of_mem {α κ : Type*} [DecidableEq κ] {key : α → κ} {l : List α} {a : α}
    (hnodup : (l.map key).Nodup) (ha : a ∈ l) : (l.find? fun b => key b = key a) = some a := by
  induction l with
  | nil => cases ha
  | cons b l ih =>
    rw [List.map_cons, List.nodup_cons] at hnodup
    rcases List.mem_cons.mp ha with rfl | hmem
    · exact List.find?_cons_of_pos (by simp)
    · have hne : key b ≠ key a := fun heq => hnodup.1 (heq ▸ List.mem_map_of_mem hmem)
      rw [List.find?_cons_of_neg (by simpa using hne), ih hnodup.2 hmem]

variable {sn : Starknet} {pool : Pool} {account : List StoredChannel}

theorem subchannelsAt_of_mem (hnodup : (account.map StoredChannel.channelKey).Nodup)
    {channel : StoredChannel} (h : channel ∈ account) :
    subchannelsAt account channel.channelKey = channel.subchannels := by
  unfold subchannelsAt
  rw [find?_eq_some_of_mem hnodup h]
  rfl

theorem tokens_of_mem (hkeys : (account.map StoredChannel.channelKey).Nodup)
    {channel : StoredChannel} (hmem : channel ∈ account) :
    (contentsOf account).tokens channel.channelKey =
      channel.subchannels.map fun subchannel => ContractAddress.toFelt subchannel.token := by
  dsimp only [contentsOf]
  rw [subchannelsAt_of_mem hkeys hmem]

/-- Distinct addresses are distinct felts. -/
theorem nodup_toFelt {α : Type} {l : List α} {addr : α → ContractAddress}
    (h : (l.map addr).Nodup) : (l.map fun a => ContractAddress.toFelt (addr a)).Nodup := by
  have hfelts := List.Nodup.map (fun _ _ => ContractAddress.toFelt_inj.mp) h
  rwa [List.map_map] at hfelts

theorem count_of_mem {channelKey : Felt} {subchannels : List StoredSubchannel}
    (hat : subchannelsAt account channelKey = subchannels)
    (hnodup : (subchannels.map StoredSubchannel.token).Nodup) {subchannel : StoredSubchannel}
    (h : subchannel ∈ subchannels) :
    (contentsOf account).count channelKey (ContractAddress.toFelt subchannel.token) =
      subchannel.notes.length := by
  dsimp only [contentsOf]
  rw [hat, find?_eq_some_of_mem (nodup_toFelt hnodup) h]
  rfl

/-- The service reads the subchannels that are stored. -/
theorem ChannelStored.held {backend : Backend} {channelKey : Felt}
    {subchannels : List StoredSubchannel}
    (h : ChannelStored sn backend.pool channelKey subchannels)
    (hat : subchannelsAt account channelKey = subchannels) :
    (contentsOf account).Held sn backend channelKey := by
  have htokens : (contentsOf account).tokens channelKey =
      subchannels.map fun subchannel => ContractAddress.toFelt subchannel.token := by
    dsimp only [contentsOf]
    rw [hat]
  refine ⟨?_, ?_, ?_, ?_, ?_⟩
  · intro index hindex
    rw [htokens, List.length_map] at hindex ⊢
    exact h.used_iff index hindex
  · intro index hindex
    have hlt : index < subchannels.length := by
      rwa [htokens, List.length_map] at hindex
    -- The index is one of the contract's.
    obtain ⟨i, rfl⟩ : ∃ i : Usize, index = i.val := ⟨⟨index, hlt.trans_le h.length_le⟩, rfl⟩
    obtain ⟨salt, hinfo⟩ := h.encrypted i hlt
    rw [computeSubchannelId_usize, Backend.getSubchannelInfo, hinfo]
    simp only [htokens, List.getElem_map]
    exact decryptSubchannelToken_encryptSubchannelInfo salt
  · rw [htokens, List.length_map]
    exact h.length_le.trans_lt (by decide)
  · rw [htokens]
    exact nodup_toFelt h.nodup
  · intro token htoken
    rw [htokens] at htoken
    obtain ⟨subchannel, hmem, rfl⟩ := List.mem_map.mp htoken
    rw [count_of_mem hat h.nodup hmem]
    exact ⟨(h.stored subchannel hmem).used_iff, (h.stored subchannel hmem).length_le⟩

/-- The service reads the account that is stored. -/
theorem AccountStored.incomingHeld {backend : Backend} {recipient : ContractAddress}
    {publicKey viewingKey : Felt} {newFromX : Felt → Option sn.EcPoint} (hcurve : CurveLaw sn)
    (hrecover : RecoversPoints sn newFromX) (hkey : sn.derivePublicKey viewingKey = .ok publicKey)
    (h : AccountStored sn backend.pool recipient publicKey account) :
    IncomingHeld sn newFromX backend recipient viewingKey
      (account.map fun channel => ⟨channel.channelKey, ContractAddress.toFelt channel.peerAddr⟩)
      (contentsOf account) := by
  refine ⟨⟨?_, by simpa using h.length_lt, ?_⟩, ?_⟩
  · rw [List.forall₂_map_right_iff]
    refine h.announced.imp fun info channel ⟨random, hinfo⟩ => ?_
    exact decryptChannelInfo_encryptChannelInfo hcurve hrecover hkey hinfo
  · rw [List.map_map]
    exact nodup_toFelt h.peers_nodup
  · intro _ hchannel
    obtain ⟨channel, hmem, rfl⟩ := List.mem_map.mp hchannel
    exact (h.stored channel hmem).held (subchannelsAt_of_mem h.keys_nodup hmem)

/-- The recipients of the channels of a sender. -/
def recipientsOf (account : List StoredChannel) : List Felt :=
  account.map fun channel => ContractAddress.toFelt channel.peerAddr

/-- The service computes the key of each channel of a sender. -/
theorem SenderStored.channelToward_key {backend : Backend} {sender : ContractAddress}
    {viewingKey : Felt} (h : SenderStored sn backend.pool sender viewingKey account)
    {channel : StoredChannel} (hmem : channel ∈ account) :
    (channelToward sn backend (ContractAddress.toFelt sender) viewingKey
      (ContractAddress.toFelt channel.peerAddr) false).channelKey = channel.channelKey := by
  rw [h.key_eq channel hmem]
  rfl

/-- The service reads the outgoing channels that are stored. -/
theorem SenderStored.senderHeld {backend : Backend} {sender : ContractAddress} {viewingKey : Felt}
    (h : SenderStored sn backend.pool sender viewingKey account) :
    SenderHeld sn backend (ContractAddress.toFelt sender) viewingKey (recipientsOf account)
      (contentsOf account) := by
  have hlength : (recipientsOf account).length = account.length := List.length_map _
  refine ⟨⟨?_, ?_, hlength.trans_lt (h.length_le.trans_lt (by decide))⟩, ?_⟩
  · intro index hindex
    rw [hlength] at hindex ⊢
    exact h.used_iff index hindex
  · intro index hindex
    have hlt : index < account.length := hlength ▸ hindex
    -- The index is one of the contract's.
    obtain ⟨i, rfl⟩ : ∃ i : Usize, index = i.val := ⟨⟨index, hlt.trans_le h.length_le⟩, rfl⟩
    obtain ⟨salt, hinfo⟩ := h.encrypted i hlt
    rw [computeOutgoingChannelId_usize, Backend.getOutgoingChannelInfo, hinfo]
    simp only [recipientsOf, List.getElem_map]
    exact decryptOutgoingRecipientAddr_encryptOutgoingChannelInfo _ _ _ _
  · intro addr haddr
    obtain ⟨channel, hmem, rfl⟩ := List.mem_map.mp haddr
    rw [h.channelToward_key hmem]
    exact (h.stored channel hmem).held (subchannelsAt_of_mem h.keys_nodup hmem)

/-! ### Unspent notes -/

/-- What the service returns for a note of an account. -/
def decryptedNote (sn : Starknet) (backend : Backend) (channel : StoredChannel)
    (subchannel : StoredSubchannel) (index : ℕ) : DecryptedNote :=
  let token := ContractAddress.toFelt subchannel.token
  let noteId := computeNoteId sn channel.channelKey token index
  let note := subchannel.notes.getD index default
  { senderAddr := ContractAddress.toFelt channel.peerAddr
    token, index, noteId
    amount := note.amount.val
    salt := note.salt.val
    blockNumber := backend.lastUpdateBlock (sn.entry .notes noteId).val }

/-- The un-nullified notes of a subchannel of an account. -/
def unspentIn (sn : Starknet) (backend : Backend) (viewingKey : Felt) (channel : StoredChannel)
    (subchannel : StoredSubchannel) : List DecryptedNote :=
  ((List.range subchannel.notes.length).filter fun index =>
    !isSpent sn backend viewingKey channel.channelKey (ContractAddress.toFelt subchannel.token)
      index).map (decryptedNote sn backend channel subchannel)

/-- The un-nullified notes of an account. -/
def unspentOf (sn : Starknet) (backend : Backend) (viewingKey : Felt)
    (account : List StoredChannel) : List DecryptedNote :=
  account.flatMap fun channel => channel.subchannels.flatMap (unspentIn sn backend viewingKey channel)

theorem StoredNote.Packed.decrypt {channelKey : Felt} {token : ContractAddress} {index : Usize}
    {note : StoredNote} {packed : Felt} (h : note.Packed sn channelKey token index packed) :
    decryptPackedValue sn packed channelKey (ContractAddress.toFelt token) index.val =
      (note.amount.val, note.salt.val) := by
  rcases h with ⟨hsalt, hpack⟩ | ⟨hsmall, -, hpack⟩
  · rw [decryptPackedValue_of_pack hpack, if_pos rfl, hsalt]
  · rw [decryptPackedValue_of_pack hpack, if_neg hsmall.ne']
    exact congrArg (fun amount : U128 => (amount.val, note.salt.val)) (add_sub_cancel_left _ _)

/-- The service decrypts a note to what is stored. -/
theorem SubchannelStored.noteAt_eq {backend : Backend} {channel : StoredChannel}
    {subchannel : StoredSubchannel}
    (h : SubchannelStored sn backend.pool channel.channelKey subchannel) {index : ℕ}
    (hindex : index < subchannel.notes.length) :
    (noteAt sn backend channel.channelKey (ContractAddress.toFelt subchannel.token) index).tagged
        (ContractAddress.toFelt channel.peerAddr) (ContractAddress.toFelt subchannel.token) =
      decryptedNote sn backend channel subchannel index := by
  obtain ⟨i, rfl⟩ : ∃ i : Usize, index = i.val := ⟨⟨index, hindex.trans_le h.length_le⟩, rfl⟩
  have hpacked := (h.packed i hindex).decrypt
  rw [← computeNoteId_usize] at hpacked
  unfold noteAt decryptNote decryptedNote
  dsimp only [DecryptedNote.tagged, Backend.getNoteWithBlock]
  rw [hpacked, List.getD_eq_getElem _ _ hindex]

theorem SubchannelStored.unspentNotes_eq {backend : Backend} {viewingKey : Felt}
    {channel : StoredChannel} {subchannel : StoredSubchannel}
    (h : SubchannelStored sn backend.pool channel.channelKey subchannel) :
    (unspentNotes sn backend viewingKey channel.channelKey
        (ContractAddress.toFelt subchannel.token) 0 subchannel.notes.length).map
          (DecryptedNote.tagged (ContractAddress.toFelt channel.peerAddr)
            (ContractAddress.toFelt subchannel.token)) =
      unspentIn sn backend viewingKey channel subchannel := by
  unfold unspentNotes unspentIn
  rw [List.map_map, ← List.range_eq_range']
  refine List.map_congr_left fun index hindex => ?_
  exact h.noteAt_eq (List.mem_range.mp (List.mem_of_mem_filter hindex))

/-- In a subchannel that is yet to be scanned, its un-nullified notes are pending. -/
theorem AccountStored.pendingNotes_default {backend : Backend} {recipient : ContractAddress}
    {publicKey viewingKey : Felt} (h : AccountStored sn backend.pool recipient publicKey account)
    {channel : StoredChannel} (hchannel : channel ∈ account) {subchannel : StoredSubchannel}
    (hsubchannel : subchannel ∈ channel.subchannels) :
    pendingNotes sn backend (contentsOf account) viewingKey (ContractAddress.toFelt channel.peerAddr)
        channel.channelKey (ContractAddress.toFelt subchannel.token) {} =
      (unspentIn sn backend viewingKey channel subchannel : Multiset DecryptedNote) := by
  have hstored := h.stored channel hchannel
  rw [← (hstored.stored subchannel hsubchannel).unspentNotes_eq,
    ← count_of_mem (subchannelsAt_of_mem h.keys_nodup hchannel) hstored.nodup hsubchannel]
  rfl

/-- From the default cursor, the un-nullified notes of the account are pending. -/
theorem AccountStored.weight_default {backend : Backend} {recipient : ContractAddress}
    {publicKey viewingKey : Felt} (h : AccountStored sn backend.pool recipient publicKey account) :
    DiscoveryCursor.weight (contentsOf account)
        (account.map fun channel =>
          ⟨channel.channelKey, ContractAddress.toFelt channel.peerAddr⟩)
        (pendingNotes sn backend (contentsOf account) viewingKey) {} =
      (unspentOf sn backend viewingKey account : Multiset DecryptedNote) := by
  have hunfound : (DiscoveryCursor.unfound (account.map fun channel =>
      ⟨channel.channelKey, ContractAddress.toFelt channel.peerAddr⟩) {}) =
      account.map fun channel =>
        ⟨channel.channelKey, ContractAddress.toFelt channel.peerAddr⟩ := by
    simp [DiscoveryCursor.unfound, nextIndex]
  unfold DiscoveryCursor.weight unspentOf
  rw [hunfound, List.map_nil, List.sum_nil, zero_add, List.map_map, coe_flatMap]
  congr 1
  refine List.map_congr_left fun channel hchannel => ?_
  rw [Function.comp_apply, ChannelCursor.weight_new, coe_flatMap,
    tokens_of_mem h.keys_nodup hchannel, List.map_map]
  congr 1
  exact List.map_congr_left fun subchannel hsubchannel =>
    h.pendingNotes_default hchannel hsubchannel

/-- Each un-nullified note of an account is listed once. -/
theorem unspentOf_nodup {backend : Backend} {viewingKey : Felt}
    (hsenders : (account.map StoredChannel.peerAddr).Nodup)
    (htokens : ∀ channel ∈ account, (channel.subchannels.map StoredSubchannel.token).Nodup) :
    (unspentOf sn backend viewingKey account).Nodup := by
  -- The sender, the token and the index tell the notes of an account apart.
  have hin : ∀ (channel : StoredChannel) (subchannel : StoredSubchannel) (note : DecryptedNote),
      note ∈ unspentIn sn backend viewingKey channel subchannel →
        note.senderAddr = ContractAddress.toFelt channel.peerAddr ∧
          note.token = ContractAddress.toFelt subchannel.token := by
    intro channel subchannel note hnote
    obtain ⟨index, -, rfl⟩ := List.mem_map.mp hnote
    exact ⟨rfl, rfl⟩
  unfold unspentOf
  refine List.nodup_flatMap.mpr ⟨fun channel hchannel => ?_, ?_⟩
  · refine List.nodup_flatMap.mpr ⟨fun subchannel _ => ?_, ?_⟩
    · refine List.Nodup.map (fun index index' h => congrArg DecryptedNote.index h) ?_
      exact List.Nodup.filter _ List.nodup_range
    · refine (List.pairwise_map.mp (htokens channel hchannel)).imp fun hne note hnote hnote' => ?_
      have hsame := (hin _ _ note hnote).2.symm.trans (hin _ _ note hnote').2
      exact hne (ContractAddress.toFelt_inj.mp hsame)
  · refine (List.pairwise_map.mp hsenders).imp fun hne note hnote hnote' => ?_
    obtain ⟨subchannel, -, hmem⟩ := List.mem_flatMap.mp hnote
    obtain ⟨subchannel', -, hmem'⟩ := List.mem_flatMap.mp hnote'
    have hsame := (hin _ _ note hmem).1.symm.trans (hin _ _ note hmem').1
    exact hne (ContractAddress.toFelt_inj.mp hsame)

/-! ### A small account

After the small run, user 5 has a channel from itself with two notes of token 77: an
encrypted one of 100, which is spent, and an open one of 40. -/

namespace Sample

/-- The service after the small run. -/
def backend : Backend := ⟨PrivacyPool.Sample.spent.pool, fun _ => 7⟩

/-- What user 5 has then. -/
def stored : List StoredChannel := [⟨5, 1, [⟨77, [⟨2, 100⟩, ⟨1, 40⟩]⟩]⟩]

/-- The sample platform hashes the ids of all other notes to one value. -/
theorem computeNoteId_of_le {index : ℕ} (hlow : 2 ≤ index) (hhigh : index < 2 ^ 64) :
    computeNoteId Starknet.sample 1 77 index = 10 := by
  have hval : (feltOfNat index).val = index := Nat.mod_eq_of_lt (hhigh.trans (by decide))
  have hne : ∀ i : Felt, i.val < 2 → feltOfNat index ≠ i := by
    intro i hi h
    rw [← h] at hi
    omega
  have hnot : [noteIdTag, 1, 77, feltOfNat index, 0] ∉ sampleSpans := by
    have htag : ∀ span ∈ sampleSpans, span.headD 0 = noteIdTag → span.getD 3 0 = 0 ∨
        span.getD 3 0 = 1 := by decide +kernel
    intro hmem
    rcases htag _ hmem rfl with h | h
    · exact hne 0 (by decide) h
    · exact hne 1 (by decide) h
  have hindex := List.idxOf_eq_length hnot
  unfold computeNoteId
  simp only [Starknet.sample]
  rw [hindex]
  rfl

section Stored

variable {pool : Pool} {notes : List StoredNote}

theorem subchannelStored_of (hlength : notes.length ≤ 2)
    (hused : ∀ i : Fin 2, pool.read Starknet.sample .notes
      (computeNoteId Starknet.sample 1 77 i.val) 0 ≠ 0 ↔ i.val < notes.length)
    (hblank : pool.read Starknet.sample .notes 10 0 = 0)
    (hpacked : ∀ (index : Usize) (h : index.val < notes.length), StoredNote.Packed Starknet.sample 1
      77 index notes[index.val]
        (pool.read Starknet.sample .notes (Starknet.sample.computeNoteId 1 77 index) 0)) :
    SubchannelStored Starknet.sample pool 1 ⟨77, notes⟩ where
  used_iff := by
    intro index hindex
    rcases Nat.lt_or_ge index 2 with hlow | hlow
    · exact hused ⟨index, hlow⟩
    · have hid := computeNoteId_of_le hlow hindex
      refine iff_of_false (not_not.mpr ?_) (Nat.not_lt.mpr (hlength.trans hlow))
      rw [← hid] at hblank
      exact hblank
  packed := hpacked
  length_le := hlength.trans (by decide)

theorem channelStored_of
    (hused : ∀ i : Fin 2, pool.read Starknet.sample .subchannelTokens
      (computeSubchannelId Starknet.sample 1 i.val) 0 ≠ 0 ↔ i.val < 1)
    (hinfo : (⟨pool.read Starknet.sample .subchannelTokens
        (Starknet.sample.computeSubchannelId 1 0) 0, pool.read Starknet.sample .subchannelTokens
          (Starknet.sample.computeSubchannelId 1 0) 1⟩ : EncSubchannelInfo) =
      Starknet.sample.encryptSubchannelInfo 1 0 77 9)
    (hstored : SubchannelStored Starknet.sample pool 1 ⟨77, notes⟩) :
    ChannelStored Starknet.sample pool 1 [⟨77, notes⟩] where
  used_iff index hindex := hused ⟨index, Nat.lt_succ_of_le hindex⟩
  encrypted := by
    intro index hindex
    obtain rfl : index = 0 := Fin.ext (Nat.lt_one_iff.mp hindex)
    exact ⟨9, hinfo⟩
  length_le := Nat.one_le_two_pow
  nodup := List.nodup_singleton _
  stored := by
    intro subchannel hsubchannel
    obtain rfl := List.mem_singleton.mp hsubchannel
    exact hstored

theorem accountStored_of
    (hvector : pool.recipientChannels 5 =
      [valueOr ⟨0, 0, 0⟩ (Starknet.sample.encryptChannelInfo 9 3 1 5)])
    (hstored : ChannelStored Starknet.sample pool 1 [⟨77, notes⟩]) :
    AccountStored Starknet.sample pool 5 3 [⟨5, 1, [⟨77, notes⟩]⟩] where
  announced := by
    have hinfo : Starknet.sample.encryptChannelInfo 9 3 1 5 =
        .ok (valueOr ⟨0, 0, 0⟩ (Starknet.sample.encryptChannelInfo 9 3 1 5)) :=
      eq_ok_valueOr _ (by decide +kernel)
    rw [hvector]
    exact .cons ⟨9, hinfo⟩ .nil
  length_lt := Nat.one_lt_two_pow (by decide)
  peers_nodup := List.nodup_singleton _
  keys_nodup := List.nodup_singleton _
  stored := by
    intro channel hchannel
    obtain rfl := List.mem_singleton.mp hchannel
    exact hstored

end Stored

theorem subchannelStored :
    SubchannelStored Starknet.sample backend.pool 1 ⟨77, [⟨2, 100⟩, ⟨1, 40⟩]⟩ := by
  refine subchannelStored_of le_rfl (by decide +kernel) (by decide +kernel) fun index hindex => ?_
  have hfirst : StoredNote.Packed Starknet.sample 1 77 0 ⟨2, 100⟩ (backend.pool.read
      Starknet.sample .notes (Starknet.sample.computeNoteId 1 77 0) 0) := .inr (by decide +kernel)
  have hsecond : StoredNote.Packed Starknet.sample 1 77 1 ⟨1, 40⟩ (backend.pool.read
      Starknet.sample .notes (Starknet.sample.computeNoteId 1 77 1) 0) := .inl (by decide +kernel)
  have hlt : index.val < 2 := hindex
  rcases (show index.val = 0 ∨ index.val = 1 by omega) with h | h
  · obtain rfl : index = 0 := Fin.ext h
    exact hfirst
  · obtain rfl : index = 1 := Fin.ext h
    exact hsecond

theorem channelStored : ChannelStored Starknet.sample backend.pool 1
    [⟨77, [⟨2, 100⟩, ⟨1, 40⟩]⟩] :=
  channelStored_of (by decide +kernel) (by decide +kernel) subchannelStored

theorem accountStored : AccountStored Starknet.sample backend.pool 5 3 stored :=
  accountStored_of (by decide +kernel) channelStored

/-- Before its second list, user 5 has the first note only. -/
theorem funded_accountStored : AccountStored Starknet.sample PrivacyPool.Sample.funded.pool 5 3
    [⟨5, 1, [⟨77, [⟨2, 100⟩]⟩]⟩] := by
  refine accountStored_of (by decide +kernel) (channelStored_of (by decide +kernel)
    (by decide +kernel) (subchannelStored_of (by decide) (by decide +kernel) (by decide +kernel)
      fun index hindex => ?_))
  have hfirst : StoredNote.Packed Starknet.sample 1 77 0 ⟨2, 100⟩
      (PrivacyPool.Sample.funded.pool.read Starknet.sample .notes
        (Starknet.sample.computeNoteId 1 77 0) 0) := .inr (by decide +kernel)
  obtain rfl : index = 0 := Fin.ext (Nat.lt_one_iff.mp hindex)
  exact hfirst

theorem senderStored : SenderStored Starknet.sample backend.pool 5 3 stored where
  used_iff := by
    intro index hindex
    have hused : ∀ i : Fin 2, backend.pool.read Starknet.sample .outgoingChannels
        (computeOutgoingChannelId Starknet.sample 5 3 i.val) 0 ≠ 0 ↔ i.val < 1 := by decide +kernel
    exact hused ⟨index, Nat.lt_succ_of_le hindex⟩
  encrypted := by
    intro index hindex
    obtain rfl : index = 0 := Fin.ext (Nat.lt_one_iff.mp hindex)
    have hinfo : (⟨backend.pool.read Starknet.sample .outgoingChannels
        (Starknet.sample.computeOutgoingChannelId 5 3 0) 0, backend.pool.read Starknet.sample
        .outgoingChannels (Starknet.sample.computeOutgoingChannelId 5 3 0) 1⟩ :
          EncOutgoingChannelInfo) =
        Starknet.sample.encryptOutgoingChannelInfo 5 3 0 5 9 := by decide +kernel
    exact ⟨9, hinfo⟩
  length_le := by decide
  key_eq := by decide +kernel
  peers_nodup := by decide
  keys_nodup := by decide
  stored := by
    intro channel hchannel
    obtain rfl := List.mem_singleton.mp hchannel
    exact channelStored

end Sample

end PrivacyPool.Discovery
