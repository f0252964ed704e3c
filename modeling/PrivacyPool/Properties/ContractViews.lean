import PrivacyPool.Properties.ResumedCalls
import PrivacyPool.Sdk.ContractCalls

/-!
# The pool through its views

The views show the channels, subchannels and notes that the pool stores for a user. What
note discovery over the contract finds is therefore told by the account: the unspent notes
that pass the filter, and those of the subchannels of the cursor.

## Main definitions

* `UserState.Contiguous` — no subchannel is stored after the last one
* `contractNote` — a note of the account as the provider returns it
* `InCursor` — a subchannel is in a cursor

## Main results

* `UserState.readable` — the views show what is stored
* `mem_sum_notesIn_iff`, `mem_resumed_iff` — the notes that a call returns
-/

namespace PrivacyPool.Sdk

open Discovery HashMap

variable {sn : Starknet} {recoverPointFromX : Felt → Option sn.EcPoint} {D : Domain}
  {address : ContractAddress} {viewingKey publicKey : Felt} {s s' : UserState sn address publicKey}

/-- The subchannels of each channel are at the indices from zero on, and at no other. -/
def UserState.Contiguous (s : UserState sn address publicKey) : Prop :=
  ∀ channel ∈ s.account, ∀ index < 2 ^ 64,
    s.backend.pool.read sn .subchannelTokens
      (computeSubchannelId sn channel.channelKey index) 0 ≠ 0 ↔ index < channel.subchannels.length

/-- A viewing key that the curve library takes, with the public key that it stands for. -/
structure OwnKey (sn : Starknet) (viewingKey publicKey : Felt) : Prop where
  ne_zero : viewingKey ≠ 0
  canonical : isCanonicalKey viewingKey
  derived : sn.derivePublicKey viewingKey = .ok publicKey

/-- The views show what is stored for the user. -/
theorem UserState.readable (hcurve : CurveLaw sn) (hrecover : RecoversPoints sn recoverPointFromX)
    (hkey : OwnKey sn viewingKey publicKey) (hcontiguous : s.Contiguous) :
    NotesDiscovery.Readable sn recoverPointFromX s.backend address viewingKey s.channels
      s.contents := by
  have hheld := s.held hcurve hrecover hkey.derived
  have hlength := s.stored.announced.length_eq
  have hstored : ∀ channel ∈ s.channels, ∃ own ∈ s.account, channel.channelKey = own.channelKey ∧
      s.contents.tokens channel.channelKey =
        own.subchannels.map fun subchannel => ContractAddress.toFelt subchannel.token := by
    intro channel hchannel
    obtain ⟨own, hown, rfl⟩ := List.mem_map.mp hchannel
    exact ⟨own, hown, rfl, tokens_of_mem s.stored.keys_nodup hown⟩
  -- The number of channels, then what each channel and each subchannel decrypt to.
  refine ⟨?_, fun c hc => ?_, hheld.listed.nodup, fun channel hchannel k hk => ?_,
    fun channel hchannel k hk => ?_, fun channel hchannel => ?_,
    fun channel hchannel => (hheld.held channel hchannel).nodup,
    fun channel hchannel => (hheld.held channel hchannel).notes⟩
  · unfold Backend.getNumOfChannels
    rw [hlength]
    exact (List.length_map _).symm
  · have hc' : c < s.account.length := by rwa [List.length_map] at hc
    have hvector : c < (s.backend.pool.recipientChannels address).length := by rwa [hlength]
    obtain ⟨random, hinfo⟩ := List.forall₂_iff_get.mp s.stored.announced |>.2 c hvector hc'
    have hget : s.backend.getChannelInfo address c =
        (s.backend.pool.recipientChannels address).get ⟨c, hvector⟩ :=
      List.getD_eq_getElem _ _ hvector
    rw [hget, Sdk.decryptChannelInfo_encryptChannelInfo hcurve hrecover hkey.ne_zero hkey.canonical
      hkey.derived hinfo]
    simp only [List.getElem_map]
    rfl
  · obtain ⟨own, hown, hsame, htokens⟩ := hstored channel hchannel
    rw [htokens, List.length_map, hsame]
    exact hcontiguous own hown k hk
  · obtain ⟨own, hown, hsame, htokens⟩ := hstored channel hchannel
    have hk' : k < own.subchannels.length := by rwa [htokens, List.length_map] at hk
    have hchannelStored := s.stored.stored own hown
    obtain ⟨i, rfl⟩ : ∃ i : Usize, k = i.val :=
      ⟨⟨k, hk'.trans_le hchannelStored.length_le⟩, rfl⟩
    obtain ⟨salt, hinfo⟩ := hchannelStored.encrypted i hk'
    simp only [htokens, List.getElem_map]
    simp only [hsame]
    rw [computeSubchannelId_usize, Backend.getSubchannelInfo, hinfo,
      Sdk.decryptSubchannelInfo_encryptSubchannelInfo, ofBigInt_toBigInt]
  · obtain ⟨own, hown, -, htokens⟩ := hstored channel hchannel
    rw [htokens, List.length_map]
    exact (s.stored.stored own hown).length_le

/-! ### Notes of the account -/

/-- A note of the account as the provider returns it. -/
def contractNote (channels : List IncomingChannel) (n : DecryptedNote) : Note :=
  { convertNote (senderKey channels n.senderAddr) n with
    id := .bigint n.noteId.val
    created := some 0 }

/-- Two notes of one token that the provider returns are the same only if they are one note
of the account. -/
theorem contractNote_inj {channels : List IncomingChannel} {backend : Backend}
    {account : List StoredChannel} {n n' : DecryptedNote}
    (hn : n ∈ unspentOf sn backend viewingKey account)
    (hn' : n' ∈ unspentOf sn backend viewingKey account) (htoken : n.token = n'.token)
    (h : contractNote channels n = contractNote channels n')
    (hsenders : (account.map StoredChannel.peerAddr).Nodup)
    (htokens : ∀ channel ∈ account, (channel.subchannels.map StoredSubchannel.token).Nodup) :
    n = n' := by
  have hsender : n.senderAddr = n'.senderAddr := congrArg Note.sender h
  have hindex : n.index = n'.index := congrArg (fun note => note.witness.index) h
  obtain ⟨channel, hchannel, subchannel, hsub, hnote⟩ := mem_unspentOf.mp hn
  obtain ⟨channel', hchannel', subchannel', hsub', hnote'⟩ := mem_unspentOf.mp hn'
  obtain ⟨i, -, rfl⟩ := List.mem_map.mp hnote
  obtain ⟨i', -, rfl⟩ := List.mem_map.mp hnote'
  obtain rfl := List.inj_on_of_nodup_map hsenders hchannel hchannel'
    (ContractAddress.toFelt_inj.mp hsender)
  obtain rfl := List.inj_on_of_nodup_map (htokens channel hchannel) hsub hsub'
    (ContractAddress.toFelt_inj.mp htoken)
  obtain rfl : i = i' := hindex
  rfl

/-- The salt is in the high half of a packed value. -/
theorem shiftRight_of_pack {salt amount : U128} {packed : Felt} (h : pack salt amount = .ok packed) :
    packed.val >>> 128 = salt.val := by
  have hpacked := val_eq_of_pack h
  have hlow := amount.isLt
  rw [Nat.shiftRight_eq_div_pow]
  omega

/-- The SDK reads the amount and the salt of a stored note. -/
theorem readNoteAmount_of_packed {channelKey : Felt} {token : ContractAddress} {index : Usize}
    {note : StoredNote} {packed : Felt} (h : note.Packed sn channelKey token index packed) :
    readNoteAmount sn packed.val (toBigInt channelKey) (toBigInt (ContractAddress.toFelt token))
        index.val = ((note.amount.val : ℤ), (note.salt.val : ℤ)) ∧
      packed.val >>> 128 = note.salt.val := by
  rcases h with ⟨hsalt, hpack⟩ | ⟨hsmall, -, hpack⟩
  · rw [readNoteAmount_of_pack_open hpack, shiftRight_of_pack hpack, hsalt]
    exact ⟨rfl, rfl⟩
  · refine ⟨?_, shiftRight_of_pack hpack⟩
    rw [readNoteAmount_of_pack hsmall hpack, decryptNoteAmount_of_pack hpack]
    exact congrArg (fun amount : U128 => ((amount.val : ℤ), (note.salt.val : ℤ)))
      (add_sub_cancel_left _ _)

/-- The provider reads a note to what is stored. -/
theorem toNote_eq {channel : StoredChannel} (hchannel : channel ∈ s.account)
    {subchannel : StoredSubchannel} (hsub : subchannel ∈ channel.subchannels) {index : ℕ}
    (hindex : index < subchannel.notes.length) :
    NotesDiscovery.toNote sn (ContractAddress.toFelt channel.peerAddr) channel.channelKey
        (ContractAddress.toFelt subchannel.token) index
        (NotesDiscovery.packedValueOf sn s.backend channel.channelKey
          (ContractAddress.toFelt subchannel.token) index) =
      contractNote s.channels (decryptedNote sn s.backend channel subchannel index) := by
  have hstored := (s.stored.stored channel hchannel).stored subchannel hsub
  obtain ⟨i, rfl⟩ : ∃ i : Usize, index = i.val := ⟨⟨index, hindex.trans_le hstored.length_le⟩, rfl⟩
  have hsenders : (s.channels.map IncomingChannel.senderAddr).Nodup := by
    rw [List.map_map]
    exact nodup_toFelt s.stored.peers_nodup
  have hkey : senderKey s.channels (ContractAddress.toFelt channel.peerAddr) =
      channel.channelKey := senderKey_of_mem hsenders (List.mem_map_of_mem hchannel)
  have hpacked := hstored.packed i hindex
  rw [← computeNoteId_usize] at hpacked
  obtain ⟨hread, hopen⟩ := readNoteAmount_of_packed hpacked
  unfold NotesDiscovery.toNote NotesDiscovery.packedValueOf contractNote convertNote decryptedNote
  simp only [hread, hopen, hkey, Int.toNat_natCast, List.getD_eq_getElem _ _ hindex]

/-! ### What a call finds -/

/-- What the provider returns for a note of the account, under its token. -/
def returnedNote (channels : List IncomingChannel) (n : DecryptedNote) : Felt × Note :=
  (n.token, contractNote channels n)

/-- Items of a range that are left out where a predicate holds. -/
theorem sum_range_ite {α : Type} (count : ℕ) (skip : ℕ → Bool) (f : ℕ → α) :
    ∑ i ∈ Finset.range count, (if skip i = true then 0 else {f i} : Multiset α) =
      (((List.range count).filter fun i => !skip i).map f : List α) := by
  induction count with
  | zero => rfl
  | succ count ih =>
    rw [Finset.sum_range_succ, ih, List.range_succ, List.filter_append, List.map_append,
      ← Multiset.coe_add]
    cases hskip : skip count with
    | true => simp [hskip]
    | false => simp [hskip]

/-- The unspent notes of a stored subchannel. -/
theorem notesOf_stored {channel : StoredChannel} (hchannel : channel ∈ s.account)
    {subchannel : StoredSubchannel} (hsub : subchannel ∈ channel.subchannels) :
    NotesDiscovery.notesOf sn s.backend viewingKey s.contents
        (ContractAddress.toFelt channel.peerAddr) channel.channelKey
        (ContractAddress.toFelt subchannel.token) =
      ((unspentIn sn s.backend viewingKey channel subchannel).map (returnedNote s.channels) :
        List (Felt × Note)) := by
  have hcount := count_of_mem (subchannelsAt_of_mem s.stored.keys_nodup hchannel)
    (s.stored.stored channel hchannel).nodup hsub
  unfold NotesDiscovery.notesOf unspentIn
  rw [hcount, List.map_map]
  unfold NotesDiscovery.noteItem
  rw [sum_range_ite]
  refine congrArg _ (List.map_congr_left fun index hindex => ?_)
  rw [toNote_eq hchannel hsub (List.mem_range.mp (List.mem_of_mem_filter hindex))]
  rfl

/-- The notes of all subchannels are the unspent notes of the account. -/
theorem sum_notesOf :
    (s.channels.map fun channel => ((s.contents.tokens channel.channelKey).map fun token =>
      NotesDiscovery.notesOf sn s.backend viewingKey s.contents channel.senderAddr
        channel.channelKey token).sum).sum =
      ((s.unspent viewingKey).map (returnedNote s.channels) : List (Felt × Note)) := by
  unfold UserState.unspent unspentOf
  rw [List.map_flatMap, coe_flatMap, List.map_map]
  refine congrArg _ (List.map_congr_left fun channel hchannel => ?_)
  rw [List.map_flatMap, coe_flatMap, Function.comp_apply]
  dsimp only
  rw [tokens_of_mem s.stored.keys_nodup hchannel, List.map_map]
  exact congrArg _ (List.map_congr_left fun subchannel hsub => notesOf_stored hchannel hsub)

/-- A subchannel is in a cursor. -/
def InCursor (cursor : NotesCursor) (sender token : Felt) : Prop :=
  ∃ icc, AddressMap.get cursor sender = some icc ∧ token ∈ keys icc.noteIndexes

theorem mem_notesOf_iff {channel : IncomingChannel} (hchannel : channel ∈ s.channels) {token : Felt}
    (htoken : token ∈ s.contents.tokens channel.channelKey) {x : Felt × Note} :
    x ∈ NotesDiscovery.notesOf sn s.backend viewingKey s.contents channel.senderAddr
        channel.channelKey token ↔
      ∃ n ∈ s.unspent viewingKey, (n.senderAddr = channel.senderAddr ∧ n.token = token) ∧
        returnedNote s.channels n = x := by
  obtain ⟨own, hown, rfl⟩ := List.mem_map.mp hchannel
  dsimp only at htoken ⊢
  rw [tokens_of_mem s.stored.keys_nodup hown] at htoken
  obtain ⟨sub, hsub, rfl⟩ := List.mem_map.mp htoken
  rw [notesOf_stored hown hsub, Multiset.mem_coe, List.mem_map]
  constructor
  · rintro ⟨n, hn, rfl⟩
    refine ⟨n, mem_unspentOf.mpr ⟨own, hown, sub, hsub, hn⟩, ?_, rfl⟩
    obtain ⟨index, -, rfl⟩ := List.mem_map.mp hn
    exact ⟨rfl, rfl⟩
  · rintro ⟨n, hn, ⟨hsender, hsame⟩, rfl⟩
    obtain ⟨own', hown', sub', hsub', hn⟩ := mem_unspentOf.mp hn
    refine ⟨n, ?_, rfl⟩
    -- The sender and the token tell the subchannels apart.
    have hin : n.senderAddr = ContractAddress.toFelt own'.peerAddr ∧
        n.token = ContractAddress.toFelt sub'.token := by
      obtain ⟨index, -, rfl⟩ := List.mem_map.mp hn
      exact ⟨rfl, rfl⟩
    obtain rfl := List.inj_on_of_nodup_map s.stored.peers_nodup hown' hown
      (ContractAddress.toFelt_inj.mp (hin.1.symm.trans hsender))
    obtain rfl := List.inj_on_of_nodup_map (s.stored.stored own' hown').nodup hsub' hsub
      (ContractAddress.toFelt_inj.mp (hin.2.symm.trans hsame))
    exact hn

/-- Every unspent note is in a channel and a subchannel. -/
theorem exists_channel_of_unspent {n : DecryptedNote} (hn : n ∈ s.unspent viewingKey) :
    ∃ channel ∈ s.channels, n.senderAddr = channel.senderAddr ∧
      n.token ∈ s.contents.tokens channel.channelKey := by
  obtain ⟨own, hown, sub, hsub, hnote⟩ := mem_unspentOf.mp hn
  obtain ⟨index, -, rfl⟩ := List.mem_map.mp hnote
  refine ⟨_, List.mem_map_of_mem hown, rfl, ?_⟩
  dsimp only
  rw [tokens_of_mem s.stored.keys_nodup hown]
  exact List.mem_map_of_mem hsub

section Found

variable (tokens : List Felt)

/-- The scans of all subchannels find the unspent notes that pass the filter. -/
theorem mem_sum_notesIn_iff {x : Felt × Note} :
    x ∈ (s.channels.map fun channel => NotesDiscovery.notesIn sn s.backend viewingKey tokens
        s.contents channel.senderAddr channel.channelKey).sum ↔
      ∃ n ∈ s.unspent viewingKey, NotesDiscovery.Passes tokens n.token ∧
        returnedNote s.channels n = x := by
  simp only [mem_sum_map, NotesDiscovery.notesIn_eq]
  constructor
  · rintro ⟨channel, hchannel, token, htoken, hx⟩
    split_ifs at hx with hpasses
    · obtain ⟨n, hn, ⟨-, rfl⟩, hsame⟩ := (mem_notesOf_iff hchannel htoken).mp hx
      exact ⟨n, hn, hpasses, hsame⟩
    · cases hx
  · rintro ⟨n, hn, hpasses, hsame⟩
    obtain ⟨channel, hchannel, hsender, htoken⟩ := exists_channel_of_unspent hn
    refine ⟨channel, hchannel, n.token, htoken, ?_⟩
    rw [if_pos hpasses]
    exact (mem_notesOf_iff hchannel htoken).mpr ⟨n, hn, ⟨hsender, rfl⟩, hsame⟩

/-- The scans that are resumed find the unspent notes of the subchannels of the cursor. -/
theorem mem_resumed_iff {cursor : NotesCursor}
    (hknown : NotesDiscovery.Known s.contents s.channels cursor) {x : Felt × Note} :
    x ∈ NotesDiscovery.resumed sn s.backend viewingKey s.contents cursor ↔
      ∃ n ∈ s.unspent viewingKey, InCursor cursor n.senderAddr n.token ∧
        returnedNote s.channels n = x := by
  unfold NotesDiscovery.resumed
  simp only [mem_sum_map]
  constructor
  · rintro ⟨entry, hentry, sub, hsub, hx⟩
    obtain ⟨htoken, -⟩ := (hknown.within entry hentry).noteIndexes sub hsub
    obtain ⟨n, hn, ⟨hsender, hsame⟩, hreturned⟩ :=
      (mem_notesOf_iff (hknown.channel entry hentry) htoken).mp hx
    refine ⟨n, hn, ⟨entry.2, ?_, ?_⟩, hreturned⟩
    · rw [hsender]
      exact hknown.get_eq hentry
    · rw [hsame]
      exact mem_keys_of_mem hsub
  · rintro ⟨n, hn, ⟨icc, hget, htoken⟩, hreturned⟩
    have hentry := AddressMap.mem_of_get hget
    obtain ⟨sub, hsub, hsame⟩ := List.mem_map.mp htoken
    refine ⟨_, hentry, sub, hsub, ?_⟩
    obtain ⟨hcontents, -⟩ := (hknown.within _ hentry).noteIndexes sub hsub
    exact (mem_notesOf_iff (hknown.channel _ hentry) hcontents).mpr
      ⟨n, hn, ⟨rfl, hsame.symm⟩, hreturned⟩

/-- A sum over some members of a list is part of the sum over all. -/
theorem sum_map_le_of_subset {α β : Type} {l l' : List α} (hnodup : l.Nodup) (hsubset : l ⊆ l')
    (f : α → Multiset β) : (l.map f).sum ≤ (l'.map f).sum := by
  obtain ⟨kept, hperm, hsub⟩ := List.subperm_of_subset hnodup hsubset
  rw [← (hperm.map f).sum_eq]
  exact (hsub.map f).sum_le_sum fun _ _ => Multiset.zero_le _

/-- The unspent notes are all different to the provider. -/
theorem nodup_returnedNotes (s : UserState sn address publicKey) (viewingKey : Felt) :
    ((s.unspent viewingKey).map (returnedNote s.channels)).Nodup := by
  have hsenders := s.stored.peers_nodup
  have htokens := fun channel hchannel => (s.stored.stored channel hchannel).nodup
  refine List.Nodup.map_on (fun n hn n' hn' hsame => ?_) (unspentOf_nodup hsenders htokens)
  obtain ⟨htoken, hnote⟩ := Prod.mk.inj hsame
  exact contractNote_inj hn hn' htoken hnote hsenders htokens

/-- Each note that passes the filter is found once. -/
theorem nodup_sum_notesIn : (s.channels.map fun channel => NotesDiscovery.notesIn sn s.backend
    viewingKey tokens s.contents channel.senderAddr channel.channelKey).sum.Nodup := by
  refine Multiset.nodup_of_le ?_ (Multiset.coe_nodup.mpr (nodup_returnedNotes s viewingKey))
  rw [← sum_notesOf]
  refine List.sum_le_sum fun channel _ => ?_
  rw [NotesDiscovery.notesIn_eq]
  refine List.sum_le_sum fun token _ => ?_
  split_ifs
  · exact le_rfl
  · exact Multiset.zero_le _

/-- Each note of a subchannel of the cursor is found once by the scan that is resumed. -/
theorem nodup_resumed {cursor : NotesCursor}
    (hknown : NotesDiscovery.Known s.contents s.channels cursor) :
    (NotesDiscovery.resumed sn s.backend viewingKey s.contents cursor).Nodup := by
  refine Multiset.nodup_of_le ?_ (Multiset.coe_nodup.mpr (nodup_returnedNotes s viewingKey))
  rw [← sum_notesOf]
  have hsubset : NotesDiscovery.channelsIn cursor ⊆ s.channels := by
    intro channel hchannel
    obtain ⟨entry, hentry, rfl⟩ := List.mem_map.mp hchannel
    exact hknown.channel entry hentry
  refine le_trans ?_ (sum_map_le_of_subset hknown.nodup_channelsIn hsubset _)
  unfold NotesDiscovery.resumed NotesDiscovery.channelsIn
  rw [List.map_map]
  refine List.sum_le_sum fun entry hentry => ?_
  have hwithin := hknown.within entry hentry
  have htokens : keys entry.2.noteIndexes ⊆ s.contents.tokens entry.2.channelKey := by
    intro token htoken
    obtain ⟨sub, hsub, rfl⟩ := List.mem_map.mp htoken
    exact (hwithin.noteIndexes sub hsub).1
  refine le_trans (le_of_eq ?_) (sum_map_le_of_subset hwithin.nodup htokens _)
  rw [keys, List.map_map]
  rfl

/-- A call returns each note once just when no subchannel of the cursor with an unspent note
passes the filter. -/
theorem nodup_found_iff {cursor : NotesCursor}
    (hknown : NotesDiscovery.Known s.contents s.channels cursor) :
    ((s.channels.map fun channel => NotesDiscovery.notesIn sn s.backend viewingKey tokens s.contents
        channel.senderAddr channel.channelKey).sum +
      NotesDiscovery.resumed sn s.backend viewingKey s.contents cursor).Nodup ↔
    ∀ n ∈ s.unspent viewingKey, NotesDiscovery.Passes tokens n.token →
      ¬InCursor cursor n.senderAddr n.token := by
  rw [Multiset.nodup_add, and_iff_right (nodup_sum_notesIn tokens),
    and_iff_right (nodup_resumed hknown), Multiset.disjoint_left]
  simp only [mem_sum_notesIn_iff, mem_resumed_iff hknown]
  constructor
  · intro hdisjoint n hn hpasses hcursor
    exact hdisjoint ⟨n, hn, hpasses, rfl⟩ ⟨n, hn, hcursor, rfl⟩
  · rintro hnone _ ⟨n, hn, hpasses, rfl⟩ ⟨n', hn', hcursor, hsame⟩
    obtain rfl := List.inj_on_of_nodup_map (nodup_returnedNotes s viewingKey) hn' hn hsame
    exact hnone n' hn' hpasses hcursor

end Found

end PrivacyPool.Sdk
