import PrivacyPool.Discovery.Account
import PrivacyPool.Properties.Records

/-!
# How an account grows

Written records are kept, so what a later pool stores for a user extends what an earlier
one did: the channels, the subchannels of each channel and the notes of each subchannel
have only been added to.

## Main definitions

* `Extends` — a list with new entries after those that it had
* `StoredSubchannel.Grows`, `StoredChannel.Grows` — growth at the lower two levels
* `IncomingCovered`, `OutgoingCovered` — the records of an account are in play, and
  `RecipientsCovered` those of its recipients
* `Contents.Grown` — growth as the service sees it

## Main results

* `AccountStored.grows` — the incoming channels of a user grow
* `grown_of_extends` — so does what the service sees of them
* `SenderStored.grows` — the outgoing channels of a user grow
-/

namespace PrivacyPool

/-! ### Records that are kept -/

section Kept

variable {sn : Starknet} {D : Domain} {earlier later : Pool}

/-- A record that is not a note is kept word by word. -/
theorem Kept.record_eq (h : Kept sn D earlier later) {s : Slot} (hs : s.Covered D)
    (hnote : ∀ n, s ≠ .note n) (hused : earlier.words (s.base sn) ≠ 0) :
    ∀ j < s.var.size, later.words (s.base sn + j) = earlier.words (s.base sn + j) := by
  rcases h.records s hs 0 (StorageVar.size_pos _) hused with hsame | ⟨n, -, hn, -⟩
  · exact hsame
  · exact absurd hn (hnote n)

/-- A note stays used. -/
theorem Kept.note_used (h : Kept sn D earlier later) {n : NoteKey} (hs : (Slot.note n).Covered D)
    (hused : earlier.words ((Slot.note n).base sn) ≠ 0) :
    later.words ((Slot.note n).base sn) ≠ 0 := by
  rcases h.records _ hs 0 (StorageVar.size_pos _) hused with hsame | ⟨_, amount, -, -, -, hpack, -⟩
  · have hhead := hsame 0 (StorageVar.size_pos _)
    rw [Nat.add_zero] at hhead
    rwa [hhead]
  · exact pack_ne_zero (by decide) hpack

end Kept

namespace Discovery

open Fallible

/-! ### Lists that grow -/

/-- The entries of a list are kept up to a relation, and new ones come after them. -/
def Extends {α β : Type} (R : α → β → Prop) (earlier : List α) (later : List β) : Prop :=
  ∃ kept added, later = kept ++ added ∧ List.Forall₂ R earlier kept

theorem Extends.of_getElem {α β : Type} {R : α → β → Prop} {earlier : List α} {later : List β}
    (hlength : earlier.length ≤ later.length)
    (hR : ∀ (i : ℕ) (hi : i < earlier.length), R earlier[i] later[i]) : Extends R earlier later := by
  refine ⟨later.take earlier.length, later.drop earlier.length,
    (List.take_append_drop _ _).symm, ?_⟩
  rw [List.forall₂_iff_get]
  refine ⟨(List.length_take_of_le hlength).symm, fun i hi hi' => ?_⟩
  simp only [List.get_eq_getElem, List.getElem_take]
  exact hR i hi

/-- Of two lists of records that are used up to their ends, the later one is not shorter. -/
theorem length_le_of_kept {n m : ℕ} {used used' : ℕ → Prop} (hused : ∀ i < n, used i)
    (hused' : ∀ i ≤ m, used' i → i < m) (hkept : ∀ i < n, used i → used' i) : n ≤ m := by
  by_contra hlonger
  have hend := not_le.mp hlonger
  exact (lt_irrefl m) (hused' m le_rfl (hkept m hend (hused m hend)))

/-- The notes of a subchannel have only been added to. -/
structure StoredSubchannel.Grows (earlier later : StoredSubchannel) : Prop where
  token_eq : later.token = earlier.token
  length_le : earlier.notes.length ≤ later.notes.length

/-- A channel is the same, and its subchannels have grown. -/
structure StoredChannel.Grows (earlier later : StoredChannel) : Prop where
  peer_eq : later.peerAddr = earlier.peerAddr
  key_eq : later.channelKey = earlier.channelKey
  subchannels : Extends StoredSubchannel.Grows earlier.subchannels later.subchannels

/-! ### Records in play -/

/-- The subchannels and notes of an account are in play. -/
def IncomingCovered (D : Domain) (account : List StoredChannel) : Prop :=
  ∀ channel ∈ account,
    (∀ index : Usize, index.val < channel.subchannels.length →
      (Slot.subchannelToken channel.channelKey index).Covered D) ∧
    ∀ subchannel ∈ channel.subchannels, ∀ index : Usize, index.val < subchannel.notes.length →
      (Slot.note ⟨channel.channelKey, subchannel.token, index⟩).Covered D

/-- The outgoing channels of a sender are in play. -/
def OutgoingCovered (D : Domain) (sender : ContractAddress) (viewingKey : Felt)
    (account : List StoredChannel) : Prop :=
  ∀ index : Usize, index.val < account.length →
    (Slot.outgoingChannel sender viewingKey index).Covered D

variable {sn : Starknet} {D : Domain} {earlier later : Pool}

/-! ### Incoming channels -/

/-- A subchannel that is stored stays, with its token. -/
theorem ChannelStored.kept {channelKey : Felt} {subchannels subchannels' : List StoredSubchannel}
    (h : ChannelStored sn earlier channelKey subchannels)
    (h' : ChannelStored sn later channelKey subchannels') (hkept : Kept sn D earlier later)
    {index : Usize} (hs : (Slot.subchannelToken channelKey index).Covered D)
    (hindex : index.val < subchannels.length) :
    later.read sn .subchannelTokens (computeSubchannelId sn channelKey index.val) 0 ≠ 0 ∧
      ∀ hindex' : index.val < subchannels'.length,
        subchannels'[index.val].token = subchannels[index.val].token := by
  have hused := (h.used_iff index.val hindex.le).mpr hindex
  rw [computeSubchannelId_usize] at hused ⊢
  have hwords := hkept.record_eq hs (fun _ => nofun) hused
  have hhead : later.read sn .subchannelTokens (sn.computeSubchannelId channelKey index) 0 =
      earlier.read sn .subchannelTokens (sn.computeSubchannelId channelKey index) 0 :=
    hwords 0 Nat.two_pos
  refine ⟨by rwa [hhead], fun hindex' => ?_⟩
  obtain ⟨salt, hinfo⟩ := h.encrypted index hindex
  obtain ⟨salt', hinfo'⟩ := h'.encrypted index hindex'
  have hsame : sn.encryptSubchannelInfo channelKey index subchannels'[index.val].token salt' =
      sn.encryptSubchannelInfo channelKey index subchannels[index.val].token salt := by
    rw [← hinfo, ← hinfo']
    exact congrArg₂ EncSubchannelInfo.mk hhead (hwords 1 Nat.one_lt_two)
  have htoken : decryptSubchannelToken sn (sn.encryptSubchannelInfo channelKey index
      subchannels[index.val].token salt) channelKey index.val = _ :=
    decryptSubchannelToken_encryptSubchannelInfo salt
  rw [← hsame, decryptSubchannelToken_encryptSubchannelInfo] at htoken
  exact ContractAddress.toFelt_inj.mp htoken

/-- The notes of a subchannel that is stored stay. -/
theorem SubchannelStored.length_le_of_kept {channelKey : Felt}
    {subchannel subchannel' : StoredSubchannel} (h : SubchannelStored sn earlier channelKey subchannel)
    (h' : SubchannelStored sn later channelKey subchannel') (hkept : Kept sn D earlier later)
    (hs : ∀ index : Usize, index.val < subchannel.notes.length →
      (Slot.note ⟨channelKey, subchannel.token, index⟩).Covered D)
    (htoken : subchannel'.token = subchannel.token) :
    subchannel.notes.length ≤ subchannel'.notes.length := by
  have hlow : ∀ index < subchannel.notes.length, index < 2 ^ 64 := fun index hindex =>
    (hindex.trans_le h.length_le).trans (by decide)
  refine Discovery.length_le_of_kept (fun index hindex => (h.used_iff index (hlow index hindex)).mpr hindex)
    (fun index hindex => (h'.used_iff index ?_).mp) fun index hindex hused => ?_
  · exact (hindex.trans h'.length_le).trans_lt (by decide)
  · obtain ⟨i, rfl⟩ : ∃ i : Usize, index = i.val := ⟨⟨index, hindex.trans_le h.length_le⟩, rfl⟩
    rw [htoken]
    rw [computeNoteId_usize] at hused ⊢
    exact hkept.note_used (hs i hindex) hused

/-- The subchannels of a channel have only been added to. -/
theorem ChannelStored.grows {channelKey : Felt} {subchannels subchannels' : List StoredSubchannel}
    (h : ChannelStored sn earlier channelKey subchannels)
    (h' : ChannelStored sn later channelKey subchannels') (hkept : Kept sn D earlier later)
    (hs : ∀ index : Usize, index.val < subchannels.length →
      (Slot.subchannelToken channelKey index).Covered D)
    (hnotes : ∀ subchannel ∈ subchannels, ∀ index : Usize, index.val < subchannel.notes.length →
      (Slot.note ⟨channelKey, subchannel.token, index⟩).Covered D) :
    Extends StoredSubchannel.Grows subchannels subchannels' := by
  have hindex : ∀ index < subchannels.length, ∃ i : Usize, index = i.val := fun index hindex =>
    ⟨⟨index, hindex.trans_le h.length_le⟩, rfl⟩
  have hlength : subchannels.length ≤ subchannels'.length := by
    refine length_le_of_kept (fun index hlt => (h.used_iff index hlt.le).mpr hlt)
      (fun index hle => (h'.used_iff index hle).mp) fun index hlt _ => ?_
    obtain ⟨i, rfl⟩ := hindex index hlt
    exact (h.kept h' hkept (hs i hlt) hlt).1
  refine .of_getElem hlength fun index hlt => ?_
  obtain ⟨i, rfl⟩ := hindex index hlt
  have htoken := (h.kept h' hkept (hs i hlt) hlt).2 (hlt.trans_le hlength)
  exact ⟨htoken, (h.stored _ (List.getElem_mem hlt)).length_le_of_kept
    (h'.stored _ (List.getElem_mem _)) hkept (hnotes _ (List.getElem_mem hlt)) htoken⟩

/-- **Growth.** What a later pool stores for a recipient extends what an earlier one did. -/
theorem AccountStored.grows {newFromX : Felt → Option sn.EcPoint} {recipient : ContractAddress}
    {viewingKey publicKey : Felt} {account account' : List StoredChannel} (hcurve : CurveLaw sn)
    (hrecover : RecoversPoints sn newFromX) (hkey : sn.derivePublicKey viewingKey = .ok publicKey)
    (h : AccountStored sn earlier recipient publicKey account)
    (h' : AccountStored sn later recipient publicKey account') (hkept : Kept sn D earlier later)
    (hcovered : IncomingCovered D account) : Extends StoredChannel.Grows account account' := by
  have hlength := h.announced.length_eq
  have hlength' := h'.announced.length_eq
  have hinfo : ∀ (i : ℕ) (hi : i < (earlier.recipientChannels recipient).length),
      (later.recipientChannels recipient)[i]? = some (earlier.recipientChannels recipient)[i] :=
    fun i hi => hkept.channels recipient i _ (List.getElem?_eq_getElem hi)
  have hlonger : account.length ≤ account'.length := by
    rw [← hlength, ← hlength']
    by_contra hshorter
    have hsome := hinfo _ (not_le.mp hshorter)
    rw [List.getElem?_eq_none le_rfl] at hsome
    cases hsome
  refine .of_getElem hlonger fun i hi => ?_
  have hi' := hi.trans_le hlonger
  obtain ⟨random, henc⟩ := List.forall₂_iff_get.mp h.announced |>.2 i (hlength ▸ hi) hi
  obtain ⟨random', henc'⟩ := List.forall₂_iff_get.mp h'.announced |>.2 i (hlength' ▸ hi') hi'
  -- Both encryptions are the one that is stored.
  have hsame : (later.recipientChannels recipient).get ⟨i, hlength' ▸ hi'⟩ =
      (earlier.recipientChannels recipient).get ⟨i, hlength ▸ hi⟩ :=
    (List.getElem?_eq_some_iff.mp (hinfo i (hlength ▸ hi))).2
  rw [hsame] at henc'
  simp only [List.get_eq_getElem] at henc henc'
  have hopened := decryptChannelInfo_encryptChannelInfo hcurve hrecover hkey henc
  rw [decryptChannelInfo_encryptChannelInfo hcurve hrecover hkey henc'] at hopened
  have hfields := Except.ok.inj hopened
  have hchannelKey : account'[i].channelKey = account[i].channelKey :=
    congrArg ChannelInfo.channelKey hfields
  obtain ⟨hsubchannels, hnotes⟩ := hcovered _ (List.getElem_mem hi)
  refine ⟨ContractAddress.toFelt_inj.mp (congrArg ChannelInfo.senderAddr hfields), hchannelKey, ?_⟩
  have hstored' := h'.stored _ (List.getElem_mem hi')
  rw [hchannelKey] at hstored'
  exact (h.stored _ (List.getElem_mem hi)).grows hstored' hkept hsubchannels hnotes

/-- The incoming channels of an account. -/
abbrev channelsOf (account : List StoredChannel) : List IncomingChannel :=
  account.map fun channel => ⟨channel.channelKey, ContractAddress.toFelt channel.peerAddr⟩

/-- What the service sees of an account has only been added to. -/
structure Contents.Grown (contents contents' : Contents) (channels channels' : List IncomingChannel) :
    Prop where
  channels_prefix : channels <+: channels'
  tokens_prefix : ∀ channel ∈ channels,
    contents.tokens channel.channelKey <+: contents'.tokens channel.channelKey
  count_le : ∀ channel ∈ channels, ∀ token ∈ contents.tokens channel.channelKey,
    contents.count channel.channelKey token ≤ contents'.count channel.channelKey token

theorem Contents.Grown.refl (contents : Contents) (channels : List IncomingChannel) :
    contents.Grown contents channels channels where
  channels_prefix := List.prefix_refl _
  tokens_prefix _ _ := List.prefix_refl _
  count_le _ _ _ _ := le_rfl

/-- When an account extends another, so does what the service sees of it. -/
theorem grown_of_extends {recipient : ContractAddress} {publicKey : Felt}
    {account account' : List StoredChannel} (h : AccountStored sn earlier recipient publicKey account)
    (h' : AccountStored sn later recipient publicKey account')
    (hgrows : Extends StoredChannel.Grows account account') :
    (contentsOf account).Grown (contentsOf account') (channelsOf account) (channelsOf account') := by
  obtain ⟨kept, added, rfl, hall⟩ := hgrows
  -- Each channel that was there has a later one, with the same key.
  have hchannel : ∀ info ∈ channelsOf account, ∃ channel ∈ account, ∃ channel' ∈ kept,
      channel.channelKey = info.channelKey ∧ channel.Grows channel' := by
    intro info hinfo
    obtain ⟨channel, hmem, rfl⟩ := List.mem_map.mp hinfo
    obtain ⟨channel', hmem', hgrows⟩ := HashMap.exists_right_of_forall₂ hall hmem
    exact ⟨channel, hmem, channel', hmem', rfl, hgrows⟩
  refine ⟨?_, fun info hinfo => ?_, fun info hinfo token htoken => ?_⟩
  · refine ⟨channelsOf added, ?_⟩
    rw [channelsOf, channelsOf, channelsOf, List.map_append]
    congr 1
    refine (HashMap.map_eq_map_of_forall₂ hall fun (channel channel' : StoredChannel) hgrows => ?_).symm
    rw [hgrows.key_eq, hgrows.peer_eq]
  · obtain ⟨channel, hmem, channel', hmem', hkey, hgrows⟩ := hchannel info hinfo
    obtain ⟨keptSubs, addedSubs, hsubs, hall'⟩ := hgrows.subchannels
    rw [← hkey, tokens_of_mem h.keys_nodup hmem, ← hgrows.key_eq,
      tokens_of_mem h'.keys_nodup (List.mem_append_left _ hmem'), hsubs, List.map_append]
    refine ⟨_, congrArg (· ++ _) (HashMap.map_eq_map_of_forall₂ hall' fun sub sub' hsub => ?_).symm⟩
    rw [hsub.token_eq]
  · obtain ⟨channel, hmem, channel', hmem', hkey, hgrows⟩ := hchannel info hinfo
    have hmem'' := List.mem_append_left added hmem'
    rw [← hkey, tokens_of_mem h.keys_nodup hmem] at htoken
    obtain ⟨sub, hsub, rfl⟩ := List.mem_map.mp htoken
    obtain ⟨keptSubs, addedSubs, hsubs, hall'⟩ := hgrows.subchannels
    obtain ⟨sub', hsub', hgrown⟩ := HashMap.exists_right_of_forall₂ hall' hsub
    have hcount := count_of_mem (subchannelsAt_of_mem h.keys_nodup hmem) (h.stored _ hmem).nodup hsub
    have hcount' := count_of_mem (subchannelsAt_of_mem h'.keys_nodup hmem'')
      (h'.stored _ hmem'').nodup (hsubs ▸ List.mem_append_left addedSubs hsub')
    rw [hgrown.token_eq, hgrows.key_eq] at hcount'
    rw [← hkey, hcount, hcount']
    exact hgrown.length_le

/-! ### Outgoing channels -/

/-- The channels of a sender stay. -/
theorem SenderStored.peers_kept {sender : ContractAddress} {viewingKey : Felt}
    {account account' : List StoredChannel} (h : SenderStored sn earlier sender viewingKey account)
    (h' : SenderStored sn later sender viewingKey account') (hkept : Kept sn D earlier later)
    (hcovered : OutgoingCovered D sender viewingKey account) :
    Extends (fun channel channel' : StoredChannel => channel'.peerAddr = channel.peerAddr) account
      account' := by
  have hwords : ∀ index : Usize, index.val < account.length →
      ∀ j < 2, later.read sn .outgoingChannels (sn.computeOutgoingChannelId sender viewingKey index) j =
        earlier.read sn .outgoingChannels (sn.computeOutgoingChannelId sender viewingKey index) j := by
    intro index hlt
    have hused := (h.used_iff index.val hlt.le).mpr hlt
    rw [computeOutgoingChannelId_usize] at hused
    exact hkept.record_eq (hcovered index hlt) (fun _ => nofun) hused
  -- No index that was used is free later, so that the sender has not lost a channel.
  have hlength : account.length ≤ account'.length := by
    refine length_le_of_kept (fun index hlt => (h.used_iff index hlt.le).mpr hlt)
      (fun index hle => (h'.used_iff index hle).mp) fun index hlt hused => ?_
    obtain ⟨i, rfl⟩ : ∃ i : Usize, index = i.val := ⟨⟨index, hlt.trans_le h.length_le⟩, rfl⟩
    rw [computeOutgoingChannelId_usize] at hused ⊢
    rwa [hwords i hlt 0 Nat.two_pos]
  refine .of_getElem hlength fun index hlt => ?_
  obtain ⟨i, rfl⟩ : ∃ i : Usize, index = i.val := ⟨⟨index, hlt.trans_le h.length_le⟩, rfl⟩
  obtain ⟨salt, hinfo⟩ := h.encrypted i hlt
  obtain ⟨salt', hinfo'⟩ := h'.encrypted i (hlt.trans_le hlength)
  -- The record is the same, and decrypts to one address.
  have hsame : sn.encryptOutgoingChannelInfo sender viewingKey i account'[i.val].peerAddr salt' =
      sn.encryptOutgoingChannelInfo sender viewingKey i account[i.val].peerAddr salt := by
    rw [← hinfo, ← hinfo']
    exact congrArg₂ EncOutgoingChannelInfo.mk (hwords i hlt 0 Nat.two_pos) (hwords i hlt 1 Nat.one_lt_two)
  have haddr : decryptOutgoingRecipientAddr sn (sn.encryptOutgoingChannelInfo sender viewingKey i
      account[i.val].peerAddr salt) (ContractAddress.toFelt sender) viewingKey i.val = _ :=
    decryptOutgoingRecipientAddr_encryptOutgoingChannelInfo _ _ _ _
  rw [← hsame, decryptOutgoingRecipientAddr_encryptOutgoingChannelInfo] at haddr
  exact ContractAddress.toFelt_inj.mp haddr

/-- The recipients of a sender are registered, and their keys are in play. -/
def RecipientsCovered (sn : Starknet) (D : Domain) (pool : Pool) (account : List StoredChannel) :
    Prop :=
  ∀ channel ∈ account, (Slot.publicKey channel.peerAddr).Covered D ∧
    pool.read sn .publicKey (ContractAddress.toFelt channel.peerAddr) 0 ≠ 0

/-- **Growth.** What a later pool stores for a sender extends what an earlier one did. -/
theorem SenderStored.grows {sender : ContractAddress} {viewingKey : Felt}
    {account account' : List StoredChannel} (h : SenderStored sn earlier sender viewingKey account)
    (h' : SenderStored sn later sender viewingKey account') (hkept : Kept sn D earlier later)
    (hcovered : OutgoingCovered D sender viewingKey account)
    (hrecipients : RecipientsCovered sn D earlier account) (hcontents : IncomingCovered D account) :
    Extends StoredChannel.Grows account account' := by
  obtain ⟨kept, added, rfl, hpeers⟩ := h.peers_kept h' hkept hcovered
  refine ⟨kept, added, rfl, List.forall₂_iff_get.mpr ⟨hpeers.length_eq, fun i hi hi' => ?_⟩⟩
  have hpeer := hpeers.get hi hi'
  have hmem : account.get ⟨i, hi⟩ ∈ account := List.get_mem account ⟨i, hi⟩
  have hmem' : kept.get ⟨i, hi'⟩ ∈ kept ++ added :=
    List.mem_append_left _ (List.get_mem kept ⟨i, hi'⟩)
  generalize account.get ⟨i, hi⟩ = channel at hpeer hmem
  generalize kept.get ⟨i, hi'⟩ = channel' at hpeer hmem'
  obtain ⟨hslot, hused⟩ := hrecipients channel hmem
  have hpublicKey : later.read sn .publicKey (ContractAddress.toFelt channel.peerAddr) 0 =
      earlier.read sn .publicKey (ContractAddress.toFelt channel.peerAddr) 0 :=
    hkept.record_eq hslot (fun _ => nofun) hused 0 (StorageVar.size_pos _)
  have hkey : channel'.channelKey = channel.channelKey := by
    rw [h'.key_eq channel' hmem', h.key_eq channel hmem, hpeer, hpublicKey]
  have hstored' := h'.stored channel' hmem'
  rw [hkey] at hstored'
  obtain ⟨hsubchannels, hnotes⟩ := hcontents channel hmem
  exact ⟨hpeer, hkey, (h.stored channel hmem).grows hstored' hkept hsubchannels hnotes⟩

end Discovery

end PrivacyPool
