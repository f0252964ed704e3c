import PrivacyPool.Discovery.Boundary
import PrivacyPool.Discovery.Channels

/-!
# What the channel scans find

The subchannels of a channel, the channels toward a recipient and the outgoing
channels of a sender are numbered from zero without a gap. A page of a scan adds
the next ones of them to the cursor and says that the scan is over only at the end.

## Main definitions

* `Contents`, `Contents.Held` — the subchannels of each channel and their note counts
* `Advance` — a page of a scan moves on over some of the rest
* `SubchannelsPage`, `ChannelsPage`, `OutgoingPage` — what a page makes of a cursor

## Main results

* `discoverSubchannelsPaginated_within`, `discoverIncomingChannelsPaginated_within`,
  `discoverOutgoingChannelsPaginated_within` — the scans do what their pages say
-/

namespace PrivacyPool.Discovery

open Budget.Task HashMap

variable {full : Prop} {E : DiscoveryError → Prop} {sn : Starknet}
  {newFromX : Felt → Option sn.EcPoint} {backend : Backend} {channelKey : Felt}

/-- The tokens of each channel key, and the number of notes of each subchannel. -/
structure Contents where
  tokens : Felt → List Felt
  count : Felt → Felt → ℕ

/-- The channel with the key has exactly these subchannels, and they have these notes. -/
structure Contents.Held (sn : Starknet) (backend : Backend) (contents : Contents)
    (channelKey : Felt) : Prop where
  salt_ne_zero_iff : ∀ index ≤ (contents.tokens channelKey).length,
    (backend.getSubchannelInfo sn (computeSubchannelId sn channelKey index)).salt ≠ 0 ↔
      index < (contents.tokens channelKey).length
  token_eq : ∀ (index : ℕ) (h : index < (contents.tokens channelKey).length),
    decryptSubchannelToken sn
      (backend.getSubchannelInfo sn (computeSubchannelId sn channelKey index)) channelKey index =
        (contents.tokens channelKey)[index]
  length_lt : (contents.tokens channelKey).length < 2 ^ 64
  nodup : (contents.tokens channelKey).Nodup
  notes : ∀ token ∈ contents.tokens channelKey,
    NotesHeld sn backend channelKey token (contents.count channelKey token)

/-- The last index of a scan that moved on. -/
def lastIndexAfter (last : Option ℕ) (number : ℕ) : Option ℕ :=
  if number = 0 then last else some (nextIndex last + number - 1)

@[simp] theorem nextIndex_lastIndexAfter (last : Option ℕ) (number : ℕ) :
    nextIndex (lastIndexAfter last number) = nextIndex last + number := by
  unfold lastIndexAfter
  split_ifs with hzero
  · rw [hzero, Nat.add_zero]
  · simp only [nextIndex, Option.elim_some]
    omega

theorem or_eq_lastIndexAfter (last : Option ℕ) (number : ℕ) :
    (if number = 0 then none else some (nextIndex last + number - 1)).or last =
      lastIndexAfter last number := by
  unfold lastIndexAfter
  split_ifs <;> rfl

@[simp] theorem lastIndexAfter_zero (last : Option ℕ) : lastIndexAfter last 0 = last := rfl

/-- A page of a scan over `length` items moves on over `number` of them, at most as many
as there are slots. It says that the scan is over only at the end. -/
structure Advance (full : Prop) (length slots start number : ℕ) (complete : Bool) : Prop where
  le_length : number ≠ 0 → start + number ≤ length
  le_slots : number ≤ slots
  ended : complete = true → start + number = length
  /-- When everything is granted, only the slots stop the scan. -/
  granted : full → complete = true ∨ number = slots

theorem Advance.le_length' {full : Prop} {length slots start number : ℕ} {complete : Bool}
    (h : Advance full length slots start number complete) (hstart : start ≤ length) :
    start + number ≤ length := by
  by_cases hzero : number = 0
  · rw [hzero]
    exact hstart
  · exact h.le_length hzero

/-- A page that moves on over the item at its start first. -/
theorem Advance.succ {full : Prop} {length slots start number : ℕ} {complete : Bool}
    (h : Advance full length slots (start + 1) number complete) (hstart : start < length) :
    Advance full length (slots + 1) start (number + 1) complete where
  le_length _ := by
    have := h.le_length' hstart
    omega
  le_slots := Nat.succ_le_succ h.le_slots
  ended hover := by
    have := h.ended hover
    omega
  granted hfull := (h.granted hfull).imp_right (congrArg (· + 1))

/-! ### Subchannels -/

/-- The loop over subchannel indices finds the next tokens. -/
theorem scanSubchannels_within {contents : Contents} (hheld : contents.Held sn backend channelKey)
    {slots index : ℕ} (hindex : index ≤ (contents.tokens channelKey).length) :
    (scanSubchannels sn backend channelKey slots index).Within full E fun result =>
      ∃ number, Advance full (contents.tokens channelKey).length slots index number (!result.2) ∧
        (result.2 = false → number < slots) ∧
        result.1 = ((((contents.tokens channelKey).drop index).take number).zipIdx index).map
          fun entry => ⟨entry.2, entry.1⟩ := by
  induction slots generalizing index with
  | zero =>
    refine within_pure ⟨0, ⟨by simp, le_rfl, by simp, fun _ => .inr rfl⟩, by simp, by simp⟩
  | succ slots ih =>
    refine within_bind (within_consume fun ok hok => ?_)
    cases ok with
    -- The budget is used up: the scan stops here and can go on.
    | false =>
      refine within_pure ⟨0, ⟨by simp, Nat.zero_le _, by simp, fun hfull => ?_⟩, by simp, by simp⟩
      exact nomatch hok hfull
    | true =>
      simp only [Bool.not_true, Bool.false_eq_true, if_false]
      refine within_bind (within_read ?_)
      split_ifs with hsalt
      · -- The index has no subchannel: it is the end.
        have hend : index = (contents.tokens channelKey).length := by
          by_contra hne
          exact (hheld.salt_ne_zero_iff index hindex).mpr (by omega) hsalt
        refine within_pure ⟨0, ⟨by simp, Nat.zero_le _, fun _ => hend, fun _ => .inl rfl⟩, ?_, ?_⟩
        · exact fun _ => Nat.succ_pos slots
        · simp
      · have hlt := (hheld.salt_ne_zero_iff index hindex).mp hsalt
        refine within_bind ((ih (Nat.succ_le_of_lt hlt)).mono ?_)
        rintro ⟨subchannels, hasMore⟩ ⟨number, hadvance, hslots, rfl⟩
        refine within_pure ⟨number + 1, hadvance.succ hlt, ?_, ?_⟩
        · intro hover
          have := hslots hover
          omega
        · rw [hheld.token_eq index hlt, List.drop_eq_getElem_cons hlt, List.take_succ_cons,
            List.zipIdx_cons, List.map_cons]

/-- What a page makes of a channel cursor: nothing when the scan is over, and otherwise
it registers the next subchannels. -/
inductive SubchannelsPage (full : Prop) (tokens : List Felt) (maxCursorSubchannels : ℕ)
    (cursor : ChannelCursor) : ChannelCursor → Prop
  | closed (h : cursor.subchannelDiscoveryComplete = true) :
    SubchannelsPage full tokens maxCursorSubchannels cursor cursor
  | advanced {number : ℕ} {complete : Bool} (hopen : cursor.subchannelDiscoveryComplete = false)
      (hadvance : Advance full tokens.length (maxCursorSubchannels - cursor.subchannels.length)
        (nextIndex cursor.lastSubchannelIndex) number complete)
      (hslots : complete = true → number < maxCursorSubchannels - cursor.subchannels.length) :
    SubchannelsPage full tokens maxCursorSubchannels cursor
      { cursor with
        subchannels := cursor.subchannels ++
          (((tokens.drop (nextIndex cursor.lastSubchannelIndex)).take number).filter
            fun token => token ∉ keys cursor.subchannels).map fun token => (token, {})
        lastSubchannelIndex := lastIndexAfter cursor.lastSubchannelIndex number
        subchannelDiscoveryComplete := complete }

/-- The last index of a run of items that are numbered from an index on. -/
theorem getLast?_zipIdx {α β : Type*} (items : List α) (start : ℕ) (f : α × ℕ → β) (g : β → ℕ)
    (hfg : ∀ entry, g (f entry) = entry.2) (last : Option ℕ) (hstart : start = nextIndex last) :
    ((((items.zipIdx start).map f).getLast?).map g).or last = lastIndexAfter last items.length := by
  rcases List.eq_nil_or_concat items with rfl | ⟨init, item, rfl⟩
  · rfl
  · simp [List.zipIdx_append, hfg, lastIndexAfter, hstart]

theorem discoverSubchannelsPaginated_within {contents : Contents}
    (hheld : contents.Held sn backend channelKey) {cursor : ChannelCursor}
    (hstart : nextIndex cursor.lastSubchannelIndex ≤ (contents.tokens channelKey).length)
    {maxCursorSubchannels : ℕ} :
    (discoverSubchannelsPaginated sn backend channelKey cursor maxCursorSubchannels).Within full E
      fun result => SubchannelsPage full (contents.tokens channelKey) maxCursorSubchannels cursor
        result.1 := by
  unfold discoverSubchannelsPaginated
  rw [wrappingNext_of_lt (hstart.trans_lt hheld.length_lt)]
  split_ifs with hcomplete
  · exact within_pure (.closed hcomplete)
  have hopen := Bool.eq_false_iff.mpr hcomplete
  dsimp only
  split_ifs with hslots
  -- Without a slot the page does not move, and the scan stays open.
  · have hadvance : Advance full (contents.tokens channelKey).length
        (maxCursorSubchannels - cursor.subchannels.length) (nextIndex cursor.lastSubchannelIndex) 0
        false := ⟨by simp, Nat.zero_le _, by simp, fun _ => .inr hslots.symm⟩
    have hpage := SubchannelsPage.advanced hopen hadvance (by simp)
    refine within_pure ?_
    simpa [← hopen] using hpage
  · unfold discoverSubchannels
    refine within_bind (within_bind ((scanSubchannels_within hheld hstart).mono ?_))
    rintro ⟨_, hasMore⟩ ⟨number, hadvance, hless, rfl⟩
    refine within_pure (within_pure ?_)
    have hpage := SubchannelsPage.advanced hopen hadvance fun hover => hless (by simpa using hover)
    generalize hnew : ((contents.tokens channelKey).drop
      (nextIndex cursor.lastSubchannelIndex)).take number = new at hpage ⊢
    have hlength : new.length = number := by
      have := hadvance.le_length
      rw [← hnew, List.length_take, List.length_drop]
      omega
    have hnodup : (new.map id).Nodup := by
      rw [List.map_id, ← hnew]
      exact (hheld.nodup.sublist (List.drop_sublist _ _)).sublist (List.take_sublist _ _)
    -- The loop over the found subchannels only looks at their tokens.
    have hfold : ((new.zipIdx (nextIndex cursor.lastSubchannelIndex)).map fun entry =>
        (⟨entry.2, entry.1⟩ : Subchannel)).foldl
          (fun m sub => orInsert m sub.token ({} : SubchannelCursor)) cursor.subchannels =
        cursor.subchannels ++ (new.filter fun token => token ∉ keys cursor.subchannels).map
          fun token => (token, ({} : SubchannelCursor)) := by
      have htokens := foldl_orInsert_eq cursor.subchannels new id (fun _ => {}) hnodup
      rw [List.foldl_map, ← List.foldl_map (f := Prod.fst)
        (g := fun m token => orInsert m token ({} : SubchannelCursor)), List.zipIdx_map_fst]
      exact htokens
    have hlast := getLast?_zipIdx new (nextIndex cursor.lastSubchannelIndex)
      (fun entry => (⟨entry.2, entry.1⟩ : Subchannel)) Subchannel.index (fun _ => rfl)
      cursor.lastSubchannelIndex rfl
    rw [hlength] at hlast
    dsimp only at hpage ⊢
    rw [hfold, hlast]
    exact hpage

/-! ### Incoming channels -/

/-- The vector of the recipient decrypts to these channels, each from another sender. -/
structure ChannelsHeld (sn : Starknet) (newFromX : Felt → Option sn.EcPoint) (backend : Backend)
    (recipient : ContractAddress) (privateKey : Felt) (channels : List IncomingChannel) : Prop where
  decrypted : List.Forall₂
    (fun enc channel => decryptChannelInfo sn newFromX enc privateKey =
      .ok ⟨channel.channelKey, channel.senderAddr⟩)
    (backend.pool.recipientChannels recipient) channels
  length_lt : channels.length < 2 ^ 64
  nodup : (channels.map IncomingChannel.senderAddr).Nodup

section Incoming

variable {recipient : ContractAddress} {privateKey : Felt} {channels : List IncomingChannel}

theorem ChannelsHeld.getNumOfChannels
    (h : ChannelsHeld sn newFromX backend recipient privateKey channels) :
    backend.getNumOfChannels recipient = channels.length := h.decrypted.length_eq

theorem ChannelsHeld.getChannelInfo
    (h : ChannelsHeld sn newFromX backend recipient privateKey channels) {index : ℕ}
    (hindex : index < channels.length) :
    decryptChannelInfo sn newFromX (backend.getChannelInfo recipient index) privateKey =
      .ok ⟨channels[index].channelKey, channels[index].senderAddr⟩ := by
  have hlt : index < (backend.pool.recipientChannels recipient).length :=
    h.decrypted.length_eq ▸ hindex
  unfold Backend.getChannelInfo
  rw [List.getD_eq_getElem _ _ hlt]
  exact h.decrypted.get hlt hindex

/-- A batch decrypts to the next channels. -/
theorem decryptChannels_batch (h : ChannelsHeld sn newFromX backend recipient privateKey channels)
    {start number : ℕ} (hle : start + number ≤ channels.length) :
    decryptChannels sn newFromX privateKey start
      (backend.getChannelInfoBatch recipient start number) =
        .ok ((channels.drop start).take number) := by
  induction number generalizing start with
  | zero => simp [Backend.getChannelInfoBatch, decryptChannels]
  | succ number ih =>
    have hlt : start < channels.length := by omega
    have hbatch : backend.getChannelInfoBatch recipient start (number + 1) =
        backend.getChannelInfo recipient start ::
          backend.getChannelInfoBatch recipient (start + 1) number := by
      simp [Backend.getChannelInfoBatch, List.range_succ_eq_map, Function.comp_def,
        Nat.add_assoc, Nat.add_comm 1]
    rw [hbatch, decryptChannels, h.getChannelInfo hlt, ih (by omega),
      List.drop_eq_getElem_cons hlt, List.take_succ_cons]
    rfl

/-- What a page makes of the cursor: nothing when the scan is over, when the cursor has no
slot or when the count is not paid for, and otherwise it registers the next channels. -/
inductive ChannelsPage (full : Prop) (channels : List IncomingChannel) (maxCursorChannels : ℕ)
    (cursor : DiscoveryCursor) : DiscoveryCursor → List IncomingChannel → Prop
  | closed (h : cursor.channelDiscoveryComplete = true) :
    ChannelsPage full channels maxCursorChannels cursor cursor []
  | blocked (hopen : cursor.channelDiscoveryComplete = false)
      (h : maxCursorChannels ≤ cursor.channels.length) :
    ChannelsPage full channels maxCursorChannels cursor cursor []
  | uncounted (hopen : cursor.channelDiscoveryComplete = false)
      (h : cursor.totalNChannels = none) (hfull : ¬full) :
    ChannelsPage full channels maxCursorChannels cursor cursor []
  | advanced {number total : ℕ} {complete : Bool}
      (hopen : cursor.channelDiscoveryComplete = false)
      (hslots : cursor.channels.length < maxCursorChannels)
      (htotal : total = cursor.totalNChannels.getD channels.length)
      (hadvance : Advance full total (maxCursorChannels - cursor.channels.length)
        (nextIndex cursor.lastChannelIndex) number complete)
      (hover : nextIndex cursor.lastChannelIndex + number = total → complete = true) :
    ChannelsPage full channels maxCursorChannels cursor
      { channels := cursor.channels ++
          (((channels.drop (nextIndex cursor.lastChannelIndex)).take number).filter
            fun channel => channel.senderAddr ∉ keys cursor.channels).map
              fun channel => (channel.senderAddr, newChannelCursor channel.channelKey)
        lastChannelIndex := lastIndexAfter cursor.lastChannelIndex number
        totalNChannels := some total
        channelDiscoveryComplete := complete }
      ((channels.drop (nextIndex cursor.lastChannelIndex)).take number)

/-- A batch that is paid for is decrypted. -/
theorem discoverIncomingChannels_within
    (h : ChannelsHeld sn newFromX backend recipient privateKey channels) {start numChannels : ℕ}
    (hle : start + numChannels ≤ channels.length) :
    (discoverIncomingChannels sn newFromX backend recipient privateKey start numChannels).Within
      full E fun result => ∃ number ≤ numChannels, (full → number = numChannels) ∧
        result = ⟨(channels.drop start).take number,
          if number = 0 then none else some (start + number - 1), decide (number < numChannels)⟩ := by
  unfold discoverIncomingChannels
  refine within_bind (within_consumeUpTo fun number hnumber hall => ?_)
  have hall' := fun hfull => hall hfull (by decide)
  dsimp only
  split_ifs with hzero
  · refine within_pure ⟨number, hnumber, hall', ?_⟩
    rw [if_pos hzero, hzero, List.take_zero]
  · refine within_bind (within_read ?_)
    rw [decryptChannels_batch h (by omega)]
    refine within_bind (within_ofExcept (within_pure ⟨number, hnumber, hall', ?_⟩))
    rw [if_neg hzero]

/-- The total is cached, or read when it is paid for. -/
theorem cachedChannelCount_within
    (h : ChannelsHeld sn newFromX backend recipient privateKey channels) (cursor : DiscoveryCursor) :
    (cachedChannelCount backend recipient cursor).Within full E fun count =>
      count = some (cursor.totalNChannels.getD channels.length) ∨
        count = none ∧ cursor.totalNChannels = none ∧ ¬full := by
  unfold cachedChannelCount
  cases hcached : cursor.totalNChannels with
  | some count => exact within_pure (.inl rfl)
  | none =>
    refine within_bind (within_consume fun ok hok => ?_)
    cases ok with
    | true =>
      exact within_bind (within_read (within_pure (.inl (congrArg some h.getNumOfChannels))))
    | false => exact within_pure (.inr ⟨rfl, rfl, fun hfull => nomatch hok hfull⟩)

theorem discoverIncomingChannelsPaginated_within
    (h : ChannelsHeld sn newFromX backend recipient privateKey channels) {cursor : DiscoveryCursor}
    (htotal : cursor.totalNChannels.getD channels.length ≤ channels.length)
    (hstart : nextIndex cursor.lastChannelIndex ≤ cursor.totalNChannels.getD channels.length)
    {maxCursorChannels : ℕ} :
    (discoverIncomingChannelsPaginated sn newFromX backend recipient privateKey cursor
      maxCursorChannels).Within full E fun result =>
        ChannelsPage full channels maxCursorChannels cursor result.1 result.2 := by
  unfold discoverIncomingChannelsPaginated
  split_ifs with hcomplete
  · exact within_pure (.closed hcomplete)
  have hopen := Bool.eq_false_iff.mpr hcomplete
  dsimp only
  split_ifs with hslots
  · exact within_pure (.blocked hopen (by omega))
  refine within_bind ((cachedChannelCount_within h cursor).mono ?_)
  rintro _ (rfl | ⟨rfl, hnone, hfull⟩)
  · dsimp only
    rw [wrappingNext_of_lt ((hstart.trans htotal).trans_lt h.length_lt)]
    generalize htotal' : cursor.totalNChannels.getD channels.length = total at htotal hstart
    split_ifs with hrest
    · -- Nothing is left.
      have hadvance : Advance full total (maxCursorChannels - cursor.channels.length)
          (nextIndex cursor.lastChannelIndex) 0 true :=
        ⟨by simp, Nat.zero_le _, fun _ => by omega, fun _ => .inl rfl⟩
      have hpage : ChannelsPage full channels maxCursorChannels cursor _ _ :=
        .advanced hopen (by omega) htotal'.symm hadvance fun _ => rfl
      refine within_pure ?_
      simpa using hpage
    · have hnum : nextIndex cursor.lastChannelIndex + min (total - nextIndex cursor.lastChannelIndex)
          (maxCursorChannels - cursor.channels.length) ≤ channels.length := by omega
      refine within_bind ((discoverIncomingChannels_within h hnum).mono ?_)
      rintro _ ⟨number, hnumber, hall, rfl⟩
      refine within_pure ?_
      -- The scan is over when the batch was all that was asked for, and that was all that is left.
      have hover : (!decide (number < min (total - nextIndex cursor.lastChannelIndex)
          (maxCursorChannels - cursor.channels.length)) &&
            decide (min (total - nextIndex cursor.lastChannelIndex)
              (maxCursorChannels - cursor.channels.length) =
                total - nextIndex cursor.lastChannelIndex)) =
          decide (nextIndex cursor.lastChannelIndex + number = total) := by
        rw [← decide_not, ← Bool.decide_and]
        exact decide_eq_decide.mpr (by omega)
      have hadvance : Advance full total (maxCursorChannels - cursor.channels.length)
          (nextIndex cursor.lastChannelIndex) number
            (decide (nextIndex cursor.lastChannelIndex + number = total)) := by
        refine ⟨fun _ => by omega, by omega, of_decide_eq_true, fun hfull => ?_⟩
        have := hall hfull
        rw [decide_eq_true_eq]
        omega
      have hpage : ChannelsPage full channels maxCursorChannels cursor _ _ :=
        .advanced hopen (by omega) htotal'.symm hadvance decide_eq_true
      have hnodup : (((channels.drop (nextIndex cursor.lastChannelIndex)).take number).map
          IncomingChannel.senderAddr).Nodup :=
        h.nodup.sublist (((List.take_sublist _ _).trans (List.drop_sublist _ _)).map _)
      rw [hover, or_eq_lastIndexAfter, foldl_orInsert_eq cursor.channels _ IncomingChannel.senderAddr
        (fun channel => newChannelCursor channel.channelKey) hnodup]
      exact hpage
  -- The budget did not even cover the number of channels.
  · exact within_pure (.uncounted hopen hnone hfull)

end Incoming

/-! ### Outgoing channels -/

/-- The outgoing channels of the sender lead to exactly these recipients. -/
structure OutgoingHeld (sn : Starknet) (backend : Backend) (senderAddr viewingKey : Felt)
    (recipients : List Felt) : Prop where
  salt_ne_zero_iff : ∀ index ≤ recipients.length,
    (backend.getOutgoingChannelInfo sn
      (computeOutgoingChannelId sn senderAddr viewingKey index)).salt ≠ 0 ↔
        index < recipients.length
  recipient_eq : ∀ (index : ℕ) (h : index < recipients.length),
    decryptOutgoingRecipientAddr sn (backend.getOutgoingChannelInfo sn
      (computeOutgoingChannelId sn senderAddr viewingKey index)) senderAddr viewingKey index =
        recipients[index]
  length_lt : recipients.length < 2 ^ 64

/-- The channel toward a recipient, with the public key that the recipient has registered. -/
def channelToward (sn : Starknet) (backend : Backend) (senderAddr viewingKey recipientAddr : Felt)
    (precomputed : Bool) : OutgoingChannel :=
  OutgoingChannel.new sn senderAddr viewingKey recipientAddr (backend.getPublicKey sn recipientAddr)
    precomputed

section Outgoing

variable {senderAddr viewingKey : Felt} {recipients : List Felt}

/-- The loop over outgoing channel indices finds the next recipients. -/
theorem scanOutgoingChannels_within
    (hheld : OutgoingHeld sn backend senderAddr viewingKey recipients)
    {slots index : ℕ} (hindex : index ≤ recipients.length) :
    (scanOutgoingChannels sn backend senderAddr viewingKey slots index).Within full E fun result =>
      ∃ number, Advance full recipients.length slots index number (!result.2.2) ∧
        (result.2.2 = false → number < slots) ∧
        result.1 = ((recipients.drop index).take number).map
          (channelToward sn backend senderAddr viewingKey · false) ∧
        result.2.1 = if number = 0 then none else some (index + number - 1) := by
  induction slots generalizing index with
  | zero =>
    exact within_pure ⟨0, ⟨by simp, le_rfl, by simp, fun _ => .inr rfl⟩, by simp, by simp, rfl⟩
  | succ slots ih =>
    refine within_bind (within_consume fun ok hok => ?_)
    cases ok with
    -- The budget ends before the next index is read.
    | false =>
      refine within_pure ⟨0, ⟨by simp, Nat.zero_le _, by simp, fun hfull => ?_⟩, by simp, by simp,
        rfl⟩
      exact nomatch hok hfull
    | true =>
      simp only [Bool.not_true, Bool.false_eq_true, if_false]
      refine within_bind (within_read ?_)
      split_ifs with hsalt
      · -- The index has no channel: it is the end.
        have hend : index = recipients.length := by
          by_contra hne
          exact (hheld.salt_ne_zero_iff index hindex).mpr (by omega) hsalt
        refine within_pure ⟨0, ⟨by simp, Nat.zero_le _, fun _ => hend, fun _ => .inl rfl⟩, ?_, ?_,
          rfl⟩
        · exact fun _ => Nat.succ_pos slots
        · simp
      · have hlt := (hheld.salt_ne_zero_iff index hindex).mp hsalt
        refine within_bind (within_read (within_bind ((ih (Nat.succ_le_of_lt hlt)).mono ?_)))
        -- One more channel than the rest of the loop finds.
        rintro ⟨channels, lastIndex, hasMore⟩ ⟨number, hadvance, hslots, rfl, rfl⟩
        refine within_pure ⟨number + 1, hadvance.succ hlt, ?_, ?_, ?_⟩
        · intro hover
          have := hslots hover
          omega
        · rw [hheld.recipient_eq index hlt, List.drop_eq_getElem_cons hlt, List.take_succ_cons,
            List.map_cons]
          rfl
        · rw [if_neg (Nat.succ_ne_zero number)]
          dsimp only
          split_ifs with hzero
          · rw [hzero]
            rfl
          · rw [Option.some_or]
            congr 1
            omega

/-- What a page makes of the cursor: nothing when the scan is over, and otherwise it
registers the next channels that pass the filter. -/
inductive OutgoingPage (full : Prop) (sn : Starknet) (backend : Backend)
    (senderAddr viewingKey : Felt) (recipients : List Felt) (filter : Option (List Felt))
    (maxCursorChannels : ℕ) (cursor : DiscoveryCursor) : DiscoveryCursor → List OutgoingChannel → Prop
  | closed (h : cursor.channelDiscoveryComplete = true) :
    OutgoingPage full sn backend senderAddr viewingKey recipients filter maxCursorChannels cursor
      cursor []
  | advanced {number : ℕ} {complete : Bool} {found new : List Felt}
      (hopen : cursor.channelDiscoveryComplete = false)
      (hadvance : Advance full recipients.length (maxCursorChannels - cursor.channels.length)
        (nextIndex cursor.lastChannelIndex) number complete)
      (hslots : complete = true → number < maxCursorChannels - cursor.channels.length)
      (hfound : found = (((recipients.drop (nextIndex cursor.lastChannelIndex)).take number).filter
        (passes filter)))
      (hnew : new.Sublist found) (hnodup : new.Nodup) (hfresh : ∀ addr ∈ new, addr ∉ keys cursor.channels)
      (hall : ∀ addr ∈ found, addr ∈ keys cursor.channels ∨ addr ∈ new) :
    OutgoingPage full sn backend senderAddr viewingKey recipients filter maxCursorChannels cursor
      { channels := cursor.channels ++ new.map fun addr =>
          (addr, newChannelCursor (channelToward sn backend senderAddr viewingKey addr false).channelKey)
        lastChannelIndex := lastIndexAfter cursor.lastChannelIndex number
        totalNChannels := if complete then some recipients.length else cursor.totalNChannels
        channelDiscoveryComplete := complete }
      (found.map (channelToward sn backend senderAddr viewingKey · false))

theorem discoverOutgoingChannelsPaginated_within
    (hheld : OutgoingHeld sn backend senderAddr viewingKey recipients) {cursor : DiscoveryCursor}
    (hstart : nextIndex cursor.lastChannelIndex ≤ recipients.length)
    {filter : Option (List Felt)} {maxCursorChannels : ℕ} :
    (discoverOutgoingChannelsPaginated sn backend senderAddr viewingKey cursor maxCursorChannels
      filter).Within full E fun result => OutgoingPage full sn backend senderAddr viewingKey
        recipients filter maxCursorChannels cursor result.1 result.2 := by
  unfold discoverOutgoingChannelsPaginated
  rw [wrappingNext_of_lt (hstart.trans_lt hheld.length_lt)]
  split_ifs with hcomplete
  · exact within_pure (.closed hcomplete)
  have hopen := Bool.eq_false_iff.mpr hcomplete
  dsimp only
  split_ifs with hslots
  -- Without a slot the page does not move, and the scan stays open.
  · have hadvance : Advance full recipients.length (maxCursorChannels - cursor.channels.length)
        (nextIndex cursor.lastChannelIndex) 0 false :=
      ⟨by simp, Nat.zero_le _, by simp, fun _ => .inr hslots.symm⟩
    have hpage : OutgoingPage full sn backend senderAddr viewingKey recipients filter
        maxCursorChannels cursor _ _ :=
      .advanced hopen hadvance (by simp) rfl (List.nil_sublist _) List.nodup_nil (by simp) (by simp)
    refine within_pure ?_
    cases cursor
    cases hopen
    simpa using hpage
  · unfold discoverOutgoingChannels
    refine within_bind (within_bind ((scanOutgoingChannels_within hheld hstart).mono ?_))
    rintro ⟨_, _, hasMore⟩ ⟨number, hadvance, hless, rfl, rfl⟩
    refine within_pure ?_
    dsimp only at hadvance hless ⊢
    -- The filter and the map only look at the address.
    rw [List.filter_map, List.foldl_map]
    generalize hfound : ((recipients.drop (nextIndex cursor.lastChannelIndex)).take number).filter
      ((fun channel => passes filter channel.recipientAddr) ∘
        (channelToward sn backend senderAddr viewingKey · false)) = found
    obtain ⟨new, hnew, heq, hall, hnodup, hfresh⟩ := foldl_orInsert_sublist cursor.channels
      found id fun addr =>
        newChannelCursor (channelToward sn backend senderAddr viewingKey addr false).channelKey
    rw [List.map_id] at hnodup hall
    simp only [id] at heq
    have hpage : OutgoingPage full sn backend senderAddr viewingKey recipients filter
        maxCursorChannels cursor _ _ :=
      .advanced hopen hadvance (fun hover => hless (by simpa using hover)) hfound.symm hnew hnodup
        hfresh hall
    rw [← heq] at hpage
    rw [or_eq_lastIndexAfter]
    cases hasMore with
    | true =>
      refine within_pure ?_
      dsimp only
      rw [hopen]
      exact hpage
    | false =>
      -- The scan is over, so the channels that can be opened are added from the end on.
      have hend : nextIndex (lastIndexAfter cursor.lastChannelIndex number) = recipients.length := by
        rw [nextIndex_lastIndexAfter]
        exact hadvance.ended rfl
      rw [wrappingNext_of_lt (hend.trans_lt hheld.length_lt), hend]
      exact within_pure hpage

end Outgoing

end PrivacyPool.Discovery
