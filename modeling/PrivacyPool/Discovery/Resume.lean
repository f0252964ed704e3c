import Mathlib.Algebra.BigOperators.Group.List.Basic
import PrivacyPool.Discovery.Scans
import PrivacyPool.Discovery.Sync

/-!
# Resumable scans

A cursor follows the contents of the pool when each of its scans stands between the
start and the end of what it scans, and its entries are what the scans have found. A
weight of a subchannel cursor then adds up over a whole cursor: over the entries, and
over what the scans have yet to find, at its fresh weight. Finding something moves its
weight from the second part to the first, so the pages of the scans keep the weight.

## Main definitions

* `ChannelCursor.Follows`, `DiscoveryCursor.Follows` — cursors that follow the pool
* `ChannelCursor.Lags` — the scan has yet to come to some of what the cursor has
* `ChannelCursor.weight`, `DiscoveryCursor.weight` — what is left to do, added up
* `ChannelCursor.Exceeds`, `DiscoveryCursor.Exceeds` — a boundary to be found is out of reach

## Main results

* `SubchannelsPage.weight_eq`, `ChannelsPage.weight_eq` — finding keeps the weight
* `SubchannelsPage.exceeds`, `ChannelsPage.exceeds` — finding leaves no new boundary out of reach
-/

namespace PrivacyPool.Discovery

open HashMap

variable {M : Type} [AddCommMonoid M] {full : Prop} {contents : Contents}

/-! ### Channel cursors -/

/-- The cursor of a channel follows the contents. -/
structure ChannelCursor.Follows (contents : Contents) (cursor : ChannelCursor) : Prop where
  start_le : nextIndex cursor.lastSubchannelIndex ≤ (contents.tokens cursor.channelKey).length
  nodup : (keys cursor.subchannels).Nodup
  known : ∀ entry ∈ cursor.subchannels, entry.1 ∈
    (contents.tokens cursor.channelKey).take (nextIndex cursor.lastSubchannelIndex)
  resumable : ∀ entry ∈ cursor.subchannels, entry.2.totalNNotes = none →
    entry.2.startIndex ≤ contents.count cursor.channelKey entry.1

/-- The cursor of a channel lags behind the contents: its subchannels exist, but the scan need
not have come to them. -/
structure ChannelCursor.Lags (contents : Contents) (cursor : ChannelCursor) : Prop where
  start_le : nextIndex cursor.lastSubchannelIndex ≤ (contents.tokens cursor.channelKey).length
  nodup : (keys cursor.subchannels).Nodup
  known : ∀ entry ∈ cursor.subchannels, entry.1 ∈ contents.tokens cursor.channelKey
  resumable : ∀ entry ∈ cursor.subchannels, entry.2.totalNNotes = none →
    entry.2.startIndex ≤ contents.count cursor.channelKey entry.1

theorem ChannelCursor.Follows.lags {cursor : ChannelCursor} (h : cursor.Follows contents) :
    cursor.Lags contents :=
  ⟨h.start_le, h.nodup, fun entry hentry => List.mem_of_mem_take (h.known entry hentry),
    h.resumable⟩

/-- The weight of the subchannels in the cursor and of those that are not found yet. -/
def ChannelCursor.weight (contents : Contents) (w : Felt → SubchannelCursor → M)
    (cursor : ChannelCursor) : M :=
  (cursor.subchannels.map fun entry => w entry.1 entry.2).sum +
    if cursor.subchannelDiscoveryComplete then 0
    else (((contents.tokens cursor.channelKey).drop
      (nextIndex cursor.lastSubchannelIndex)).map fun token => w token {}).sum

theorem ChannelCursor.follows_new (contents : Contents) (channelKey : Felt) :
    (newChannelCursor channelKey).Follows contents where
  start_le := Nat.zero_le _
  nodup := List.nodup_nil
  known _ h := nomatch h
  resumable _ h := nomatch h

theorem ChannelCursor.weight_new (w : Felt → SubchannelCursor → M) (channelKey : Felt) :
    (newChannelCursor channelKey).weight contents w =
      ((contents.tokens channelKey).map fun token => w token {}).sum := by
  simp [ChannelCursor.weight, newChannelCursor, nextIndex]

section Subchannels

variable {maxCursorSubchannels : ℕ} {cursor cursor' : ChannelCursor}

theorem SubchannelsPage.channelKey_eq
    (h : SubchannelsPage full (contents.tokens cursor.channelKey) maxCursorSubchannels cursor
      cursor') : cursor'.channelKey = cursor.channelKey := by
  cases h <;> rfl

/-- What a scan finds is not in the cursor yet. -/
theorem ChannelCursor.Follows.filter_fresh (h : cursor.Follows contents)
    (hnodup : (contents.tokens cursor.channelKey).Nodup) (number : ℕ) :
    (((contents.tokens cursor.channelKey).drop (nextIndex cursor.lastSubchannelIndex)).take
      number).filter (fun token => token ∉ keys cursor.subchannels) =
    ((contents.tokens cursor.channelKey).drop (nextIndex cursor.lastSubchannelIndex)).take
      number := by
  refine List.filter_eq_self.mpr fun token htoken => decide_eq_true fun hmem => ?_
  obtain ⟨entry, hentry, rfl⟩ := List.mem_map.mp hmem
  exact List.disjoint_take_drop hnodup le_rfl (h.known entry hentry) (List.mem_of_mem_take htoken)

theorem SubchannelsPage.follows (hnodup : (contents.tokens cursor.channelKey).Nodup)
    (hcursor : cursor.Follows contents)
    (h : SubchannelsPage full (contents.tokens cursor.channelKey) maxCursorSubchannels cursor
      cursor') : cursor'.Follows contents := by
  cases h with
  | closed h => exact hcursor
  | @advanced number complete hopen hadvance hslots =>
    have hle := hadvance.le_length' hcursor.start_le
    have hsub : (((((contents.tokens cursor.channelKey).drop
        (nextIndex cursor.lastSubchannelIndex)).take number).filter
          fun token => token ∉ keys cursor.subchannels).map id).Nodup := by
      rw [List.map_id]
      exact hnodup.sublist (List.filter_sublist.trans
        ((List.take_sublist _ _).trans (List.drop_sublist _ _)))
    have hkeys := nodup_keys_append _ id (fun _ => ({} : SubchannelCursor)) hcursor.nodup hsub
      fun token htoken => of_decide_eq_true (List.mem_filter.mp htoken).2
    simp only [id] at hkeys
    rw [hcursor.filter_fresh hnodup] at hkeys ⊢
    -- What the scan has passed is what it had passed and what it has found.
    have htake : (contents.tokens cursor.channelKey).take
        (nextIndex (lastIndexAfter cursor.lastSubchannelIndex number)) =
        (contents.tokens cursor.channelKey).take (nextIndex cursor.lastSubchannelIndex) ++
          ((contents.tokens cursor.channelKey).drop
            (nextIndex cursor.lastSubchannelIndex)).take number := by
      rw [nextIndex_lastIndexAfter, List.take_add]
    refine ⟨?_, ?_, ?_, ?_⟩
    · simpa using hle
    · exact hkeys
    · intro entry hentry
      rw [htake, List.mem_append]
      rcases List.mem_append.mp hentry with hold | hnew
      · exact .inl (hcursor.known entry hold)
      · obtain ⟨token, htoken, rfl⟩ := List.mem_map.mp hnew
        exact .inr htoken
    · intro entry hentry hnone
      rcases List.mem_append.mp hentry with hold | hnew
      · exact hcursor.resumable entry hold hnone
      · obtain ⟨token, htoken, rfl⟩ := List.mem_map.mp hnew
        exact Nat.zero_le _

/-- What a scan finds anew it adds at the end. -/
theorem SubchannelsPage.lags (hnodup : (contents.tokens cursor.channelKey).Nodup)
    (hcursor : cursor.Lags contents)
    (h : SubchannelsPage full (contents.tokens cursor.channelKey) maxCursorSubchannels cursor
      cursor') : cursor'.Lags contents := by
  cases h with
  | closed h => exact hcursor
  | @advanced number complete hopen hadvance hslots =>
    have hle := hadvance.le_length' hcursor.start_le
    generalize hfound : ((contents.tokens cursor.channelKey).drop
      (nextIndex cursor.lastSubchannelIndex)).take number = found
    have hsub : found.Sublist (contents.tokens cursor.channelKey) :=
      hfound ▸ (List.take_sublist _ _).trans (List.drop_sublist _ _)
    have hnew : ((found.filter fun token => token ∉ keys cursor.subchannels).map id).Nodup := by
      rw [List.map_id]
      exact hnodup.sublist (List.filter_sublist.trans hsub)
    have hkeys := nodup_keys_append _ id (fun _ => ({} : SubchannelCursor)) hcursor.nodup hnew
      fun token htoken => of_decide_eq_true (List.mem_filter.mp htoken).2
    refine ⟨by simpa using hle, hkeys, fun entry hentry => ?_, fun entry hentry hnone => ?_⟩
    · rcases List.mem_append.mp hentry with hold | hnew
      · exact hcursor.known entry hold
      · obtain ⟨token, htoken, rfl⟩ := List.mem_map.mp hnew
        exact hsub.subset (List.mem_of_mem_filter htoken)
    · rcases List.mem_append.mp hentry with hold | hnew
      · exact hcursor.resumable entry hold hnone
      · obtain ⟨token, -, rfl⟩ := List.mem_map.mp hnew
        exact Nat.zero_le _

/-- Finding subchannels keeps the weight of the channel. -/
theorem SubchannelsPage.weight_eq (hnodup : (contents.tokens cursor.channelKey).Nodup)
    (hcursor : cursor.Follows contents)
    (h : SubchannelsPage full (contents.tokens cursor.channelKey) maxCursorSubchannels cursor
      cursor') (w : Felt → SubchannelCursor → M) :
    cursor'.weight contents w = cursor.weight contents w := by
  cases h with
  | closed h => rfl
  | @advanced number complete hopen hadvance hslots =>
    rw [hcursor.filter_fresh hnodup]
    generalize hrest : (contents.tokens cursor.channelKey).drop
      (nextIndex cursor.lastSubchannelIndex) = rest
    have hleft : (if complete = true then 0 else (((contents.tokens cursor.channelKey).drop
        (nextIndex (lastIndexAfter cursor.lastSubchannelIndex number))).map
          fun token => w token {}).sum) = ((rest.drop number).map fun token => w token {}).sum := by
      rw [nextIndex_lastIndexAfter, ← List.drop_drop, hrest]
      split_ifs with hcomplete
      · have hend := hadvance.ended hcomplete
        rw [← hrest, List.drop_drop, hend, List.drop_length]
        rfl
      · rfl
    simp only [ChannelCursor.weight, hopen, hleft, hrest, List.map_append, List.sum_append,
      List.map_map, Function.comp_def, Bool.false_eq_true, if_false, add_assoc]
    rw [← List.sum_append, ← List.map_append, List.take_append_drop]

/-- The note boundary of a subchannel is still to be found. -/
def ChannelCursor.Unprobed (contents : Contents) (cursor : ChannelCursor) (token : Felt) : Prop :=
  (∃ sub ∈ cursor.subchannels,
    sub.1 = token ∧ sub.2.noteDiscoveryComplete = false ∧ sub.2.totalNNotes = none) ∨
    cursor.subchannelDiscoveryComplete = false ∧
      token ∈ (contents.tokens cursor.channelKey).drop (nextIndex cursor.lastSubchannelIndex)

/-- A boundary that is still to be found is out of reach of the probe. -/
def ChannelCursor.Exceeds (contents : Contents) (maxNoteLogIndex : ℕ) (cursor : ChannelCursor) :
    Prop :=
  ∃ token, cursor.Unprobed contents token ∧
    2 ^ maxNoteLogIndex ≤ contents.count cursor.channelKey token

/-- Finding subchannels probes none. -/
theorem SubchannelsPage.unprobed_iff (hnodup : (contents.tokens cursor.channelKey).Nodup)
    (hcursor : cursor.Follows contents)
    (h : SubchannelsPage full (contents.tokens cursor.channelKey) maxCursorSubchannels cursor
      cursor') {token : Felt} : cursor'.Unprobed contents token ↔ cursor.Unprobed contents token := by
  cases h with
  | closed h => rfl
  | @advanced number complete hopen hadvance hslots =>
    rw [hcursor.filter_fresh hnodup]
    unfold ChannelCursor.Unprobed
    have hrest : token ∈ (contents.tokens cursor.channelKey).drop
        (nextIndex cursor.lastSubchannelIndex) ↔
        token ∈ ((contents.tokens cursor.channelKey).drop
          (nextIndex cursor.lastSubchannelIndex)).take number ∨
        complete = false ∧ token ∈ (contents.tokens cursor.channelKey).drop
          (nextIndex (lastIndexAfter cursor.lastSubchannelIndex number)) := by
      nth_rewrite 1 [← List.take_append_drop number (List.drop _ _)]
      rw [List.mem_append, List.drop_drop, nextIndex_lastIndexAfter]
      refine or_congr_right ⟨fun hleft => ⟨Bool.eq_false_iff.mpr fun hcomplete => ?_, hleft⟩, And.right⟩
      -- At the end nothing is left.
      rw [hadvance.ended hcomplete, List.drop_length] at hleft
      cases hleft
    simp only [hopen, true_and, hrest, List.mem_append, List.mem_map]
    constructor
    · rintro (⟨sub, hold | ⟨token', hnew, rfl⟩, rfl, hunprobed⟩ | hleft)
      · exact .inl ⟨sub, hold, rfl, hunprobed⟩
      · exact .inr (.inl hnew)
      · exact .inr (.inr hleft)
    · rintro (⟨sub, hold, rfl, hunprobed⟩ | hnew | hleft)
      · exact .inl ⟨sub, .inl hold, rfl, hunprobed⟩
      · exact .inl ⟨(token, {}), .inr ⟨token, hnew, rfl⟩, rfl, rfl, rfl⟩
      · exact .inr hleft

theorem SubchannelsPage.exceeds
    (h : SubchannelsPage full (contents.tokens cursor.channelKey) maxCursorSubchannels cursor
      cursor') {maxNoteLogIndex : ℕ} (hexceeds : cursor'.Exceeds contents maxNoteLogIndex) :
    cursor.Exceeds contents maxNoteLogIndex := by
  obtain ⟨token, hunprobed, hcount⟩ := hexceeds
  rw [h.channelKey_eq] at hcount
  refine ⟨token, ?_, hcount⟩
  cases h with
  | closed h => exact hunprobed
  | @advanced number complete hopen hadvance hslots =>
    rcases hunprobed with ⟨sub, hsub, rfl, hunprobed⟩ | ⟨-, hleft⟩
    · rcases List.mem_append.mp hsub with hold | hnew
      · exact .inl ⟨sub, hold, rfl, hunprobed⟩
      · obtain ⟨token, htoken, rfl⟩ := List.mem_map.mp hnew
        exact .inr ⟨hopen, List.mem_of_mem_take (List.mem_of_mem_filter htoken)⟩
    · rw [nextIndex_lastIndexAfter, ← List.drop_drop] at hleft
      exact .inr ⟨hopen, List.mem_of_mem_drop hleft⟩

end Subchannels

/-! ### Discovery cursors -/

/-- The cursor of a recipient follows the contents. -/
structure DiscoveryCursor.Follows (contents : Contents) (channels : List IncomingChannel)
    (cursor : DiscoveryCursor) : Prop where
  total_le : cursor.totalNChannels.getD channels.length ≤ channels.length
  start_le : nextIndex cursor.lastChannelIndex ≤ cursor.totalNChannels.getD channels.length
  nodup : (keys cursor.channels).Nodup
  known : ∀ entry ∈ cursor.channels,
    (⟨entry.2.channelKey, entry.1⟩ : IncomingChannel) ∈
      channels.take (nextIndex cursor.lastChannelIndex)
  entries : ∀ entry ∈ cursor.channels, entry.2.Follows contents

/-- The channels that a scan has yet to find. -/
def DiscoveryCursor.unfound (channels : List IncomingChannel) (cursor : DiscoveryCursor) :
    List IncomingChannel :=
  if cursor.channelDiscoveryComplete then []
  else (channels.take (cursor.totalNChannels.getD channels.length)).drop
    (nextIndex cursor.lastChannelIndex)

/-- The weight of the channels in the cursor and of those that are not found yet. -/
def DiscoveryCursor.weight (contents : Contents) (channels : List IncomingChannel)
    (w : Felt → Felt → Felt → SubchannelCursor → M) (cursor : DiscoveryCursor) : M :=
  (cursor.channels.map fun entry => entry.2.weight contents (w entry.1 entry.2.channelKey)).sum +
    ((cursor.unfound channels).map fun channel =>
      (newChannelCursor channel.channelKey).weight contents
        (w channel.senderAddr channel.channelKey)).sum

section Channels

variable {channels found : List IncomingChannel} {maxCursorChannels : ℕ}
  {cursor cursor' : DiscoveryCursor}

theorem DiscoveryCursor.follows_default (contents : Contents) (channels : List IncomingChannel) :
    DiscoveryCursor.Follows contents channels {} where
  total_le := le_rfl
  start_le := Nat.zero_le _
  nodup := List.nodup_nil
  known _ h := nomatch h
  entries _ h := nomatch h

/-- What a scan finds is not in the cursor yet. -/
theorem DiscoveryCursor.Follows.filter_fresh (h : cursor.Follows contents channels)
    (hnodup : (channels.map IncomingChannel.senderAddr).Nodup) (number : ℕ) :
    ((channels.drop (nextIndex cursor.lastChannelIndex)).take number).filter
      (fun channel => channel.senderAddr ∉ keys cursor.channels) =
    (channels.drop (nextIndex cursor.lastChannelIndex)).take number := by
  refine List.filter_eq_self.mpr fun channel hchannel => decide_eq_true fun hmem => ?_
  obtain ⟨entry, hentry, hsame⟩ := List.mem_map.mp hmem
  have hold := List.mem_map_of_mem (f := IncomingChannel.senderAddr) (h.known entry hentry)
  have hnew := List.mem_map_of_mem (f := IncomingChannel.senderAddr) (List.mem_of_mem_take hchannel)
  rw [List.map_take] at hold
  rw [List.map_drop, ← hsame] at hnew
  exact List.disjoint_take_drop hnodup le_rfl hold hnew

theorem ChannelsPage.follows (hnodup : (channels.map IncomingChannel.senderAddr).Nodup)
    (hcursor : cursor.Follows contents channels)
    (h : ChannelsPage full channels maxCursorChannels cursor cursor' found) :
    cursor'.Follows contents channels := by
  cases h with
  | closed | blocked | uncounted => exact hcursor
  | @advanced number total complete hopen hslots htotal hadvance hover =>
    subst htotal
    have hle := hadvance.le_length' hcursor.start_le
    have hkeys := nodup_keys_append
      (((channels.drop (nextIndex cursor.lastChannelIndex)).take number).filter
        fun channel => channel.senderAddr ∉ keys cursor.channels)
      IncomingChannel.senderAddr (fun channel => newChannelCursor channel.channelKey) hcursor.nodup
      (hnodup.sublist ((List.filter_sublist.trans
        ((List.take_sublist _ _).trans (List.drop_sublist _ _))).map _))
      fun channel hchannel => of_decide_eq_true (List.mem_filter.mp hchannel).2
    rw [hcursor.filter_fresh hnodup] at hkeys ⊢
    -- What the scan has passed is what it had passed and what it has found.
    have htake : channels.take (nextIndex (lastIndexAfter cursor.lastChannelIndex number)) =
        channels.take (nextIndex cursor.lastChannelIndex) ++
          (channels.drop (nextIndex cursor.lastChannelIndex)).take number := by
      rw [nextIndex_lastIndexAfter, List.take_add]
    refine ⟨hcursor.total_le, ?_, ?_, ?_, ?_⟩
    · simpa using hle
    · exact hkeys
    · intro entry hentry
      rw [htake, List.mem_append]
      rcases List.mem_append.mp hentry with hold | hnew
      · exact .inl (hcursor.known entry hold)
      · obtain ⟨channel, hchannel, rfl⟩ := List.mem_map.mp hnew
        exact .inr hchannel
    · intro entry hentry
      rcases List.mem_append.mp hentry with hold | hnew
      · exact hcursor.entries entry hold
      · obtain ⟨channel, hchannel, rfl⟩ := List.mem_map.mp hnew
        exact ChannelCursor.follows_new contents channel.channelKey

/-- What a page finds is the beginning of what was left to find. -/
theorem ChannelsPage.unfound_eq (hcursor : cursor.Follows contents channels)
    (h : ChannelsPage full channels maxCursorChannels cursor cursor' found) :
    cursor.unfound channels = found ++ cursor'.unfound channels := by
  cases h with
  | closed | blocked | uncounted => rfl
  | @advanced number total complete hopen hslots htotal hadvance hover =>
    subst htotal
    have hle := hadvance.le_length' hcursor.start_le
    generalize hrest : (channels.take (cursor.totalNChannels.getD channels.length)).drop
      (nextIndex cursor.lastChannelIndex) = rest
    have hfound : (channels.drop (nextIndex cursor.lastChannelIndex)).take number =
        rest.take number := by
      rw [← hrest, List.drop_take, List.take_take, min_eq_left (by omega)]
    have hleft : (if complete = true then [] else (channels.take
        (cursor.totalNChannels.getD channels.length)).drop
          (nextIndex (lastIndexAfter cursor.lastChannelIndex number))) = rest.drop number := by
      rw [nextIndex_lastIndexAfter, ← List.drop_drop, hrest]
      split_ifs with hcomplete
      · have hend := hadvance.ended hcomplete
        rw [← hrest, List.drop_drop, hend, List.drop_take, Nat.sub_self, List.take_zero]
      · rfl
    simp only [DiscoveryCursor.unfound, hopen, Bool.false_eq_true, if_false, Option.getD_some]
    rw [hrest, hleft, hfound, List.take_append_drop]

/-- Finding channels keeps the weight of the cursor. -/
theorem ChannelsPage.weight_eq (hnodup : (channels.map IncomingChannel.senderAddr).Nodup)
    (hcursor : cursor.Follows contents channels)
    (h : ChannelsPage full channels maxCursorChannels cursor cursor' found)
    (w : Felt → Felt → Felt → SubchannelCursor → M) :
    cursor'.weight contents channels w = cursor.weight contents channels w := by
  have hunfound := h.unfound_eq hcursor
  cases h with
  | closed | blocked | uncounted => rfl
  | @advanced number total complete hopen hslots htotal hadvance hover =>
    rw [hcursor.filter_fresh hnodup] at hunfound ⊢
    unfold DiscoveryCursor.weight
    rw [hunfound]
    simp only [List.map_append, List.sum_append, List.map_map, Function.comp_def, add_assoc]
    rfl

/-- A boundary that is still to be found is out of reach of the probe. -/
def DiscoveryCursor.Exceeds (contents : Contents) (channels : List IncomingChannel)
    (maxNoteLogIndex : ℕ) (cursor : DiscoveryCursor) : Prop :=
  (∃ entry ∈ cursor.channels, entry.2.Exceeds contents maxNoteLogIndex) ∨
    ∃ channel ∈ cursor.unfound channels,
      (newChannelCursor channel.channelKey).Exceeds contents maxNoteLogIndex

theorem ChannelsPage.exceeds (hnodup : (channels.map IncomingChannel.senderAddr).Nodup)
    (hcursor : cursor.Follows contents channels)
    (h : ChannelsPage full channels maxCursorChannels cursor cursor' found) {maxNoteLogIndex : ℕ}
    (hexceeds : cursor'.Exceeds contents channels maxNoteLogIndex) :
    cursor.Exceeds contents channels maxNoteLogIndex := by
  have hunfound := h.unfound_eq hcursor
  unfold DiscoveryCursor.Exceeds at hexceeds ⊢
  rw [hunfound]
  rcases hexceeds with ⟨entry, hentry, hexceeds⟩ | ⟨channel, hchannel, hexceeds⟩
  · cases h with
    | closed | blocked | uncounted => exact .inl ⟨entry, hentry, hexceeds⟩
    | @advanced number total complete hopen hslots htotal hadvance hover =>
      rw [hcursor.filter_fresh hnodup] at hentry
      rcases List.mem_append.mp hentry with hold | hnew
      · exact .inl ⟨entry, hold, hexceeds⟩
      · obtain ⟨channel, hchannel, rfl⟩ := List.mem_map.mp hnew
        exact .inr ⟨channel, List.mem_append_left _ hchannel, hexceeds⟩
  · exact .inr ⟨channel, List.mem_append_right _ hchannel, hexceeds⟩

end Channels

end PrivacyPool.Discovery
