import PrivacyPool.Discovery.Lagging
import PrivacyPool.Properties.CursorClosure
import PrivacyPool.Properties.OutgoingSync
import PrivacyPool.Sdk.IndexerDiscovery

/-!
# What pruning leaves

`pruneCompleteCursor` drops complete subchannels of channels whose scan is over, and the
channels that have none left by it. It takes no work away, and makes no cursor able to end
within the limits. A complete channel that stays has no subchannel.

## Main results

* `pruneCompleteCursor_pruned` — the client prunes a cursor
* `pruneCompleteCursor_trimmed` — a complete channel that stays has no subchannel
* `pruneCompleteCursor_workToward`, `pruneCompleteCursor_canEnd` — what stays the same
* `pruneCompleteCursor_tracks`, `pruneCompleteCursor_accepted` — what is kept
-/

namespace PrivacyPool.Sdk

open Discovery HashMap

variable {sn : Starknet} {backend : Backend} {senderAddr viewingKey : Felt} {contents : Contents}
  {recipients : List Felt} {filter : Option (List Felt)} {limits : CursorLimits}
  {entry entry' : Felt × ChannelCursor}

/-- A channel that is dropped is complete and has a subchannel. -/
theorem pruneChannel_eq_none (h : pruneChannel entry = none) :
    entry.2.isComplete = true ∧ entry.2.subchannels ≠ [] := by
  unfold pruneChannel at h
  dsimp only at h
  split_ifs at h with hover hempty
  simp only [Bool.and_eq_true, Bool.not_eq_true', List.isEmpty_eq_false_iff] at hover
  refine ⟨Bool.and_eq_true_iff.mpr ⟨hover.1, List.all_eq_true.mpr fun sub hsub => ?_⟩, hover.2⟩
  have hnone := List.filter_eq_nil_iff.mp (List.isEmpty_iff.mp hempty) sub hsub
  simpa using hnone

/-- A channel that stays is as it was, or has lost the complete ones of its subchannels. -/
theorem pruneChannel_eq_some (h : pruneChannel entry = some entry') :
    entry' = entry ∧ (entry.2.isComplete = true → entry.2.subchannels = []) ∨
      entry.2.subchannelDiscoveryComplete = true ∧ entry.2.subchannels ≠ [] ∧
        entry' = (entry.1, { entry.2 with
          subchannels := entry.2.subchannels.filter fun sub => !sub.2.noteDiscoveryComplete }) ∧
        entry'.2.subchannels ≠ [] := by
  unfold pruneChannel at h
  dsimp only at h
  split_ifs at h with hover hempty
  · obtain rfl := Option.some.inj h
    simp only [Bool.and_eq_true, Bool.not_eq_true', List.isEmpty_eq_false_iff] at hover
    exact .inr ⟨hover.1, hover.2, rfl, fun hnone => hempty (List.isEmpty_iff.mpr hnone)⟩
  · obtain rfl := Option.some.inj h
    refine .inl ⟨rfl, fun hcomplete => ?_⟩
    by_contra hne
    refine hover (Bool.and_eq_true_iff.mpr ⟨(Bool.and_eq_true_iff.mp hcomplete).1, ?_⟩)
    simpa using hne

theorem pruneChannel_pruned (h : pruneChannel entry = some entry') :
    entry'.1 = entry.1 ∧ entry.2.Pruned entry'.2 := by
  rcases pruneChannel_eq_some h with ⟨rfl, -⟩ | ⟨-, -, rfl, -⟩
  · exact ⟨rfl, .refl _⟩
  · refine ⟨rfl, rfl, rfl, rfl, _, (List.filter_append_perm
      (fun sub : Felt × SubchannelCursor => !sub.2.noteDiscoveryComplete) _).symm, ?_⟩
    intro sub hsub
    simpa using (List.mem_filter.mp hsub).2

theorem pruneChannel_tracks (h : pruneChannel entry = some entry')
    (hentry : entry.2.Tracks contents limits) : entry'.2.Tracks contents limits := by
  rcases pruneChannel_eq_some h with ⟨rfl, -⟩ | ⟨hover, -, rfl, hne⟩
  · exact hentry
  · refine ⟨⟨hentry.start_le, hentry.nodup.sublist (List.filter_sublist.map _),
      fun sub hsub => hentry.known sub (List.mem_of_mem_filter hsub),
      fun sub hsub => hentry.resumable sub (List.mem_of_mem_filter hsub)⟩, fun hopen => ?_,
      hentry.spared, fun _ hnone => absurd hnone hne,
      fun sub hsub => hentry.searching sub (List.mem_of_mem_filter hsub)⟩
    rw [hover] at hopen
    cases hopen

/-- Only an incomplete subchannel is still to be searched. -/
theorem pruneChannel_canEnd (h : pruneChannel entry = some entry')
    (hcan : entry'.2.CanEnd contents limits) : entry.2.CanEnd contents limits := by
  rcases pruneChannel_eq_some h with ⟨rfl, -⟩ | ⟨hover, -, rfl, -⟩
  · exact hcan
  · have hclosed : ∀ P : Prop, entry.2.subchannelDiscoveryComplete = false → P := by
      intro P hopen
      rw [hover] at hopen
      cases hopen
    refine ⟨hclosed _, ?_⟩
    rintro token (⟨sub, hsub, hsame, hopen, hrest⟩ | ⟨hopen, -⟩)
    · refine hcan.reach token (.inl ⟨sub, List.mem_filter.mpr ⟨hsub, ?_⟩, hsame, hopen, hrest⟩)
      rw [hopen]
      rfl
    · exact hclosed _ hopen

/-! ### The cursor -/

/-- What dropped channels do not add to is the same for those that stay. -/
theorem sum_filterMap_pruneChannel {f : Felt × ChannelCursor → ℕ}
    (hnone : ∀ entry, pruneChannel entry = none → f entry = 0)
    (hsome : ∀ entry entry', pruneChannel entry = some entry' → f entry' = f entry)
    (channels : List (Felt × ChannelCursor)) :
    ((channels.filterMap pruneChannel).map f).sum = (channels.map f).sum := by
  induction channels with
  | nil => rfl
  | cons entry channels ih =>
    rw [List.filterMap_cons, List.map_cons, List.sum_cons]
    cases hprune : pruneChannel entry with
    | none => rw [hnone entry hprune, ih, zero_add]
    | some entry' => rw [List.map_cons, List.sum_cons, hsome entry entry' hprune, ih]

theorem pruneCompleteCursor_pruned (cursor : DiscoveryCursor) :
    cursor.Pruned (pruneCompleteCursor cursor) := by
  refine ⟨rfl, rfl, rfl, cursor.channels.filter fun entry => (pruneChannel entry).isSome,
    cursor.channels.filter fun entry => !(pruneChannel entry).isSome,
    (List.filter_append_perm _ _).symm, fun entry hentry => ?_, ?_⟩
  · have hnone := (List.mem_filter.mp hentry).2
    rw [Bool.not_eq_true', Option.isSome_eq_false_iff, Option.isNone_iff_eq_none] at hnone
    exact (pruneChannel_eq_none hnone).1
  · unfold pruneCompleteCursor
    dsimp only
    induction cursor.channels with
    | nil => exact .nil
    | cons entry channels ih =>
      cases hprune : pruneChannel entry with
      | none =>
        rw [List.filter_cons_of_neg (by rw [hprune]; exact Bool.false_ne_true),
          List.filterMap_cons_none hprune]
        exact ih
      | some entry' =>
        rw [List.filter_cons_of_pos (by rw [hprune]; rfl), List.filterMap_cons_some hprune]
        exact .cons (pruneChannel_pruned hprune) ih

/-- A complete channel that stays has no subchannel. -/
theorem pruneCompleteCursor_trimmed {cursor : DiscoveryCursor} :
    (pruneCompleteCursor cursor).Trimmed := by
  intro entry hentry hcomplete
  obtain ⟨old, -, hprune⟩ := List.mem_filterMap.mp hentry
  rcases pruneChannel_eq_some hprune with ⟨rfl, hempty⟩ | ⟨-, -, rfl, hne⟩
  · exact hempty hcomplete
  · -- What is left of the subchannels is incomplete.
    obtain ⟨sub, hsub⟩ := List.exists_mem_of_ne_nil _ hne
    have hdone := List.all_eq_true.mp (Bool.and_eq_true_iff.mp hcomplete).2 sub hsub
    have hopen := (List.mem_filter.mp hsub).2
    rw [hdone] at hopen
    cases hopen

theorem pruneCompleteCursor_workToward {cursor : DiscoveryCursor} :
    (pruneCompleteCursor cursor).workToward sn backend senderAddr viewingKey contents recipients
        filter =
      cursor.workToward sn backend senderAddr viewingKey contents recipients filter := by
  refine congrArg (· + _ + _) (sum_filterMap_pruneChannel ?_ ?_ cursor.channels)
  · exact fun entry hnone => ChannelCursor.work_of_isComplete (pruneChannel_eq_none hnone).1
  · exact fun entry entry' hsome => ChannelCursor.Pruned.work_eq (pruneChannel_pruned hsome).2

/-- No channel without a subchannel is dropped. -/
theorem pruneCompleteCursor_tracks {cursor : DiscoveryCursor}
    (h : cursor.TracksOutgoing sn backend senderAddr viewingKey contents recipients filter limits) :
    (pruneCompleteCursor cursor).TracksOutgoing sn backend senderAddr viewingKey contents recipients
      filter limits := by
  have htracks : ∀ entry' ∈ (pruneCompleteCursor cursor).channels,
      entry'.2.Tracks contents limits := by
    intro entry' hentry'
    obtain ⟨entry, hentry, hprune⟩ := List.mem_filterMap.mp hentry'
    exact pruneChannel_tracks hprune (h.scans entry hentry)
  refine ⟨⟨h.start_le, (pruneCompleteCursor_pruned cursor).nodup_keys h.nodup,
    fun entry' hentry' => ?_, fun entry' hentry' => (htracks entry' hentry').toLags⟩, htracks,
    fun addr haddr => ?_⟩
  · obtain ⟨entry, hentry, hprune⟩ := List.mem_filterMap.mp hentry'
    obtain ⟨hsame, hpruned⟩ := pruneChannel_pruned hprune
    rw [hsame, hpruned.channelKey_eq]
    exact h.known entry hentry
  · obtain ⟨entry, hentry, rfl⟩ := List.mem_map.mp (h.kept addr haddr)
    cases hprune : pruneChannel entry with
    | none =>
      -- A channel that is dropped has a subchannel.
      have htokens := List.isEmpty_iff.mp (List.mem_filter.mp haddr).2
      rw [← (h.known entry hentry).2] at htokens
      obtain ⟨sub, hsub⟩ := List.exists_mem_of_ne_nil _ (pruneChannel_eq_none hprune).2
      have hknown := (h.scans entry hentry).known sub hsub
      rw [htokens] at hknown
      cases hknown
    | some entry' =>
      rw [← (pruneChannel_pruned hprune).1]
      exact mem_keys_of_mem (List.mem_filterMap.mpr ⟨entry, hentry, hprune⟩)

theorem pruneCompleteCursor_canEnd {cursor : DiscoveryCursor}
    (hcan : (pruneCompleteCursor cursor).CanEndOutgoing sn backend senderAddr viewingKey contents
      recipients filter limits) :
    cursor.CanEndOutgoing sn backend senderAddr viewingKey contents recipients filter limits := by
  refine ⟨hcan.room, fun entry hentry => ?_, hcan.unfound⟩
  cases hprune : pruneChannel entry with
  | none => exact ChannelCursor.canEnd_of_isComplete (pruneChannel_eq_none hprune).1
  | some entry' =>
    exact pruneChannel_canEnd hprune
      (hcan.entries entry' (List.mem_filterMap.mpr ⟨entry, hentry, hprune⟩))

theorem pruneCompleteCursor_accepted {cursor : DiscoveryCursor} (h : cursor.Accepted limits) :
    (pruneCompleteCursor cursor).Accepted limits := by
  have hsubs : ∀ entry' ∈ (pruneCompleteCursor cursor).channels, ∃ entry ∈ cursor.channels,
      entry'.2.subchannels.Sublist entry.2.subchannels := by
    intro entry' hentry'
    obtain ⟨entry, hentry, hprune⟩ := List.mem_filterMap.mp hentry'
    refine ⟨entry, hentry, ?_⟩
    rcases pruneChannel_eq_some hprune with ⟨rfl, -⟩ | ⟨-, -, rfl, -⟩
    · exact List.Sublist.refl _
    · exact List.filter_sublist
  refine ⟨(List.length_filterMap_le _ _).trans h.channels_le, fun entry' hentry' => ?_,
    fun entry' hentry' sub hsub => ?_, fun entry' hentry' sub hsub => ?_⟩
  · obtain ⟨entry, hentry, hsublist⟩ := hsubs entry' hentry'
    exact hsublist.length_le.trans (h.subchannels_le entry hentry)
  · obtain ⟨entry, hentry, hsublist⟩ := hsubs entry' hentry'
    exact h.total_le entry hentry sub (hsublist.subset hsub)
  · obtain ⟨entry, hentry, hsublist⟩ := hsubs entry' hentry'
    exact h.start_le entry hentry sub (hsublist.subset hsub)

end PrivacyPool.Sdk
