import PrivacyPool.Sdk.ContractAnswers

/-!
# Calls of `discoverNotes` over the pool contract

What a call returns from the cursor of an earlier one. It finds the unspent notes of all
subchannels that pass its filter, and it finds those of the subchannels of its cursor,
whether they pass or not: of a subchannel that is in both groups every note is found
twice.

## Main definitions

* `resumed` — the notes that a call finds from the subchannels of its cursor

## Main results

* `Discovers.spec` — what a call returns
* `exists_discovers` — a call returns
-/

namespace PrivacyPool.Sdk.NotesDiscovery

open Discovery HashMap

variable {sn : Starknet} {recoverPointFromX : Felt → Option sn.EcPoint} {backend : Backend}
  {address : ContractAddress} {viewingKey : Felt} {tokens : List Felt}
  {contents : Contents} {channels : List IncomingChannel} {cursor : NotesCursor}

/-! ### The first calls -/

/-- Sums by index are sums over the rest of a list. -/
theorem sum_getElem? {α M : Type*} [AddCommMonoid M] (l : List α) (k : ℕ) (f : α → M) :
    ∑ i ∈ Finset.Ico k l.length, (l[i]?.elim 0 f) = ((l.drop k).map f).sum := by
  induction l generalizing k with
  | nil => simp
  | cons a l ih =>
    cases k with
    | zero =>
      have htail := ih 0
      rw [List.drop_zero] at htail
      rw [List.drop_zero, List.map_cons, List.sum_cons, ← htail, List.length_cons,
        Finset.sum_eq_sum_Ico_succ_bot (Nat.succ_pos _), ← Finset.sum_Ico_add' _ 0 l.length 1]
      rfl
    | succ k =>
      rw [List.drop_succ_cons, ← ih k, List.length_cons, ← Finset.sum_Ico_add' _ k l.length 1]
      rfl

theorem notesIn_eq (sender channelKey : Felt) :
    notesIn sn backend viewingKey tokens contents sender channelKey =
      ((contents.tokens channelKey).map fun token => if Passes tokens token then
        notesOf sn backend viewingKey contents sender channelKey token else 0).sum := by
  have hsum := sum_getElem? (contents.tokens channelKey) 0 fun token =>
    if Passes tokens token then notesOf sn backend viewingKey contents sender channelKey token else 0
  rw [List.drop_zero] at hsum
  rw [notesIn, Finset.range_eq_Ico, ← hsum]
  rfl

/-- The notes that a call finds from the subchannels of its cursor. -/
def resumed (sn : Starknet) (backend : Backend) (viewingKey : Felt) (contents : Contents)
    (cursor : NotesCursor) : Multiset (Felt × Note) :=
  (cursor.map fun entry => (entry.2.noteIndexes.map fun sub =>
    notesOf sn backend viewingKey contents entry.1 entry.2.channelKey sub.1).sum).sum

/-- The entries of a cursor as channels. -/
def channelsIn (cursor : NotesCursor) : List IncomingChannel :=
  cursor.map fun entry => ⟨entry.2.channelKey, entry.1⟩

theorem Known.nodup_channelsIn (h : Known contents channels cursor) : (channelsIn cursor).Nodup := by
  refine List.Nodup.of_map IncomingChannel.senderAddr ?_
  rw [channelsIn, List.map_map]
  exact h.nodup

theorem Follows.channelsIn_perm (h : Follows contents channels cursor)
    (hsenders : (channels.map IncomingChannel.senderAddr).Nodup) :
    (channelsIn cursor).Perm (channels.take cursor.length) := by
  refine (List.perm_ext_iff_of_nodup h.nodup_channelsIn
    ((List.Nodup.of_map _ hsenders).sublist (List.take_sublist _ _))).mpr fun channel => ?_
  constructor
  · intro hmem
    obtain ⟨entry, hentry, rfl⟩ := List.mem_map.mp hmem
    obtain ⟨first, hfirst, hsame⟩ :=
      List.mem_map.mp (h.first.mem_iff.mp (mem_keys_of_mem hentry))
    have heq : first = ⟨entry.2.channelKey, entry.1⟩ := by
      have hkey : first.channelKey = entry.2.channelKey := by
        have hmem : ⟨first.channelKey, entry.1⟩ ∈ channels := hsame ▸ List.mem_of_mem_take hfirst
        exact key_eq_of_mem hsenders hmem (h.channel entry hentry)
      rw [← hkey, ← hsame]
    exact heq ▸ hfirst
  · intro hmem
    obtain ⟨entry, hentry, hsame⟩ :=
      List.mem_map.mp (h.first.mem_iff.mpr (List.mem_map_of_mem hmem))
    have hkey : entry.2.channelKey = channel.channelKey := by
      refine key_eq_of_mem hsenders (h.channel entry hentry) ?_
      rw [hsame]
      exact List.mem_of_mem_take hmem
    refine List.mem_map.mpr ⟨entry, hentry, ?_⟩
    rw [hkey, hsame]

/-- The lookups of the first calls find the entries of the cursor. -/
theorem Known.get_eq (h : Known contents channels cursor) {entry : Felt × IncomingChannelCursor}
    (hentry : entry ∈ cursor) : AddressMap.get cursor entry.1 = some entry.2 :=
  (AddressMap.get_eq_some_iff h.nodup).mpr hentry

theorem valid_start (h : Follows contents channels cursor) :
    ∀ task ∈ start cursor, Valid sn backend contents channels { cursor } task := by
  refine List.forall_mem_cons.mpr ⟨trivial, fun task htask => ?_⟩
  obtain ⟨entry, hentry, htask⟩ := List.mem_flatMap.mp htask
  have hget := h.get_eq hentry
  have hchannel := h.channel entry hentry
  have hwithin := h.within entry hentry
  have hsender : entry.1 ∈ keys cursor := mem_keys_of_mem hentry
  rcases List.mem_append.mp htask with hsubchannels | hnotes
  · rw [discoverSubchannels, hget] at hsubchannels
    exact valid_discoverSubchannels hchannel hsender hwithin.index_le task hsubchannels
  · obtain ⟨sub, hsub, hnotes⟩ := List.mem_flatMap.mp hnotes
    have hnotes : task ∈ discoverNotes cursor entry.1 sub.1 sub.2 := hnotes
    rw [discoverNotes, hget] at hnotes
    obtain ⟨htoken, hindex⟩ := hwithin.noteIndexes sub hsub
    exact valid_discoverNotes hchannel hsender htoken hindex task hnotes

theorem sum_flatMap {α β M : Type*} [AddCommMonoid M] (l : List α) (f : α → List β) (g : β → M) :
    ((l.flatMap f).map g).sum = (l.map fun a => ((f a).map g).sum).sum := by
  induction l with
  | nil => rfl
  | cons a l ih =>
    rw [List.flatMap_cons, List.map_append, List.sum_append, ih, List.map_cons, List.sum_cons]

/-- What the first calls lead to: the notes of all subchannels that pass the filter, and
those of the subchannels of the cursor. -/
theorem sum_found_start (h : Follows contents channels cursor)
    (hsenders : (channels.map IncomingChannel.senderAddr).Nodup) :
    ((start cursor).map (Task.found sn backend viewingKey tokens contents channels)).sum =
      (channels.map fun channel => notesIn sn backend viewingKey tokens contents channel.senderAddr
        channel.channelKey).sum + resumed sn backend viewingKey contents cursor := by
  have hentry : ∀ entry ∈ cursor, ((discoverSubchannels cursor entry.1 ++
      entry.2.noteIndexes.flatMap fun sub => discoverNotes cursor entry.1 sub.1 sub.2).map
        (Task.found sn backend viewingKey tokens contents channels)).sum =
      notesIn sn backend viewingKey tokens contents entry.1 entry.2.channelKey +
        (entry.2.noteIndexes.map fun sub =>
          notesOf sn backend viewingKey contents entry.1 entry.2.channelKey sub.1).sum := by
    intro entry hentry
    have hget := h.get_eq hentry
    rw [List.map_append, List.sum_append, sum_flatMap, discoverSubchannels, hget, Option.elim_some,
      sum_map_map]
    refine congrArg₂ (· + ·) (weight_scan _ _ _) (congrArg List.sum (List.map_congr_left fun sub _ => ?_))
    rw [discoverNotes, hget, Option.elim_some, sum_map_map]
    exact weight_scan _ _ _
  -- The channels of the cursor are the first ones, and the others are looked up.
  have hchannels : (channels.map fun channel => notesIn sn backend viewingKey tokens contents
        channel.senderAddr channel.channelKey).sum =
      (cursor.map fun entry => notesIn sn backend viewingKey tokens contents entry.1
        entry.2.channelKey).sum +
      ∑ c ∈ Finset.Ico cursor.length channels.length,
        channelItem sn backend viewingKey tokens contents channels c := by
    have hdrop := sum_getElem? channels cursor.length fun channel =>
      notesIn sn backend viewingKey tokens contents channel.senderAddr channel.channelKey
    have hperm := ((h.channelsIn_perm hsenders).map fun channel =>
      notesIn sn backend viewingKey tokens contents channel.senderAddr channel.channelKey).sum_eq
    rw [channelsIn, List.map_map] at hperm
    conv_lhs => rw [← List.take_append_drop cursor.length channels]
    rw [List.map_append, List.sum_append, ← hperm, ← hdrop]
    rfl
  unfold start resumed
  rw [List.map_cons, List.sum_cons, sum_flatMap, List.map_congr_left hentry, List.sum_map_add,
    hchannels]
  dsimp only [Task.found]
  ac_rfl

theorem added_discoverNotes {sender token : Felt} {index : ℕ} :
    ∀ task ∈ discoverNotes cursor sender token index, task.added channels = 0 := by
  intro task htask
  unfold discoverNotes at htask
  cases hget : AddressMap.get cursor sender with
  | none =>
    rw [hget] at htask
    cases htask
  | some icc =>
    rw [hget] at htask
    obtain ⟨scan, -, rfl⟩ := List.mem_map.mp htask
    rfl

theorem added_discoverSubchannels {sender : Felt} :
    ∀ task ∈ discoverSubchannels cursor sender, task.added channels = 0 := by
  intro task htask
  unfold discoverSubchannels at htask
  cases hget : AddressMap.get cursor sender with
  | none =>
    rw [hget] at htask
    cases htask
  | some icc =>
    rw [hget] at htask
    obtain ⟨scan, -, rfl⟩ := List.mem_map.mp htask
    rfl

/-- The first calls add the channels that are not in the cursor. -/
theorem sum_added_start : ((start cursor).map (Task.added channels)).sum =
    ((channels.drop cursor.length).map IncomingChannel.senderAddr : List Felt) := by
  have hrest : ∀ task ∈ cursor.flatMap (fun entry => discoverSubchannels cursor entry.1 ++
      entry.2.noteIndexes.flatMap fun sub => discoverNotes cursor entry.1 sub.1 sub.2),
        task.added channels = 0 := by
    intro task htask
    obtain ⟨entry, -, htask⟩ := List.mem_flatMap.mp htask
    rcases List.mem_append.mp htask with hsubchannels | hnotes
    · exact added_discoverSubchannels task hsubchannels
    · obtain ⟨sub, -, hnotes⟩ := List.mem_flatMap.mp hnotes
      exact added_discoverNotes task hnotes
  have hsingletons : ∀ l : List IncomingChannel,
      (l.map fun channel => ({channel.senderAddr} : Multiset Felt)).sum =
        (l.map IncomingChannel.senderAddr : List Felt) := by
    intro l
    induction l with
    | nil => rfl
    | cons channel l ih =>
      rw [List.map_cons, List.sum_cons, ih, List.map_cons, Multiset.singleton_add, Multiset.cons_coe]
  unfold start
  rw [List.map_cons, List.sum_cons, sum_added_eq_zero hrest, add_zero, ← hsingletons,
    ← sum_getElem?]
  rfl

/-! ### A call -/

/-- What a call returns: the notes of all subchannels that pass the filter and those of the
subchannels of its cursor, and a cursor with every channel. -/
theorem Discovers.spec {existing : Option NotesCursor} {notes : List (Felt × List Note)}
    {cursor' : NotesCursor}
    (h : Discovers sn recoverPointFromX backend address viewingKey tokens existing notes cursor')
    (hread : Readable sn recoverPointFromX backend address viewingKey channels contents)
    (hfollows : Follows contents channels (existing.getD [])) :
    allNotes notes = (channels.map fun channel =>
        notesIn sn backend viewingKey tokens contents channel.senderAddr channel.channelKey).sum +
          resumed sn backend viewingKey contents (existing.getD []) ∧
      Follows contents channels cursor' ∧ cursor'.length = channels.length := by
  have hsound : Sound contents channels { cursor := existing.getD [] } :=
    ⟨hfollows.toKnown, List.nodup_nil, rfl⟩
  have hvalid : ∀ task ∈ (start (existing.getD []) : Multiset Task),
      Valid sn backend contents channels { cursor := existing.getD [] } task :=
    fun task htask => valid_start hfollows task (Multiset.mem_coe.mp htask)
  have hsenders : ((keys (existing.getD []) : Multiset Felt) +
      ((start (existing.getD []) : Multiset Task).map (Task.added channels)).sum) =
        (channels.map IncomingChannel.senderAddr : List Felt) := by
    rw [Multiset.map_coe, Multiset.sum_coe, sum_added_start, Multiset.coe_eq_coe.mpr hfollows.first,
      Multiset.coe_add, ← List.map_append, List.take_append_drop]
  -- What is found or still to be found stays the same in total, and so do the channels.
  obtain ⟨hsound', -, hfound⟩ := (conserves_found tokens hread _).run h hsound hvalid rfl
  obtain ⟨-, -, hadded⟩ := (conserves_added tokens hread
    (Multiset.coe_nodup.mpr hread.senders)).run h hsound hvalid hsenders
  rw [Multiset.map_zero, Multiset.sum_zero, add_zero] at hfound hadded
  have hperm : (keys cursor').Perm (channels.map IncomingChannel.senderAddr) :=
    Multiset.coe_eq_coe.mp hadded
  have hlength : cursor'.length = channels.length := by
    have := hperm.length_eq
    rwa [keys, List.length_map, List.length_map] at this
  refine ⟨?_, ⟨hsound'.known, ?_⟩, hlength⟩
  · rw [hfound, Multiset.map_coe, Multiset.sum_coe, sum_found_start hfollows hread.senders]
    exact zero_add _
  · rw [hlength, List.take_length]
    exact hperm

/-- A call returns. -/
theorem exists_discovers (tokens : List Felt) {existing : Option NotesCursor}
    (hread : Readable sn recoverPointFromX backend address viewingKey channels contents)
    (hfollows : Follows contents channels (existing.getD [])) :
    ∃ notes cursor',
      Discovers sn recoverPointFromX backend address viewingKey tokens existing notes cursor' := by
  have hsound : Sound contents channels { cursor := existing.getD [] } :=
    ⟨hfollows.toKnown, List.nodup_nil, rfl⟩
  have hvalid : ∀ task ∈ (start (existing.getD []) : Multiset Task),
      Valid sn backend contents channels { cursor := existing.getD [] } task :=
    fun task htask => valid_start hfollows task (Multiset.mem_coe.mp htask)
  obtain ⟨st, hrun⟩ := Tracker.exists_settled (conserves_found tokens hread _)
    (shrinks tokens hread) hsound hvalid rfl
  obtain ⟨hsound', -⟩ := (conserves_found tokens hread _).run hrun hsound hvalid rfl
  refine ⟨st.notes, st.cursor, ?_⟩
  have hst : ({ notes := st.notes, cursor := st.cursor, errors := [] } : State) = st := by
    rw [← hsound'.noErrors]
  unfold Discovers
  rw [hst]
  exact hrun

end PrivacyPool.Sdk.NotesDiscovery
