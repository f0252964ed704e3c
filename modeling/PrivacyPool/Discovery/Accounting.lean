import Mathlib.Algebra.Order.Group.Multiset
import PrivacyPool.Discovery.Incoming

/-!
# Every note is pending or returned

The notes that a cursor has yet to return are a weight: those above the scan of each
subchannel, and all notes of the subchannels that are not found yet. A page moves notes
from this multiset to its result. Entries that are complete have no pending note, so a
client may drop them.

## Main definitions

* `pendingNotes` — the notes that a subchannel cursor has yet to return
* `DiscoveryCursor.Pruned` — a cursor without some of its complete entries
* `IncomingPages` — pages of the incoming sync, each from the cursor of the one before

## Main results

* `IncomingPaged.notes_eq` — a page returns what is no longer pending after it
* `IncomingPages.accounted` — so do any number of pages
-/

namespace PrivacyPool.Discovery

open HashMap

/-- Notes are told their sender and token by the orchestrator. -/
def DecryptedNote.tagged (senderAddr token : Felt) (note : DecryptedNote) : DecryptedNote :=
  { note with senderAddr, token }

/-- The notes that a subchannel cursor has yet to return. -/
def pendingNotes (sn : Starknet) (backend : Backend) (contents : Contents)
    (viewingKey senderAddr channelKey token : Felt) (cursor : SubchannelCursor) :
    Multiset DecryptedNote :=
  if cursor.noteDiscoveryComplete then 0
  else ((unspentNotes sn backend viewingKey channelKey token cursor.startIndex
    (cursor.totalNNotes.getD (contents.count channelKey token) - cursor.startIndex)).map
      (DecryptedNote.tagged senderAddr token) : List DecryptedNote)

/-- Results and what is left add up when they do so for each task. -/
theorem sum_add_sum_of_forall₂ {M τ ρ : Type} [AddCommMonoid M] {R : τ → ρ → Prop}
    {tasks : List τ} {results : List ρ} {out left : ρ → M} {weight : τ → M}
    (h : List.Forall₂ R tasks results)
    (hstep : ∀ task ∈ tasks, ∀ result, R task result → out result + left result = weight task) :
    (results.map out).sum + (results.map left).sum = (tasks.map weight).sum := by
  induction h with
  | nil => exact add_zero 0
  | @cons task result tasks results hR _ ih =>
    rw [List.map_cons, List.map_cons, List.map_cons, List.sum_cons, List.sum_cons, List.sum_cons,
      ← hstep task List.mem_cons_self result hR,
      ← ih fun task' htask' => hstep task' (List.mem_cons_of_mem _ htask')]
    ac_rfl

theorem coe_flatMap {α β : Type} (l : List α) (f : α → List β) :
    ((l.flatMap f : List β) : Multiset β) = (l.map fun a => (f a : Multiset β)).sum := by
  induction l with
  | nil => rfl
  | cons a l ih =>
    rw [List.flatMap_cons, ← Multiset.coe_add, ih, List.map_cons, List.sum_cons]

section Processed

variable {β ρ : Type} {complete : β → Bool} {m : List (Felt × β)} {results : List ρ}
  {key : ρ → Felt} {value : ρ → β} {R : Felt × β → ρ → Prop}

/-- An entry after a page was left alone or is the result of an entry before it. -/
theorem mem_processed (h : List.Forall₂ R (pending complete m) results) {entry : Felt × β}
    (hentry : entry ∈ kept complete m ++ results.map fun result => (key result, value result)) :
    entry ∈ m ∧ complete entry.2 = true ∨
      ∃ old ∈ m, complete old.2 = false ∧ ∃ result, R old result ∧
        entry = (key result, value result) := by
  rcases List.mem_append.mp hentry with hkept | hresult
  · exact .inl (mem_kept.mp hkept)
  · obtain ⟨result, hmem, rfl⟩ := List.mem_map.mp hresult
    obtain ⟨old, hmem', hR⟩ := exists_left_of_forall₂ h hmem
    obtain ⟨hold, hopen⟩ := mem_pending.mp hmem'
    exact .inr ⟨old, hold, hopen, result, hR, rfl⟩

/-- When all entries are complete, they all stay so. -/
theorem all_processed (h : List.Forall₂ R (pending complete m) results)
    (hall : m.all (fun entry => complete entry.2) = true) :
    (kept complete m ++ results.map fun result => (key result, value result)).all
      (fun entry => complete entry.2) = true := by
  refine List.all_eq_true.mpr fun entry hentry => ?_
  rcases mem_processed h hentry with ⟨-, hcomplete⟩ | ⟨old, hold, hopen, -⟩
  · exact hcomplete
  · have hcomplete := List.all_eq_true.mp hall old hold
    rw [hopen] at hcomplete
    cases hcomplete

/-- Processing the incomplete entries of a map keeps the total of results and weight. -/
theorem sum_processed {M : Type} [AddCommMonoid M] {out : ρ → M} {w : Felt → β → M}
    (h : List.Forall₂ R (pending complete m) results)
    (hstep : ∀ entry ∈ pending complete m, ∀ result, R entry result →
      out result + w (key result) (value result) = w entry.1 entry.2) :
    (results.map out).sum + ((kept complete m ++ results.map fun result =>
        (key result, value result)).map fun entry => w entry.1 entry.2).sum =
      (m.map fun entry => w entry.1 entry.2).sum := by
  have hsplit := ((extractIf_perm m fun value => !complete value).map
    fun entry => w entry.1 entry.2).sum_eq
  rw [List.map_append, List.sum_append] at hsplit
  rw [List.map_append, List.sum_append, List.map_map, ← hsplit,
    ← sum_add_sum_of_forall₂ h hstep]
  exact add_left_comm _ _ _

end Processed

variable {full : Prop} {sn : Starknet} {backend : Backend} {contents : Contents}
  {channels : List IncomingChannel} {viewingKey : Felt} {cursorLimits : CursorLimits}

/-! ### A page -/

theorem NotesPage.startIndex_eq {count maxNoteLogIndex number : ℕ}
    {cursor cursor' : SubchannelCursor} (h : NotesPage count maxNoteLogIndex cursor cursor' number) :
    cursor'.startIndex = cursor.startIndex + number := by
  cases h with
  | short h => rfl
  | scanned htotal hnumber => exact nextIndex_lastIndexAfter cursor.lastNoteIndex number

/-- What a subchannel returns is no longer pending. -/
theorem SubchannelPaged.notes_eq {maxNoteLogIndex : ℕ} {senderAddr channelKey : Felt}
    {entry : Felt × SubchannelCursor} {result : ProcessSubchannelResult}
    (h : SubchannelPaged full sn backend contents viewingKey maxNoteLogIndex channelKey entry
      result) (hopen : entry.2.noteDiscoveryComplete = false)
    (hstart : entry.2.totalNNotes = none →
      entry.2.startIndex ≤ contents.count channelKey entry.1) :
    ((result.notes.map (DecryptedNote.tagged senderAddr entry.1) : List DecryptedNote) :
        Multiset DecryptedNote) +
      pendingNotes sn backend contents viewingKey senderAddr channelKey entry.1 result.cursor =
    pendingNotes sn backend contents viewingKey senderAddr channelKey entry.1 entry.2 := by
  obtain ⟨number, hpage, hnotes⟩ := h.advanced
  have hnext := hpage.startIndex_eq
  rw [hnotes]
  generalize result.cursor = cursor' at hpage hnext
  cases hpage with
  | short h => simp [unspentNotes]
  | @scanned total number htotal hnumber =>
    -- The rest of the subchannel is what the page advances over and what is left.
    have hrest : entry.2.totalNNotes.getD (contents.count channelKey entry.1) -
        entry.2.startIndex = number + (total - entry.2.startIndex - number) := by
      rcases htotal with hsome | ⟨hnone, -, htotal⟩
      · rw [hsome, Option.getD_some]
        omega
      · have := hstart hnone
        rw [hnone, Option.getD_none]
        split_ifs at htotal <;> omega
    unfold pendingNotes
    rw [hopen, hrest, unspentNotes_add, List.map_append, ← Multiset.coe_add]
    simp only [Bool.false_eq_true, if_false, decide_eq_true_eq, hnext, Option.getD_some]
    congr 1
    split_ifs with hover
    · rw [hover, Nat.sub_self]
      rfl
    · rw [Nat.sub_sub]

section Channel

variable {maxNoteLogIndex : ℕ} {senderAddr : Felt} {cursor : ChannelCursor}
  {results : List ProcessSubchannelResult} {entry : Felt × ChannelCursor}
  {result : ProcessChannelResult}

theorem SubchannelsProcessed.follows (hcursor : cursor.Follows contents)
    (h : SubchannelsProcessed full sn backend contents viewingKey maxNoteLogIndex senderAddr cursor
      results result) : result.cursor.Follows contents := by
  have hkeys := map_eq_keys h.paged fun _ _ h => h.token_eq
  rw [h.cursor_eq]
  refine ⟨hcursor.start_le, ?_, ?_, ?_⟩
  · exact (keys_extractIf_perm _ hkeys).nodup_iff.mpr hcursor.nodup
  · intro sub hsub
    rcases mem_processed h.paged hsub with hkept | ⟨old, hold, -, processed, hR, rfl⟩
    · exact hcursor.known sub hkept.1
    · rw [hR.token_eq]
      exact hcursor.known old hold
  · intro sub hsub hnone
    rcases mem_processed h.paged hsub with hkept | ⟨old, hold, -, processed, hR, rfl⟩
    · exact hcursor.resumable sub hkept.1 hnone
    · -- Without a total, the page has not changed the cursor.
      obtain ⟨number, hnotes, -⟩ := hR.advanced
      have hstart := hcursor.resumable old hold
      dsimp only at hnone ⊢
      rw [hR.token_eq]
      generalize processed.cursor = cursor' at hnotes hnone ⊢
      cases hnotes with
      | short h => exact hstart h
      | scanned => cases hnone

/-- What a channel returns is no longer pending. -/
theorem SubchannelsProcessed.pending_eq (hcursor : cursor.Follows contents)
    (h : SubchannelsProcessed full sn backend contents viewingKey maxNoteLogIndex senderAddr cursor
      results result) :
    (result.notes : Multiset DecryptedNote) + result.cursor.weight contents
        (pendingNotes sn backend contents viewingKey senderAddr cursor.channelKey) =
      cursor.weight contents
        (pendingNotes sn backend contents viewingKey senderAddr cursor.channelKey) := by
  rw [h.notes_eq, h.cursor_eq, coe_flatMap]
  unfold ChannelCursor.weight
  rw [← add_assoc]
  congr 1
  refine sum_processed h.paged fun sub hsub processed hR => ?_
  obtain ⟨hmem, hopen⟩ := mem_pending.mp hsub
  rw [hR.token_eq]
  exact hR.notes_eq hopen (hcursor.resumable sub hmem)

theorem ChannelPaged.channelKey_eq
    (h : ChannelPaged full sn backend contents viewingKey cursorLimits entry result) :
    result.cursor.channelKey = entry.2.channelKey := by
  obtain ⟨scanned, results, hpage, hprocessed⟩ := h.steps
  rw [hprocessed.cursor_eq]
  exact hpage.channelKey_eq

theorem ChannelPaged.follows (hnodup : (contents.tokens entry.2.channelKey).Nodup)
    (hentry : entry.2.Follows contents)
    (h : ChannelPaged full sn backend contents viewingKey cursorLimits entry result) :
    result.cursor.Follows contents := by
  obtain ⟨scanned, results, hpage, hprocessed⟩ := h.steps
  exact hprocessed.follows (hpage.follows hnodup hentry)

/-- What a channel returns is no longer pending. -/
theorem ChannelPaged.notes_eq (hnodup : (contents.tokens entry.2.channelKey).Nodup)
    (hentry : entry.2.Follows contents)
    (h : ChannelPaged full sn backend contents viewingKey cursorLimits entry result) :
    (result.notes : Multiset DecryptedNote) + result.cursor.weight contents
        (pendingNotes sn backend contents viewingKey entry.1 entry.2.channelKey) =
      entry.2.weight contents
        (pendingNotes sn backend contents viewingKey entry.1 entry.2.channelKey) := by
  obtain ⟨scanned, results, hpage, hprocessed⟩ := h.steps
  rw [← hpage.weight_eq hnodup hentry, ← hpage.channelKey_eq]
  exact hprocessed.pending_eq (hpage.follows hnodup hentry)

end Channel

section Page

variable {cursor : DiscoveryCursor} {result : SyncIncomingStateResult}

theorem IncomingPaged.follows (hnodup : (channels.map IncomingChannel.senderAddr).Nodup)
    (htokens : ∀ channel ∈ channels, (contents.tokens channel.channelKey).Nodup)
    (hcursor : cursor.Follows contents channels)
    (h : IncomingPaged full sn backend contents channels viewingKey cursorLimits cursor result) :
    result.cursor.Follows contents channels := by
  obtain ⟨scanned, results, hpage, hresults, -, hresult⟩ := h.steps
  have hscanned := follows_of_scanned hnodup hcursor hpage
  have hkeys := map_eq_keys hresults fun _ _ h => h.sender_eq
  rw [hresult]
  refine ⟨hscanned.total_le, hscanned.start_le, ?_, ?_, ?_⟩
  · exact (keys_extractIf_perm _ hkeys).nodup_iff.mpr hscanned.nodup
  · intro entry hentry
    rcases mem_processed hresults hentry with hkept | ⟨old, hold, -, processed, hR, rfl⟩
    · exact hscanned.known entry hkept.1
    · dsimp only
      rw [hR.sender_eq, hR.channelKey_eq]
      exact hscanned.known old hold
  · intro entry hentry
    rcases mem_processed hresults hentry with hkept | ⟨old, hold, -, processed, hR, rfl⟩
    · exact hscanned.entries entry hkept.1
    · have hmem := List.mem_of_mem_take (hscanned.known old hold)
      exact hR.follows (htokens _ hmem) (hscanned.entries old hold)

/-- What a page returns is no longer pending. -/
theorem IncomingPaged.notes_eq (hnodup : (channels.map IncomingChannel.senderAddr).Nodup)
    (htokens : ∀ channel ∈ channels, (contents.tokens channel.channelKey).Nodup)
    (hcursor : cursor.Follows contents channels)
    (h : IncomingPaged full sn backend contents channels viewingKey cursorLimits cursor result) :
    (result.notes : Multiset DecryptedNote) + result.cursor.weight contents channels
        (pendingNotes sn backend contents viewingKey) =
      cursor.weight contents channels (pendingNotes sn backend contents viewingKey) := by
  obtain ⟨scanned, results, hpage, hresults, hnotes, hresult⟩ := h.steps
  have hscanned := follows_of_scanned hnodup hcursor hpage
  have hweight : scanned.weight contents channels (pendingNotes sn backend contents viewingKey) =
      cursor.weight contents channels (pendingNotes sn backend contents viewingKey) := by
    rcases hpage with ⟨-, hpage⟩ | ⟨-, rfl, -⟩
    · exact hpage.weight_eq hnodup hcursor _
    · rfl
  rw [← hweight, hnotes, hresult, coe_flatMap]
  unfold DiscoveryCursor.weight
  rw [← add_assoc]
  congr 1
  refine sum_processed (w := fun senderAddr ch => ch.weight contents
    (pendingNotes sn backend contents viewingKey senderAddr ch.channelKey)) hresults
      fun entry hentry processed hR => ?_
  have hmem := (mem_pending.mp hentry).1
  rw [hR.sender_eq, hR.channelKey_eq]
  exact hR.notes_eq (htokens _ (List.mem_of_mem_take (hscanned.known entry hmem)))
    (hscanned.entries entry hmem)

/-- What a page finds is the beginning of what was left to find. -/
theorem IncomingPaged.unfound_eq (hcursor : cursor.Follows contents channels)
    (h : IncomingPaged full sn backend contents channels viewingKey cursorLimits cursor result) :
    cursor.unfound channels = result.channels ++ result.cursor.unfound channels := by
  obtain ⟨scanned, results, hpage, -, -, hresult⟩ := h.steps
  have hsame : result.cursor.unfound channels = scanned.unfound channels := by
    rw [hresult]
    rfl
  rw [hsame]
  rcases hpage with ⟨-, hpage⟩ | ⟨-, rfl, hnone⟩
  · exact hpage.unfound_eq hcursor
  · rw [hnone, List.nil_append]

end Page

/-! ### Pruning -/

/-- A channel cursor without some of its complete subchannels, in any order. -/
structure ChannelCursor.Pruned (cursor cursor' : ChannelCursor) : Prop where
  channelKey_eq : cursor'.channelKey = cursor.channelKey
  complete_eq : cursor'.subchannelDiscoveryComplete = cursor.subchannelDiscoveryComplete
  last_eq : cursor'.lastSubchannelIndex = cursor.lastSubchannelIndex
  dropped : ∃ dropped : List (Felt × SubchannelCursor),
    cursor.subchannels.Perm (cursor'.subchannels ++ dropped) ∧
      ∀ entry ∈ dropped, entry.2.noteDiscoveryComplete = true

/-- A cursor without some of its complete channels and subchannels, in any order. -/
structure DiscoveryCursor.Pruned (cursor cursor' : DiscoveryCursor) : Prop where
  complete_eq : cursor'.channelDiscoveryComplete = cursor.channelDiscoveryComplete
  total_eq : cursor'.totalNChannels = cursor.totalNChannels
  last_eq : cursor'.lastChannelIndex = cursor.lastChannelIndex
  dropped : ∃ stayed dropped : List (Felt × ChannelCursor),
    cursor.channels.Perm (stayed ++ dropped) ∧
      (∀ entry ∈ dropped, entry.2.isComplete = true) ∧
      List.Forall₂ (fun entry entry' => entry'.1 = entry.1 ∧ entry.2.Pruned entry'.2) stayed
        cursor'.channels

theorem ChannelCursor.Pruned.refl (cursor : ChannelCursor) : cursor.Pruned cursor where
  channelKey_eq := rfl
  complete_eq := rfl
  last_eq := rfl
  dropped := ⟨[], by simp, by simp⟩

theorem DiscoveryCursor.Pruned.refl (cursor : DiscoveryCursor) : cursor.Pruned cursor where
  complete_eq := rfl
  total_eq := rfl
  last_eq := rfl
  dropped := ⟨cursor.channels, [], by simp, by simp,
    List.forall₂_same.mpr fun entry _ => ⟨rfl, .refl entry.2⟩⟩

section Pruned

variable {M : Type} [AddCommMonoid M]

theorem ChannelCursor.Pruned.mem_subchannels {cursor cursor' : ChannelCursor}
    (h : cursor.Pruned cursor') {sub : Felt × SubchannelCursor} (hsub : sub ∈ cursor'.subchannels) :
    sub ∈ cursor.subchannels := by
  obtain ⟨dropped, hperm, -⟩ := h.dropped
  exact hperm.mem_iff.mpr (List.mem_append_left _ hsub)

theorem ChannelCursor.Pruned.follows {cursor cursor' : ChannelCursor} (h : cursor.Pruned cursor')
    (hcursor : cursor.Follows contents) : cursor'.Follows contents := by
  obtain ⟨dropped, hperm, -⟩ := h.dropped
  refine ⟨?_, ?_, ?_, ?_⟩
  · rw [h.last_eq, h.channelKey_eq]
    exact hcursor.start_le
  · have hkeys := (hperm.map Prod.fst).nodup_iff.mp hcursor.nodup
    rw [List.map_append] at hkeys
    exact (List.nodup_append.mp hkeys).1
  · intro entry hentry
    rw [h.last_eq, h.channelKey_eq]
    exact hcursor.known entry (h.mem_subchannels hentry)
  · intro entry hentry
    rw [h.channelKey_eq]
    exact hcursor.resumable entry (h.mem_subchannels hentry)

/-- Complete entries weigh nothing. -/
theorem ChannelCursor.Pruned.weight_eq {cursor cursor' : ChannelCursor} (h : cursor.Pruned cursor')
    {w : Felt → SubchannelCursor → M}
    (hw : ∀ token sc, sc.noteDiscoveryComplete = true → w token sc = 0) :
    cursor'.weight contents w = cursor.weight contents w := by
  obtain ⟨dropped, hperm, hdropped⟩ := h.dropped
  have hzero : (dropped.map fun entry => w entry.1 entry.2).sum = 0 := by
    refine List.sum_eq_zero fun x hx => ?_
    obtain ⟨entry, hentry, rfl⟩ := List.mem_map.mp hx
    exact hw _ _ (hdropped entry hentry)
  unfold ChannelCursor.weight
  rw [h.channelKey_eq, h.complete_eq, h.last_eq,
    (hperm.map fun entry => w entry.1 entry.2).sum_eq, List.map_append, List.sum_append, hzero,
    add_zero]

theorem ChannelCursor.weight_of_isComplete {cursor : ChannelCursor}
    {w : Felt → SubchannelCursor → M}
    (hw : ∀ token sc, sc.noteDiscoveryComplete = true → w token sc = 0)
    (h : cursor.isComplete = true) : cursor.weight contents w = 0 := by
  obtain ⟨hcomplete, hall⟩ := Bool.and_eq_true_iff.mp h
  unfold ChannelCursor.weight
  rw [if_pos hcomplete, add_zero]
  refine List.sum_eq_zero fun x hx => ?_
  obtain ⟨entry, hentry, rfl⟩ := List.mem_map.mp hx
  exact hw _ _ (List.all_eq_true.mp hall entry hentry)

/-- Each entry that is left is the pruning of an entry before. -/
theorem DiscoveryCursor.Pruned.mem_channels {cursor cursor' : DiscoveryCursor}
    (h : cursor.Pruned cursor') : ∀ entry ∈ cursor'.channels, ∃ old ∈ cursor.channels,
      entry.1 = old.1 ∧ old.2.Pruned entry.2 := by
  obtain ⟨stayed, dropped, hperm, -, hstayed⟩ := h.dropped
  intro entry hentry
  obtain ⟨old, hold, hpruned⟩ := exists_left_of_forall₂ hstayed hentry
  exact ⟨old, hperm.mem_iff.mpr (List.mem_append_left _ hold), hpruned⟩

theorem DiscoveryCursor.Pruned.nodup_keys {cursor cursor' : DiscoveryCursor}
    (h : cursor.Pruned cursor') (hnodup : (keys cursor.channels).Nodup) :
    (keys cursor'.channels).Nodup := by
  obtain ⟨stayed, dropped, hperm, -, hstayed⟩ := h.dropped
  have hkeys := (hperm.map Prod.fst).nodup_iff.mp hnodup
  rw [List.map_append] at hkeys
  rw [← show cursor'.channels.map Prod.fst = keys cursor'.channels from rfl,
    map_eq_keys hstayed fun _ _ h => h.1]
  exact (List.nodup_append.mp hkeys).1

theorem DiscoveryCursor.Pruned.follows {cursor cursor' : DiscoveryCursor}
    (h : cursor.Pruned cursor') (hcursor : cursor.Follows contents channels) :
    cursor'.Follows contents channels := by
  have hmem := h.mem_channels
  refine ⟨?_, ?_, h.nodup_keys hcursor.nodup, ?_, ?_⟩
  · rw [h.total_eq]
    exact hcursor.total_le
  · rw [h.total_eq, h.last_eq]
    exact hcursor.start_le
  · intro entry hentry
    obtain ⟨old, hold, hsame, hpruned⟩ := hmem entry hentry
    rw [h.last_eq, hsame, hpruned.channelKey_eq]
    exact hcursor.known old hold
  · intro entry hentry
    obtain ⟨old, hold, -, hpruned⟩ := hmem entry hentry
    exact hpruned.follows (hcursor.entries old hold)

theorem DiscoveryCursor.Pruned.unfound_eq {cursor cursor' : DiscoveryCursor}
    (h : cursor.Pruned cursor') : cursor'.unfound channels = cursor.unfound channels := by
  unfold DiscoveryCursor.unfound
  rw [h.complete_eq, h.total_eq, h.last_eq]

theorem DiscoveryCursor.Pruned.weight_eq {cursor cursor' : DiscoveryCursor}
    (h : cursor.Pruned cursor') {w : Felt → Felt → Felt → SubchannelCursor → M}
    (hw : ∀ addr key token sc, sc.noteDiscoveryComplete = true → w addr key token sc = 0) :
    cursor'.weight contents channels w = cursor.weight contents channels w := by
  obtain ⟨stayed, dropped, hperm, hdropped, hstayed⟩ := h.dropped
  have hzero : (dropped.map fun entry =>
      entry.2.weight contents (w entry.1 entry.2.channelKey)).sum = 0 := by
    refine List.sum_eq_zero fun x hx => ?_
    obtain ⟨entry, hentry, rfl⟩ := List.mem_map.mp hx
    exact ChannelCursor.weight_of_isComplete (hw _ _) (hdropped entry hentry)
  have hsame : (cursor'.channels.map fun entry =>
      entry.2.weight contents (w entry.1 entry.2.channelKey)) =
        stayed.map fun entry => entry.2.weight contents (w entry.1 entry.2.channelKey) := by
    refine map_eq_map_of_forall₂ hstayed fun entry entry' ⟨haddr, hpruned⟩ => ?_
    rw [haddr, hpruned.channelKey_eq]
    exact hpruned.weight_eq (hw _ _)
  unfold DiscoveryCursor.weight
  rw [hsame, h.unfound_eq, (hperm.map fun entry =>
    entry.2.weight contents (w entry.1 entry.2.channelKey)).sum_eq, List.map_append,
    List.sum_append, hzero, add_zero]

end Pruned

/-! ### Pages -/

/-- A note of a page was pending in a channel of the cursor, or its channel is found. -/
theorem IncomingPaged.sender_mem {cursor : DiscoveryCursor} {result : SyncIncomingStateResult}
    (hnodup : (channels.map IncomingChannel.senderAddr).Nodup)
    (htokens : ∀ channel ∈ channels, (contents.tokens channel.channelKey).Nodup)
    (hcursor : cursor.Follows contents channels)
    (h : IncomingPaged full sn backend contents channels viewingKey cursorLimits cursor result) :
    ∀ note ∈ result.notes, (∃ entry ∈ cursor.channels, entry.1 = note.senderAddr ∧
        note ∈ entry.2.weight contents
          (pendingNotes sn backend contents viewingKey entry.1 entry.2.channelKey)) ∨
      ∃ channel ∈ result.channels, channel.senderAddr = note.senderAddr := by
  obtain ⟨scanned, results, hpage, hprocessed⟩ := h.steps
  have hscanned := follows_of_scanned hnodup hcursor hpage
  intro note hnote
  rw [hprocessed.notes_eq] at hnote
  obtain ⟨processed, hmem, hnote⟩ := List.mem_flatMap.mp hnote
  obtain ⟨entry, hentry, hR⟩ := exists_left_of_forall₂ hprocessed.paged hmem
  have hentry' := (mem_pending.mp hentry).1
  -- The orchestrator tells a note its sender.
  have hsender : note.senderAddr = entry.1 := by
    obtain ⟨_, results', -, hsubs⟩ := hR.steps
    rw [hsubs.notes_eq] at hnote
    obtain ⟨sub, -, hnote⟩ := List.mem_flatMap.mp hnote
    obtain ⟨_, -, rfl⟩ := List.mem_map.mp hnote
    rfl
  have hpending : note ∈ entry.2.weight contents
      (pendingNotes sn backend contents viewingKey entry.1 entry.2.channelKey) := by
    rw [← hR.notes_eq (htokens _ (List.mem_of_mem_take (hscanned.known entry hentry')))
      (hscanned.entries entry hentry')]
    exact Multiset.mem_add.mpr (.inl (Multiset.mem_coe.mpr hnote))
  rcases hpage with ⟨-, hpage⟩ | ⟨-, rfl, -⟩
  · generalize hfound : result.channels = found at hpage
    cases hpage with
    | closed | blocked | uncounted => exact .inl ⟨entry, hentry', hsender.symm, hpending⟩
    | advanced =>
      rcases List.mem_append.mp hentry' with hold | hnew
      · exact .inl ⟨entry, hold, hsender.symm, hpending⟩
      · obtain ⟨channel, hchannel, rfl⟩ := List.mem_map.mp hnew
        exact .inr ⟨channel, List.mem_of_mem_filter hchannel, hsender.symm⟩
  · exact .inl ⟨entry, hentry', hsender.symm, hpending⟩

/-- A request on a complete cursor leaves it complete. -/
theorem IncomingPaged.isComplete {cursor : DiscoveryCursor} {result : SyncIncomingStateResult}
    (hcomplete : cursor.isComplete = true)
    (h : IncomingPaged full sn backend contents channels viewingKey cursorLimits cursor result) :
    result.cursor.isComplete = true := by
  obtain ⟨scanned, results, hpage, hprocessed⟩ := h.steps
  obtain ⟨hover, hall⟩ := Bool.and_eq_true_iff.mp hcomplete
  have hsame : scanned = cursor := by
    rcases hpage with ⟨-, hpage⟩ | ⟨-, hsame, -⟩
    · generalize result.channels = found at hpage
      cases hpage with
      | closed => rfl
      | blocked | uncounted => rfl
      | advanced hopen =>
        rw [hover] at hopen
        cases hopen
    · exact hsame
  rw [hprocessed.cursor_eq, hsame]
  exact Bool.and_eq_true_iff.mpr ⟨hover, all_processed (hsame ▸ hprocessed.paged) hall⟩

/-- Pages of the incoming sync: each continues from the cursor of the one before, which
the client may have pruned, with limits, a budget and a schedule of its own. -/
inductive IncomingPages (sn : Starknet) (newFromX : Felt → Option sn.EcPoint) (backend : Backend)
    (recipient : ContractAddress) (viewingKey : Felt) (start : DiscoveryCursor) :
    List SyncIncomingStateResult → DiscoveryCursor → Prop
  | none : IncomingPages sn newFromX backend recipient viewingKey start [] start
  | page {results : List SyncIncomingStateResult} {cursor pruned : DiscoveryCursor}
      {cursorLimits : CursorLimits} {schedule : Schedule} {budget : ℕ}
      {result : SyncIncomingStateResult}
      (before : IncomingPages sn newFromX backend recipient viewingKey start results cursor)
      (hpruned : cursor.Pruned pruned)
      (hsync : (syncIncomingState sn newFromX backend recipient viewingKey pruned cursorLimits
        schedule).outcome budget = .ok result) :
    IncomingPages sn newFromX backend recipient viewingKey start (results ++ [result]) result.cursor

theorem pendingNotes_of_complete {senderAddr channelKey token : Felt} {sc : SubchannelCursor}
    (h : sc.noteDiscoveryComplete = true) :
    pendingNotes sn backend contents viewingKey senderAddr channelKey token sc = 0 := if_pos h

/-- A successful request is a page. -/
theorem incomingPaged_of_ok {newFromX : Felt → Option sn.EcPoint} {recipient : ContractAddress}
    {cursor : DiscoveryCursor} {schedule : Schedule} {budget : ℕ}
    {result : SyncIncomingStateResult}
    (hheld : IncomingHeld sn newFromX backend recipient viewingKey channels contents)
    (hcursor : cursor.Follows contents channels)
    (hsync : (syncIncomingState sn newFromX backend recipient viewingKey cursor cursorLimits
      schedule).outcome budget = .ok result) :
    IncomingPaged False sn backend contents channels viewingKey cursorLimits cursor result :=
  (syncIncomingState_within hheld hcursor).of_ok hsync

/-- Along any pages, what was pending at the start is returned or still pending, and the
channels that were left to find are returned or still left. -/
theorem IncomingPages.accounted {newFromX : Felt → Option sn.EcPoint} {recipient : ContractAddress}
    (hheld : IncomingHeld sn newFromX backend recipient viewingKey channels contents)
    {start cursor : DiscoveryCursor} {results : List SyncIncomingStateResult}
    (hstart : start.Follows contents channels)
    (pages : IncomingPages sn newFromX backend recipient viewingKey start results cursor) :
    cursor.Follows contents channels ∧
      ((results.flatMap (·.notes) : List DecryptedNote) : Multiset DecryptedNote) +
          cursor.weight contents channels (pendingNotes sn backend contents viewingKey) =
        start.weight contents channels (pendingNotes sn backend contents viewingKey) ∧
      results.flatMap (·.channels) ++ cursor.unfound channels = start.unfound channels := by
  have htokens : ∀ channel ∈ channels, (contents.tokens channel.channelKey).Nodup :=
    fun channel hchannel => (hheld.held channel hchannel).nodup
  induction pages with
  | none => exact ⟨hstart, zero_add _, List.nil_append _⟩
  | @page results cursor pruned cursorLimits schedule budget result before hpruned hsync ih =>
    obtain ⟨hfollows, hnotes, hchannels⟩ := ih
    have hfollows' := hpruned.follows hfollows
    have hpage := incomingPaged_of_ok hheld hfollows' hsync
    refine ⟨hpage.follows hheld.listed.nodup htokens hfollows', ?_, ?_⟩
    · rw [List.flatMap_append, List.flatMap_singleton, ← Multiset.coe_add, add_assoc,
        hpage.notes_eq hheld.listed.nodup htokens hfollows',
        hpruned.weight_eq fun _ _ _ _ => pendingNotes_of_complete]
      exact hnotes
    · rw [List.flatMap_append, List.flatMap_singleton, List.append_assoc,
        ← hpage.unfound_eq hfollows', hpruned.unfound_eq]
      exact hchannels

end PrivacyPool.Discovery
