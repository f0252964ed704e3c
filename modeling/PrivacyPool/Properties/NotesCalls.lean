import PrivacyPool.Properties.SyncLoops
import PrivacyPool.Sdk.NotesCursor

/-!
# What a call of `discoverNotes` returns

A call returns the notes that are left at its start and pass the filter, and a cursor that
has seen the pool. This holds from any cursor that follows the pool and whose scans that are
over stand at their end: a fresh one, or one that an earlier call has returned.

## Main definitions

* `NotesState.Accounted` — what the loop of a call keeps

## Main results

* `discoverNotes_returns`, `discoverNotes_fresh` — what a call returns, and what a fresh one does
* `discoverNotes_resumed_iff` — when a call from the cursor of an earlier one returns
-/

namespace PrivacyPool.Sdk

open Discovery HashMap

variable {sn : Starknet} {newFromX : Felt → Option sn.EcPoint} {backend : Backend}
  {limits : ValidationLimits} {address : ContractAddress} {viewingKey : Felt} {contents : Contents}
  {channels : List IncomingChannel} {tokenFilter : Option (List Felt)} {schedules : ℕ → Schedule}
  {round : ℕ} {start : DiscoveryCursor} {state next : NotesState} {ended : Bool}

/-- The notes of a list that pass a filter, by their tokens. -/
def keptNotes (channels : List IncomingChannel) (tokenFilter : Option (List Felt))
    (returned : List DecryptedNote) (token : Felt) : List Note :=
  (returned.filter fun n => inFilter tokenFilter n.token && decide (n.token = token)).map
    (noteOf channels)

theorem keptNotes_append (returned added : List DecryptedNote) (token : Felt) :
    keptNotes channels tokenFilter (returned ++ added) token =
      keptNotes channels tokenFilter returned token ++
        keptNotes channels tokenFilter added token := by
  unfold keptNotes
  rw [List.filter_append, List.map_append]

/-- Some notes have a note of the service among those of its token. -/
def HasNote (account : List StoredChannel) (notes : List (Felt × List Note)) (n : DecryptedNote) :
    Prop :=
  noteOf (channelsOf account) n ∈ notesAt notes n.token

theorem inFilter_dedup (tokens : Option (List Felt)) (token : Felt) :
    inFilter (tokens.map List.dedup) token = inFilter tokens token := by
  cases tokens with
  | none => rfl
  | some tokens =>
    unfold inFilter
    simp only [Option.map_some, Option.all_some, List.contains_eq_mem, List.mem_dedup]

/-- The cursor follows the pool, what the SDK knows of the channels is in the cursor, and the
notes are those that were left at the start and no longer are. -/
structure NotesState.Accounted (sn : Starknet) (backend : Backend) (contents : Contents)
    (channels : List IncomingChannel) (viewingKey : Felt) (tokenFilter : Option (List Felt))
    (start : DiscoveryCursor) (state : NotesState) : Prop where
  follows : state.apiCursor.Follows contents channels
  settles : state.apiCursor.Settles contents channels
  scanned : start.Scanned contents → state.apiCursor.Scanned contents
  nodup : (keys state.incomingChannels).Nodup
  subset : keys state.incomingChannels ⊆ keys state.apiCursor.channels
  known : ∀ entry ∈ state.incomingChannels, ⟨entry.2.channelKey, entry.1⟩ ∈ channels
  notes : ∃ returned : List DecryptedNote,
    (returned : Multiset DecryptedNote) + state.apiCursor.weight contents channels
        (pendingNotes sn backend contents viewingKey) =
      start.weight contents channels (pendingNotes sn backend contents viewingKey) ∧
    ∀ token, notesAt state.allNotes token = keptNotes channels tokenFilter returned token

theorem NotesState.accounted_start (hfollows : start.Follows contents channels)
    (hsettles : start.Settles contents channels) :
    NotesState.Accounted sn backend contents channels viewingKey tokenFilter start
      { apiCursor := start } where
  follows := hfollows
  settles := hsettles
  scanned := id
  nodup := List.nodup_nil
  subset := List.nil_subset _
  known _ h := nomatch h
  notes := ⟨[], zero_add _, fun _ => rfl⟩

/-- What a page finds is among the channels. -/
theorem found_subset {resp : SyncIncomingStateResult} {cursor : DiscoveryCursor} {full : Prop}
    {cursorLimits : CursorLimits} (hfollows : cursor.Follows contents channels)
    (h : IncomingPaged full sn backend contents channels viewingKey cursorLimits cursor resp) :
    resp.channels ⊆ channels := by
  have hbegins : resp.channels ⊆ cursor.unfound channels := by
    rw [h.unfound_eq hfollows]
    exact List.subset_append_left _ _
  intro channel hchannel
  have hchannel := hbegins hchannel
  unfold DiscoveryCursor.unfound at hchannel
  split_ifs at hchannel
  · cases hchannel
  · exact List.mem_of_mem_take (List.mem_of_mem_drop hchannel)

/-- A page keeps the account of the notes. -/
theorem NotesState.Accounted.page
    (hheld : IncomingHeld sn newFromX backend address viewingKey channels contents)
    (hstate : state.Accounted sn backend contents channels viewingKey tokenFilter start)
    (hok : discoverNotesPage sn newFromX backend limits address viewingKey tokenFilter schedules
      round state = .ok (next, ended)) :
    next.Accounted sn backend contents channels viewingKey tokenFilter start ∧
      next.incomingChannels = knownChannels state.incomingChannels next.apiCursor ∧
      ended = next.apiCursor.isComplete := by
  obtain ⟨resp, notesByToken, hsync, hnotes, rfl, hover⟩ := discoverNotesPage_eq_ok hok
  refine ⟨?_, rfl, hover⟩
  have hnodup := hheld.listed.nodup
  have htokens : ∀ channel ∈ channels, (contents.tokens channel.channelKey).Nodup :=
    fun channel hchannel => (hheld.held channel hchannel).nodup
  have hpaged := incomingPaged_of_ok hheld hstate.follows hsync
  have hfollows := hpaged.follows hnodup htokens hstate.follows
  have hsubset : keys state.incomingChannels ⊆ keys resp.cursor.channels :=
    fun sender hsender => hpaged.keys_subset (hstate.subset hsender)
  obtain ⟨returned, hreturned, hall⟩ := hstate.notes
  -- The keys are right, so the notes of the page are converted as they are.
  obtain ⟨hkeys, hpage⟩ := convertIncomingNotes_eq_ok
    (rightKeys_channelKeys hnodup (found_subset hstate.follows hpaged))
    (rightKeys_of_known hnodup hstate.known) hnotes
  refine ⟨hfollows, hpaged.settles hstate.settles,
    fun hscanned => hpaged.scanned (hstate.scanned hscanned),
    AddressMap.nodup_keys_foldl_set hstate.nodup, fun sender hsender => ?_,
    known_of_knownChannels hfollows hstate.nodup hsubset, returned ++ resp.notes, ?_,
    fun token => ?_⟩
  · exact (mem_keys_knownChannels.mp hsender).elim (fun hold => hsubset hold) id
  · rw [← Multiset.coe_add, add_assoc, hpaged.notes_eq hnodup htokens hstate.follows]
    exact hreturned
  · rw [notesAt_foldl_push hkeys, hall, hpage, keptNotes_append]
    rfl

/-- **A call.** It returns what is left at its start and passes the filter, and its cursor
has seen the pool. -/
theorem discoverNotes_returns
    (hheld : IncomingHeld sn newFromX backend address viewingKey channels contents)
    {cursor : Option NotesCursor} {tokens : Option (List Felt)} {notes : List (Felt × List Note)}
    {cursor' : NotesCursor}
    (h : DiscoversNotes sn newFromX backend limits address viewingKey cursor tokens schedules notes
      cursor')
    (hfollows : (discoverNotesStart cursor (tokens.map List.dedup)).apiCursor.Follows contents
      channels)
    (hsettles : (discoverNotesStart cursor (tokens.map List.dedup)).apiCursor.Settles contents
      channels) :
    ∃ returned : List DecryptedNote,
      (returned : Multiset DecryptedNote) =
        (discoverNotesStart cursor (tokens.map List.dedup)).apiCursor.weight contents channels
          (pendingNotes sn backend contents viewingKey) ∧
      (∀ token, notesAt notes token = keptNotes channels (tokens.map List.dedup) returned token) ∧
      cursor'.Seen contents channels ∧
      ((discoverNotesStart cursor (tokens.map List.dedup)).apiCursor.Scanned contents →
        cursor'.Scanned contents) := by
  obtain ⟨apiCursor, hends⟩ := h
  -- What was returned and what is still to come add up, page by page.
  obtain ⟨round, last, hlast, hok⟩ := hends.last
    (NotesState.Accounted sn backend contents channels viewingKey (tokens.map List.dedup)
      (discoverNotesStart cursor (tokens.map List.dedup)).apiCursor)
    (NotesState.accounted_start hfollows hsettles)
    fun round state next hstate hok => (hstate.page hheld hok).1
  obtain ⟨hfinal, hknown, hover⟩ := hlast.page hheld hok
  obtain ⟨returned, hreturned, hnotes⟩ := hfinal.notes
  -- Nothing is left in a complete cursor.
  have hweight : apiCursor.weight contents channels
      (pendingNotes sn backend contents viewingKey) = 0 :=
    (DiscoveryCursor.weight_of_isComplete (fun _ _ _ _ => pendingNotes_of_complete) hover.symm).2
  dsimp only at hreturned hknown
  rw [hweight, add_zero] at hreturned
  have hsubset : keys last.incomingChannels ⊆ keys apiCursor.channels := fun sender hsender => by
    refine hfinal.subset ?_
    dsimp only
    rw [hknown]
    exact mem_keys_knownChannels.mpr (.inl hsender)
  refine ⟨returned, hreturned, hnotes, ?_⟩
  rw [hknown]
  exact ⟨seen_knownChannels hfinal.follows hfinal.settles hover.symm hlast.nodup hsubset,
    fun hscanned => scanned_knownChannels hfinal.follows (hfinal.scanned hscanned) hover.symm
      hlast.nodup hsubset⟩

section Fresh

variable {publicKey : Felt} {account : List StoredChannel}

/-- A fresh call returns the unspent notes that pass its filter. -/
theorem discoverNotes_fresh
    (hcurve : CurveLaw sn) (hrecover : RecoversPoints sn newFromX)
    (hkey : sn.derivePublicKey viewingKey = .ok publicKey)
    (hstored : AccountStored sn backend.pool address publicKey account)
    {tokens : Option (List Felt)} {schedules : ℕ → Schedule} {notes : List (Felt × List Note)}
    {cursor' : NotesCursor}
    (h : DiscoversNotes sn newFromX backend limits address viewingKey none tokens schedules notes
      cursor') :
    ∃ returned, returned.Perm (unspentOf sn backend viewingKey account) ∧
      (∀ token, notesAt notes token =
        keptNotes (channelsOf account) (tokens.map List.dedup) returned token) ∧
      cursor'.Seen (contentsOf account) (channelsOf account) ∧
      cursor'.Scanned (contentsOf account) := by
  obtain ⟨returned, hreturned, hnotes, hseen, hscanned⟩ := discoverNotes_returns
    (hstored.incomingHeld hcurve hrecover hkey) h (DiscoveryCursor.follows_default _ _)
    (DiscoveryCursor.settles_default _ _)
  exact ⟨returned, Multiset.coe_eq_coe.mp (hreturned.trans hstored.weight_default), hnotes, hseen,
    hscanned fun _ h => nomatch h⟩

/-- So it has the unspent notes of the tokens in the filter, and no others. -/
theorem hasNote_iff {tokens : Option (List Felt)} {returned : List DecryptedNote}
    {notes : List (Felt × List Note)}
    (hreturned : returned.Perm (unspentOf sn backend viewingKey account))
    (hnotes : ∀ token, notesAt notes token =
      keptNotes (channelsOf account) (tokens.map List.dedup) returned token) {n : DecryptedNote}
    (hn : n ∈ unspentOf sn backend viewingKey account) :
    HasNote account notes n ↔ inFilter tokens n.token = true := by
  unfold HasNote
  rw [hnotes]
  unfold keptNotes
  simp only [inFilter_dedup]
  constructor
  · intro hmem
    obtain ⟨n', hn', -⟩ := List.mem_map.mp hmem
    obtain ⟨hfilter, hsame⟩ := Bool.and_eq_true_iff.mp (List.mem_filter.mp hn').2
    rwa [← of_decide_eq_true hsame]
  · intro hfilter
    refine List.mem_map_of_mem (List.mem_filter.mpr ⟨hreturned.mem_iff.mpr hn, ?_⟩)
    rw [hfilter, decide_eq_true rfl]
    rfl

end Fresh

/-! ### Calls from an earlier cursor -/

/-- A call looks for nothing in the channels whose subchannels were all scanned. -/
theorem NotesCursor.Scanned.newInKnown_eq {contents : Contents} {cursor : NotesCursor}
    (hscanned : cursor.Scanned contents) {tokenFilter : Option (List Felt)} :
    ∀ entry ∈ cursor, newInKnown sn backend contents viewingKey tokenFilter entry = 0 := by
  intro entry hentry
  unfold newInKnown
  rw [hscanned entry hentry, List.drop_length]
  split_ifs <;> rfl

section Resumed

variable {contents' : Contents} {channels' : List IncomingChannel} {cursor : NotesCursor}

/-- A call that looks for no note of its filter in the channels that its cursor has returns just
when the cursor fits. -/
theorem discoverNotes_resumed_fits_iff (tokens : Option (List Felt))
    (hheld : IncomingHeld sn newFromX backend address viewingKey channels' contents')
    (hkey : validateViewingKey sn backend viewingKey (ContractAddress.toFelt address) = .ok ())
    (hbudget : minServerBudget limits.cursorLimits.maxNoteLogIndex ≤ limits.serverBudget)
    (hseen : cursor.Seen contents channels)
    (hgrown : contents.Grown contents' channels channels')
    (hvalid : (notesCursorToApiCursor cursor (tokens.map List.dedup)).Valid limits.cursorLimits)
    (hnew : ∀ entry ∈ cursor, ∀ n ∈ newInKnown sn backend contents' viewingKey
      (tokens.map List.dedup) entry, inFilter (tokens.map List.dedup) n.token = false)
    (schedules : ℕ → Schedule) :
    (∃ notes cursor', DiscoversNotes sn newFromX backend limits address viewingKey (some cursor)
      tokens schedules notes cursor') ↔
        (notesCursorToApiCursor cursor (tokens.map List.dedup)).Fits contents' channels'
          limits.cursorLimits := by
  have hnodup : (channels.map IncomingChannel.senderAddr).Nodup :=
    hheld.listed.nodup.sublist (hgrown.channels_prefix.sublist.map _)
  have hfollows : (notesCursorToApiCursor cursor (tokens.map List.dedup)).Follows contents'
      channels' := notesCursorToApiCursor_follows hseen hnodup hgrown
  rw [exists_discoversNotes_iff]
  refine discoverNotes_loop_iff hheld hkey hbudget hfollows hvalid fun entry hentry => .inr ?_
  change entry ∈ (notesCursorToApiCursor cursor (tokens.map List.dedup)).channels at hentry
  rw [channels_notesCursorToApiCursor] at hentry
  obtain ⟨old, hold, rfl⟩ := List.mem_map.mp hentry
  -- What is left in a channel of the cursor is what is new in it, which the filter keeps out.
  have hweight : (resumedChannel (tokens.map List.dedup) old.2).weight contents'
      (pendingNotes sn backend contents' viewingKey old.1 old.2.channelKey) =
        newInKnown sn backend contents' viewingKey (tokens.map List.dedup) old :=
    (hseen.entries old hold).weight_eq
  exact fun n hn => hnew old hold n (hweight ▸ hn)

/-- When a call looks for nothing in the channels that its cursor has, it returns just when there
is a free slot for its scan of the channels. -/
theorem discoverNotes_resumed_iff (tokens : Option (List Felt))
    (hheld : IncomingHeld sn newFromX backend address viewingKey channels' contents')
    (hkey : validateViewingKey sn backend viewingKey (ContractAddress.toFelt address) = .ok ())
    (hbudget : minServerBudget limits.cursorLimits.maxNoteLogIndex ≤ limits.serverBudget)
    (hseen : cursor.Seen contents channels)
    (hgrown : contents.Grown contents' channels channels')
    (hroom : channels.length ≤ limits.cursorLimits.maxChannels)
    (hfits : ∀ channel ∈ channels', (newChannelCursor channel.channelKey).Fits contents'
      limits.cursorLimits)
    (hnew : ∀ entry ∈ cursor, newInKnown sn backend contents' viewingKey
      (tokens.map List.dedup) entry = 0) (schedules : ℕ → Schedule) :
    (∃ notes cursor', DiscoversNotes sn newFromX backend limits address viewingKey (some cursor)
      tokens schedules notes cursor') ↔
        channels.length + max 1 (channels'.length - channels.length) ≤
          limits.cursorLimits.maxChannels := by
  have hnodup : (channels.map IncomingChannel.senderAddr).Nodup :=
    hheld.listed.nodup.sublist (hgrown.channels_prefix.sublist.map _)
  have hvalid : (notesCursorToApiCursor cursor (tokens.map List.dedup)).Valid limits.cursorLimits :=
    notesCursorToApiCursor_valid hseen hnodup hgrown hroom
      (fun channel hchannel token htoken => ((hheld.held channel hchannel).notes token htoken).2)
      hfits
  rw [← notesCursorToApiCursor_fits_iff hseen hnodup hgrown hfits]
  refine discoverNotes_resumed_fits_iff tokens hheld hkey hbudget hseen hgrown hvalid
    (fun entry hentry n hn => ?_) schedules
  rw [hnew entry hentry] at hn
  exact absurd hn (Multiset.notMem_zero n)

end Resumed

end PrivacyPool.Sdk
