import PrivacyPool.Discovery.Account
import PrivacyPool.Sdk.IndexerDiscovery

/-!
# A page of `discoverNotes`

The SDK takes a page when the request succeeds and it knows the channel key of each note
that it keeps: from the response, or from an earlier page.

## Main definitions

* `noteOf` — a note of the service as a note of the SDK, with the key of its channel

## Main results

* `discoverNotesPage_eq_ok` — what a page that is taken does
* `discoverNotesPage_ok` — when a page is taken
* `convertIncomingNotes_eq_ok` — what the conversion of a response holds for each token
-/

namespace PrivacyPool.Sdk

open Discovery HashMap

variable {sn : Starknet} {newFromX : Felt → Option sn.EcPoint} {backend : Backend}
  {limits : ValidationLimits} {address : ContractAddress} {viewingKey : Felt}
  {tokenFilter : Option (List Felt)} {schedules : ℕ → Schedule} {round : ℕ}

/-- The channel keys of a response. -/
def channelKeys (channels : List IncomingChannel) : List (Felt × Felt) :=
  channels.foldl (fun m ch => AddressMap.set m ch.senderAddr ch.channelKey) []

theorem mem_keys_channelKeys {channels : List IncomingChannel} {sender : Felt} :
    sender ∈ keys (channelKeys channels) ↔ ∃ channel ∈ channels, channel.senderAddr = sender := by
  unfold channelKeys
  rw [AddressMap.mem_keys_foldl_set channels IncomingChannel.senderAddr IncomingChannel.channelKey]
  exact or_iff_right List.not_mem_nil

/-- The channels that are known after a response. -/
def knownChannels (known : NotesCursor) (cursor : DiscoveryCursor) : NotesCursor :=
  (apiCursorToNotesCursor cursor).foldl (fun m entry => AddressMap.set m entry.1 entry.2) known

theorem mem_keys_knownChannels {known : NotesCursor} {cursor : DiscoveryCursor} {sender : Felt} :
    sender ∈ keys (knownChannels known cursor) ↔
      sender ∈ keys known ∨ sender ∈ keys cursor.channels := by
  unfold knownChannels
  rw [AddressMap.mem_keys_foldl_set (apiCursorToNotesCursor cursor) Prod.fst Prod.snd]
  refine or_congr_right ?_
  have hkeys : (apiCursorToNotesCursor cursor).map Prod.fst = keys cursor.channels := by
    rw [apiCursorToNotesCursor, List.map_map]
    rfl
  rw [← hkeys, List.mem_map]

/-- Conversion succeeds when the senders of the notes that pass the filter are known. -/
theorem convertIncomingNotes_ok {channelKeyMap : List (Felt × Felt)} {known : NotesCursor}
    {notes : List DecryptedNote}
    (h : ∀ n ∈ notes, inFilter tokenFilter n.token = true →
      n.senderAddr ∈ keys channelKeyMap ∨ n.senderAddr ∈ keys known) :
    ∃ result, convertIncomingNotes channelKeyMap known tokenFilter notes = .ok result := by
  unfold convertIncomingNotes
  generalize ([] : List (Felt × List Note)) = start
  induction notes generalizing start with
  | nil => exact ⟨start, rfl⟩
  | cons n notes ih =>
    have hrest := ih fun n' hn' => h n' (List.mem_cons_of_mem _ hn')
    rw [List.foldlM_cons]
    by_cases hfilter : inFilter tokenFilter n.token = true
    · -- One of the two maps has the sender.
      obtain ⟨channelKey, hkey⟩ : ∃ channelKey, (AddressMap.get channelKeyMap n.senderAddr).or
          ((AddressMap.get known n.senderAddr).map (·.channelKey)) = some channelKey := by
        refine Option.ne_none_iff_exists'.mp fun hnone => ?_
        rw [Option.or_eq_none_iff, Option.map_eq_none_iff, AddressMap.get_eq_none_iff,
          AddressMap.get_eq_none_iff] at hnone
        exact (h n List.mem_cons_self hfilter).elim hnone.1 hnone.2
      rw [hfilter, hkey]
      exact hrest _
    · rw [Bool.eq_false_iff.mpr hfilter]
      exact hrest _

/-! ### What is converted -/

/-- The channel key of a sender. -/
def senderKey (channels : List IncomingChannel) (sender : Felt) : Felt :=
  (channels.find? fun channel => channel.senderAddr = sender).elim 0 (·.channelKey)

theorem senderKey_of_mem {channels : List IncomingChannel}
    (hnodup : (channels.map IncomingChannel.senderAddr).Nodup) {channelKey sender : Felt}
    (h : ⟨channelKey, sender⟩ ∈ channels) : senderKey channels sender = channelKey := by
  unfold senderKey
  have hfind : (channels.find? fun channel => channel.senderAddr = sender) =
      some ⟨channelKey, sender⟩ := find?_eq_some_of_mem hnodup h
  rw [hfind]
  rfl

/-- A note of the service as a note of the SDK, with the key of its channel. -/
def noteOf (channels : List IncomingChannel) (n : DecryptedNote) : Note :=
  convertNote (senderKey channels n.senderAddr) n

/-- The notes of a map that the SDK has for a token. -/
def notesAt (m : List (Felt × List Note)) (token : Felt) : List Note :=
  (AddressMap.get m token).getD []

theorem notesAt_push (m : List (Felt × List Note)) (token token' : Felt) (notes : List Note) :
    notesAt (push m token notes) token' =
      if token' = token then notesAt m token ++ notes else notesAt m token' := by
  unfold notesAt push
  rw [AddressMap.get_set]
  split_ifs with hsame
  · rfl
  · rfl

/-- The notes of some tokens are pushed after those that were there. -/
theorem notesAt_foldl_push {added : List (Felt × List Note)} (hnodup : (keys added).Nodup)
    (m : List (Felt × List Note)) (token : Felt) :
    notesAt (added.foldl (fun m entry => push m entry.1 entry.2) m) token =
      notesAt m token ++ notesAt added token := by
  induction added generalizing m with
  | nil => exact (List.append_nil _).symm
  | cons entry added ih =>
    rw [keys, List.map_cons, List.nodup_cons] at hnodup
    rw [List.foldl_cons, ih hnodup.2, notesAt_push]
    have hcons : notesAt (entry :: added) token =
        if token = entry.1 then entry.2 else notesAt added token := by
      unfold notesAt AddressMap.get
      by_cases hsame : entry.1 = token
      · rw [List.find?_cons_of_pos (by simpa using hsame), if_pos hsame.symm]
        rfl
      · rw [List.find?_cons_of_neg (by simpa using hsame), if_neg (Ne.symm hsame)]
    rw [hcons]
    split_ifs with hsame
    · have hnone : notesAt added token = [] := by
        unfold notesAt
        rw [AddressMap.get_eq_none_iff.mpr (hsame ▸ hnodup.1)]
        rfl
      rw [hnone, List.append_nil, hsame]
    · rfl

/-- A map from senders has the keys of the channels. -/
def RightKeys (channels : List IncomingChannel) (keyOf : Felt → Option Felt) : Prop :=
  ∀ sender channelKey, keyOf sender = some channelKey → channelKey = senderKey channels sender

/-- When the keys are right, the conversion of a response has the notes that pass the
filter, by their tokens. -/
theorem convertIncomingNotes_eq_ok {channels : List IncomingChannel}
    {channelKeyMap : List (Felt × Felt)} {known : NotesCursor} {notes : List DecryptedNote}
    {result : List (Felt × List Note)} (hmap : RightKeys channels (AddressMap.get channelKeyMap))
    (hknown : RightKeys channels fun sender => (AddressMap.get known sender).map (·.channelKey))
    (h : convertIncomingNotes channelKeyMap known tokenFilter notes = .ok result) :
    (keys result).Nodup ∧ ∀ token, notesAt result token =
      (notes.filter fun n => inFilter tokenFilter n.token && decide (n.token = token)).map
        (noteOf channels) := by
  unfold convertIncomingNotes at h
  -- The induction is on the notes, from any notes converted before.
  suffices hall : (keys result).Nodup ∧ ∀ token, notesAt result token = notesAt [] token ++
      (notes.filter fun n => inFilter tokenFilter n.token && decide (n.token = token)).map
        (noteOf channels) from hall
  have hnodup : (keys ([] : List (Felt × List Note))).Nodup := List.nodup_nil
  generalize ([] : List (Felt × List Note)) = start at h hnodup ⊢
  induction notes generalizing start with
  | nil =>
    obtain rfl := Except.ok.inj h
    exact ⟨hnodup, fun token => (List.append_nil _).symm⟩
  | cons n notes ih =>
    rw [List.foldlM_cons] at h
    obtain ⟨next, hnext, h⟩ := Fallible.bind_eq_ok.mp h
    by_cases hfilter : inFilter tokenFilter n.token = true
    · rw [hfilter, Bool.not_true, if_neg Bool.false_ne_true] at hnext
      cases hkey : (AddressMap.get channelKeyMap n.senderAddr).or
          ((AddressMap.get known n.senderAddr).map (·.channelKey)) with
      | none =>
        rw [hkey] at hnext
        cases hnext
      | some channelKey =>
        rw [hkey] at hnext
        obtain rfl := Except.ok.inj hnext
        -- The key is of a channel of this response, or of one in the cursor.
        have hright : channelKey = senderKey channels n.senderAddr := by
          rcases Option.or_eq_some_iff.mp hkey with hfound | ⟨-, hold⟩
          · exact hmap _ _ hfound
          · exact hknown _ _ hold
        obtain ⟨hnodup', hnotes⟩ := ih (push start n.token [convertNote channelKey n]) h
          (AddressMap.nodup_keys_set hnodup)
        refine ⟨hnodup', fun token => ?_⟩
        rw [hnotes, notesAt_push, List.filter_cons, hfilter, Bool.true_and, hright]
        by_cases hsame : n.token = token
        · rw [if_pos hsame.symm, if_pos (by simpa using hsame), List.map_cons, List.append_assoc,
            hsame]
          rfl
        · rw [if_neg (Ne.symm hsame), if_neg (by simpa using hsame)]
    · rw [Bool.eq_false_iff.mpr hfilter, Bool.not_false, if_pos rfl] at hnext
      obtain rfl := Except.ok.inj hnext
      obtain ⟨hnodup', hnotes⟩ := ih _ h hnodup
      refine ⟨hnodup', fun token => ?_⟩
      rw [hnotes, List.filter_cons, Bool.eq_false_iff.mpr hfilter, Bool.false_and,
        if_neg Bool.false_ne_true]

/-- The keys of a response are right. -/
theorem rightKeys_channelKeys {channels found : List IncomingChannel}
    (hnodup : (channels.map IncomingChannel.senderAddr).Nodup) (hfound : found ⊆ channels) :
    RightKeys channels (AddressMap.get (channelKeys found)) := by
  suffices hstart : ∀ start : List (Felt × Felt), RightKeys channels (AddressMap.get start) →
      RightKeys channels (AddressMap.get
        (found.foldl (fun m ch => AddressMap.set m ch.senderAddr ch.channelKey) start)) from
    hstart [] fun _ _ h => nomatch h
  induction found with
  | nil => exact fun _ h => h
  | cons channel found ih =>
    intro start hstart
    refine ih (List.subset_of_cons_subset hfound) _ fun sender channelKey hget => ?_
    rw [AddressMap.get_set] at hget
    split_ifs at hget with hsame
    · obtain rfl := Option.some.inj hget
      rw [hsame]
      exact (senderKey_of_mem hnodup (hfound List.mem_cons_self)).symm
    · exact hstart sender channelKey hget

/-! ### Pages that are taken -/

/-- A page that is taken is that of a successful request on a valid cursor. -/
theorem discoverNotesPage_eq_ok {state next : NotesState} {ended : Bool}
    (h : discoverNotesPage sn newFromX backend limits address viewingKey tokenFilter schedules round
      state = .ok (next, ended)) :
    ∃ resp notesByToken,
      (syncIncomingState sn newFromX backend address viewingKey state.apiCursor limits.cursorLimits
        (schedules round)).outcome limits.serverBudget = .ok resp ∧
      convertIncomingNotes (channelKeys resp.channels) state.incomingChannels tokenFilter
        resp.notes = .ok notesByToken ∧
      next = ⟨resp.cursor,
        notesByToken.foldl (fun m entry => push m entry.1 entry.2) state.allNotes,
        knownChannels state.incomingChannels resp.cursor⟩ ∧
      ended = resp.cursor.isComplete := by
  unfold discoverNotesPage at h
  obtain ⟨resp, hresp, h⟩ := Fallible.bind_eq_ok.mp h
  obtain ⟨notesByToken, hnotes, h⟩ := Fallible.bind_eq_ok.mp h
  have hsame := Except.ok.inj h
  have hsync := Fallible.mapError_eq_ok.mp hresp
  unfold incomingSync at hsync
  obtain ⟨-, -, hsync⟩ := Fallible.bind_eq_ok.mp hsync
  obtain ⟨-, -, hsync⟩ := Fallible.bind_eq_ok.mp hsync
  exact ⟨resp, notesByToken, Fallible.mapError_eq_ok.mp hsync, hnotes,
    (congrArg Prod.fst hsame).symm, (congrArg Prod.snd hsame).symm⟩

/-- A page is taken when the request succeeds and the senders of its notes that pass the filter
are known. -/
theorem discoverNotesPage_ok {state : NotesState} {resp : SyncIncomingStateResult}
    (hvalid : validateCursor state.apiCursor limits.cursorLimits = .ok ())
    (hkey : validateViewingKey sn backend viewingKey (ContractAddress.toFelt address) = .ok ())
    (hsync : (syncIncomingState sn newFromX backend address viewingKey state.apiCursor
      limits.cursorLimits (schedules round)).outcome limits.serverBudget = .ok resp)
    (hsenders : ∀ n ∈ resp.notes, inFilter tokenFilter n.token = true →
      n.senderAddr ∈ keys (channelKeys resp.channels) ∨ n.senderAddr ∈ keys state.incomingChannels) :
    ∃ next, discoverNotesPage sn newFromX backend limits address viewingKey tokenFilter schedules
      round state = .ok (next, resp.cursor.isComplete) ∧ next.apiCursor = resp.cursor := by
  obtain ⟨notesByToken, hnotes⟩ : ∃ result, convertIncomingNotes (channelKeys resp.channels)
      state.incomingChannels tokenFilter resp.notes = .ok result := convertIncomingNotes_ok hsenders
  have hresp : incomingSync sn newFromX backend limits address viewingKey state.apiCursor
      (schedules round) = .ok resp := by
    unfold incomingSync
    rw [hvalid, hkey, hsync]
    rfl
  refine ⟨⟨resp.cursor, notesByToken.foldl (fun m entry => push m entry.1 entry.2) state.allNotes,
    knownChannels state.incomingChannels resp.cursor⟩, ?_, rfl⟩
  unfold discoverNotesPage
  rw [hresp]
  refine Fallible.bind_eq_ok.mpr ⟨resp, rfl, ?_⟩
  exact Fallible.bind_eq_ok.mpr ⟨notesByToken, hnotes, rfl⟩

end PrivacyPool.Sdk
