import PrivacyPool.Sdk.ContractNotes
import PrivacyPool.Sdk.NotesPage

/-!
# What note discovery finds

Each call that is in flight leads to notes that are pushed when it is answered, or when
those after it are: the unspent notes of each subchannel are found once for every scan of
it. In the same way every channel that was not in the cursor is added to it.

## Main definitions

* `Readable` — the views show these channels, subchannels and notes
* `Follows` — a cursor of channels that the views show
* `Task.found`, `Task.added` — the notes and the senders that a call leads to
* `Sound`, `Valid` — the state of a call of `discoverNotes`, and the calls of views in it

## Main results

* `allNotes_push` — a note that is pushed is added to the others
* `Known.get` — the cursor has the key of each of its channels
-/

namespace PrivacyPool.Sdk.NotesDiscovery

open Discovery HashMap

variable (sn : Starknet) (recoverPointFromX : Felt → Option sn.EcPoint) (backend : Backend)
  (address : ContractAddress) (viewingKey : Felt) (tokens : List Felt)

/-! ### What the views show -/

/-- The views show these channels, with their subchannels and notes, and show nothing at
the indices after them. -/
structure Readable (channels : List IncomingChannel) (contents : Contents) : Prop where
  number : backend.getNumOfChannels address = channels.length
  channel : ∀ (c : ℕ) (h : c < channels.length),
    decryptChannelInfo sn recoverPointFromX (backend.getChannelInfo address c) viewingKey =
      .ok (toBigInt channels[c].channelKey, toBigInt channels[c].senderAddr)
  senders : (channels.map IncomingChannel.senderAddr).Nodup
  subchannel : ∀ channel ∈ channels, ∀ k < 2 ^ 64,
    (backend.getSubchannelInfo sn (computeSubchannelId sn channel.channelKey k)).salt ≠ 0 ↔
      k < (contents.tokens channel.channelKey).length
  token : ∀ channel ∈ channels, ∀ (k : ℕ) (h : k < (contents.tokens channel.channelKey).length),
    ofBigInt (decryptSubchannelInfo sn
      (backend.getSubchannelInfo sn (computeSubchannelId sn channel.channelKey k))
      (toBigInt channel.channelKey) k).1 = (contents.tokens channel.channelKey)[k]
  tokens_le : ∀ channel ∈ channels, (contents.tokens channel.channelKey).length ≤ 2 ^ 32
  nodup : ∀ channel ∈ channels, (contents.tokens channel.channelKey).Nodup
  notes : ∀ channel ∈ channels, ∀ token ∈ contents.tokens channel.channelKey,
    NotesHeld sn backend channel.channelKey token (contents.count channel.channelKey token)

/-- The bound of the indices that a scan of `n` items probes. -/
abbrev scanBound (n : ℕ) : ℕ := 2 * n + INITIAL_OFFSET + 1

theorem scanBound_le {n : ℕ} (h : n ≤ 2 ^ 32) : scanBound n ≤ 2 ^ 64 := by
  unfold scanBound INITIAL_OFFSET
  omega

/-! ### Notes -/

/-- The notes of a map, each with its token. -/
def allNotes (notes : List (Felt × List Note)) : Multiset (Felt × Note) :=
  (notes.flatMap fun entry => entry.2.map fun note => (entry.1, note) : List (Felt × Note))

theorem allNotes_cons (entry : Felt × List Note) (notes : List (Felt × List Note)) :
    allNotes (entry :: notes) =
      (entry.2.map fun note => (entry.1, note) : List (Felt × Note)) + allNotes notes := by
  rw [allNotes, List.flatMap_cons, ← Multiset.coe_add]
  rfl

/-- A note that is pushed is added to the others. -/
theorem allNotes_push {notes : List (Felt × List Note)} (hnodup : (keys notes).Nodup) (token : Felt)
    (note : Note) : allNotes (push notes token [note]) = (token, note) ::ₘ allNotes notes := by
  unfold push AddressMap.set
  split_ifs with hmem
  · induction notes with
    | nil => cases hmem
    | cons entry notes ih =>
      obtain ⟨hfresh, hrest⟩ := List.nodup_cons.mp hnodup
      rw [List.map_cons, allNotes_cons, allNotes_cons]
      by_cases hsame : entry.1 = token
      · -- The token has no other entry.
        subst hsame
        have hkept : notes.map (fun other => if other.1 = entry.1 then
            (entry.1, (AddressMap.get (entry :: notes) entry.1).getD [] ++ [note]) else other) =
              notes := by
          refine (List.map_congr_left fun other hother => ?_).trans (List.map_id notes)
          exact if_neg fun (heq : other.1 = entry.1) => hfresh (heq ▸ mem_keys_of_mem hother)
        have hget : AddressMap.get (entry :: notes) entry.1 = some entry.2 := by
          rw [AddressMap.get, List.find?_cons_of_pos (by simp), Option.map_some]
        rw [hkept, if_pos rfl, hget, Option.getD_some, List.map_append, ← Multiset.coe_add,
          add_right_comm, List.map_singleton, Multiset.coe_singleton, add_comm,
          Multiset.singleton_add]
      · have hget : AddressMap.get (entry :: notes) token = AddressMap.get notes token := by
          rw [AddressMap.get, List.find?_cons_of_neg (by simpa using hsame)]
          rfl
        have htoken : token ∈ keys notes :=
          (List.mem_cons.mp hmem).resolve_left (Ne.symm hsame)
        rw [if_neg hsame, hget, ih hrest htoken, Multiset.add_cons]
  · have hget : AddressMap.get notes token = none := AddressMap.get_eq_none_iff.mpr hmem
    rw [hget, allNotes, List.flatMap_append, ← Multiset.coe_add, add_comm]
    rfl

/-- The note at an index, if it is not spent. -/
def noteItem (sender channelKey token : Felt) (i : ℕ) : Multiset (Felt × Note) :=
  if isSpent sn backend viewingKey channelKey token i then 0
  else {(token, toNote sn sender channelKey token i (packedValueOf sn backend channelKey token i))}

variable (contents : Contents) (channels : List IncomingChannel)

/-- The unspent notes of a subchannel. -/
def notesOf (sender channelKey token : Felt) : Multiset (Felt × Note) :=
  ∑ i ∈ Finset.range (contents.count channelKey token),
    noteItem sn backend viewingKey sender channelKey token i

/-- Whether a token passes the filter of the caller. -/
def Passes (tokens : List Felt) (token : Felt) : Prop := ¬(tokens ≠ [] ∧ token ∉ tokens)

instance (token : Felt) : Decidable (Passes tokens token) :=
  inferInstanceAs (Decidable ¬(tokens ≠ [] ∧ token ∉ tokens))

/-- What the probe of a subchannel leads to. -/
def subchannelItem (sender channelKey : Felt) (k : ℕ) : Multiset (Felt × Note) :=
  (contents.tokens channelKey)[k]?.elim 0 fun token =>
    if Passes tokens token then notesOf sn backend viewingKey contents sender channelKey token
    else 0

/-- What the scan of the subchannels of a channel leads to. -/
def notesIn (sender channelKey : Felt) : Multiset (Felt × Note) :=
  ∑ k ∈ Finset.range (contents.tokens channelKey).length,
    subchannelItem sn backend viewingKey tokens contents sender channelKey k

/-- What the probe of a channel leads to. -/
def channelItem (c : ℕ) : Multiset (Felt × Note) :=
  channels[c]?.elim 0 fun channel =>
    notesIn sn backend viewingKey tokens contents channel.senderAddr channel.channelKey

/-- The sender of a channel. -/
def senderItem (c : ℕ) : Multiset Felt :=
  channels[c]?.elim 0 fun channel => {channel.senderAddr}

namespace Task

/-- The notes that a call leads to. -/
def found : Task → Multiset (Felt × Note)
  | getNumOfChannels start =>
    ∑ c ∈ Finset.Ico start channels.length,
      channelItem sn backend viewingKey tokens contents channels c
  | getChannelInfo scan =>
    scan.weight channels.length (channelItem sn backend viewingKey tokens contents channels)
  | getSubchannelInfo sender channelKey scan =>
    scan.weight (contents.tokens channelKey).length
      (subchannelItem sn backend viewingKey tokens contents sender channelKey)
  | getNote sender channelKey token scan =>
    scan.weight (contents.count channelKey token)
      (noteItem sn backend viewingKey sender channelKey token)
  | getUnspentNote sender channelKey token i =>
    if i < contents.count channelKey token then
      {(token, toNote sn sender channelKey token i (packedValueOf sn backend channelKey token i))}
    else 0
  | nullifierExists sender channelKey token i _ =>
    noteItem sn backend viewingKey sender channelKey token i

/-- The senders that a call leads to. -/
def added : Task → Multiset Felt
  | getNumOfChannels start => ∑ c ∈ Finset.Ico start channels.length, senderItem channels c
  | getChannelInfo scan => scan.weight channels.length (senderItem channels)
  | _ => 0

/-- A bound of the number of calls that a call leads to, itself included. -/
def cost : Task → ℕ
  | getNumOfChannels start => 1 + ∑ c ∈ Finset.Ico start channels.length, channelCost c
  | getChannelInfo scan => scan.cost channels.length channelCost
  | getSubchannelInfo _ channelKey scan =>
    scan.cost (scanBound (contents.tokens channelKey).length) (subchannelCost channelKey)
  | getNote _ channelKey token scan => scan.cost (scanBound (contents.count channelKey token)) fun _ => 2
  | getUnspentNote .. | nullifierExists .. => 1
where
  subchannelCost (channelKey : Felt) (k : ℕ) : ℕ :=
    1 + (contents.tokens channelKey)[k]?.elim 0 fun token =>
      1 + ∑ _ ∈ Finset.range (scanBound (contents.count channelKey token)), 2
  channelCost (c : ℕ) : ℕ :=
    1 + channels[c]?.elim 0 fun channel =>
      1 + ∑ k ∈ Finset.range (scanBound (contents.tokens channel.channelKey).length),
        subchannelCost channel.channelKey k

end Task

/-! ### Cursors -/

/-- What a cursor says of a channel is within what the views show. -/
structure Within (icc : IncomingChannelCursor) : Prop where
  index_le : icc.subchannelIdIndex ≤ (contents.tokens icc.channelKey).length
  nodup : (keys icc.noteIndexes).Nodup
  noteIndexes : ∀ entry ∈ icc.noteIndexes, entry.1 ∈ contents.tokens icc.channelKey ∧
    entry.2 ≤ contents.count icc.channelKey entry.1

/-- The channels of a cursor are among those that the views show. -/
structure Known (cursor : NotesCursor) : Prop where
  nodup : (keys cursor).Nodup
  channel : ∀ entry ∈ cursor, ⟨entry.2.channelKey, entry.1⟩ ∈ channels
  within : ∀ entry ∈ cursor, Within contents entry.2

/-- The channels of a cursor are the first ones that the views show. -/
structure Follows (cursor : NotesCursor) : Prop extends Known contents channels cursor where
  first : (keys cursor).Perm ((channels.take cursor.length).map IncomingChannel.senderAddr)

/-- The state of a call of `discoverNotes`. -/
structure Sound (st : State) : Prop where
  known : Known contents channels st.cursor
  nodup : (keys st.notes).Nodup
  noErrors : st.errors = []

/-- A call is for a channel of the cursor, and probes below the bound of its scan. -/
def Valid (st : State) : Task → Prop
  | .getNumOfChannels _ => True
  | .getChannelInfo scan => scan.Valid channels.length channels.length
  | .getSubchannelInfo sender channelKey scan =>
    ⟨channelKey, sender⟩ ∈ channels ∧ sender ∈ keys st.cursor ∧
      scan.Valid (contents.tokens channelKey).length (scanBound (contents.tokens channelKey).length)
  | .getNote sender channelKey token scan =>
    ⟨channelKey, sender⟩ ∈ channels ∧ sender ∈ keys st.cursor ∧
      token ∈ contents.tokens channelKey ∧
      scan.Valid (contents.count channelKey token) (scanBound (contents.count channelKey token))
  | .getUnspentNote sender channelKey token i =>
    ⟨channelKey, sender⟩ ∈ channels ∧ sender ∈ keys st.cursor ∧
      token ∈ contents.tokens channelKey ∧ i < scanBound (contents.count channelKey token)
  | .nullifierExists sender channelKey token i packedValue =>
    ⟨channelKey, sender⟩ ∈ channels ∧ sender ∈ keys st.cursor ∧
      token ∈ contents.tokens channelKey ∧ i < contents.count channelKey token ∧
      packedValue = packedValueOf sn backend channelKey token i

variable {sn recoverPointFromX backend address viewingKey tokens contents channels}

theorem key_eq_of_mem (hnodup : (channels.map IncomingChannel.senderAddr).Nodup)
    {channelKey channelKey' sender : Felt} (h : ⟨channelKey, sender⟩ ∈ channels)
    (h' : ⟨channelKey', sender⟩ ∈ channels) : channelKey = channelKey' :=
  (senderKey_of_mem hnodup h).symm.trans (senderKey_of_mem hnodup h')

/-- The cursor of a channel has the key of the channel. -/
theorem Known.get {cursor : NotesCursor} (h : Known contents channels cursor)
    (hnodup : (channels.map IncomingChannel.senderAddr).Nodup) {channelKey sender : Felt}
    (hchannel : ⟨channelKey, sender⟩ ∈ channels) (hsender : sender ∈ keys cursor) :
    ∃ icc, AddressMap.get cursor sender = some icc ∧ icc.channelKey = channelKey ∧
      Within contents icc := by
  obtain ⟨icc, hget⟩ := Option.ne_none_iff_exists'.mp (mt AddressMap.get_eq_none_iff.mp (not_not.mpr hsender))
  have hmem := AddressMap.mem_of_get hget
  exact ⟨icc, hget, key_eq_of_mem hnodup (h.channel _ hmem) hchannel, h.within _ hmem⟩

theorem Known.set {cursor : NotesCursor} (h : Known contents channels cursor) {sender : Felt}
    {icc : IncomingChannelCursor} (hchannel : ⟨icc.channelKey, sender⟩ ∈ channels)
    (hwithin : Within contents icc) :
    Known contents channels (AddressMap.set cursor sender icc) := by
  refine ⟨AddressMap.nodup_keys_set h.nodup, fun entry hentry => ?_, fun entry hentry => ?_⟩
  · rcases AddressMap.mem_of_mem_set hentry with rfl | hold
    · exact hchannel
    · exact h.channel entry hold
  · rcases AddressMap.mem_of_mem_set hentry with rfl | hold
    · exact hwithin
    · exact h.within entry hold

@[simp] theorem keys_modifyChannel (st : State) (sender : Felt)
    (f : IncomingChannelCursor → IncomingChannelCursor) :
    keys (st.modifyChannel sender f).cursor = keys st.cursor := by
  unfold State.modifyChannel
  cases hget : AddressMap.get st.cursor sender with
  | none => rfl
  | some icc =>
    have hmem : sender ∈ keys st.cursor := mem_keys_of_mem (AddressMap.mem_of_get hget)
    dsimp only [Option.elim_some]
    rw [AddressMap.set, if_pos hmem, AddressMap.keys_replace]

theorem Known.modifyChannel {st : State} (h : Known contents channels st.cursor) {sender : Felt}
    {f : IncomingChannelCursor → IncomingChannelCursor} (hkey : ∀ icc, (f icc).channelKey = icc.channelKey)
    (hwithin : ∀ icc, AddressMap.get st.cursor sender = some icc → Within contents icc →
      Within contents (f icc)) :
    Known contents channels (st.modifyChannel sender f).cursor := by
  unfold State.modifyChannel
  cases hget : AddressMap.get st.cursor sender with
  | none => exact h
  | some icc =>
    have hmem := AddressMap.mem_of_get hget
    exact h.set (by rw [hkey]; exact h.channel _ hmem) (hwithin icc hget (h.within _ hmem))

/-- The indices of a channel stay within when one is set. -/
theorem Within.set {icc : IncomingChannelCursor} (h : Within contents icc) {token : Felt} {n k : ℕ}
    (htoken : token ∈ contents.tokens icc.channelKey) (hn : n ≤ contents.count icc.channelKey token)
    (hk : k ≤ (contents.tokens icc.channelKey).length) :
    Within contents { icc with
      noteIndexes := AddressMap.set icc.noteIndexes token n, subchannelIdIndex := k } := by
  refine ⟨hk, AddressMap.nodup_keys_set h.nodup, fun entry hentry => ?_⟩
  rcases AddressMap.mem_of_mem_set hentry with rfl | hold
  · exact ⟨htoken, hn⟩
  · exact h.noteIndexes entry hold

end PrivacyPool.Sdk.NotesDiscovery
