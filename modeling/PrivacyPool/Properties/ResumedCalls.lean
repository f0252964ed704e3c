import PrivacyPool.Properties.NotesCalls

/-!
# Calls of `discoverNotes` over time

The cursor that a call returns may be used at a later state of the pool. The later call
returns the unspent notes that it looks for: those of channels that are not in the cursor,
and those of further subchannels of the channels that are.

## Main definitions

* `UserState` — a state of the pool with what it stores for a user
* `Synced` — the cursor after calls at states one after another
* `LooksFor` — a later call looks for a note

## Main results

* `Synced.seen` — the cursor has seen the state of the last call
* `mem_weight_iff` — what a later call has left to return
* `firstPage_throws` — on a large budget the first page throws when there is something to
  return in a channel that the cursor has
-/

namespace PrivacyPool.Sdk

open Discovery HashMap

/-! ### States of the pool -/

/-- A state of the pool, with the channels that it stores for a user and the key that the
user is registered with, if it is. -/
structure UserState (sn : Starknet) (address : ContractAddress) (publicKey : Felt) where
  backend : Backend
  account : List StoredChannel
  stored : AccountStored sn backend.pool address publicKey account
  registered : backend.getPublicKey sn (ContractAddress.toFelt address) = 0 ∨
    backend.getPublicKey sn (ContractAddress.toFelt address) = publicKey

variable {sn : Starknet} {newFromX : Felt → Option sn.EcPoint} {D : Domain}
  {limits : ValidationLimits} {address : ContractAddress} {viewingKey publicKey : Felt}

namespace UserState

/-- One state is before another: its records are kept, and those of the user are in play. -/
structure Before (D : Domain) (s s' : UserState sn address publicKey) : Prop where
  kept : Kept sn D s.backend.pool s'.backend.pool
  covered : IncomingCovered D s.account

/-- What the channels of the user hold. -/
abbrev contents (s : UserState sn address publicKey) : Contents := contentsOf s.account

/-- The channels toward the user. -/
abbrev channels (s : UserState sn address publicKey) : List IncomingChannel := channelsOf s.account

/-- The unspent notes of the user. -/
abbrev unspent (s : UserState sn address publicKey) (viewingKey : Felt) : List DecryptedNote :=
  unspentOf sn s.backend viewingKey s.account

/-- A state of a run is before the states that come later. -/
theorem before_of_run (hD : NoCollision sn D) {visited : List (World sn)} {labels : List (Label sn)}
    {earlier world : World sn} (run : PoolRun sn D visited labels world)
    (hearlier : earlier ∈ visited) {s s' : UserState sn address publicKey}
    (hs : s.backend.pool = earlier.pool) (hs' : s'.backend.pool = world.pool)
    (hcovered : IncomingCovered D s.account) : s.Before D s' := by
  refine ⟨?_, hcovered⟩
  rw [hs, hs']
  exact (run_invariant hD run earlier hearlier).2.kept

variable {s s' : UserState sn address publicKey}

/-- When the limits leave room for the stored channels, each fits as a new one. -/
theorem fits_new {cursorLimits : CursorLimits} (s : UserState sn address publicKey)
    (hfits : ∀ channel ∈ s.account, ChannelFits cursorLimits channel) :
    ∀ channel ∈ s.channels,
      (newChannelCursor channel.channelKey).Fits s.contents cursorLimits := by
  intro info hinfo
  obtain ⟨channel, hchannel, rfl⟩ := List.mem_map.mp hinfo
  exact (fits_stored_iff s.stored.keys_nodup hchannel (s.stored.stored channel hchannel)).mpr
    (hfits channel hchannel)

theorem held (hcurve : CurveLaw sn) (hrecover : RecoversPoints sn newFromX)
    (hkey : sn.derivePublicKey viewingKey = .ok publicKey) (s : UserState sn address publicKey) :
    IncomingHeld sn newFromX s.backend address viewingKey s.channels s.contents :=
  s.stored.incomingHeld hcurve hrecover hkey

/-- What the service sees of the user has only been added to. -/
theorem Before.grown (hcurve : CurveLaw sn) (hrecover : RecoversPoints sn newFromX)
    (hkey : sn.derivePublicKey viewingKey = .ok publicKey) (h : s.Before D s') :
    s.contents.Grown s'.contents s.channels s'.channels :=
  grown_of_extends s.stored s'.stored
    (s.stored.grows hcurve hrecover hkey s'.stored h.kept h.covered)

end UserState

/-- The cursor after calls of `discoverNotes` at states one after another: the first call has
no cursor, and each other one has that of the call before. -/
inductive Synced (sn : Starknet) (newFromX : Felt → Option sn.EcPoint) (D : Domain)
    (address : ContractAddress) (viewingKey publicKey : Felt) :
    UserState sn address publicKey → NotesCursor → Prop
  | fresh {s : UserState sn address publicKey} {limits : ValidationLimits}
      {tokens : Option (List Felt)} {schedules : ℕ → Schedule} {notes : List (Felt × List Note)}
      {cursor : NotesCursor}
      (hcall : DiscoversNotes sn newFromX s.backend limits address viewingKey none tokens schedules
        notes cursor) :
    Synced sn newFromX D address viewingKey publicKey s cursor
  | resumed {s s' : UserState sn address publicKey} {limits : ValidationLimits}
      {tokens : Option (List Felt)} {schedules : ℕ → Schedule} {notes : List (Felt × List Note)}
      {cursor cursor' : NotesCursor}
      (before : Synced sn newFromX D address viewingKey publicKey s cursor) (hlater : s.Before D s')
      (hcall : DiscoversNotes sn newFromX s'.backend limits address viewingKey (some cursor) tokens
        schedules notes cursor') :
    Synced sn newFromX D address viewingKey publicKey s' cursor'

variable {s s' : UserState sn address publicKey} {cursor cursor' : NotesCursor}
  {tokens : Option (List Felt)} {schedules : ℕ → Schedule} {notes : List (Felt × List Note)}

/-- What a call from an earlier cursor returns. -/
theorem discoverNotes_later (hcurve : CurveLaw sn) (hrecover : RecoversPoints sn newFromX)
    (hkey : sn.derivePublicKey viewingKey = .ok publicKey) (hlater : s.Before D s')
    (hseen : cursor.Seen s.contents s.channels)
    (hcall : DiscoversNotes sn newFromX s'.backend limits address viewingKey (some cursor) tokens
      schedules notes cursor') :
    ∃ returned : List DecryptedNote, (returned : Multiset DecryptedNote) =
        (notesCursorToApiCursor cursor (tokens.map List.dedup)).weight s'.contents s'.channels
          (pendingNotes sn s'.backend s'.contents viewingKey) ∧
      (∀ token, notesAt notes token =
        keptNotes s'.channels (tokens.map List.dedup) returned token) ∧
      cursor'.Seen s'.contents s'.channels := by
  have hgrown := hlater.grown hcurve hrecover hkey
  have hnodup := (s.held hcurve hrecover hkey).listed.nodup
  have hfollows : (notesCursorToApiCursor cursor (tokens.map List.dedup)).Follows s'.contents
      s'.channels := notesCursorToApiCursor_follows hseen hnodup hgrown
  have hsettles : (notesCursorToApiCursor cursor (tokens.map List.dedup)).Settles s'.contents
      s'.channels := notesCursorToApiCursor_settles hseen hnodup hgrown
  obtain ⟨returned, hreturned, hnotes, hseen', -⟩ :=
    discoverNotes_returns (s'.held hcurve hrecover hkey) hcall hfollows hsettles
  exact ⟨returned, hreturned, hnotes, hseen'⟩

/-- The cursor has seen the state of the last call. -/
theorem Synced.seen (hcurve : CurveLaw sn) (hrecover : RecoversPoints sn newFromX)
    (hkey : sn.derivePublicKey viewingKey = .ok publicKey)
    (h : Synced sn newFromX D address viewingKey publicKey s cursor) :
    cursor.Seen s.contents s.channels := by
  induction h with
  | @fresh s limits tokens schedules notes cursor hcall =>
    obtain ⟨-, -, -, hseen, -⟩ := discoverNotes_returns (s.held hcurve hrecover hkey) hcall
      (DiscoveryCursor.follows_default _ _) (DiscoveryCursor.settles_default _ _)
    exact hseen
  | resumed before hlater hcall ih =>
    obtain ⟨-, -, -, hseen⟩ := discoverNotes_later hcurve hrecover hkey hlater ih hcall
    exact hseen

/-! ### What a later call looks for -/

/-- A call from the cursor looks for a note: its channel is not in the cursor, or it is in a
subchannel that was not scanned, and the scan is not marked as over. -/
def LooksFor (contents : Contents) (cursor : NotesCursor) (tokenFilter : Option (List Felt))
    (n : DecryptedNote) : Prop :=
  ∀ icc, AddressMap.get cursor n.senderAddr = some icc →
    (resumedChannel tokenFilter icc).subchannelDiscoveryComplete = false ∧
      n.token ∈ (contents.tokens icc.channelKey).drop icc.subchannelIdIndex

/-- A note is unspent when it is in a channel and a subchannel of the account. -/
theorem mem_unspentOf {backend : Backend} {account : List StoredChannel} {n : DecryptedNote} :
    n ∈ unspentOf sn backend viewingKey account ↔ ∃ channel ∈ account,
      ∃ subchannel ∈ channel.subchannels, n ∈ unspentIn sn backend viewingKey channel subchannel := by
  unfold unspentOf
  simp only [List.mem_flatMap]

theorem mem_sum_map {α β : Type} {l : List α} {f : α → Multiset β} {n : β} :
    n ∈ (l.map f).sum ↔ ∃ a ∈ l, n ∈ f a := by
  induction l with
  | nil => simp
  | cons a l ih => simp only [List.map_cons, List.sum_cons, Multiset.mem_add, ih, List.exists_mem_cons_iff]

/-- A note is unspent when it is pending in a subchannel that is yet to be scanned. -/
theorem UserState.mem_unspent_iff {n : DecryptedNote} :
    n ∈ s.unspent viewingKey ↔ ∃ channel ∈ s.channels,
      ∃ token ∈ s.contents.tokens channel.channelKey, n ∈ pendingNotes sn s.backend s.contents
        viewingKey channel.senderAddr channel.channelKey token {} := by
  rw [mem_unspentOf]
  constructor
  · rintro ⟨channel, hchannel, subchannel, hsub, hn⟩
    refine ⟨_, List.mem_map_of_mem hchannel, ContractAddress.toFelt subchannel.token, ?_, ?_⟩
    · dsimp only
      rw [tokens_of_mem s.stored.keys_nodup hchannel]
      exact List.mem_map_of_mem hsub
    · rwa [s.stored.pendingNotes_default hchannel hsub, Multiset.mem_coe]
  · rintro ⟨info, hinfo, token, htoken, hn⟩
    obtain ⟨channel, hchannel, rfl⟩ := List.mem_map.mp hinfo
    dsimp only at htoken hn
    rw [tokens_of_mem s.stored.keys_nodup hchannel] at htoken
    obtain ⟨subchannel, hsub, rfl⟩ := List.mem_map.mp htoken
    rw [s.stored.pendingNotes_default hchannel hsub, Multiset.mem_coe] at hn
    exact ⟨channel, hchannel, subchannel, hsub, hn⟩

/-- Of a pending note, the service tells the sender and the token. -/
theorem of_mem_pendingNotes {backend : Backend} {contents : Contents}
    {senderAddr channelKey token : Felt} {sc : SubchannelCursor} {n : DecryptedNote}
    (h : n ∈ pendingNotes sn backend contents viewingKey senderAddr channelKey token sc) :
    n.senderAddr = senderAddr ∧ n.token = token := by
  unfold pendingNotes at h
  split_ifs at h
  · cases h
  · obtain ⟨note, -, rfl⟩ := List.mem_map.mp (Multiset.mem_coe.mp h)
    exact ⟨rfl, rfl⟩

/-- An unspent note of a channel of the cursor is pending under the key that the cursor has. -/
theorem pending_of_get (hcurve : CurveLaw sn) (hrecover : RecoversPoints sn newFromX)
    (hkey : sn.derivePublicKey viewingKey = .ok publicKey) (hlater : s.Before D s')
    (hseen : cursor.Seen s.contents s.channels) {n : DecryptedNote}
    (hn : n ∈ s'.unspent viewingKey) {icc : IncomingChannelCursor}
    (hget : AddressMap.get cursor n.senderAddr = some icc) :
    n.token ∈ s'.contents.tokens icc.channelKey ∧ n ∈ pendingNotes sn s'.backend s'.contents
      viewingKey n.senderAddr icc.channelKey n.token {} := by
  have hgrown := hlater.grown hcurve hrecover hkey
  have hnodup' := (s'.held hcurve hrecover hkey).listed.nodup
  obtain ⟨channel, hchannel, token, htoken, hpending⟩ := UserState.mem_unspent_iff.mp hn
  obtain ⟨hsender, rfl⟩ := of_mem_pendingNotes hpending
  have hknown := hgrown.channels_prefix.subset (hseen.known _ (AddressMap.mem_of_get hget))
  have hsame : (⟨icc.channelKey, n.senderAddr⟩ : IncomingChannel) = channel :=
    List.inj_on_of_nodup_map hnodup' hknown hchannel hsender
  rw [← hsame] at htoken hpending
  exact ⟨htoken, hpending⟩

/-- A note of a channel of the cursor that a later call looks for. -/
theorem mem_newInKnown (hcurve : CurveLaw sn) (hrecover : RecoversPoints sn newFromX)
    (hkey : sn.derivePublicKey viewingKey = .ok publicKey) (hlater : s.Before D s')
    (hseen : cursor.Seen s.contents s.channels) {tokenFilter : Option (List Felt)}
    {n : DecryptedNote} (hn : n ∈ s'.unspent viewingKey)
    (hlooks : LooksFor s'.contents cursor tokenFilter n) {icc : IncomingChannelCursor}
    (hget : AddressMap.get cursor n.senderAddr = some icc) :
    n ∈ newInKnown sn s'.backend s'.contents viewingKey tokenFilter (n.senderAddr, icc) := by
  obtain ⟨hopen, hdropped⟩ := hlooks icc hget
  unfold newInKnown
  rw [hopen, if_neg Bool.false_ne_true]
  exact mem_sum_map.mpr
    ⟨n.token, hdropped, (pending_of_get hcurve hrecover hkey hlater hseen hn hget).2⟩

/-- What a later call looks for in a channel of the cursor is unspent. -/
theorem of_mem_newInKnown (hcurve : CurveLaw sn) (hrecover : RecoversPoints sn newFromX)
    (hkey : sn.derivePublicKey viewingKey = .ok publicKey) (hlater : s.Before D s')
    (hseen : cursor.Seen s.contents s.channels) {tokenFilter : Option (List Felt)}
    {entry : Felt × IncomingChannelCursor} (hentry : entry ∈ cursor) {n : DecryptedNote}
    (hn : n ∈ newInKnown sn s'.backend s'.contents viewingKey tokenFilter entry) :
    n ∈ s'.unspent viewingKey ∧ LooksFor s'.contents cursor tokenFilter n ∧
      n.senderAddr = entry.1 := by
  have hgrown := hlater.grown hcurve hrecover hkey
  unfold newInKnown at hn
  split_ifs at hn with hover
  · cases hn
  · obtain ⟨token, htoken, hn⟩ := mem_sum_map.mp hn
    obtain ⟨hsender, htoken'⟩ := of_mem_pendingNotes hn
    refine ⟨UserState.mem_unspent_iff.mpr ⟨_, hgrown.channels_prefix.subset
      (hseen.known entry hentry), token, List.mem_of_mem_drop htoken, hn⟩, fun icc hicc => ?_, hsender⟩
    rw [hsender, (AddressMap.get_eq_some_iff hseen.nodup).mpr hentry] at hicc
    obtain rfl := Option.some.inj hicc
    exact ⟨Bool.eq_false_iff.mpr hover, htoken' ▸ htoken⟩

/-- What a later call has left to return. -/
theorem mem_weight_iff (hcurve : CurveLaw sn) (hrecover : RecoversPoints sn newFromX)
    (hkey : sn.derivePublicKey viewingKey = .ok publicKey) (hlater : s.Before D s')
    (hseen : cursor.Seen s.contents s.channels) {tokenFilter : Option (List Felt)}
    {n : DecryptedNote} :
    n ∈ (notesCursorToApiCursor cursor tokenFilter).weight s'.contents s'.channels
        (pendingNotes sn s'.backend s'.contents viewingKey) ↔
      n ∈ s'.unspent viewingKey ∧ LooksFor s'.contents cursor tokenFilter n := by
  have hgrown := hlater.grown hcurve hrecover hkey
  have hnodup := (s.held hcurve hrecover hkey).listed.nodup
  have hnodup' := (s'.held hcurve hrecover hkey).listed.nodup
  obtain ⟨rest, hrest⟩ := hgrown.channels_prefix
  have hdrop : s'.channels.drop s.channels.length = rest := by
    rw [← hrest, List.drop_left]
  rw [notesCursorToApiCursor_weight hseen hnodup, hdrop, Multiset.mem_add, mem_sum_map, mem_sum_map]
  constructor
  -- What is left in the known channels, or in those that came later.
  · rintro (⟨entry, hentry, hn⟩ | ⟨channel, hchannel, hn⟩)
    · obtain ⟨hunspent, hlooks, -⟩ := of_mem_newInKnown hcurve hrecover hkey hlater hseen hentry hn
      exact ⟨hunspent, hlooks⟩
    · -- A new channel.
      rw [ChannelCursor.weight_new] at hn
      obtain ⟨token, htoken, hn⟩ := mem_sum_map.mp hn
      refine ⟨UserState.mem_unspent_iff.mpr ⟨channel, hrest ▸ List.mem_append_right _ hchannel, token,
        htoken, hn⟩, fun icc hicc => ?_⟩
      rw [(of_mem_pendingNotes hn).1] at hicc
      -- A sender has one channel, so that the new one is of no sender of the cursor.
      have hold := List.mem_map_of_mem (f := IncomingChannel.senderAddr)
        (hseen.known _ (AddressMap.mem_of_get hicc))
      have hnew := List.mem_map_of_mem (f := IncomingChannel.senderAddr) hchannel
      rw [← hrest, List.map_append, List.nodup_append] at hnodup'
      exact absurd rfl (hnodup'.2.2 _ hold _ hnew)
  · rintro ⟨hunspent, hlooks⟩
    -- The sender of the note is in the cursor, or its channel is a new one.
    cases hget : AddressMap.get cursor n.senderAddr with
    | some icc => exact .inl ⟨_, AddressMap.mem_of_get hget,
        mem_newInKnown hcurve hrecover hkey hlater hseen hunspent hlooks hget⟩
    | none =>
      obtain ⟨channel, hchannel, token, htoken, hn⟩ := UserState.mem_unspent_iff.mp hunspent
      rw [← hrest] at hchannel
      refine .inr ⟨channel, (List.mem_append.mp hchannel).resolve_left fun hold => ?_, ?_⟩
      · rw [(of_mem_pendingNotes hn).1] at hget
        exact AddressMap.get_eq_none_iff.mp hget (hseen.all channel hold)
      · rw [ChannelCursor.weight_new]
        exact mem_sum_map.mpr ⟨token, htoken, hn⟩

/-- A later call has the unspent notes that it looks for and that pass its filter. -/
theorem hasNote_later_iff (hcurve : CurveLaw sn) (hrecover : RecoversPoints sn newFromX)
    (hkey : sn.derivePublicKey viewingKey = .ok publicKey) (hlater : s.Before D s')
    (hseen : cursor.Seen s.contents s.channels)
    (hcall : DiscoversNotes sn newFromX s'.backend limits address viewingKey (some cursor) tokens
      schedules notes cursor') {n : DecryptedNote} (hn : n ∈ s'.unspent viewingKey) :
    HasNote s'.account notes n ↔ LooksFor s'.contents cursor (tokens.map List.dedup) n ∧
      inFilter tokens n.token = true := by
  obtain ⟨returned, hreturned, hnotes, -⟩ :=
    discoverNotes_later hcurve hrecover hkey hlater hseen hcall
  have hmem : ∀ n', n' ∈ returned ↔ n' ∈ s'.unspent viewingKey ∧
      LooksFor s'.contents cursor (tokens.map List.dedup) n' := fun n' => by
    rw [← mem_weight_iff hcurve hrecover hkey hlater hseen, ← hreturned, Multiset.mem_coe]
  unfold HasNote
  rw [hnotes]
  unfold keptNotes
  simp only [inFilter_dedup]
  constructor
  · intro hconverted
    obtain ⟨n', hn', hsame⟩ := List.mem_map.mp hconverted
    obtain ⟨hn', hkept⟩ := List.mem_filter.mp hn'
    obtain ⟨hfilter, htoken⟩ := Bool.and_eq_true_iff.mp hkept
    have htoken := of_decide_eq_true htoken
    -- The sender and the token decide what is looked for.
    have hsender : n'.senderAddr = n.senderAddr := congrArg Note.sender hsame
    have hlooks := ((hmem n').mp hn').2
    unfold LooksFor at hlooks ⊢
    rw [hsender, htoken] at hlooks
    exact ⟨hlooks, htoken ▸ hfilter⟩
  · rintro ⟨hlooks, hfilter⟩
    refine List.mem_map_of_mem (List.mem_filter.mpr ⟨(hmem n).mpr ⟨hn, hlooks⟩, ?_⟩)
    rw [hfilter, decide_eq_true rfl]
    rfl

/-! ### Notes of channels that the cursor has -/

/-- A note of a sender that the SDK does not know is not converted. -/
theorem convertIncomingNotes_error {channelKeyMap : List (Felt × Felt)} {known : NotesCursor}
    {tokenFilter : Option (List Felt)} {apiNotes : List DecryptedNote} {n : DecryptedNote}
    (hn : n ∈ apiNotes) (hfilter : inFilter tokenFilter n.token = true)
    (hmap : n.senderAddr ∉ keys channelKeyMap) (hknown : n.senderAddr ∉ keys known)
    {result : List (Felt × List Note)} :
    convertIncomingNotes channelKeyMap known tokenFilter apiNotes ≠ .ok result := by
  unfold convertIncomingNotes
  generalize ([] : List (Felt × List Note)) = start
  induction apiNotes generalizing start with
  | nil => cases hn
  | cons n' apiNotes ih =>
    rw [List.foldlM_cons]
    intro h
    obtain ⟨next, hnext, h⟩ := Fallible.bind_eq_ok.mp h
    rcases List.mem_cons.mp hn with rfl | hn
    · rw [hfilter, AddressMap.get_eq_none_iff.mpr hmap, AddressMap.get_eq_none_iff.mpr hknown] at hnext
      cases hnext
    · exact ih hn next h

/-- A page of a large budget processes the channels of the cursor in full: it returns what is left
in them, and looks for no others. -/
theorem IncomingPaged.returns_known {tokenFilter : Option (List Felt)} (hcurve : CurveLaw sn)
    (hrecover : RecoversPoints sn newFromX)
    (hkey : sn.derivePublicKey viewingKey = .ok publicKey) (hlater : s.Before D s')
    (hseen : cursor.Seen s.contents s.channels) {cursorLimits : CursorLimits}
    (hfits : (notesCursorToApiCursor cursor tokenFilter).Fits s'.contents s'.channels cursorLimits)
    {n : DecryptedNote} (hn : n ∈ s'.unspent viewingKey) (hknown : n.senderAddr ∈ keys cursor)
    (hlooks : LooksFor s'.contents cursor tokenFilter n) {resp : SyncIncomingStateResult}
    (hpaged : IncomingPaged True sn s'.backend s'.contents s'.channels viewingKey cursorLimits
      (notesCursorToApiCursor cursor tokenFilter) resp) :
    n ∈ resp.notes ∧ resp.channels = [] := by
  have hheld := s'.held hcurve hrecover hkey
  have hfollows : (notesCursorToApiCursor cursor tokenFilter).Follows s'.contents s'.channels :=
    notesCursorToApiCursor_follows hseen (s.held hcurve hrecover hkey).listed.nodup
      (hlater.grown hcurve hrecover hkey)
  obtain ⟨entry, hentry, hsender⟩ := List.mem_map.mp hknown
  have hget : AddressMap.get cursor n.senderAddr = some entry.2 :=
    (AddressMap.get_eq_some_iff hseen.nodup).mpr (hsender ▸ hentry)
  have hsent : (n.senderAddr, resumedChannel tokenFilter entry.2) ∈
      (notesCursorToApiCursor cursor tokenFilter).channels := by
    rw [channels_notesCursorToApiCursor, ← hsender]
    exact List.mem_map_of_mem hentry
  have hincomplete : (resumedChannel tokenFilter entry.2).isComplete = false := by
    unfold ChannelCursor.isComplete
    rw [(hlooks _ hget).1, Bool.false_and]
  -- The channel is not complete, so that the page processes the known channels and finds no other.
  obtain ⟨scanned, results, hsteps, hprocessed⟩ := hpaged.steps
  rcases hsteps with ⟨hall, -⟩ | ⟨-, rfl, hfound⟩
  · have hdone := List.all_eq_true.mp hall _ hsent
    rw [hincomplete] at hdone
    cases hdone
  · obtain ⟨processed, hresult, hR⟩ :=
      exists_right_of_forall₂ hprocessed.paged (mem_pending.mpr ⟨hsent, hincomplete⟩)
    have hknown' := hfollows.known _ hsent
    have hentry' := hfollows.entries _ hsent
    have hcomplete := hR.isComplete_of_full hentry'.start_le (hfits.entries _ hsent)
    have hnotes := hR.notes_eq (hheld.held _ (List.mem_of_mem_take hknown')).nodup hentry'
    -- The channel is complete after the page, so that its notes are all returned.
    rw [ChannelCursor.weight_of_isComplete (fun _ _ => pendingNotes_of_complete) hcomplete,
      add_zero] at hnotes
    have hweight : (resumedChannel tokenFilter entry.2).weight s'.contents
        (pendingNotes sn s'.backend s'.contents viewingKey n.senderAddr entry.2.channelKey) =
          newInKnown sn s'.backend s'.contents viewingKey tokenFilter (n.senderAddr, entry.2) :=
      (hseen.entries entry hentry).weight_eq
    have hreturned : n ∈ processed.notes := by
      rw [← Multiset.mem_coe, hnotes]
      exact hweight ▸ mem_newInKnown hcurve hrecover hkey hlater hseen hn hlooks hget
    refine ⟨?_, hfound⟩
    rw [hprocessed.notes_eq]
    exact List.mem_flatMap.mpr ⟨processed, hresult, hreturned⟩

/-- On a large budget the server processes the channels of the cursor in full on the first page,
and returns no channel there. So the SDK lacks the key of a note that it has to convert. -/
theorem firstPage_throws (tokens : Option (List Felt)) (hcurve : CurveLaw sn)
    (hrecover : RecoversPoints sn newFromX)
    (hkey : sn.derivePublicKey viewingKey = .ok publicKey) (hlater : s.Before D s')
    (hseen : cursor.Seen s.contents s.channels) {cursorLimits : CursorLimits}
    (hfits : (notesCursorToApiCursor cursor (tokens.map List.dedup)).Fits s'.contents s'.channels
      cursorLimits) {n : DecryptedNote} (hn : n ∈ s'.unspent viewingKey) (hknown : n.senderAddr ∈ keys cursor)
    (hlooks : LooksFor s'.contents cursor (tokens.map List.dedup) n)
    (hfilter : inFilter tokens n.token = true) (schedules : ℕ → Schedule) :
    ∃ enough, ∀ limits : ValidationLimits, limits.cursorLimits = cursorLimits →
      enough ≤ limits.serverBudget → ¬∃ notes cursor', DiscoversNotes sn newFromX s'.backend limits
        address viewingKey (some cursor) tokens schedules notes cursor' := by
  have hfollows : (notesCursorToApiCursor cursor (tokens.map List.dedup)).Follows s'.contents
      s'.channels := notesCursorToApiCursor_follows hseen
    (s.held hcurve hrecover hkey).listed.nodup (hlater.grown hcurve hrecover hkey)
  have hwithin : (syncIncomingState sn newFromX s'.backend address viewingKey
      (notesCursorToApiCursor cursor (tokens.map List.dedup)) cursorLimits (schedules 0)).Within True
        (fun _ => (notesCursorToApiCursor cursor (tokens.map List.dedup)).Exceeds s'.contents
          s'.channels cursorLimits.maxNoteLogIndex)
        (IncomingPaged True sn s'.backend s'.contents s'.channels viewingKey cursorLimits
          (notesCursorToApiCursor cursor (tokens.map List.dedup))) :=
    syncIncomingState_within (s'.held hcurve hrecover hkey) hfollows
  obtain ⟨enough, hrun⟩ := hwithin.run_of_le
  refine ⟨enough, ?_⟩
  rintro limits rfl hbudget ⟨notes, cursor', apiCursor, hends⟩
  -- A loop that returns passes its first page.
  obtain ⟨next, ended, hok⟩ : ∃ next ended, discoverNotesPage sn newFromX s'.backend limits address
      viewingKey (tokens.map List.dedup) schedules 0 (discoverNotesStart (some cursor)
        (tokens.map List.dedup)) = .ok (next, ended) := by
    rcases Loop.ends_iff.mp hends with hlast | ⟨next, hnext, -⟩
    · exact ⟨_, _, hlast⟩
    · exact ⟨_, _, hnext⟩
  obtain ⟨resp, notesByToken, hsync, hconverted, -, -⟩ := discoverNotesPage_eq_ok hok
  -- The budget is enough for the page to end.
  have hpaged : IncomingPaged True sn s'.backend s'.contents s'.channels viewingKey
      limits.cursorLimits (notesCursorToApiCursor cursor (tokens.map List.dedup)) resp := by
    have houtcome := hrun limits.serverBudget hbudget
    change (syncIncomingState sn newFromX s'.backend address viewingKey
      (notesCursorToApiCursor cursor (tokens.map List.dedup)) limits.cursorLimits
        (schedules 0)).outcome limits.serverBudget = .ok resp at hsync
    rw [hsync] at houtcome
    exact houtcome
  obtain ⟨hmem, hfound⟩ :=
    IncomingPaged.returns_known hcurve hrecover hkey hlater hseen hfits hn hknown hlooks hpaged
  refine convertIncomingNotes_error hmem ((inFilter_dedup tokens n.token).trans hfilter) ?_
    List.not_mem_nil hconverted
  rw [hfound]
  exact List.not_mem_nil

end PrivacyPool.Sdk
