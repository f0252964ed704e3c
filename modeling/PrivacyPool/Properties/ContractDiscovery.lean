import PrivacyPool.Properties.ContractViews
import PrivacyPool.Properties.IncrementalSync
import PrivacyPool.Properties.TokenFilter

/-!
# Calls of `discoverNotes` over the contract

A call returns every unspent note that passes its filter, and note counts that are within
the true ones. From the cursor of an earlier call it looks at the subchannels of the cursor
twice: a scan starts its touches and its bisection at index zero wherever it was to start, so
the scans that are resumed find the notes of the cursor again, and so does the scan for
subchannels, which looks for the notes of each one that it finds.

## Main definitions

* `ContractSynced` — the cursor after calls at states one after another
* `ReturnsOnce` — what a call returns has each note once

## Main results

* `contract_discovery_iff` — when a call returns each note once
-/

namespace PrivacyPool.Sdk

open Discovery HashMap

variable {sn : Starknet} {recoverPointFromX : Felt → Option sn.EcPoint} {D : Domain}
  {address : ContractAddress} {viewingKey publicKey : Felt} {s s' : UserState sn address publicKey}
  {cursor : NotesCursor}

/-- The cursor after calls of `discoverNotes` over the contract, at states one after another:
the first call has no cursor, and each other one has that of the call before. -/
inductive ContractSynced (sn : Starknet) (recoverPointFromX : Felt → Option sn.EcPoint)
    (D : Domain) (address : ContractAddress) (viewingKey publicKey : Felt) :
    UserState sn address publicKey → NotesCursor → Prop
  | fresh {s : UserState sn address publicKey} {tokens : List Felt}
      {notes : List (Felt × List Note)} {cursor : NotesCursor} (hcontiguous : s.Contiguous)
      (hcall : NotesDiscovery.Discovers sn recoverPointFromX s.backend address viewingKey tokens
        none notes cursor) :
    ContractSynced sn recoverPointFromX D address viewingKey publicKey s cursor
  | resumed {s s' : UserState sn address publicKey} {tokens : List Felt}
      {notes : List (Felt × List Note)} {cursor cursor' : NotesCursor}
      (before : ContractSynced sn recoverPointFromX D address viewingKey publicKey s cursor)
      (hlater : s.Before D s') (hcontiguous : s'.Contiguous)
      (hcall : NotesDiscovery.Discovers sn recoverPointFromX s'.backend address viewingKey tokens
        (some cursor) notes cursor') :
    ContractSynced sn recoverPointFromX D address viewingKey publicKey s' cursor'

/-- A call returns no note twice, every unspent note that passes its filter, and note counts
within the true ones. -/
structure ReturnsOnce (s : UserState sn address publicKey) (viewingKey : Felt) (tokens : List Felt)
    (notes : List (Felt × List Note)) (cursor : NotesCursor) : Prop where
  nodup : (NotesDiscovery.allNotes notes).Nodup
  complete : ∀ n ∈ s.unspent viewingKey, NotesDiscovery.Passes tokens n.token →
    returnedNote s.channels n ∈ NotesDiscovery.allNotes notes
  noteIndexes_le : ∀ entry ∈ cursor, ∀ sub ∈ entry.2.noteIndexes,
    sub.2 ≤ s.contents.count entry.2.channelKey sub.1

/-! ### Cursors over time -/

namespace NotesDiscovery

variable {contents contents' : Contents} {channels channels' : List IncomingChannel}

/-- A cursor follows what the pool has grown to. -/
theorem Follows.grown (h : Follows contents channels cursor)
    (hgrown : contents.Grown contents' channels channels') :
    Follows contents' channels' cursor where
  nodup := h.nodup
  channel entry hentry := hgrown.channels_prefix.subset (h.channel entry hentry)
  within entry hentry := by
    have hwithin := h.within entry hentry
    have hchannel := h.channel entry hentry
    have htokens := hgrown.tokens_prefix _ hchannel
    refine ⟨hwithin.index_le.trans htokens.length_le, hwithin.nodup, fun sub hsub => ?_⟩
    obtain ⟨htoken, hcount⟩ := hwithin.noteIndexes sub hsub
    exact ⟨htokens.subset htoken, hcount.trans (hgrown.count_le _ hchannel _ htoken)⟩
  first := by
    have hlength : cursor.length ≤ channels.length := by
      have hkeys := h.first.length_eq
      rw [keys, List.length_map, List.length_map, List.length_take] at hkeys
      omega
    obtain ⟨rest, rfl⟩ := hgrown.channels_prefix
    rw [List.take_append_of_le_length hlength]
    exact h.first

theorem follows_nil : Follows contents channels [] where
  nodup := List.nodup_nil
  channel _ h := nomatch h
  within _ h := nomatch h
  first := List.Perm.nil

end NotesDiscovery

/-- The cursor follows the state of the last call. -/
theorem ContractSynced.follows (hcurve : CurveLaw sn)
    (hrecover : RecoversPoints sn recoverPointFromX) (hkey : OwnKey sn viewingKey publicKey)
    (h : ContractSynced sn recoverPointFromX D address viewingKey publicKey s cursor) :
    NotesDiscovery.Follows s.contents s.channels cursor := by
  induction h with
  | fresh hcontiguous hcall =>
    obtain ⟨-, hfollows, -⟩ := hcall.spec (UserState.readable hcurve hrecover hkey hcontiguous)
      NotesDiscovery.follows_nil
    exact hfollows
  | resumed before hlater hcontiguous hcall ih =>
    obtain ⟨-, hfollows, -⟩ := hcall.spec (UserState.readable hcurve hrecover hkey hcontiguous)
      (ih.grown (hlater.grown hcurve hrecover hkey.derived))
    exact hfollows

/-- From a cursor that follows the pool, a call returns each note once just when no subchannel of
the cursor that passes the filter has an unspent note. -/
theorem returnsOnce_iff {existing : Option NotesCursor} {tokens : List Felt}
    {notes : List (Felt × List Note)} {cursor' : NotesCursor}
    (hread : NotesDiscovery.Readable sn recoverPointFromX s.backend address viewingKey s.channels
      s.contents)
    (hfollows : NotesDiscovery.Follows s.contents s.channels (existing.getD []))
    (hcall : NotesDiscovery.Discovers sn recoverPointFromX s.backend address viewingKey tokens
      existing notes cursor') :
    ReturnsOnce s viewingKey tokens notes cursor' ↔
      ∀ n ∈ s.unspent viewingKey, NotesDiscovery.Passes tokens n.token →
        ¬InCursor (existing.getD []) n.senderAddr n.token := by
  obtain ⟨hnotes, hfollows', -⟩ := hcall.spec hread hfollows
  rw [← nodup_found_iff tokens hfollows.toKnown, ← hnotes]
  refine ⟨ReturnsOnce.nodup, fun hnodup => ⟨hnodup, fun n hn hpasses => ?_, ?_⟩⟩
  · rw [hnotes, Multiset.mem_add]
    exact .inl ((mem_sum_notesIn_iff tokens).mpr ⟨n, hn, hpasses, rfl⟩)
  · intro entry hentry sub hsub
    exact ((hfollows'.within entry hentry).noteIndexes sub hsub).2

/-- **Contract discovery.** A call with no cursor, or with the cursor of earlier calls, returns.
Whatever it returns has each unspent note that passes its filter, counts within the true
ones, and no note twice just when no subchannel of the cursor that passes the filter has an
unspent note. -/
theorem contract_discovery_iff (hcurve : CurveLaw sn)
    (hrecover : RecoversPoints sn recoverPointFromX) (hkey : OwnKey sn viewingKey publicKey)
    (hcontiguous : s'.Contiguous) (tokens : List Felt) {existing : Option NotesCursor}
    (hexisting : ∀ cursor ∈ existing, ∃ s : UserState sn address publicKey,
      ContractSynced sn recoverPointFromX D address viewingKey publicKey s cursor ∧
        s.Before D s') :
    (∃ notes cursor', NotesDiscovery.Discovers sn recoverPointFromX s'.backend address viewingKey
      tokens existing notes cursor') ∧
    ∀ notes cursor', NotesDiscovery.Discovers sn recoverPointFromX s'.backend address viewingKey
        tokens existing notes cursor' →
      (ReturnsOnce s' viewingKey tokens notes cursor' ↔
        ∀ n ∈ s'.unspent viewingKey, NotesDiscovery.Passes tokens n.token →
          ¬InCursor (existing.getD []) n.senderAddr n.token) := by
  have hread := UserState.readable hcurve hrecover hkey hcontiguous
  have hfollows : NotesDiscovery.Follows s'.contents s'.channels (existing.getD []) := by
    cases existing with
    | none => exact NotesDiscovery.follows_nil
    | some cursor =>
      obtain ⟨s, hsynced, hlater⟩ := hexisting cursor rfl
      exact (hsynced.follows hcurve hrecover hkey).grown
        (hlater.grown hcurve hrecover hkey.derived)
  exact ⟨NotesDiscovery.exists_discovers tokens hread hfollows,
    fun notes cursor' hcall => returnsOnce_iff hread hfollows hcall⟩

namespace Sample

theorem ownKey : OwnKey Starknet.sample 3 3 where
  ne_zero := by decide
  canonical := by decide
  derived := derived

/-- The sample platform hashes the ids of all other subchannels to one value. -/
theorem computeSubchannelId_of_le {index : ℕ} (hlow : 1 ≤ index) (hhigh : index < 2 ^ 64) :
    computeSubchannelId Starknet.sample 1 index = 10 := by
  have hval : (feltOfNat index).val = index := Nat.mod_eq_of_lt (hhigh.trans (by decide))
  have hne : feltOfNat index ≠ 0 := by
    intro hzero
    have : (feltOfNat index).val = 0 := congrArg Fin.val hzero
    omega
  have hnot : [subchannelIdTag, 1, feltOfNat index, 0] ∉ sampleSpans := by
    have htag : ∀ span ∈ sampleSpans, span.headD 0 = subchannelIdTag → span.getD 2 0 = 0 := by
      decide +kernel
    exact fun hmem => hne (htag _ hmem rfl)
  have hindex := List.idxOf_eq_length hnot
  unfold computeSubchannelId
  simp only [Starknet.sample]
  rw [hindex]
  rfl

theorem spent_contiguous : spentState.Contiguous := by
  have hfirst : spentState.backend.pool.read Starknet.sample .subchannelTokens
      (computeSubchannelId Starknet.sample 1 0) 0 ≠ 0 := by decide +kernel
  have hblank : spentState.backend.pool.read Starknet.sample .subchannelTokens 10 0 = 0 := by
    decide +kernel
  intro channel hchannel index hindex
  obtain rfl := List.mem_singleton.mp hchannel
  rcases Nat.eq_zero_or_pos index with rfl | hpos
  · exact iff_of_true hfirst Nat.one_pos
  · rw [computeSubchannelId_of_le hpos hindex]
    exact iff_of_false (not_not.mpr hblank) (Nat.not_lt.mpr hpos)

theorem spent_covered : IncomingCovered Domain.sample spentState.account := by
  have hsubchannel : (Slot.subchannelToken 1 0).Covered Domain.sample := by
    change _ ∈ sampleSpans
    decide +kernel
  have hnotes : ∀ index : Fin 2, (Slot.note ⟨1, 77, ⟨index.val, by omega⟩⟩).Covered
      Domain.sample := by
    intro index
    change _ ∈ sampleSpans
    revert index
    decide +kernel
  intro channel hchannel
  obtain rfl := List.mem_singleton.mp hchannel
  refine ⟨fun index hindex => ?_, fun subchannel hsub index hindex => ?_⟩
  · obtain rfl : index = 0 := Fin.ext (Nat.lt_one_iff.mp hindex)
    exact hsubchannel
  · obtain rfl := List.mem_singleton.mp hsub
    exact hnotes ⟨index.val, hindex⟩

theorem spent_before_spent : spentState.Before Domain.sample spentState :=
  UserState.before_of_run sample_noCollision PrivacyPool.Sample.run List.mem_cons_self rfl rfl
    spent_covered

/-- What user 5 has of its channel after a call. -/
def contractCursor : NotesCursor := [(5, ⟨1, 0, [(77, 2)], []⟩)]

/-- A first call returns the open note, and counts both notes. -/
theorem firstContractCall : ∃ notes, NotesDiscovery.Discovers Starknet.sample
    Starknet.sampleRecover spentState.backend 5 3 [] none notes contractCursor := by
  have hsettles : (Tracker.settle (NotesDiscovery.resume Starknet.sample Starknet.sampleRecover
      Discovery.Sample.backend 5 3 []) 60 { cursor := [] } (NotesDiscovery.start [])).map
        (fun st => (st.cursor, st.errors)) = some (contractCursor, []) := by
    decide +kernel
  obtain ⟨st, hst, hsame⟩ := Option.map_eq_some_iff.mp hsettles
  obtain ⟨hcursor, herrors⟩ := Prod.mk.inj hsame
  refine ⟨st.notes, ?_⟩
  have hrun := Tracker.run_of_settle hst
  have hend : ({ notes := st.notes, cursor := contractCursor, errors := [] } :
      NotesDiscovery.State) = st := by
    rw [← hcursor, ← herrors]
  unfold NotesDiscovery.Discovers
  rw [hend]
  exact hrun

/-- The open note is in a subchannel of the cursor. -/
theorem inCursor : ∃ n ∈ spentState.unspent 3, n.token = 77 ∧
    InCursor contractCursor n.senderAddr n.token := by
  obtain ⟨n, hn, hsender, htoken⟩ : ∃ n ∈ spentState.unspent 3,
      n.senderAddr = ContractAddress.toFelt 5 ∧ n.token = 77 := by decide +kernel
  refine ⟨n, hn, htoken, ⟨1, 0, [(77, 2)], []⟩, ?_, ?_⟩
  · rw [hsender]
    decide
  · rw [htoken]
    exact List.mem_cons_self

end Sample

/-- After a call user 5 looks for notes of token 78 only, and gets the open note of token 77
from the cursor once. -/
theorem contract_discovery_iff_sample : ∃ notes cursor',
    NotesDiscovery.Discovers Starknet.sample Starknet.sampleRecover Sample.spentState.backend 5 3
      [78] (some Sample.contractCursor) notes cursor' ∧
    ReturnsOnce Sample.spentState 3 [78] notes cursor' := by
  obtain ⟨_, hfirst⟩ := Sample.firstContractCall
  have hsynced : ContractSynced Starknet.sample Starknet.sampleRecover Domain.sample 5 3 3
      Sample.spentState Sample.contractCursor := .fresh Sample.spent_contiguous hfirst
  have hexisting : ∀ cursor ∈ some Sample.contractCursor, ∃ s : UserState Starknet.sample 5 3,
      ContractSynced Starknet.sample Starknet.sampleRecover Domain.sample 5 3 3 s cursor ∧
        s.Before Domain.sample Sample.spentState := by
    intro cursor hcursor
    obtain rfl := Option.some.inj hcursor
    exact ⟨Sample.spentState, hsynced, Sample.spent_before_spent⟩
  obtain ⟨⟨notes, cursor', hcall⟩, hiff⟩ := contract_discovery_iff Starknet.sample_curveLaw
    Starknet.sample_recoversPoints Sample.ownKey Sample.spent_contiguous [78] hexisting
  refine ⟨notes, cursor', hcall, (hiff notes cursor' hcall).mpr fun n hn hpasses => ?_⟩
  rw [Sample.token_of_unspent hn] at hpasses
  exact absurd hpasses (by decide)

/-- A second call without a filter returns the open note of user 5 twice. -/
theorem contract_discovery_twice :
    ContractSynced Starknet.sample Starknet.sampleRecover Domain.sample 5 3 3 Sample.spentState
      Sample.contractCursor ∧
    Sample.spentState.Before Domain.sample Sample.spentState ∧ Sample.spentState.Contiguous ∧
    ∃ notes cursor', NotesDiscovery.Discovers Starknet.sample Starknet.sampleRecover
        Sample.spentState.backend 5 3 [] (some Sample.contractCursor) notes cursor' ∧
      ¬(NotesDiscovery.allNotes notes).Nodup := by
  obtain ⟨_, hfirst⟩ := Sample.firstContractCall
  have hsynced : ContractSynced Starknet.sample Starknet.sampleRecover Domain.sample 5 3 3
      Sample.spentState Sample.contractCursor := .fresh Sample.spent_contiguous hfirst
  refine ⟨hsynced, Sample.spent_before_spent, Sample.spent_contiguous, ?_⟩
  have hfollows := hsynced.follows Starknet.sample_curveLaw Starknet.sample_recoversPoints
    Sample.ownKey
  have hread := UserState.readable Starknet.sample_curveLaw Starknet.sample_recoversPoints
    Sample.ownKey Sample.spent_contiguous
  obtain ⟨notes, cursor', hcall⟩ : ∃ notes cursor', NotesDiscovery.Discovers Starknet.sample
      Starknet.sampleRecover Sample.spentState.backend 5 3 [] (some Sample.contractCursor) notes
        cursor' := NotesDiscovery.exists_discovers [] hread hfollows
  refine ⟨notes, cursor', hcall, fun hnodup => ?_⟩
  obtain ⟨hnotes, -⟩ := hcall.spec hread hfollows
  rw [hnotes, Option.getD_some, nodup_found_iff [] hfollows.toKnown] at hnodup
  obtain ⟨n, hn, -, hcursor⟩ := Sample.inCursor
  exact hnodup n hn (fun hfilter => hfilter.1 rfl) hcursor

end PrivacyPool.Sdk
