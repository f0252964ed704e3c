import PrivacyPool.Properties.ResumedCalls

/-!
# Incremental sync

A call of `discoverNotes` with the cursor of an earlier one finds the notes of new channels.
In a subchannel that the cursor has it looks for none: it sends back the total that was found
at the time, and the server takes it for the current one. Notes of a new subchannel of a
channel that the cursor has are returned by the server, but on a page that does not have the
key of the channel, and the SDK throws.

## Main definitions

* `CreatedAfter` — a note was created after a state
* `LeavesRoom` — the limits leave room for a later call
* `GainReturned` — a later call returns the notes that were created in between

## Main results

* `incremental_sync_iff` — when a later call returns them
-/

namespace PrivacyPool.Sdk

open Discovery HashMap

variable {sn : Starknet} {newFromX : Felt → Option sn.EcPoint} {D : Domain}
  {address : ContractAddress} {viewingKey publicKey : Felt} {s s' : UserState sn address publicKey}
  {cursor : NotesCursor}

/-- A note was created after a state: its slot was empty there. -/
def CreatedAfter (s : UserState sn address publicKey) (n : DecryptedNote) : Prop :=
  s.backend.pool.read sn .notes n.noteId 0 = 0

/-- The limits leave room for a call at the later state with the channels of the earlier one
in its cursor. -/
structure LeavesRoom (s s' : UserState sn address publicKey) (limits : ValidationLimits) : Prop where
  budget : minServerBudget limits.cursorLimits.maxNoteLogIndex ≤ limits.serverBudget
  slots : s.account.length + max 1 (s'.account.length - s.account.length) ≤
    limits.cursorLimits.maxChannels
  channels : ∀ channel ∈ s'.account, ChannelFits limits.cursorLimits channel

/-- Whatever the limits and the schedules are, a call at the later state returns the unspent
notes that were created since the earlier one. -/
def GainReturned (newFromX : Felt → Option sn.EcPoint) (viewingKey : Felt)
    (s s' : UserState sn address publicKey) (cursor : NotesCursor) : Prop :=
  ∀ limits, LeavesRoom s s' limits → ∀ schedules, ∃ notes cursor',
    DiscoversNotes sn newFromX s'.backend limits address viewingKey (some cursor) none schedules
      notes cursor' ∧
    ∀ n ∈ s'.unspent viewingKey, CreatedAfter s n → HasNote s'.account notes n

/-- Some limits leave room, whatever else the budget has to be. -/
theorem exists_leavesRoom (s s' : UserState sn address publicKey) :
    ∃ cursorLimits : CursorLimits, ∀ maxRecipients budget,
      minServerBudget cursorLimits.maxNoteLogIndex ≤ budget →
        LeavesRoom s s' ⟨cursorLimits, maxRecipients, budget⟩ := by
  have hlt : 2 ^ 32 < 2 ^ 33 := by decide
  refine ⟨⟨s.account.length + max 1 (s'.account.length - s.account.length), 2 ^ 32 + 1, 33⟩,
    fun _ _ hbudget => ⟨hbudget, le_rfl, fun channel hchannel => ⟨?_, fun subchannel hsub => ?_⟩⟩⟩
  · exact Nat.lt_succ_of_le (s'.stored.stored channel hchannel).length_le
  · exact (((s'.stored.stored channel hchannel).stored subchannel hsub).length_le).trans_lt hlt

/-- So the cursor of the later call fits. -/
theorem LeavesRoom.fits (hcurve : CurveLaw sn) (hrecover : RecoversPoints sn newFromX)
    (hkey : sn.derivePublicKey viewingKey = .ok publicKey) (hlater : s.Before D s')
    (hseen : cursor.Seen s.contents s.channels) {limits : ValidationLimits}
    (h : LeavesRoom s s' limits) (tokenFilter : Option (List Felt)) :
    (notesCursorToApiCursor cursor tokenFilter).Fits s'.contents s'.channels
      limits.cursorLimits :=
  (notesCursorToApiCursor_fits_iff hseen (s.held hcurve hrecover hkey).listed.nodup
    (hlater.grown hcurve hrecover hkey) (s'.fits_new h.channels)).mpr
      (by simpa only [List.length_map] using h.slots)

/-- A call without a filter looks for what the cursor has not scanned. -/
theorem looksFor_none_iff (hcurve : CurveLaw sn) (hrecover : RecoversPoints sn newFromX)
    (hkey : sn.derivePublicKey viewingKey = .ok publicKey) (hlater : s.Before D s')
    (hseen : cursor.Seen s.contents s.channels) {n : DecryptedNote} {icc : IncomingChannelCursor}
    (hn : n ∈ s'.unspent viewingKey) (hget : AddressMap.get cursor n.senderAddr = some icc) :
    LooksFor s'.contents cursor none n ↔
      n.token ∉ (s.contents.tokens icc.channelKey).take icc.subchannelIdIndex := by
  have hgrown := hlater.grown hcurve hrecover hkey
  have hheld := s'.held hcurve hrecover hkey
  have htokens := hgrown.tokens_prefix _ (hseen.known _ (AddressMap.mem_of_get hget))
  have hindex := (hseen.entries _ (AddressMap.mem_of_get hget)).index_le
  rw [← take_eq_take_of_le htokens hindex]
  obtain ⟨htoken, -⟩ := pending_of_get hcurve hrecover hkey hlater hseen hn hget
  have hknown := hgrown.channels_prefix.subset (hseen.known _ (AddressMap.mem_of_get hget))
  have hnodup := (hheld.held _ hknown).nodup
  dsimp only at htoken hnodup
  rw [← List.take_append_drop icc.subchannelIdIndex (s'.contents.tokens icc.channelKey)]
    at htoken hnodup
  constructor
  · intro hlooks hscanned
    exact List.disjoint_of_nodup_append hnodup hscanned (hlooks icc hget).2
  · intro hopen icc' hget'
    obtain rfl := Option.some.inj (hget.symm.trans hget')
    exact ⟨rfl, (List.mem_append.mp htoken).resolve_left hopen⟩

/-- A later call has a result when the cursor has scanned the subchannels of all unspent notes in
its channels. -/
theorem exists_laterCall (hcurve : CurveLaw sn) (hrecover : RecoversPoints sn newFromX)
    (hkey : sn.derivePublicKey viewingKey = .ok publicKey) (hlater : s.Before D s')
    (hseen : cursor.Seen s.contents s.channels) {limits : ValidationLimits}
    (hroom : LeavesRoom s s' limits)
    (hscanned : ∀ n ∈ s'.unspent viewingKey, ∀ icc,
      AddressMap.get cursor n.senderAddr = some icc →
        n.token ∈ (s.contents.tokens icc.channelKey).take icc.subchannelIdIndex)
    (schedules : ℕ → Schedule) :
    ∃ notes cursor', DiscoversNotes sn newFromX s'.backend limits address viewingKey (some cursor)
      none schedules notes cursor' := by
  have hnew : ∀ entry ∈ cursor, newInKnown sn s'.backend s'.contents viewingKey none entry = 0 := by
    intro entry hentry
    refine Multiset.eq_zero_of_forall_notMem fun n hmem => ?_
    obtain ⟨hn, hlooks, hsender⟩ := of_mem_newInKnown hcurve hrecover hkey hlater hseen hentry hmem
    have hget : AddressMap.get cursor n.senderAddr = some entry.2 :=
      (AddressMap.get_eq_some_iff hseen.nodup).mpr (hsender ▸ hentry)
    exact (looksFor_none_iff hcurve hrecover hkey hlater hseen hn hget).mp hlooks
      (hscanned n hn _ hget)
  refine (discoverNotes_resumed_iff none (s'.held hcurve hrecover hkey)
    (validateViewingKey_ok hkey s'.registered) hroom.budget hseen
    (hlater.grown hcurve hrecover hkey) ?_ (s'.fits_new hroom.channels) hnew schedules).mpr ?_
  · have := hroom.slots
    rw [List.length_map]
    omega
  · simpa only [List.length_map] using hroom.slots

/-- **Incremental sync.** A later call returns the unspent notes that were created in between
just when no channel of the cursor has one of them, and all unspent notes of these channels
are in subchannels that were scanned. -/
theorem incremental_sync_iff (hcurve : CurveLaw sn) (hrecover : RecoversPoints sn newFromX)
    (hkey : sn.derivePublicKey viewingKey = .ok publicKey)
    (hsynced : Synced sn newFromX D address viewingKey publicKey s cursor)
    (hlater : s.Before D s') :
    GainReturned newFromX viewingKey s s' cursor ↔ ∀ n ∈ s'.unspent viewingKey, ∀ icc,
      AddressMap.get cursor n.senderAddr = some icc →
        n.token ∈ (s.contents.tokens icc.channelKey).take icc.subchannelIdIndex ∧
          ¬CreatedAfter s n := by
  have hseen := hsynced.seen hcurve hrecover hkey
  constructor
  · intro hgain n hn icc hget
    have hlooks_iff := looksFor_none_iff hcurve hrecover hkey hlater hseen hn hget
    obtain ⟨cursorLimits, hroom⟩ := exists_leavesRoom s s'
    have hscanned : n.token ∈ (s.contents.tokens icc.channelKey).take icc.subchannelIdIndex := by
      -- On a large budget the call would throw at a note in a known channel.
      by_contra hopen
      obtain ⟨enough, hthrows⟩ := firstPage_throws none hcurve hrecover hkey hlater hseen
        ((hroom 0 _ le_rfl).fits hcurve hrecover hkey hlater hseen _) hn (mem_keys_of_mem (AddressMap.mem_of_get hget))
        (hlooks_iff.mpr hopen) rfl (fun _ => ⟨[], fun _ => []⟩)
      let wide := max enough (minServerBudget cursorLimits.maxNoteLogIndex)
      obtain ⟨notes, cursor', hcall, -⟩ := hgain ⟨cursorLimits, 0, wide⟩
        (hroom 0 wide (le_max_right _ _)) fun _ => ⟨[], fun _ => []⟩
      exact hthrows ⟨cursorLimits, 0, wide⟩ rfl (le_max_left _ _) ⟨notes, cursor', hcall⟩
    -- A note in a scanned subchannel is not looked for, so that a new one would be missed.
    refine ⟨hscanned, fun hcreated => ?_⟩
    obtain ⟨notes, cursor', hcall, hall⟩ := hgain _ (hroom 0 _ le_rfl) fun _ => ⟨[], fun _ => []⟩
    have hhas := (hasNote_later_iff hcurve hrecover hkey hlater hseen hcall hn).mp
      (hall n hn hcreated)
    exact hlooks_iff.mp hhas.1 hscanned
  -- No known channel has a note left to look for, so that the call returns those of the new ones.
  · intro hnone limits hroom schedules
    obtain ⟨notes, cursor', hcall⟩ := exists_laterCall hcurve hrecover hkey hlater hseen hroom
      (fun n hn icc hget => (hnone n hn icc hget).1) schedules
    refine ⟨notes, cursor', hcall, fun n hn hcreated => ?_⟩
    refine (hasNote_later_iff hcurve hrecover hkey hlater hseen hcall hn).mpr
      ⟨fun icc hget => ?_, rfl⟩
    exact absurd hcreated (hnone n hn icc hget).2

namespace Sample

/-- User 5 after its first list. -/
def fundedState : UserState Starknet.sample 5 3 where
  backend := ⟨PrivacyPool.Sample.funded.pool, fun _ => 7⟩
  account := [⟨5, 1, [⟨77, [⟨2, 100⟩]⟩]⟩]
  stored := Discovery.Sample.funded_accountStored
  registered := by decide +kernel

/-- User 5 after its second list, which has created an open note. -/
def spentState : UserState Starknet.sample 5 3 where
  backend := Discovery.Sample.backend
  account := Discovery.Sample.stored
  stored := Discovery.Sample.accountStored
  registered := registered

theorem funded_covered : IncomingCovered Domain.sample fundedState.account := by
  have hsubchannel : (Slot.subchannelToken 1 0).Covered Domain.sample := by
    change _ ∈ sampleSpans
    decide +kernel
  have hnote : (Slot.note ⟨1, 77, 0⟩).Covered Domain.sample := by
    change _ ∈ sampleSpans
    decide +kernel
  intro channel hchannel
  obtain rfl := List.mem_singleton.mp hchannel
  refine ⟨fun index hindex => ?_, fun subchannel hsub index hindex => ?_⟩
  · obtain rfl : index = 0 := Fin.ext (Nat.lt_one_iff.mp hindex)
    exact hsubchannel
  · obtain rfl := List.mem_singleton.mp hsub
    obtain rfl : index = 0 := Fin.ext (Nat.lt_one_iff.mp hindex)
    exact hnote

theorem funded_incomingFits : IncomingFits wideLimits.cursorLimits fundedState.account := by
  refine ⟨by decide, fun channel hchannel => ?_⟩
  obtain rfl := List.mem_singleton.mp hchannel
  refine ⟨by decide, fun subchannel hsub => ?_⟩
  obtain rfl := List.mem_singleton.mp hsub
  decide

theorem funded_before_spent : fundedState.Before Domain.sample spentState :=
  UserState.before_of_run sample_noCollision PrivacyPool.Sample.run
    (List.mem_cons_of_mem _ List.mem_cons_self) rfl rfl funded_covered

/-- The open note lies in a slot that was empty after the first list. -/
theorem created_note : ∃ n ∈ spentState.unspent 3, n.senderAddr = ContractAddress.toFelt 5 ∧
    CreatedAfter fundedState n := by
  unfold CreatedAfter
  decide +kernel

/-- User 5 before its first list, when the pool stores nothing for it. -/
def freshState : UserState Starknet.sample 5 3 where
  backend := ⟨PrivacyPool.Sample.deployed.pool, fun _ => 7⟩
  account := []
  stored := {
    announced := by
      have hvector : PrivacyPool.Sample.deployed.pool.recipientChannels 5 = [] := by decide +kernel
      rw [hvector]
      exact .nil
    length_lt := Nat.two_pow_pos _
    peers_nodup := List.nodup_nil
    keys_nodup := List.nodup_nil
    stored := nofun }
  registered := by decide +kernel

theorem fresh_before_funded : freshState.Before Domain.sample fundedState :=
  UserState.before_of_run sample_noCollision PrivacyPool.Sample.funding_run
    (List.mem_cons_of_mem _ List.mem_cons_self) rfl rfl nofun

/-- The deposited note is new after the first list. -/
theorem created_deposit : ∃ n ∈ fundedState.unspent 3, CreatedAfter freshState n := by
  unfold CreatedAfter
  decide +kernel

/-- Before its first list user 5 can sync, and its cursor has no channel. -/
theorem fresh_call : ∃ notes, DiscoversNotes Starknet.sample Starknet.sampleRecover
    freshState.backend wideLimits 5 3 none none (fun _ => ⟨[], fun _ => []⟩) notes [] := by
  obtain ⟨notes, cursor, hcall⟩ : ∃ notes cursor, DiscoversNotes Starknet.sample
      Starknet.sampleRecover freshState.backend wideLimits 5 3 none none
        (fun _ => ⟨[], fun _ => []⟩) notes cursor :=
    (discoverNotes_ends_iff Starknet.sample_curveLaw Starknet.sample_recoversPoints derived
      freshState.registered freshState.stored (by decide) none).mpr ⟨by decide, nofun⟩
  obtain ⟨-, -, -, hseen, -⟩ := discoverNotes_fresh Starknet.sample_curveLaw
    Starknet.sample_recoversPoints derived freshState.stored hcall
  obtain rfl : cursor = [] := List.eq_nil_iff_forall_not_mem.mpr fun entry hentry =>
    absurd (hseen.known entry hentry) List.not_mem_nil
  exact ⟨notes, hcall⟩

/-- After its first list user 5 can sync. The cursor has the channel of user 5 to itself, and
has scanned its subchannel. -/
theorem funded_call : ∃ notes cursor icc, DiscoversNotes Starknet.sample Starknet.sampleRecover
      fundedState.backend wideLimits 5 3 none none (fun _ => ⟨[], fun _ => []⟩) notes cursor ∧
    AddressMap.get cursor (ContractAddress.toFelt 5) = some icc ∧
      icc.channelKey = 1 ∧ icc.subchannelIdIndex = 1 := by
  obtain ⟨notes, cursor, hcall⟩ : ∃ notes cursor, DiscoversNotes Starknet.sample
      Starknet.sampleRecover fundedState.backend wideLimits 5 3 none none
        (fun _ => ⟨[], fun _ => []⟩) notes cursor :=
    (discoverNotes_ends_iff Starknet.sample_curveLaw Starknet.sample_recoversPoints derived
      fundedState.registered fundedState.stored (by decide) none).mpr funded_incomingFits
  obtain ⟨-, -, -, hseen, hscanned⟩ := discoverNotes_fresh Starknet.sample_curveLaw
    Starknet.sample_recoversPoints derived fundedState.stored hcall
  obtain ⟨icc, hget⟩ : ∃ icc, AddressMap.get cursor (ContractAddress.toFelt 5) = some icc := by
    refine Option.ne_none_iff_exists'.mp fun hnone => ?_
    rw [AddressMap.get_eq_none_iff] at hnone
    exact hnone (hseen.all ⟨1, 5⟩ List.mem_cons_self)
  have hmem := AddressMap.mem_of_get hget
  have hkey := congrArg IncomingChannel.channelKey (List.mem_singleton.mp (hseen.known _ hmem))
  dsimp only at hkey
  refine ⟨notes, cursor, icc, hcall, hget, hkey, (hscanned _ hmem).trans ?_⟩
  dsimp only
  rw [hkey]
  decide

end Sample

/-- User 5 syncs before its first list. A call after it, with the cursor of the sync, returns the
note of the new channel. -/
theorem incremental_sync_iff_sample :
    Synced Starknet.sample Starknet.sampleRecover Domain.sample 5 3 3 Sample.freshState [] ∧
      Sample.freshState.Before Domain.sample Sample.fundedState ∧
      (∃ n ∈ Sample.fundedState.unspent 3, CreatedAfter Sample.freshState n) ∧
      GainReturned Starknet.sampleRecover 3 Sample.freshState Sample.fundedState [] := by
  obtain ⟨notes, hcall⟩ := Sample.fresh_call
  refine ⟨.fresh hcall, Sample.fresh_before_funded, Sample.created_deposit,
    (incremental_sync_iff Starknet.sample_curveLaw Starknet.sample_recoversPoints Sample.derived
      (.fresh hcall) Sample.fresh_before_funded).mpr fun n hn icc hget => ?_⟩
  -- The cursor has no channel.
  cases hget

/-- User 5 syncs after its first list. A call after the second one, with the cursor of the sync,
does not return the open note, which lies in a subchannel that the cursor has. -/
theorem incremental_sync_misses : ∃ cursor,
    Synced Starknet.sample Starknet.sampleRecover Domain.sample 5 3 3 Sample.fundedState cursor ∧
      Sample.fundedState.Before Domain.sample Sample.spentState ∧
      ¬GainReturned Starknet.sampleRecover 3 Sample.fundedState Sample.spentState cursor := by
  obtain ⟨notes, cursor, icc, hfirst, hget, hkey, hindex⟩ := Sample.funded_call
  have hsynced : Synced Starknet.sample Starknet.sampleRecover Domain.sample 5 3 3
      Sample.fundedState cursor := .fresh hfirst
  refine ⟨cursor, hsynced, Sample.funded_before_spent, fun hgain => ?_⟩
  have hseen := hsynced.seen Starknet.sample_curveLaw Starknet.sample_recoversPoints Sample.derived
  obtain ⟨cursorLimits, hroom⟩ := exists_leavesRoom Sample.fundedState Sample.spentState
  obtain ⟨gained, cursor', hcall, hall⟩ := hgain _ (hroom 0 _ le_rfl) fun _ => ⟨[], fun _ => []⟩
  obtain ⟨n, hn, hsender, hcreated⟩ := Sample.created_note
  obtain ⟨hlooks, -⟩ := (hasNote_later_iff Starknet.sample_curveLaw Starknet.sample_recoversPoints
    Sample.derived Sample.funded_before_spent hseen hcall hn).mp (hall n hn hcreated)
  -- The cursor has the channel, and has scanned its only subchannel.
  obtain ⟨-, htoken⟩ := hlooks icc (hsender ▸ hget)
  rw [hkey, hindex] at htoken
  exact List.not_mem_nil htoken

end PrivacyPool.Sdk
