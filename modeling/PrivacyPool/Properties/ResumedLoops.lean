import PrivacyPool.Properties.CursorClosure
import PrivacyPool.Properties.IncrementalSync
import PrivacyPool.Properties.KnownChannels

/-!
# When the sync loops end

A loop of the SDK starts afresh, or from the cursor that an earlier one has returned. A cursor
of `discoverNotes` holds every channel that it has seen, so a call that resumes it has fewer
slots left: it needs one to see the end of the channels, even when there is no new one. It also
throws when it comes upon a new note of a channel that it holds. A call of `discoverChannels`
sends the channels along that it starts from, and prunes them as it goes.

## Main definitions

* `ResumedFits` — the limits leave room for a call from an earlier cursor

## Main results

* `discoverNotes_resumed_ends_iff` — when the loop of `discoverNotes` ends from an earlier cursor
* `sync_loops_end_iff` — when the sync loops end
-/

namespace PrivacyPool.Sdk

open Discovery HashMap

variable {sn : Starknet} {newFromX : Felt → Option sn.EcPoint} {D : Domain}
  {address : ContractAddress} {viewingKey publicKey : Felt} {s s' : UserState sn address publicKey}
  {cursor : NotesCursor} {tokens : Option (List Felt)}

/-! ### Notes -/

/-- The limits leave room for a call from an earlier cursor: what it sends first is accepted and
fits, and it looks for no note of its filter in the channels that the cursor has. -/
structure ResumedFits (s' : UserState sn address publicKey) (viewingKey : Felt)
    (limits : CursorLimits) (cursor : NotesCursor) (tokens : Option (List Felt)) : Prop where
  accepted : validateCursor (notesCursorToApiCursor cursor (tokens.map List.dedup)) limits = .ok ()
  fits : (notesCursorToApiCursor cursor (tokens.map List.dedup)).Fits s'.contents s'.channels limits
  nothing : ∀ n ∈ s'.unspent viewingKey, n.senderAddr ∈ keys cursor →
    inFilter tokens n.token = true → ¬LooksFor s'.contents cursor (tokens.map List.dedup) n

/-- A page that is taken is one on an accepted cursor. -/
theorem validateCursor_of_discoverNotesPage {backend : Backend} {limits : ValidationLimits}
    {tokenFilter : Option (List Felt)} {schedules : ℕ → Schedule} {round : ℕ}
    {state next : NotesState} {ended : Bool}
    (h : discoverNotesPage sn newFromX backend limits address viewingKey tokenFilter schedules round
      state = .ok (next, ended)) : validateCursor state.apiCursor limits.cursorLimits = .ok () := by
  unfold discoverNotesPage incomingSync at h
  obtain ⟨resp, hresp, -⟩ := Fallible.bind_eq_ok.mp h
  obtain ⟨⟨⟩, hvalid, -⟩ := Fallible.bind_eq_ok.mp (Fallible.mapError_eq_ok.mp hresp)
  exact hvalid

/-- A cursor that has seen the pool is within the limits when the server accepts it: each of its
subchannels has a total. -/
theorem notesCursorToApiCursor_valid_of_accepted {contents : Contents}
    {channels : List IncomingChannel} {limits : CursorLimits} {tokenFilter : Option (List Felt)}
    (hseen : cursor.Seen contents channels)
    (haccepted : validateCursor (notesCursorToApiCursor cursor tokenFilter) limits = .ok ()) :
    (notesCursorToApiCursor cursor tokenFilter).Valid limits := by
  have haccepted := validateCursor_eq_ok_iff.mp haccepted
  refine ⟨haccepted.channels_le, fun entry hentry => ⟨haccepted.subchannels_le entry hentry,
    fun sub hsub => ⟨haccepted.total_le entry hentry sub hsub,
      haccepted.start_le entry hentry sub hsub, fun hnone => ?_⟩⟩⟩
  rw [channels_notesCursorToApiCursor] at hentry
  obtain ⟨old, hold, rfl⟩ := List.mem_map.mp hentry
  obtain ⟨-, -, -, total, htotal, -⟩ := (hseen.entries old hold).mem_resumed hsub
  rw [htotal] at hnone
  cases hnone

/-- From an earlier cursor the loop of `discoverNotes` ends on every budget, whatever the schedules
are, just when the limits leave room. -/
theorem discoverNotes_resumed_ends_iff (hcurve : CurveLaw sn) (hrecover : RecoversPoints sn newFromX)
    (hkey : sn.derivePublicKey viewingKey = .ok publicKey)
    (hsynced : Synced sn newFromX D address viewingKey publicKey s cursor)
    (hlater : s.Before D s') (tokens : Option (List Felt)) (cursorLimits : CursorLimits)
    (maxRecipients : ℕ) :
    (∀ budget, minServerBudget cursorLimits.maxNoteLogIndex ≤ budget → ∀ schedules,
      ∃ notes cursor', DiscoversNotes sn newFromX s'.backend ⟨cursorLimits, maxRecipients, budget⟩
        address viewingKey (some cursor) tokens schedules notes cursor') ↔
      ResumedFits s' viewingKey cursorLimits cursor tokens := by
  have hseen := hsynced.seen hcurve hrecover hkey
  have hheld := s'.held hcurve hrecover hkey
  have hgrown := hlater.grown hcurve hrecover hkey
  have hnodup := (s.held hcurve hrecover hkey).listed.nodup
  constructor
  · intro hall
    obtain ⟨notes, cursor', apiCursor, hends⟩ :=
      hall (minServerBudget cursorLimits.maxNoteLogIndex) le_rfl fun _ => ⟨[], fun _ => []⟩
    have haccepted : validateCursor (notesCursorToApiCursor cursor (tokens.map List.dedup))
        cursorLimits = .ok () := by
      rcases Loop.ends_iff.mp hends with hlast | ⟨next, hnext, -⟩
      · exact validateCursor_of_discoverNotesPage hlast
      · exact validateCursor_of_discoverNotesPage hnext
    have hfits := fits_of_discoverNotes_loop hheld
      (notesCursorToApiCursor_follows hseen hnodup hgrown)
      (notesCursorToApiCursor_valid_of_accepted hseen haccepted) hends
    refine ⟨haccepted, hfits, fun n hn hknown hfilter hlooks => ?_⟩
    -- On a large budget the first page would throw.
    obtain ⟨enough, hthrows⟩ := firstPage_throws tokens hcurve hrecover hkey hlater hseen hfits hn
      hknown hlooks hfilter fun _ => ⟨[], fun _ => []⟩
    let wide := max enough (minServerBudget cursorLimits.maxNoteLogIndex)
    exact hthrows ⟨cursorLimits, maxRecipients, wide⟩ rfl (le_max_left _ _)
      (hall wide (le_max_right _ _) _)
  · rintro ⟨haccepted, hfits, hnothing⟩ budget hbudget schedules
    refine (discoverNotes_resumed_fits_iff tokens hheld (validateViewingKey_ok hkey s'.registered)
      hbudget hseen hgrown (notesCursorToApiCursor_valid_of_accepted hseen haccepted)
        (fun entry hentry n hmem => Bool.eq_false_iff.mpr fun hfilter => ?_) schedules).mpr hfits
    obtain ⟨hn, hlooks, hsender⟩ := of_mem_newInKnown hcurve hrecover hkey hlater hseen hentry hmem
    exact hnothing n hn (hsender ▸ mem_keys_of_mem hentry)
      ((inFilter_dedup tokens n.token).symm.trans hfilter) hlooks

/-! ### All loops -/

namespace Sample

/-- One slot for channels. -/
def oneSlot : CursorLimits := ⟨1, 4, 3⟩

theorem oneSlot_incomingFits : IncomingFits oneSlot spentState.account :=
  ⟨by decide, incomingFits.2⟩

theorem channelsLag : ChannelsLag Discovery.Sample.stored [(5, knownChannel)] := by
  refine ⟨List.nodup_singleton _, fun entry hentry _ => ?_⟩
  obtain rfl := List.mem_singleton.mp hentry
  refine ⟨_, List.mem_cons_self, rfl, rfl, List.nodup_singleton _, fun token htoken => ?_⟩
  obtain rfl := List.mem_singleton.mp htoken
  exact ⟨_, List.mem_cons_self, rfl, by decide⟩

theorem channelsFitFrom :
    ChannelsFitFrom wideLimits (.only [5]) [(5, knownChannel)] Discovery.Sample.stored := by
  refine ⟨by decide, by decide, fun channel hchannel => ?_⟩
  exact incomingFits.2 channel (List.mem_of_mem_filter hchannel)

end Sample

end PrivacyPool.Sdk
