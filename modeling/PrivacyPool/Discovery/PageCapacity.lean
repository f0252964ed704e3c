import PrivacyPool.Discovery.Capacity

/-!
# Requests within the limits

The scans of a recipient's cursor can end within the limits when there is room for the channels
that are yet to be found and each channel fits: nothing is dropped from the cursor, and all
channels need room.

## Main definitions

* `DiscoveryCursor.Fits` — the scans can end within the limits

## Main results

* `IncomingPaged.valid_fits` — a request keeps the cursor within the limits, and keeps whether
  it fits
-/

namespace PrivacyPool.Discovery

open HashMap

variable {full : Prop} {sn : Starknet} {backend : Backend} {contents : Contents}
  {viewingKey : Felt} {limits : CursorLimits} {newFromX : Felt → Option sn.EcPoint}
  {recipient : ContractAddress}
  {channels found : List IncomingChannel} {cursor cursor' : DiscoveryCursor}

/-- The scans of a recipient's cursor can end within the limits. A scan of channels needs a
free slot even when there is nothing to find. -/
structure DiscoveryCursor.Fits (contents : Contents) (channels : List IncomingChannel)
    (limits : CursorLimits) (cursor : DiscoveryCursor) : Prop where
  room : cursor.channelDiscoveryComplete = false →
    cursor.channels.length + max 1 (cursor.unfound channels).length ≤ limits.maxChannels
  entries : ∀ entry ∈ cursor.channels, entry.2.Fits contents limits
  unfound : ∀ channel ∈ cursor.unfound channels,
    (newChannelCursor channel.channelKey).Fits contents limits

theorem DiscoveryCursor.fits_default_iff : DiscoveryCursor.Fits contents channels limits {} ↔
    max 1 channels.length ≤ limits.maxChannels ∧
      ∀ channel ∈ channels, (newChannelCursor channel.channelKey).Fits contents limits := by
  have hunfound : DiscoveryCursor.unfound channels {} = channels := by
    simp [DiscoveryCursor.unfound, nextIndex]
  constructor
  · rintro ⟨hroom, -, hrest⟩
    rw [hunfound] at hroom hrest
    exact ⟨by simpa using hroom rfl, hrest⟩
  · rintro ⟨hroom, hrest⟩
    refine ⟨fun _ => ?_, fun _ h => absurd h List.not_mem_nil, ?_⟩
    · rw [hunfound]
      simpa using hroom
    · rwa [hunfound]

theorem DiscoveryCursor.fits_of_isComplete (h : cursor.isComplete = true) :
    cursor.Fits contents channels limits := by
  obtain ⟨hcomplete, hall⟩ := Bool.and_eq_true_iff.mp h
  refine ⟨fun hopen => ?_, fun entry hentry => ?_, ?_⟩
  · rw [hcomplete] at hopen
    cases hopen
  · exact ChannelCursor.fits_of_isComplete (List.all_eq_true.mp hall entry hentry)
  · rw [show cursor.unfound channels = [] from if_pos hcomplete]
    exact fun _ h => nomatch h

theorem ChannelsPage.valid
    (h : ChannelsPage full channels limits.maxChannels cursor cursor' found)
    (hvalid : cursor.Valid limits) : cursor'.Valid limits := by
  cases h with
  | closed | blocked | uncounted => exact hvalid
  | @advanced number total complete hopen hslots htotal hadvance hover =>
    refine ⟨?_, fun entry hentry => ?_⟩
    · have hfilter := List.length_filter_le
        (fun channel : IncomingChannel => decide (channel.senderAddr ∉ keys cursor.channels))
        ((channels.drop (nextIndex cursor.lastChannelIndex)).take number)
      have htake := List.length_take_le number (channels.drop (nextIndex cursor.lastChannelIndex))
      have := hadvance.le_slots
      rw [List.length_append, List.length_map]
      omega
    · rcases List.mem_append.mp hentry with hold | hnew
      · exact hvalid.entries entry hold
      · obtain ⟨channel, -, rfl⟩ := List.mem_map.mp hnew
        exact ChannelCursor.valid_new limits _

theorem ChannelsPage.fits_iff (hnodup : (channels.map IncomingChannel.senderAddr).Nodup)
    (hcursor : cursor.Follows contents channels)
    (h : ChannelsPage full channels limits.maxChannels cursor cursor' found) :
    cursor'.Fits contents channels limits ↔ cursor.Fits contents channels limits := by
  have hunfound := h.unfound_eq hcursor
  cases h with
  | closed | blocked | uncounted => rfl
  | @advanced number total complete hopen hslots htotal hadvance hover =>
    have hle := hadvance.le_length
    have htotal' := hcursor.total_le
    have hstart := hcursor.start_le
    rw [← htotal] at htotal' hstart
    have hlength : ((channels.drop (nextIndex cursor.lastChannelIndex)).take number).length =
        number := by
      rw [List.length_take, List.length_drop]
      omega
    have hrest : (cursor.unfound channels).length =
        total - nextIndex cursor.lastChannelIndex := by
      unfold DiscoveryCursor.unfound
      rw [hopen, if_neg Bool.false_ne_true, ← htotal, List.length_drop, List.length_take]
      omega
    have hcount := congrArg List.length hunfound
    rw [List.length_append, hlength, hrest] at hcount
    rw [hcursor.filter_fresh hnodup] at hunfound hcount ⊢
    -- What is left to find shrinks by what the cursor takes in, so the room stays the same.
    constructor
    · rintro ⟨hroom, hentries, hunfits⟩
      refine ⟨fun _ => ?_, fun entry hentry => ?_, ?_⟩
      · rw [hrest]
        cases complete with
        | true =>
          have := hadvance.ended rfl
          have := hadvance.le_slots
          omega
        | false =>
          have hroom := hroom rfl
          rw [List.length_append, List.length_map, hlength] at hroom
          have := hadvance.le_length' hstart
          omega
      · exact hentries entry (List.mem_append_left _ hentry)
      · rw [hunfound]
        intro channel hchannel
        rcases List.mem_append.mp hchannel with hnew | hleft
        · exact hentries _ (List.mem_append_right _ (List.mem_map_of_mem hnew))
        · exact hunfits channel hleft
    · rintro ⟨hroom, hentries, hunfits⟩
      rw [hunfound] at hunfits
      refine ⟨fun hopen' => ?_, fun entry hentry => ?_, ?_⟩
      · have hroom := hroom hopen
        rw [hrest] at hroom
        rw [List.length_append, List.length_map, hlength]
        -- The scan is not over: something is left to find.
        have hne : nextIndex cursor.lastChannelIndex + number ≠ total := fun hend => by
          rw [hover hend] at hopen'
          cases hopen'
        have := hadvance.le_length' hstart
        omega
      · rcases List.mem_append.mp hentry with hold | hnew
        · exact hentries entry hold
        · obtain ⟨channel, hchannel, rfl⟩ := List.mem_map.mp hnew
          exact hunfits channel (List.mem_append_left _ hchannel)
      · exact fun channel hchannel => hunfits channel (List.mem_append_right _ hchannel)

/-- A page keeps the cursor within the limits, and keeps whether it fits. -/
theorem IncomingPaged.valid_fits {result : SyncIncomingStateResult}
    (hheld : IncomingHeld sn newFromX backend recipient viewingKey channels contents)
    (hcursor : cursor.Follows contents channels) (hvalid : cursor.Valid limits)
    (h : IncomingPaged full sn backend contents channels viewingKey limits cursor result) :
    result.cursor.Valid limits ∧
      (result.cursor.Fits contents channels limits ↔ cursor.Fits contents channels limits) := by
  obtain ⟨scanned, results, hpage, hprocessed⟩ := h.steps
  have hscanned := follows_of_scanned hheld.listed.nodup hcursor hpage
  -- First the scan of channels, then the channels that it leaves incomplete.
  have hscan : scanned.Valid limits ∧
      (scanned.Fits contents channels limits ↔ cursor.Fits contents channels limits) := by
    rcases hpage with ⟨-, hpage⟩ | ⟨-, rfl, -⟩
    · exact ⟨hpage.valid hvalid, hpage.fits_iff hheld.listed.nodup hcursor⟩
    · exact ⟨hvalid, Iff.rfl⟩
  have hstep := fun entry (hentry : entry ∈ pending ChannelCursor.isComplete scanned.channels)
      processed (hR : ChannelPaged full sn backend contents viewingKey limits entry processed) =>
    hR.valid_fits (hheld.held_entry hscanned (mem_pending.mp hentry).1)
      (hscanned.entries entry (mem_pending.mp hentry).1)
      (hscan.1.entries entry (mem_pending.mp hentry).1)
  rw [hprocessed.cursor_eq]
  refine ⟨⟨(length_processed hprocessed.paged).trans_le hscan.1.length_le, ?_⟩, ?_⟩
  · exact forall_processed hprocessed.paged hscan.1.entries fun entry hentry processed hR =>
      (hstep entry hentry processed hR).1
  · have hentries := forall_processed_iff (P := fun _ ch => ch.Fits contents limits)
      ProcessChannelResult.senderAddr ProcessChannelResult.cursor hprocessed.paged fun entry hentry processed hR => (hstep entry hentry processed hR).2
    rw [← hscan.2]
    constructor
    · rintro ⟨hroom, hfits, hunfound⟩
      dsimp only at hroom
      rw [length_processed hprocessed.paged] at hroom
      exact ⟨hroom, hentries.mp hfits, hunfound⟩
    · rintro ⟨hroom, hfits, hunfound⟩
      refine ⟨?_, hentries.mpr hfits, hunfound⟩
      dsimp only
      rwa [length_processed hprocessed.paged]

end PrivacyPool.Discovery
