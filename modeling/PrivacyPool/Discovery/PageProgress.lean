import PrivacyPool.Discovery.Progress

/-!
# Every request makes progress

A request on an incomplete cursor does some of the work that is left, as long as the scan
that comes next has a free slot in the cursor.

## Main definitions

* `DiscoveryCursor.work`, `DiscoveryCursor.workToward` — what is left to do

## Main results

* `syncIncomingState_leads`, `syncOutgoingState_leads` — a request does some of the work
-/

namespace PrivacyPool.Discovery

open Budget.Task HashMap

variable {full : Prop} {sn : Starknet} {backend : Backend} {contents : Contents}
  {viewingKey : Felt} {budget : ℕ}

/-! ### Incoming pages -/

section IncomingPage

variable {newFromX : Felt → Option sn.EcPoint} {recipient : ContractAddress}
  {channels found : List IncomingChannel} {cursor cursor' : DiscoveryCursor}
  {cursorLimits : CursorLimits} {schedule : Schedule}

/-- The work of the channels, found or not, the rest of the scan with its end, and the
number of channels to be read. -/
def DiscoveryCursor.work (contents : Contents) (channels : List IncomingChannel)
    (cursor : DiscoveryCursor) : ℕ :=
  (cursor.channels.map fun entry => entry.2.work contents).sum +
    ((cursor.unfound channels).map fun channel =>
      (newChannelCursor channel.channelKey).work contents).sum +
    if cursor.channelDiscoveryComplete then 0
    else 1 + (cursor.unfound channels).length + if cursor.totalNChannels.isSome then 0 else 1

/-- The scan has moved on, or the number of channels is known now. -/
def DiscoveryCursor.Moved (cursor cursor' : DiscoveryCursor) : Prop :=
  nextIndex cursor.lastChannelIndex < nextIndex cursor'.lastChannelIndex ∨
    cursor'.channelDiscoveryComplete = true ∨
    cursor.totalNChannels.isSome = false ∧ cursor'.totalNChannels.isSome = true

theorem DiscoveryCursor.not_moved (hopen : cursor.channelDiscoveryComplete = false) :
    ¬cursor.Moved cursor := by
  rintro (h | h | ⟨h, h'⟩)
  · exact lt_irrefl _ h
  · rw [hopen] at h
    cases h
  · rw [h] at h'
    cases h'

theorem ChannelsPage.work_le {maxCursorChannels : ℕ}
    (hnodup : (channels.map IncomingChannel.senderAddr).Nodup)
    (hcursor : cursor.Follows contents channels)
    (h : ChannelsPage full channels maxCursorChannels cursor cursor' found) :
    cursor'.work contents channels ≤ cursor.work contents channels ∧
      (cursor.channelDiscoveryComplete = false → cursor.Moved cursor' →
        cursor'.work contents channels < cursor.work contents channels) := by
  have hunfound := h.unfound_eq hcursor
  cases h with
  | closed | blocked | uncounted =>
    exact ⟨le_rfl, fun hopen hmoved => absurd hmoved (DiscoveryCursor.not_moved hopen)⟩
  | @advanced number total complete hopen hslots htotal hadvance hover =>
    have hle := hadvance.le_length
    have htotal' := hcursor.total_le
    rw [← htotal] at htotal'
    -- The work of each channel moves from those unfound to those in the cursor.
    have hlength : ((channels.drop (nextIndex cursor.lastChannelIndex)).take number).length =
        number := by
      rw [List.length_take, List.length_drop]
      omega
    rw [hcursor.filter_fresh hnodup] at hunfound ⊢
    unfold DiscoveryCursor.work DiscoveryCursor.Moved
    rw [hunfound, hopen]
    simp only [List.map_append, List.sum_append, List.map_map, Function.comp_def,
      List.length_append, hlength, nextIndex_lastIndexAfter, Bool.false_eq_true, if_false,
      Option.isSome_some, if_true, and_true]
    refine ⟨?_, fun _ hmoved => ?_⟩
    · split_ifs <;> omega
    · rcases hmoved with hmoved | hmoved | hmoved
      · split_ifs <;> omega
      · rw [if_pos hmoved]
        split_ifs <;> omega
      · rw [hmoved]
        simp only [Bool.false_eq_true, if_false]
        split_ifs <;> omega

/-- The channel scan of a page that gets the first draw and has a free slot moves on. -/
theorem discoverIncomingChannelsPaginated_leads {privateKey : Felt} {maxCursorChannels : ℕ}
    (hstart : nextIndex cursor.lastChannelIndex < 2 ^ 64)
    (hopen : cursor.channelDiscoveryComplete = false)
    (hslots : cursor.channels.length < maxCursorChannels) (hnum : costNumChannels ≤ budget)
    (hinfo : costChannelInfo ≤ budget) :
    (discoverIncomingChannelsPaginated sn newFromX backend recipient privateKey cursor
      maxCursorChannels).Leads budget fun result => cursor.Moved result.1 := by
  unfold discoverIncomingChannelsPaginated
  rw [if_neg (by rw [hopen]; exact Bool.false_ne_true)]
  dsimp only
  rw [if_neg (by omega)]
  unfold cachedChannelCount
  cases hcached : cursor.totalNChannels with
  | none =>
    -- The number of channels is read, and from now on the cursor has it.
    have hcounted : ∀ cursor' : DiscoveryCursor, cursor'.totalNChannels.isSome = true →
        cursor.Moved cursor' := fun _ hsome => .inr (.inr ⟨by rw [hcached]; rfl, hsome⟩)
    refine leads_bind (leads_bind (leads_consume hnum
      (within_bind (within_read (within_pure ?_)))))
    dsimp only
    split_ifs with hrest
    · exact within_pure (hcounted _ rfl)
    · exact within_bind (within_true.mono fun result _ => within_pure (hcounted _ rfl))
  | some total =>
    -- The number is known, so the scan goes on where it has stopped.
    change (if _ then _ else _ : Task (DiscoveryCursor × List IncomingChannel)).Leads budget _
    rw [wrappingNext_of_lt hstart]
    split_ifs with hrest
    · exact leads_pure (.inr (.inl rfl))
    · unfold discoverIncomingChannels
      refine leads_bind (leads_bind (leads_consumeUpTo (by decide) hinfo ?_))
      intro items hitems hpos
      have hitems' : items ≠ 0 := by
        have := hpos (by omega)
        omega
      dsimp only
      rw [if_neg hitems']
      refine within_bind (within_read (within_bind (within_true.mono fun found _ =>
        within_pure (within_pure (.inl ?_)))))
      simp only [nextIndex, Option.some_or, Option.elim_some]
      omega

theorem ChannelsProcessed.work_le {results : List ProcessChannelResult}
    {result : SyncIncomingStateResult}
    (hheld : IncomingHeld sn newFromX backend recipient viewingKey channels contents)
    (hcursor : cursor.Follows contents channels)
    (h : ChannelsProcessed full sn backend contents viewingKey cursorLimits cursor results result) :
    result.cursor.work contents channels ≤ cursor.work contents channels ∧
      ((∃ (i : ℕ) (entry : Felt × ChannelCursor) (processed : ProcessChannelResult),
        (pending ChannelCursor.isComplete cursor.channels)[i]? = some entry ∧
          results[i]? = some processed ∧
            processed.cursor.work contents < entry.2.work contents) →
        result.cursor.work contents channels < cursor.work contents channels) := by
  obtain ⟨hle, hlt⟩ := sum_processed_le
    (fun entry (processed : ProcessChannelResult) =>
      processed.cursor.work contents < entry.2.work contents)
    (fun _ ch => ch.work contents) h.paged fun entry hentry processed hR => by
      have hmem := (mem_pending.mp hentry).1
      exact ⟨hR.work_le (hheld.held_entry hcursor hmem).nodup (hcursor.entries entry hmem), id⟩
  rw [h.cursor_eq]
  exact ⟨Nat.add_le_add_right (Nat.add_le_add_right hle _) _,
    fun hone => Nat.add_lt_add_right (Nat.add_lt_add_right (hlt hone) _) _⟩

/-- A cursor without an incomplete channel has nothing to process. -/
theorem DiscoveryCursor.pending_ne_nil (h : cursor.allChannelsProcessed = false) :
    pending ChannelCursor.isComplete cursor.channels ≠ [] := by
  intro hnone
  refine Bool.eq_false_iff.mp h (List.all_eq_true.mpr fun entry hentry => ?_)
  by_contra hopen
  have hmem := mem_pending.mpr ⟨hentry, Bool.eq_false_iff.mpr hopen⟩
  rw [hnone] at hmem
  cases hmem

/-- The incomplete channels of a cursor make progress. -/
theorem processChannels_leads {newChannels : List IncomingChannel}
    (hheld : IncomingHeld sn newFromX backend recipient viewingKey channels contents)
    (hcursor : cursor.Follows contents channels)
    (hpending : pending ChannelCursor.isComplete cursor.channels ≠ [])
    (hrooms : ∀ entry ∈ cursor.channels, entry.2.subchannelDiscoveryComplete = false →
      entry.2.subchannels.length < cursorLimits.maxSubchannels)
    (haffords : Affords budget cursorLimits.maxNoteLogIndex) :
    (processChannels sn backend cursor newChannels viewingKey cursorLimits schedule).Leads budget
      fun result => result.cursor.work contents channels < cursor.work contents channels := by
  refine leads_bind (((leads_parallel hpending fun entry hentry =>
    processChannel_leads (hheld.held_entry hcursor (mem_pending.mp hentry).1)
      (hcursor.entries entry (mem_pending.mp hentry).1) (mem_pending.mp hentry).2
      (hrooms entry (mem_pending.mp hentry).1) haffords).and
    (within_parallel fun entry hentry => pendingChannels_within hheld hcursor hentry)).mono ?_)
  rintro results ⟨hmoved, hresults⟩
  have hprocessed := ChannelsProcessed.of_paged hcursor newChannels hresults
  exact within_pure ((hprocessed.work_le hheld hcursor).2 hmoved)

/-- A page on an incomplete cursor makes progress, as long as the scan of channels has a
free slot when it comes to it, and so has each scan of subchannels. -/
theorem syncIncomingState_leads
    (hheld : IncomingHeld sn newFromX backend recipient viewingKey channels contents)
    (hcursor : cursor.Follows contents channels) (hincomplete : cursor.isComplete = false)
    (hroom : cursor.channelDiscoveryComplete = false → cursor.allChannelsProcessed = true →
      cursor.channels.length < cursorLimits.maxChannels)
    (hrooms : ∀ entry ∈ cursor.channels, entry.2.subchannelDiscoveryComplete = false →
      entry.2.subchannels.length < cursorLimits.maxSubchannels)
    (haffords : Affords budget cursorLimits.maxNoteLogIndex) :
    (syncIncomingState sn newFromX backend recipient viewingKey cursor cursorLimits
      schedule).Leads budget fun result =>
        result.cursor.work contents channels < cursor.work contents channels := by
  unfold syncIncomingState newIncomingChannels
  cases hprocessed : cursor.allChannelsProcessed with
  -- Channels are left to process, and no others are looked for.
  | false =>
    rw [if_neg (by exact Bool.false_ne_true)]
    exact processChannels_leads hheld hcursor (cursor.pending_ne_nil hprocessed) hrooms haffords
  | true =>
    -- All are processed, so that the scan of channels has to go on.
    have hopen : cursor.channelDiscoveryComplete = false := by
      by_contra hover
      rw [Bool.not_eq_false] at hover
      rw [DiscoveryCursor.isComplete, hover, hprocessed] at hincomplete
      cases hincomplete
    rw [if_pos rfl]
    have hstart := (hcursor.start_le.trans hcursor.total_le).trans_lt hheld.listed.length_lt
    refine leads_bind (((discoverIncomingChannelsPaginated_leads hstart hopen
      (hroom hopen hprocessed) haffords.numChannels haffords.channelInfo).and
        (discoverIncomingChannelsPaginated_within
        (E := fun _ => True) hheld.listed hcursor.total_le hcursor.start_le)).mono ?_)
    rintro ⟨scanned, newChannels⟩ ⟨hmoved, hpage⟩
    have hscanned := hpage.follows hheld.listed.nodup hcursor
    have hless := (hpage.work_le hheld.listed.nodup hcursor).2 hopen hmoved
    refine ((processChannels_within hheld hscanned).weaken fun _ _ => trivial).mono ?_
    rintro result ⟨-, results, hresults⟩
    exact (hresults.work_le hheld hscanned).1.trans_lt hless

end IncomingPage

/-! ### Outgoing pages -/

section OutgoingPage

variable {senderAddr : Felt} {recipients : List Felt} {filter : Option (List Felt)}
  {cursor cursor' : DiscoveryCursor} {cursorLimits : CursorLimits} {schedule : Schedule}

/-- The work of the channels, found or not, and the rest of the scan with its end. -/
def DiscoveryCursor.workToward (sn : Starknet) (backend : Backend) (senderAddr viewingKey : Felt)
    (contents : Contents) (recipients : List Felt) (filter : Option (List Felt))
    (cursor : DiscoveryCursor) : ℕ :=
  (cursor.channels.map fun entry => entry.2.work contents).sum +
    ((cursor.unfoundToward recipients filter).map fun addr =>
      (newChannelCursor (channelToward sn backend senderAddr viewingKey addr
        false).channelKey).work contents).sum +
    if cursor.channelDiscoveryComplete then 0
    else 1 + (recipients.length - nextIndex cursor.lastChannelIndex)

theorem OutgoingPage.workToward_le {maxChannels : ℕ} {found : List OutgoingChannel}
    (contents : Contents) (hstart : nextIndex cursor.lastChannelIndex ≤ recipients.length)
    (h : OutgoingPage full sn backend senderAddr viewingKey recipients filter maxChannels cursor
      cursor' found) :
    cursor'.workToward sn backend senderAddr viewingKey contents recipients filter ≤
        cursor.workToward sn backend senderAddr viewingKey contents recipients filter ∧
      (cursor.channelDiscoveryComplete = false → cursor.Moved cursor' →
        cursor'.workToward sn backend senderAddr viewingKey contents recipients filter <
          cursor.workToward sn backend senderAddr viewingKey contents recipients filter) := by
  obtain ⟨addrs, hunfound, -, added, hadded, -, hchannels⟩ := h.unfoundToward_eq
  have hsum := (hadded.map fun addr => (newChannelCursor (channelToward sn backend senderAddr
    viewingKey addr false).channelKey).work contents).sum_le_sum fun _ _ => Nat.zero_le _
  unfold DiscoveryCursor.workToward DiscoveryCursor.Moved
  rw [hunfound, hchannels]
  simp only [List.map_append, List.sum_append, List.map_map, Function.comp_def]
  cases h with
  | closed h =>
    refine ⟨by omega, fun hopen => ?_⟩
    rw [h] at hopen
    cases hopen
  | @advanced number complete found new hopen hadvance hslots hfound hnew hnodup hfresh hall =>
    have hle := hadvance.le_length' hstart
    simp only [hopen, nextIndex_lastIndexAfter, Bool.false_eq_true, if_false]
    refine ⟨?_, fun _ hmoved => ?_⟩
    · split_ifs <;> omega
    · split_ifs with hcomplete
      · omega
      · rcases hmoved with hmoved | hmoved | hmoved
        · omega
        · exact absurd hmoved hcomplete
        · rw [if_neg hcomplete, hmoved.1] at hmoved
          exact absurd hmoved.2 Bool.false_ne_true

/-- The channel scan of a page that gets the first draw and has a free slot moves on. -/
theorem discoverOutgoingChannelsPaginated_leads {maxCursorChannels : ℕ}
    (hheld : OutgoingHeld sn backend senderAddr viewingKey recipients)
    (hstart : nextIndex cursor.lastChannelIndex ≤ recipients.length)
    (hopen : cursor.channelDiscoveryComplete = false)
    (hslots : cursor.channels.length < maxCursorChannels)
    (hinfo : costOutgoingChannelInfo ≤ budget) :
    (discoverOutgoingChannelsPaginated sn backend senderAddr viewingKey cursor maxCursorChannels
      filter).Leads budget fun result => cursor.Moved result.1 := by
  unfold discoverOutgoingChannelsPaginated
  rw [if_neg (by rw [hopen]; exact Bool.false_ne_true),
    wrappingNext_of_lt (hstart.trans_lt hheld.length_lt)]
  dsimp only
  rw [if_neg (by omega)]
  obtain ⟨slots, hsucc⟩ := Nat.exists_eq_succ_of_ne_zero
    (show maxCursorChannels - cursor.channels.length ≠ 0 by omega)
  rw [hsucc, discoverOutgoingChannels]
  refine leads_bind (leads_bind (leads_bind (leads_consume hinfo ?_)))
  simp only [Bool.not_true, Bool.false_eq_true, if_false]
  refine within_bind (within_read ?_)
  -- The first index is the end of the channels, or a channel is found.
  split_ifs with hsalt
  · exact within_pure (within_pure (within_pure (.inr (.inl rfl))))
  · -- The last index that is found is not before the first one.
    have hlt := (hheld.salt_ne_zero_iff _ hstart).mp hsalt
    refine within_bind (within_read (within_bind
      ((scanOutgoingChannels_within hheld (Nat.succ_le_of_lt hlt)).mono ?_)))
    rintro ⟨_, _, hasMore⟩ ⟨number, -, -, -, rfl⟩
    refine within_pure (within_pure ?_)
    have hmoved : nextIndex cursor.lastChannelIndex < nextIndex
        (((if number = 0 then none else some (nextIndex cursor.lastChannelIndex + 1 + number - 1)).or
          (some (nextIndex cursor.lastChannelIndex))).or cursor.lastChannelIndex) := by
      split_ifs <;> simp only [nextIndex, Option.none_or, Option.some_or, Option.elim_some] <;> omega
    cases hasMore with
    | true => exact within_pure (.inl hmoved)
    | false => exact within_pure (.inl hmoved)

theorem OutgoingChannelsProcessed.workToward_le {results : List ProcessOutgoingChannelResult}
    {reports : List OutgoingSubchannel}
    (hcursor : cursor.LagsOutgoing sn backend senderAddr viewingKey contents recipients filter)
    (h : OutgoingChannelsProcessed full contents cursorLimits cursor results cursor' reports) :
    cursor'.workToward sn backend senderAddr viewingKey contents recipients filter ≤
        cursor.workToward sn backend senderAddr viewingKey contents recipients filter ∧
      ((∃ (i : ℕ) (entry : Felt × ChannelCursor) (processed : ProcessOutgoingChannelResult),
        (pending ChannelCursor.isComplete cursor.channels)[i]? = some entry ∧
          results[i]? = some processed ∧
            processed.cursor.work contents < entry.2.work contents) →
        cursor'.workToward sn backend senderAddr viewingKey contents recipients filter <
          cursor.workToward sn backend senderAddr viewingKey contents recipients filter) := by
  obtain ⟨hle, hlt⟩ := sum_processed_le
    (fun entry (processed : ProcessOutgoingChannelResult) =>
      processed.cursor.work contents < entry.2.work contents)
    (fun _ ch => ch.work contents) h.paged fun entry hentry processed hR => by
      have hmem := (mem_pending.mp hentry).1
      exact ⟨hR.work_le (hcursor.entries entry hmem).start_le, id⟩
  rw [h.cursor_eq]
  exact ⟨Nat.add_le_add_right (Nat.add_le_add_right hle _) _,
    fun hone => Nat.add_lt_add_right (Nat.add_lt_add_right (hlt hone) _) _⟩

/-- The incomplete channels of a cursor make progress. -/
theorem processOutgoingChannels_leads
    (hheld : SenderHeld sn backend senderAddr viewingKey recipients contents)
    (hcursor : cursor.LagsOutgoing sn backend senderAddr viewingKey contents recipients filter)
    (hpending : pending ChannelCursor.isComplete cursor.channels ≠ [])
    (hrooms : ∀ entry ∈ cursor.channels, entry.2.subchannelDiscoveryComplete = false →
      entry.2.subchannels.length < cursorLimits.maxSubchannels)
    (haffords : Affords budget cursorLimits.maxNoteLogIndex) :
    (processOutgoingChannels sn backend cursor cursorLimits schedule).Leads budget fun result =>
      result.1.workToward sn backend senderAddr viewingKey contents recipients filter <
        cursor.workToward sn backend senderAddr viewingKey contents recipients filter := by
  refine leads_bind (((leads_parallel hpending fun entry hentry =>
    processOutgoingChannel_leads (hheld.held_entry hcursor (mem_pending.mp hentry).1)
      (hcursor.entries entry (mem_pending.mp hentry).1) (mem_pending.mp hentry).2
      (hrooms entry (mem_pending.mp hentry).1) haffords).and
    (within_parallel fun entry hentry =>
      pendingOutgoingChannels_within hheld hcursor hentry)).mono ?_)
  rintro results ⟨hmoved, hresults⟩
  have hprocessed := OutgoingChannelsProcessed.of_paged hcursor hresults
  exact within_pure ((hprocessed.workToward_le hcursor).2 hmoved)

/-- A page on an incomplete cursor makes progress, as long as the scan of channels has a
free slot when it comes to it, and so has each scan of subchannels. -/
theorem syncOutgoingState_leads
    (hheld : SenderHeld sn backend senderAddr viewingKey recipients contents)
    (hcursor : cursor.LagsOutgoing sn backend senderAddr viewingKey contents recipients filter)
    (hincomplete : cursor.isComplete = false)
    (hroom : cursor.channelDiscoveryComplete = false → cursor.allChannelsProcessed = true →
      cursor.channels.length < cursorLimits.maxChannels)
    (hrooms : ∀ entry ∈ cursor.channels, entry.2.subchannelDiscoveryComplete = false →
      entry.2.subchannels.length < cursorLimits.maxSubchannels)
    (haffords : Affords budget cursorLimits.maxNoteLogIndex) :
    (syncOutgoingState sn backend senderAddr viewingKey cursor cursorLimits filter
      schedule).Leads budget fun result =>
        result.cursor.workToward sn backend senderAddr viewingKey contents recipients filter <
          cursor.workToward sn backend senderAddr viewingKey contents recipients filter := by
  unfold syncOutgoingState newOutgoingChannels
  cases hprocessed : cursor.allChannelsProcessed with
  -- Channels have work left, and the page does a part of it.
  | false =>
    rw [if_neg (by exact Bool.false_ne_true)]
    change (processOutgoingChannels sn backend cursor cursorLimits schedule >>= _ :
      Task SyncOutgoingStateResult).Leads budget _
    refine leads_bind ((processOutgoingChannels_leads hheld hcursor
      (cursor.pending_ne_nil hprocessed) hrooms haffords).mono ?_)
    exact fun result hless => within_bind (within_true.mono fun _ _ => within_pure hless)
  -- All channels are processed, so the page looks for the next ones.
  | true =>
    have hopen : cursor.channelDiscoveryComplete = false := by
      by_contra hover
      rw [Bool.not_eq_false] at hover
      rw [DiscoveryCursor.isComplete, hover, hprocessed] at hincomplete
      cases hincomplete
    rw [if_pos rfl]
    refine leads_bind (((discoverOutgoingChannelsPaginated_leads hheld.listed hcursor.start_le hopen
      (hroom hopen hprocessed) haffords.outgoingChannelInfo).and
        (discoverOutgoingChannelsPaginated_within (E := fun _ => True) hheld.listed
          hcursor.start_le)).mono ?_)
    rintro ⟨scanned, newChannels⟩ ⟨hmoved, hpage⟩
    have hscanned := hpage.lags hcursor
    have hless := (hpage.workToward_le contents hcursor.start_le).2 hopen hmoved
    refine within_bind (((processOutgoingChannels_within hheld hscanned).weaken
      fun _ _ => trivial).mono ?_)
    rintro ⟨scanned', reports⟩ ⟨results, hresults⟩
    refine within_bind (within_true.mono fun _ _ => within_pure ?_)
    exact (hresults.workToward_le hscanned).1.trans_lt hless

end OutgoingPage

end PrivacyPool.Discovery
