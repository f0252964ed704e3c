import PrivacyPool.Discovery.Account

/-!
# Outgoing sync is exact

However the requests are cut by budgets, limits and schedules, and whichever complete
entries the client drops in between, the pages of the outgoing sync return each channel of
the sender that passes the filter once, and the last report on each of its subchannels is
right, by the time the cursor is complete.

## Main definitions

* `OutgoingPages` — pages of the outgoing sync, each from the cursor of the one before

## Main results

* `OutgoingPages.accounted` — what any number of pages has returned and reported
* `outgoing_sync_exact` — the pages return the channels and boundaries of the account
-/

namespace PrivacyPool.Discovery

open Fallible HashMap

variable {sn : Starknet} {backend : Backend} {senderAddr viewingKey : Felt} {contents : Contents}
  {recipients : List Felt} {filter : Option (List Felt)}

/-! ### Pruning -/

theorem DiscoveryCursor.Pruned.followsOutgoing {cursor cursor' : DiscoveryCursor}
    (h : cursor.Pruned cursor')
    (hcursor : cursor.FollowsOutgoing sn backend senderAddr viewingKey contents recipients filter) :
    cursor'.FollowsOutgoing sn backend senderAddr viewingKey contents recipients filter := by
  have hmem := h.mem_channels
  refine ⟨?_, ?_, h.nodup_keys hcursor.nodup, ?_, ?_, ?_⟩
  · rw [h.last_eq]
    exact hcursor.start_le
  · rw [h.complete_eq, h.last_eq, h.total_eq]
    exact hcursor.ended
  · intro entry hentry
    obtain ⟨old, hold, hsame, hpruned⟩ := hmem entry hentry
    rw [h.last_eq, hsame, hpruned.channelKey_eq]
    exact hcursor.known old hold
  · intro entry hentry
    obtain ⟨old, hold, -, hpruned⟩ := hmem entry hentry
    exact hpruned.follows (hcursor.entries old hold)
  · intro entry hentry sub hsub
    obtain ⟨old, hold, -, hpruned⟩ := hmem entry hentry
    exact hcursor.untouched old hold sub (hpruned.mem_subchannels hsub)

/-- What is awaited is not dropped. -/
theorem ChannelCursor.Pruned.awaits {cursor cursor' : ChannelCursor} (h : cursor.Pruned cursor')
    {token : Felt} (hawaits : cursor.Awaits contents token) : cursor'.Awaits contents token := by
  obtain ⟨dropped, hperm, hdropped⟩ := h.dropped
  rcases hawaits with ⟨sub, hsub, hsame, hopen⟩ | hrest
  · rcases List.mem_append.mp (hperm.mem_iff.mp hsub) with hstays | hgone
    · exact .inl ⟨sub, hstays, hsame, hopen⟩
    · rw [hdropped sub hgone] at hopen
      cases hopen
  · refine .inr ?_
    rw [h.complete_eq, h.channelKey_eq, h.last_eq]
    exact hrest

theorem DiscoveryCursor.Pruned.awaits {cursor cursor' : DiscoveryCursor} (h : cursor.Pruned cursor')
    {addr token : Felt} (hawaits : cursor.Awaits contents addr token) :
    cursor'.Awaits contents addr token := by
  obtain ⟨stayed, dropped, hperm, hdropped, hstayed⟩ := h.dropped
  obtain ⟨entry, hentry, rfl, hawaits⟩ := hawaits
  rcases List.mem_append.mp (hperm.mem_iff.mp hentry) with hstays | hgone
  · obtain ⟨entry', hentry', hsame, hpruned⟩ := exists_right_of_forall₂ hstayed hstays
    exact ⟨entry', hentry', hsame, hpruned.awaits hawaits⟩
  · exact absurd hawaits (ChannelCursor.not_awaits (hdropped entry hgone))

/-! ### Pages -/

/-- Pages of the outgoing sync with a filter: each continues from the cursor of the one
before, which the client may have pruned, with limits, a budget and a schedule of its own. -/
inductive OutgoingPages (sn : Starknet) (backend : Backend) (senderAddr viewingKey : Felt)
    (filter : Option (List Felt)) (start : DiscoveryCursor) :
    List SyncOutgoingStateResult → DiscoveryCursor → Prop
  | none : OutgoingPages sn backend senderAddr viewingKey filter start [] start
  | page {results : List SyncOutgoingStateResult} {cursor pruned : DiscoveryCursor}
      {cursorLimits : CursorLimits} {schedule : Schedule} {budget : ℕ}
      {result : SyncOutgoingStateResult}
      (before : OutgoingPages sn backend senderAddr viewingKey filter start results cursor)
      (hpruned : cursor.Pruned pruned)
      (hsync : (syncOutgoingState sn backend senderAddr viewingKey pruned cursorLimits filter
        schedule).outcome budget = .ok result) :
    OutgoingPages sn backend senderAddr viewingKey filter start (results ++ [result]) result.cursor

/-- The channels that exist already. -/
def onChain (channels : List OutgoingChannel) : List OutgoingChannel :=
  channels.filter fun channel => !channel.precomputed

theorem onChain_missingToward (cursor : DiscoveryCursor) :
    onChain (missingToward sn backend senderAddr viewingKey filter cursor) = [] := by
  refine List.filter_eq_nil_iff.mpr fun channel hchannel => ?_
  obtain ⟨addr, -, rfl⟩ := List.mem_map.mp hchannel
  exact Bool.false_ne_true

/-- What a page finds comes next after what was found before. -/
theorem OutgoingPaged.onChain_eq {full : Prop} {cursorLimits : CursorLimits}
    {cursor : DiscoveryCursor} {result : SyncOutgoingStateResult}
    (h : OutgoingPaged full sn backend senderAddr viewingKey contents recipients filter cursorLimits
      cursor result) :
    ((recipients.take (nextIndex cursor.lastChannelIndex)).filter (passes filter)).map
        (channelToward sn backend senderAddr viewingKey · false) ++ onChain result.channels =
      ((recipients.take (nextIndex result.cursor.lastChannelIndex)).filter (passes filter)).map
        (channelToward sn backend senderAddr viewingKey · false) := by
  obtain ⟨scanned, found, results, hpage, ⟨-, -, hresult⟩, hchannels⟩ := h.steps
  have hmissing : onChain (if result.cursor.channelDiscoveryComplete then
      missingToward sn backend senderAddr viewingKey filter result.cursor else []) = [] := by
    split_ifs
    · exact onChain_missingToward result.cursor
    · rfl
  have hlast : result.cursor.lastChannelIndex = scanned.lastChannelIndex := by rw [hresult]
  rw [hchannels, onChain, List.filter_append, ← onChain, ← onChain, hmissing, List.append_nil,
    hlast]
  rcases hpage with ⟨-, hpage⟩ | ⟨-, rfl, rfl⟩
  · cases hpage with
    | closed h => exact List.append_nil _
    | @advanced number complete found new hopen hadvance hslots hfound hnew hnodup hfresh hall =>
      rw [nextIndex_lastIndexAfter, List.take_add, List.filter_append, List.map_append, ← hfound]
      congr 1
      refine List.filter_eq_self.mpr fun channel hchannel => ?_
      obtain ⟨addr, -, rfl⟩ := List.mem_map.mp hchannel
      rfl
  · exact List.append_nil _

/-- A page that ends with all channels known has the missing ones. -/
theorem OutgoingPaged.missing_mem {full : Prop} {cursorLimits : CursorLimits}
    {cursor : DiscoveryCursor} {result : SyncOutgoingStateResult}
    (hfollows : result.cursor.FollowsOutgoing sn backend senderAddr viewingKey contents recipients
      filter)
    (h : OutgoingPaged full sn backend senderAddr viewingKey contents recipients filter cursorLimits
      cursor result) (hcomplete : result.cursor.channelDiscoveryComplete = true) {addr : Felt}
    (haddr : addr ∈ filter.getD []) (hregistered : backend.getPublicKey sn addr ≠ 0)
    (hnone : addr ∉ recipients) :
    channelToward sn backend senderAddr viewingKey addr true ∈ result.channels := by
  obtain ⟨scanned, found, results, -, -, hchannels⟩ := h.steps
  have hfresh : addr ∉ keys result.cursor.channels := by
    intro hmem
    obtain ⟨entry, hentry, rfl⟩ := List.mem_map.mp hmem
    exact hnone (hfollows.lags.mem_recipients hentry)
  rw [hchannels, if_pos hcomplete]
  refine List.mem_append_right _ (List.mem_map_of_mem (List.mem_filter.mpr ⟨haddr, ?_⟩))
  exact decide_eq_true ⟨hfresh, hregistered⟩

/-- What any number of pages from the default cursor has returned and reported. -/
theorem OutgoingPages.accounted
    (hheld : SenderHeld sn backend senderAddr viewingKey recipients contents)
    {cursor : DiscoveryCursor} {results : List SyncOutgoingStateResult}
    (pages : OutgoingPages sn backend senderAddr viewingKey filter {} results cursor) :
    cursor.FollowsOutgoing sn backend senderAddr viewingKey contents recipients filter ∧
      onChain (results.flatMap (·.channels)) =
        ((recipients.take (nextIndex cursor.lastChannelIndex)).filter (passes filter)).map
          (channelToward sn backend senderAddr viewingKey · false) ∧
      (∀ addr ∈ (recipients.take (nextIndex cursor.lastChannelIndex)).filter (passes filter),
        ∀ token ∈ contents.tokens
          (channelToward sn backend senderAddr viewingKey addr false).channelKey,
        cursor.Awaits contents addr token ∨ lastReport (results.flatMap (·.subchannels)) addr token =
          some (trueReport sn backend senderAddr viewingKey contents addr token)) ∧
      (cursor.channelDiscoveryComplete = true → ∀ addr ∈ filter.getD [],
        backend.getPublicKey sn addr ≠ 0 → addr ∉ recipients →
          channelToward sn backend senderAddr viewingKey addr true ∈
            results.flatMap (·.channels)) := by
  -- Page by page; the accounts are kept by what is pruned in between.
  induction pages with
  | none => exact ⟨DiscoveryCursor.followsOutgoing_default, rfl, by simp [nextIndex],
      fun h => nomatch h⟩
  | @page results cursor pruned cursorLimits schedule budget result before hpruned hsync ih =>
    obtain ⟨hfollows, hchannels, hreports, -⟩ := ih
    have hfollows' := hpruned.followsOutgoing hfollows
    have hpage : OutgoingPaged False sn backend senderAddr viewingKey contents recipients filter
        cursorLimits pruned result := (syncOutgoingState_within hheld hfollows'.lags).of_ok hsync
    refine ⟨hpage.follows hheld hfollows', ?_, ?_, ?_⟩
    · rw [List.flatMap_append, List.flatMap_singleton, onChain, List.filter_append, ← onChain,
        ← onChain, hchannels, ← hpruned.last_eq]
      exact hpage.onChain_eq
    · intro addr haddr token htoken
      rw [List.flatMap_append, List.flatMap_singleton, lastReport_append]
      rcases hpage.settles hheld hfollows' haddr htoken with hawaits | hright | ⟨hold, hnone⟩
      · exact .inl hawaits
      · rw [hright]
        exact .inr rfl
      · -- The page says nothing about the subchannel: the last report is an earlier one.
        rw [hnone, Option.none_or]
        rw [hpruned.last_eq] at hold
        exact .inr ((hreports addr hold.1 token htoken).resolve_left
          fun hawaits => hold.2 (hpruned.awaits hawaits))
    · intro hcomplete addr haddr hregistered hnone
      rw [List.flatMap_append, List.flatMap_singleton]
      exact List.mem_append_right _
        (hpage.missing_mem (hpage.follows hheld hfollows') hcomplete haddr hregistered hnone)

/-- Each report of the pages is right, or has no index. -/
theorem OutgoingPages.reports_right
    (hheld : SenderHeld sn backend senderAddr viewingKey recipients contents)
    {cursor : DiscoveryCursor} {results : List SyncOutgoingStateResult}
    (pages : OutgoingPages sn backend senderAddr viewingKey filter {} results cursor) :
    ∀ report ∈ results.flatMap (·.subchannels), report.lastNoteIndex = Option.none ∨ report =
      trueReport sn backend senderAddr viewingKey contents report.recipientAddr report.token := by
  induction pages with
  | none => exact fun _ h => nomatch h
  | @page results cursor pruned cursorLimits schedule budget result before hpruned hsync ih =>
    have hfollows := hpruned.followsOutgoing (before.accounted hheld).1
    have hpage : OutgoingPaged False sn backend senderAddr viewingKey contents recipients filter
        cursorLimits pruned result := (syncOutgoingState_within hheld hfollows.lags).of_ok hsync
    intro report hreport
    rw [List.flatMap_append, List.flatMap_singleton] at hreport
    rcases List.mem_append.mp hreport with hold | hnew
    · exact ih report hold
    · exact hpage.reports_right hfollows hnew

/-! ### Exactness -/

variable {sender : ContractAddress} {account : List StoredChannel}
  {results : List SyncOutgoingStateResult} {cursor : DiscoveryCursor}

/-- What the service returns for a channel of an account. -/
def outgoingChannel (sn : Starknet) (backend : Backend) (channel : StoredChannel) :
    OutgoingChannel where
  recipientAddr := ContractAddress.toFelt channel.peerAddr
  recipientPublicKey := backend.getPublicKey sn (ContractAddress.toFelt channel.peerAddr)
  channelKey := channel.channelKey
  precomputed := false

/-- By the time the channel scan is over, the channels that pass the filter are returned. -/
theorem OutgoingPages.onChain_eq
    (hstored : SenderStored sn backend.pool sender viewingKey account)
    (pages : OutgoingPages sn backend (ContractAddress.toFelt sender) viewingKey filter {} results
      cursor)
    (hover : cursor.channelDiscoveryComplete = true) :
    onChain (results.flatMap (·.channels)) =
      (account.filter fun channel => passes filter (ContractAddress.toFelt channel.peerAddr)).map
        (outgoingChannel sn backend) := by
  obtain ⟨hfollows, hchannels, -⟩ := pages.accounted hstored.senderHeld
  rw [(hfollows.ended hover).1, List.take_length] at hchannels
  rw [hchannels, recipientsOf, List.filter_map, List.map_map]
  refine List.map_congr_left fun channel hchannel => ?_
  have hkey := hstored.channelToward_key (List.mem_of_mem_filter hchannel)
  unfold outgoingChannel
  rw [← hkey]
  rfl

/-- The report that a stored subchannel should get. -/
theorem trueReport_stored (hstored : SenderStored sn backend.pool sender viewingKey account)
    {channel : StoredChannel} (hchannel : channel ∈ account) {subchannel : StoredSubchannel}
    (hsubchannel : subchannel ∈ channel.subchannels) :
    trueReport sn backend (ContractAddress.toFelt sender) viewingKey (contentsOf account)
        (ContractAddress.toFelt channel.peerAddr) (ContractAddress.toFelt subchannel.token) =
      ⟨ContractAddress.toFelt channel.peerAddr, ContractAddress.toFelt subchannel.token,
        lastIndexOf subchannel.notes.length⟩ := by
  have hat := subchannelsAt_of_mem hstored.keys_nodup hchannel
  unfold trueReport
  rw [hstored.channelToward_key hchannel,
    count_of_mem hat (hstored.stored channel hchannel).nodup hsubchannel]

/-- By the time the cursor is complete, the last report on each subchannel is right. -/
theorem OutgoingPages.lastReport_eq
    (hstored : SenderStored sn backend.pool sender viewingKey account)
    (pages : OutgoingPages sn backend (ContractAddress.toFelt sender) viewingKey filter {} results
      cursor)
    (hcomplete : cursor.isComplete = true) {channel : StoredChannel} (hchannel : channel ∈ account)
    (hpasses : passes filter (ContractAddress.toFelt channel.peerAddr) = true)
    {subchannel : StoredSubchannel} (hsubchannel : subchannel ∈ channel.subchannels) :
    lastReport (results.flatMap (·.subchannels)) (ContractAddress.toFelt channel.peerAddr)
        (ContractAddress.toFelt subchannel.token) =
      some ⟨ContractAddress.toFelt channel.peerAddr, ContractAddress.toFelt subchannel.token,
        lastIndexOf subchannel.notes.length⟩ := by
  obtain ⟨hover, hprocessed⟩ := Bool.and_eq_true_iff.mp hcomplete
  obtain ⟨hfollows, -, hreports, -⟩ := pages.accounted hstored.senderHeld
  rw [(hfollows.ended hover).1, List.take_length] at hreports
  have haddr : ContractAddress.toFelt channel.peerAddr ∈
      (recipientsOf account).filter (passes filter) :=
    List.mem_filter.mpr ⟨List.mem_map_of_mem hchannel, hpasses⟩
  have htoken : ContractAddress.toFelt subchannel.token ∈
      (contentsOf account).tokens channel.channelKey := by
    dsimp only [contentsOf]
    rw [subchannelsAt_of_mem hstored.keys_nodup hchannel]
    exact List.mem_map_of_mem hsubchannel
  have hreport := hreports _ haddr (ContractAddress.toFelt subchannel.token)
  rw [hstored.channelToward_key hchannel, trueReport_stored hstored hchannel hsubchannel] at hreport
  exact (hreport htoken).resolve_left (DiscoveryCursor.not_awaits hprocessed)

/-- **Exactness of the outgoing sync.** Let the pool store the channels of a sender, and
start from the default cursor. When the pages end in a complete cursor, they have returned
the channels that pass the filter, each once with its key, and a precomputed channel for
each requested recipient that is registered and has no channel; the last report on each
subchannel gives its last note index; and the total is the number of channels. -/
theorem outgoing_sync_exact (hstored : SenderStored sn backend.pool sender viewingKey account)
    (pages : OutgoingPages sn backend (ContractAddress.toFelt sender) viewingKey filter {} results
      cursor)
    (hcomplete : cursor.isComplete = true) :
    onChain (results.flatMap (·.channels)) =
        (account.filter fun channel => passes filter (ContractAddress.toFelt channel.peerAddr)).map
          (outgoingChannel sn backend) ∧
      (onChain (results.flatMap (·.channels))).Nodup ∧
      (∀ addr ∈ filter.getD [], backend.getPublicKey sn addr ≠ 0 → addr ∉ recipientsOf account →
        channelToward sn backend (ContractAddress.toFelt sender) viewingKey addr true ∈
          results.flatMap (·.channels)) ∧
      (∀ channel ∈ account, passes filter (ContractAddress.toFelt channel.peerAddr) = true →
        ∀ subchannel ∈ channel.subchannels,
          lastReport (results.flatMap (·.subchannels)) (ContractAddress.toFelt channel.peerAddr)
              (ContractAddress.toFelt subchannel.token) =
            some ⟨ContractAddress.toFelt channel.peerAddr, ContractAddress.toFelt subchannel.token,
              lastIndexOf subchannel.notes.length⟩) ∧
      cursor.totalNChannels = some account.length := by
  have hover := (Bool.and_eq_true_iff.mp hcomplete).1
  obtain ⟨hfollows, -, -, hmissing⟩ := pages.accounted hstored.senderHeld
  have hlength : (recipientsOf account).length = account.length := List.length_map _
  have hlisted := pages.onChain_eq hstored hover
  refine ⟨hlisted, ?_, hmissing hover, ?_, hlength ▸ (hfollows.ended hover).2⟩
  -- A sender has one channel toward each recipient.
  · have hnodup := (nodup_toFelt hstored.peers_nodup).sublist ((List.filter_sublist (p := fun
      channel => passes filter (ContractAddress.toFelt channel.peerAddr))).map _)
    rw [hlisted]
    refine List.Nodup.of_map OutgoingChannel.recipientAddr ?_
    rw [List.map_map]
    exact hnodup
  · exact fun channel hchannel hpasses subchannel hsubchannel =>
      pages.lastReport_eq hstored hcomplete hchannel hpasses hsubchannel

namespace Sample

/-- The outcome of a request of user 5 for the channels toward itself and toward 6, who is
not registered. -/
def outgoingPage (cursor : DiscoveryCursor) (budget : ℕ) :
    Except DiscoveryError SyncOutgoingStateResult :=
  (syncOutgoingState Starknet.sample Sample.backend 5 3 cursor ⟨4, 4, 3⟩ (some [5, 6])
    ⟨[], fun _ => []⟩).outcome budget

/-- The budget ends before the probe of the boundary. -/
def firstOutgoing : SyncOutgoingStateResult := valueOr ⟨[], [], {}⟩ (outgoingPage {} 8)

/-- The rest is found by the next request. -/
def secondOutgoing : SyncOutgoingStateResult :=
  valueOr ⟨[], [], {}⟩ (outgoingPage firstOutgoing.cursor 20)

end Sample

/-- Two pages return the channel of user 5, and the second report has the last index. -/
theorem outgoing_sync_exact_sample :
    Sample.firstOutgoing.subchannels = [⟨5, 77, none⟩] ∧
      onChain ([Sample.firstOutgoing, Sample.secondOutgoing].flatMap (·.channels)) =
        Sample.stored.map (outgoingChannel Starknet.sample Sample.backend) ∧
      lastReport ([Sample.firstOutgoing, Sample.secondOutgoing].flatMap (·.subchannels)) 5 77 =
        some ⟨5, 77, some 1⟩ := by
  have hfirst : Sample.outgoingPage {} 8 = .ok Sample.firstOutgoing :=
    eq_ok_valueOr _ (by decide +kernel)
  have hsecond : Sample.outgoingPage Sample.firstOutgoing.cursor 20 = .ok Sample.secondOutgoing :=
    eq_ok_valueOr _ (by decide +kernel)
  have hexact := outgoing_sync_exact Sample.senderStored
    (.page (.page .none (.refl _) hfirst) (.refl _) hsecond) (by decide +kernel)
  exact ⟨by decide +kernel, hexact.1, hexact.2.2.2.1 ⟨5, 1, [⟨77, [⟨2, 100⟩, ⟨1, 40⟩]⟩]⟩ (by decide)
    (by decide) ⟨77, [⟨2, 100⟩, ⟨1, 40⟩]⟩ (by decide)⟩

end PrivacyPool.Discovery
