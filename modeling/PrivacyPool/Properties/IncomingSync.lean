import PrivacyPool.Discovery.Account

/-!
# Incoming sync is exact

However the requests are cut by budgets, limits and schedules, and whichever complete
entries the client drops in between, the pages of the incoming sync return each
un-nullified note of the recipient once by the time the cursor is complete.

## Main results

* `incoming_sync_exact` — the pages return the notes and channels of the account
-/

namespace PrivacyPool.Discovery

open Fallible

/-- A complete cursor has nothing pending and nothing left to find. -/
theorem DiscoveryCursor.weight_of_isComplete {M : Type} [AddCommMonoid M] {contents : Contents}
    {channels : List IncomingChannel} {w : Felt → Felt → Felt → SubchannelCursor → M}
    (hw : ∀ addr key token sc, sc.noteDiscoveryComplete = true → w addr key token sc = 0)
    {cursor : DiscoveryCursor} (h : cursor.isComplete = true) :
    cursor.unfound channels = [] ∧ cursor.weight contents channels w = 0 := by
  obtain ⟨hcomplete, hprocessed⟩ := Bool.and_eq_true_iff.mp h
  have hunfound : cursor.unfound channels = [] := if_pos hcomplete
  refine ⟨hunfound, ?_⟩
  unfold DiscoveryCursor.weight
  rw [hunfound, List.map_nil, List.sum_nil, add_zero]
  refine List.sum_eq_zero fun x hx => ?_
  obtain ⟨entry, hentry, rfl⟩ := List.mem_map.mp hx
  exact ChannelCursor.weight_of_isComplete (hw _ _) (List.all_eq_true.mp hprocessed entry hentry)

variable {sn : Starknet} {newFromX : Felt → Option sn.EcPoint} {backend : Backend}
  {recipient : ContractAddress} {viewingKey publicKey : Felt} {account : List StoredChannel}
  {results : List SyncIncomingStateResult} {cursor : DiscoveryCursor}

/-- **Exactness of the incoming sync.** Let the pool store an account, and start from the
default cursor. When the pages end in a complete cursor, they have returned the
un-nullified notes of the account, each once, with sender, token, index, id, amount and
salt, and the channels with their keys and senders. -/
theorem incoming_sync_exact (hcurve : CurveLaw sn) (hrecover : RecoversPoints sn newFromX)
    (hkey : sn.derivePublicKey viewingKey = .ok publicKey)
    (hstored : AccountStored sn backend.pool recipient publicKey account)
    (pages : IncomingPages sn newFromX backend recipient viewingKey {} results cursor)
    (hcomplete : cursor.isComplete = true) :
    (results.flatMap (·.notes)).Perm (unspentOf sn backend viewingKey account) ∧
      (results.flatMap (·.notes)).Nodup ∧
      results.flatMap (·.channels) = account.map fun channel =>
        ⟨channel.channelKey, ContractAddress.toFelt channel.peerAddr⟩ := by
  have hheld := hstored.incomingHeld hcurve hrecover hkey
  obtain ⟨-, hnotes, hchannels⟩ := pages.accounted hheld (DiscoveryCursor.follows_default _ _)
  obtain ⟨hunfound, hweight⟩ := DiscoveryCursor.weight_of_isComplete
    (fun _ _ _ _ => pendingNotes_of_complete) hcomplete
  rw [hweight, add_zero, hstored.weight_default, Multiset.coe_eq_coe] at hnotes
  have hnodup : (unspentOf sn backend viewingKey account).Nodup :=
    unspentOf_nodup hstored.peers_nodup fun channel hchannel =>
      (hstored.stored channel hchannel).nodup
  refine ⟨hnotes, hnotes.nodup_iff.mpr hnodup, ?_⟩
  rw [hunfound, List.append_nil] at hchannels
  rw [hchannels]
  simp [DiscoveryCursor.unfound, nextIndex]

namespace Sample

/-- The outcome of a request of user 5. -/
def page (cursor : DiscoveryCursor) (budget : ℕ) : Except DiscoveryError SyncIncomingStateResult :=
  (syncIncomingState Starknet.sample Starknet.sampleRecover Sample.backend 5 3 cursor ⟨4, 4, 3⟩
    ⟨[], fun _ => []⟩).outcome budget

/-- The budget ends after the channel and its subchannel are found. -/
def firstPage : SyncIncomingStateResult := valueOr ⟨[], [], [], {}⟩ (page {} 15)

/-- The rest is found by the next request. -/
def secondPage : SyncIncomingStateResult := valueOr ⟨[], [], [], {}⟩ (page firstPage.cursor 100)

end Sample

/-- Two pages return the open note of user 5; the first leaves it pending. -/
theorem incoming_sync_exact_sample :
    Sample.firstPage.cursor.isComplete = false ∧
      ([Sample.firstPage, Sample.secondPage].flatMap (·.notes)).Perm
        (unspentOf Starknet.sample Sample.backend 3 Sample.stored) := by
  have hfirst : Sample.page {} 15 = .ok Sample.firstPage := eq_ok_valueOr _ (by decide +kernel)
  have hsecond : Sample.page Sample.firstPage.cursor 100 = .ok Sample.secondPage :=
    eq_ok_valueOr _ (by decide +kernel)
  exact ⟨by decide +kernel, (incoming_sync_exact Starknet.sample_curveLaw
    Starknet.sample_recoversPoints (by decide +kernel) Sample.accountStored
    (.page (.page .none (.refl _) hfirst) (.refl _) hsecond) (by decide +kernel)).1⟩

end PrivacyPool.Discovery
