import PrivacyPool.Properties.NotesCalls

/-!
# Token filters and the cursor

The filter of a call drops the notes of other tokens, but the server goes on to scan them,
and the cursor that the call returns counts them as scanned. A later call without a filter
starts from that cursor and looks for none of them.

## Main definitions

* `NotesCalls` — calls at one state of the pool, each from the cursor of the one before
* `RestReturned` — a final call without a filter returns what no earlier call has

## Main results

* `filtered_notes_kept_iff` — when the final call returns the rest
-/

namespace PrivacyPool.Sdk

open Discovery HashMap

variable {sn : Starknet} {newFromX : Felt → Option sn.EcPoint} {backend : Backend}
  {limits : ValidationLimits} {address : ContractAddress} {viewingKey publicKey : Felt}
  {account : List StoredChannel}

/-- The filter of a call, and the notes that it has returned. -/
abbrev NotesCall := Option (List Felt) × List (Felt × List Note)

/-- Calls of `discoverNotes` at one state of the pool. The first starts without a cursor, and
each other one from the cursor of the call before. -/
inductive NotesCalls (sn : Starknet) (newFromX : Felt → Option sn.EcPoint) (backend : Backend)
    (limits : ValidationLimits) (address : ContractAddress) (viewingKey : Felt) :
    List NotesCall → Option NotesCursor → Prop
  | none : NotesCalls sn newFromX backend limits address viewingKey [] none
  | call {calls : List NotesCall} {cursor : Option NotesCursor} {tokens : Option (List Felt)}
      {schedules : ℕ → Schedule} {notes : List (Felt × List Note)} {cursor' : NotesCursor}
      (before : NotesCalls sn newFromX backend limits address viewingKey calls cursor)
      (hcall : DiscoversNotes sn newFromX backend limits address viewingKey cursor tokens schedules
        notes cursor') :
    NotesCalls sn newFromX backend limits address viewingKey (calls ++ [(tokens, notes)])
      (some cursor')

/-- Whatever the schedules are, a call without a filter returns, and of the unspent notes it
has each one that no earlier call has. -/
def RestReturned (sn : Starknet) (newFromX : Felt → Option sn.EcPoint) (backend : Backend)
    (limits : ValidationLimits) (address : ContractAddress) (viewingKey : Felt)
    (account : List StoredChannel) (calls : List NotesCall) (cursor : Option NotesCursor) : Prop :=
  ∀ schedules, ∃ notes cursor', DiscoversNotes sn newFromX backend limits address viewingKey cursor
      none schedules notes cursor' ∧
    ∀ n ∈ unspentOf sn backend viewingKey account,
      (∀ call ∈ calls, ¬HasNote account call.2 n) → HasNote account notes n

/-! ### One call -/

/-- A call from a cursor that has seen the state returns nothing. -/
theorem discoverNotes_seen (hcurve : CurveLaw sn) (hrecover : RecoversPoints sn newFromX)
    (hkey : sn.derivePublicKey viewingKey = .ok publicKey)
    (hstored : AccountStored sn backend.pool address publicKey account) {cursor : NotesCursor}
    (hseen : cursor.Seen (contentsOf account) (channelsOf account))
    (hscanned : cursor.Scanned (contentsOf account)) {tokens : Option (List Felt)} {schedules : ℕ → Schedule} {notes : List (Felt × List Note)}
    {cursor' : NotesCursor}
    (h : DiscoversNotes sn newFromX backend limits address viewingKey (some cursor) tokens schedules
      notes cursor') :
    (∀ token, notesAt notes token = []) ∧
      cursor'.Seen (contentsOf account) (channelsOf account) ∧
      cursor'.Scanned (contentsOf account) := by
  have hheld := hstored.incomingHeld hcurve hrecover hkey
  have hnodup := hheld.listed.nodup
  have hsame := Contents.Grown.refl (contentsOf account) (channelsOf account)
  have hfollows : (notesCursorToApiCursor cursor (tokens.map List.dedup)).Follows
      (contentsOf account) (channelsOf account) :=
    notesCursorToApiCursor_follows hseen hnodup hsame
  have hsettles : (notesCursorToApiCursor cursor (tokens.map List.dedup)).Settles
      (contentsOf account) (channelsOf account) :=
    notesCursorToApiCursor_settles hseen hnodup hsame
  obtain ⟨returned, hreturned, hnotes, hseen', hscanned'⟩ :=
    discoverNotes_returns hheld h hfollows hsettles
  -- There is no channel beyond those of the cursor, and nothing new in them.
  have hweight : (notesCursorToApiCursor cursor (tokens.map List.dedup)).weight (contentsOf account)
      (channelsOf account) (pendingNotes sn backend (contentsOf account) viewingKey) = 0 := by
    rw [notesCursorToApiCursor_weight hseen hnodup, List.drop_length, List.map_nil, List.sum_nil,
      add_zero]
    refine List.sum_eq_zero fun x hx => ?_
    obtain ⟨entry, hentry, rfl⟩ := List.mem_map.mp hx
    exact hscanned.newInKnown_eq entry hentry
  have hnone : returned = [] := Multiset.coe_eq_zero _ |>.mp (hreturned.trans hweight)
  refine ⟨fun token => ?_, hseen', hscanned' (notesCursorToApiCursor_scanned (.inr hscanned))⟩
  rw [hnotes, hnone]
  rfl

/-! ### Calls one after another -/

/-- After some calls the cursor has seen the state, and only the first has returned notes: the
unspent ones that pass its filter. -/
theorem NotesCalls.seen (hcurve : CurveLaw sn) (hrecover : RecoversPoints sn newFromX)
    (hkey : sn.derivePublicKey viewingKey = .ok publicKey)
    (hstored : AccountStored sn backend.pool address publicKey account) {calls : List NotesCall}
    {cursor : Option NotesCursor}
    (h : NotesCalls sn newFromX backend limits address viewingKey calls cursor) :
    calls = [] ∧ cursor = Option.none ∨ ∃ first rest seen, calls = first :: rest ∧ cursor = some seen ∧
      seen.Seen (contentsOf account) (channelsOf account) ∧ seen.Scanned (contentsOf account) ∧
      (∃ schedules cursor', DiscoversNotes sn newFromX backend limits address viewingKey Option.none
        first.1 schedules first.2 cursor') ∧
      (∀ n ∈ unspentOf sn backend viewingKey account,
        HasNote account first.2 n ↔ inFilter first.1 n.token = true) ∧
      ∀ call ∈ rest, ∀ n, ¬HasNote account call.2 n := by
  induction h with
  | none => exact .inl ⟨rfl, rfl⟩
  | @call calls cursor tokens schedules notes cursor' before hcall ih =>
    refine .inr ?_
    rcases ih with ⟨rfl, rfl⟩ | ⟨first, rest, seen, rfl, rfl, hseen, hscanned, hfirst, hhas, hrest⟩
    -- The first call is a fresh one.
    · obtain ⟨returned, hperm, hnotes, hseen, hscanned⟩ :=
        discoverNotes_fresh hcurve hrecover hkey hstored hcall
      exact ⟨_, [], cursor', rfl, rfl, hseen, hscanned, ⟨schedules, cursor', hcall⟩,
        fun n hn => hasNote_iff hperm hnotes hn, fun _ h => nomatch h⟩
    · obtain ⟨hnone, hseen', hscanned'⟩ :=
        discoverNotes_seen hcurve hrecover hkey hstored hseen hscanned hcall
      refine ⟨first, rest ++ [(tokens, notes)], cursor', rfl, rfl, hseen', hscanned', hfirst, hhas,
        fun call hmem n => ?_⟩
      rcases List.mem_append.mp hmem with hold | hnew
      · exact hrest call hold n
      · obtain rfl := List.mem_singleton.mp hnew
        unfold HasNote
        rw [hnone]
        exact List.not_mem_nil

/-- When the final call returns the rest: it is the only call and the limits leave room, or the
first call let all unspent notes pass and there is a free slot for another channel. -/
def RestKept (sn : Starknet) (backend : Backend) (limits : CursorLimits) (viewingKey : Felt)
    (account : List StoredChannel) : List NotesCall → Prop
  | [] => IncomingFits limits account
  | first :: _ => account.length < limits.maxChannels ∧
      ∀ n ∈ unspentOf sn backend viewingKey account, inFilter first.1 n.token = true

/-- **Token filters.** After any calls with any filters, a final call without a filter returns
each unspent note that no earlier call has returned just when there was no earlier call, or
the filter of the first one let all of them pass; the limits have to leave room, too. -/
theorem filtered_notes_kept_iff (hcurve : CurveLaw sn) (hrecover : RecoversPoints sn newFromX)
    (hkey : sn.derivePublicKey viewingKey = .ok publicKey)
    (hregistered : backend.getPublicKey sn (ContractAddress.toFelt address) = 0 ∨
      backend.getPublicKey sn (ContractAddress.toFelt address) = publicKey)
    (hstored : AccountStored sn backend.pool address publicKey account)
    (hbudget : minServerBudget limits.cursorLimits.maxNoteLogIndex ≤ limits.serverBudget)
    {calls : List NotesCall} {cursor : Option NotesCursor}
    (h : NotesCalls sn newFromX backend limits address viewingKey calls cursor) :
    RestReturned sn newFromX backend limits address viewingKey account calls cursor ↔
      RestKept sn backend limits.cursorLimits viewingKey account calls := by
  rcases h.seen hcurve hrecover hkey hstored with
    ⟨rfl, rfl⟩ | ⟨first, rest, seen, rfl, rfl, hseen, hscanned, ⟨_, _, hfirst⟩, hhas, hrest⟩
  -- No earlier call: the final one is a fresh one.
  · constructor
    · intro hreturned
      obtain ⟨notes, cursor', hcall, -⟩ := hreturned fun _ => ⟨[], fun _ => []⟩
      exact (discoverNotes_ends_iff hcurve hrecover hkey hregistered hstored hbudget none).mp
        ⟨notes, cursor', hcall⟩
    · intro hfits schedules
      obtain ⟨notes, cursor', hcall⟩ : ∃ notes cursor', DiscoversNotes sn newFromX backend limits
          address viewingKey none none schedules notes cursor' :=
        (discoverNotes_ends_iff hcurve hrecover hkey hregistered hstored hbudget none).mpr hfits
      obtain ⟨returned, hperm, hnotes, -⟩ := discoverNotes_fresh hcurve hrecover hkey hstored hcall
      exact ⟨notes, cursor', hcall, fun n hn _ => (hasNote_iff hperm hnotes hn).mpr rfl⟩
  · -- The first call has ended, so the channels fit.
    obtain ⟨hroom, hchannels⟩ := (discoverNotes_ends_iff hcurve hrecover hkey hregistered hstored
      hbudget first.1).mp ⟨_, _, hfirst⟩
    have hends : ∀ schedules, (∃ notes cursor', DiscoversNotes sn newFromX backend limits address
        viewingKey (some seen) none schedules notes cursor') ↔
          account.length < limits.cursorLimits.maxChannels := by
      intro schedules
      have hresumed := discoverNotes_resumed_iff none
        (hstored.incomingHeld hcurve hrecover hkey) (validateViewingKey_ok hkey hregistered) hbudget
        hseen (Contents.Grown.refl _ _) (by rw [List.length_map]; omega)
        (fun _ hmem => by
          obtain ⟨channel, hchannel, rfl⟩ := List.mem_map.mp hmem
          exact (fits_stored_iff hstored.keys_nodup hchannel (hstored.stored channel hchannel)).mpr
            (hchannels channel hchannel)) hscanned.newInKnown_eq schedules
      rw [List.length_map, Nat.sub_self, Nat.max_zero] at hresumed
      exact hresumed
    constructor
    · intro hreturned
      obtain ⟨notes, cursor', hcall, hall⟩ := hreturned fun _ => ⟨[], fun _ => []⟩
      refine ⟨(hends _).mp ⟨notes, cursor', hcall⟩, fun n hn => ?_⟩
      -- The final call returns nothing, so the first one has.
      obtain ⟨hnone, -⟩ := discoverNotes_seen hcurve hrecover hkey hstored hseen hscanned
        hcall
      by_contra hdropped
      have hlast := hall n hn fun call hmem => ?_
      · unfold HasNote at hlast
        rw [hnone] at hlast
        exact List.not_mem_nil hlast
      · rcases List.mem_cons.mp hmem with rfl | hmem
        · exact fun hmem => hdropped ((hhas n hn).mp hmem)
        · exact hrest call hmem n
    · rintro ⟨hslot, hpass⟩ schedules
      obtain ⟨notes, cursor', hcall⟩ := (hends schedules).mpr hslot
      exact ⟨notes, cursor', hcall, fun n hn hunreturned =>
        absurd ((hhas n hn).mpr (hpass n hn)) (hunreturned first List.mem_cons_self)⟩

namespace Sample

/-- User 5 has an unspent note of token 77, and no others. -/
theorem unspent_token : (unspentOf Starknet.sample Discovery.Sample.backend 3
    Discovery.Sample.stored).map DecryptedNote.token = [77] := by
  decide +kernel

theorem token_of_unspent {n : DecryptedNote} (hn : n ∈ unspentOf Starknet.sample
    Discovery.Sample.backend 3 Discovery.Sample.stored) : n.token = 77 :=
  List.mem_singleton.mp (unspent_token ▸ List.mem_map_of_mem hn)

/-- A first call of user 5 returns. -/
theorem firstCall (tokens : Option (List Felt)) : ∃ notes cursor, NotesCalls Starknet.sample
    Starknet.sampleRecover Discovery.Sample.backend wideLimits 5 3 [(tokens, notes)]
      (some cursor) := by
  obtain ⟨notes, cursor, hcall⟩ : ∃ notes cursor, DiscoversNotes Starknet.sample
      Starknet.sampleRecover Discovery.Sample.backend wideLimits 5 3 none tokens
        (fun _ => ⟨[], fun _ => []⟩) notes cursor :=
    (discoverNotes_ends_iff Starknet.sample_curveLaw Starknet.sample_recoversPoints derived
      registered Discovery.Sample.accountStored (by decide) tokens).mpr incomingFits
  exact ⟨notes, cursor, .call .none hcall⟩

end Sample

/-- After a first call with the filter `[77]` nothing is lost to user 5. -/
theorem filtered_notes_kept_iff_sample : ∃ notes cursor, NotesCalls Starknet.sample
      Starknet.sampleRecover Discovery.Sample.backend Sample.wideLimits 5 3 [(some [77], notes)]
        (some cursor) ∧
    RestReturned Starknet.sample Starknet.sampleRecover Discovery.Sample.backend Sample.wideLimits 5
      3 Discovery.Sample.stored [(some [77], notes)] (some cursor) := by
  obtain ⟨notes, cursor, hcalls⟩ := Sample.firstCall (some [77])
  refine ⟨notes, cursor, hcalls, (filtered_notes_kept_iff Starknet.sample_curveLaw
    Starknet.sample_recoversPoints Sample.derived Sample.registered Discovery.Sample.accountStored
      (by decide) hcalls).mpr ⟨by decide, fun n hn => ?_⟩⟩
  rw [Sample.token_of_unspent hn]
  rfl

/-- After a first call with the filter `[78]` a final call without a filter does not return the
note of token 77, which the first has not returned either. -/
theorem filter_loses_note : ∃ notes cursor, NotesCalls Starknet.sample Starknet.sampleRecover
      Discovery.Sample.backend Sample.wideLimits 5 3 [(some [78], notes)] (some cursor) ∧
    ¬RestReturned Starknet.sample Starknet.sampleRecover Discovery.Sample.backend Sample.wideLimits
      5 3 Discovery.Sample.stored [(some [78], notes)] (some cursor) := by
  obtain ⟨notes, cursor, hcalls⟩ := Sample.firstCall (some [78])
  refine ⟨notes, cursor, hcalls, fun hreturned => ?_⟩
  rcases hcalls.seen Starknet.sample_curveLaw Starknet.sample_recoversPoints Sample.derived
    Discovery.Sample.accountStored with ⟨hnone, -⟩ | 
    ⟨first, rest, seen, hfirst, hcursor, hseen, hscanned, -, hhas, -⟩
  · cases hnone
  · obtain ⟨rfl, rfl⟩ := List.cons.inj hfirst
    obtain rfl := Option.some.inj hcursor
    obtain ⟨final, cursor', hcall, hall⟩ := hreturned fun _ => ⟨[], fun _ => []⟩
    obtain ⟨hnone, -⟩ := discoverNotes_seen Starknet.sample_curveLaw Starknet.sample_recoversPoints
      Sample.derived Discovery.Sample.accountStored hseen hscanned hcall
    obtain ⟨n, hn, htoken⟩ : ∃ n ∈ unspentOf Starknet.sample Discovery.Sample.backend 3
        Discovery.Sample.stored, n.token = 77 :=
      List.mem_map.mp (Sample.unspent_token ▸ List.mem_singleton_self 77)
    have hlast := hall n hn fun call hmem => ?_
    · unfold HasNote at hlast
      rw [hnone] at hlast
      exact List.not_mem_nil hlast
    · obtain rfl := List.mem_singleton.mp hmem
      rw [hhas n hn, htoken]
      exact (nomatch ·)

end PrivacyPool.Sdk
