import PrivacyPool.Discovery.Outgoing
import PrivacyPool.Discovery.Service

/-!
# Cursors within the limits

A cursor passes validation as long as it does not outgrow the limits. It fits when the
scans that are not over can end within the limits: there is room for what they have yet to
find, and the boundaries that are still to be found are in reach. A page keeps both, and it
makes no cursor fit that did not.

## Main definitions

* `ChannelCursor.Valid`, `DiscoveryCursor.Valid` — the cursor is within the limits
* `ChannelCursor.Fits` — the scan of a channel can end within the limits

## Main results

* `DiscoveryCursor.Valid.validateCursor` — a cursor within the limits passes validation
* `ChannelPaged.valid_fits` — a page keeps both
-/

namespace PrivacyPool.Discovery

open HashMap

variable {full : Prop} {sn : Starknet} {backend : Backend} {contents : Contents}
  {viewingKey : Felt} {limits : CursorLimits}

/-! ### Validation -/

/-- A subchannel cursor within the limits. Without a total it is untouched. -/
structure SubchannelCursor.Valid (maxNotes : ℕ) (cursor : SubchannelCursor) : Prop where
  total_le : cursor.totalNNotes.getD 0 ≤ maxNotes
  start_le : cursor.startIndex ≤ maxNotes
  untouched : cursor.totalNNotes = none → cursor = {}

/-- The subchannels of a cursor are within the limits. -/
structure ChannelCursor.Valid (limits : CursorLimits) (cursor : ChannelCursor) : Prop where
  length_le : cursor.subchannels.length ≤ limits.maxSubchannels
  entries : ∀ sub ∈ cursor.subchannels, sub.2.Valid (maxNotes limits.maxNoteLogIndex)

/-- The channels of a cursor are within the limits. -/
structure DiscoveryCursor.Valid (limits : CursorLimits) (cursor : DiscoveryCursor) : Prop where
  length_le : cursor.channels.length ≤ limits.maxChannels
  entries : ∀ entry ∈ cursor.channels, entry.2.Valid limits

theorem SubchannelCursor.valid_default (maxNotes : ℕ) : SubchannelCursor.Valid maxNotes {} :=
  ⟨Nat.zero_le _, Nat.zero_le _, fun _ => rfl⟩

theorem ChannelCursor.valid_new (limits : CursorLimits) (channelKey : Felt) :
    (newChannelCursor channelKey).Valid limits :=
  ⟨Nat.zero_le _, fun _ h => nomatch h⟩

theorem DiscoveryCursor.valid_default (limits : CursorLimits) : DiscoveryCursor.Valid limits {} :=
  ⟨Nat.zero_le _, fun _ h => nomatch h⟩

theorem SubchannelCursor.Valid.validateSubchannel {maxNotes : ℕ} {cursor : SubchannelCursor}
    (h : cursor.Valid maxNotes) : validateSubchannel maxNotes cursor = .ok () := by
  have htotal : validateTotalNNotes maxNotes cursor.totalNNotes = .ok () := by
    have hle := h.total_le
    cases htotal : cursor.totalNNotes with
    | none => rfl
    | some total =>
      rw [htotal, Option.getD_some] at hle
      exact if_neg (by omega)
  have hlast : validateLastNoteIndex maxNotes cursor.lastNoteIndex = .ok () := by
    have hle := h.start_le
    rw [SubchannelCursor.startIndex] at hle
    cases hlast : cursor.lastNoteIndex with
    | none => rfl
    | some index =>
      rw [hlast, nextIndex, Option.elim_some] at hle
      exact if_neg (by omega)
  unfold Discovery.validateSubchannel
  rw [htotal]
  exact hlast

theorem ChannelCursor.Valid.validateChannel {cursor : ChannelCursor} (h : cursor.Valid limits) :
    validateChannel limits cursor = .ok () := by
  unfold Discovery.validateChannel validateBound
  rw [if_neg (Nat.not_lt.mpr h.length_le)]
  exact Fallible.forM_eq_ok.mpr fun sub hsub => (h.entries sub hsub).validateSubchannel

theorem DiscoveryCursor.Valid.validateCursor {cursor : DiscoveryCursor} (h : cursor.Valid limits) :
    validateCursor cursor limits = .ok () := by
  unfold Discovery.validateCursor validateBound
  rw [if_neg (Nat.not_lt.mpr h.length_le)]
  exact Fallible.forM_eq_ok.mpr fun entry hentry => (h.entries entry hentry).validateChannel

/-! ### Processed entries -/

section Processed

variable {β ρ : Type} {complete : β → Bool} {m : List (Felt × β)} {results : List ρ}
  {key : ρ → Felt} {value : ρ → β} {R : Felt × β → ρ → Prop}

theorem length_processed (h : List.Forall₂ R (pending complete m) results) :
    (kept complete m ++ results.map fun result => (key result, value result)).length =
      m.length := by
  rw [List.length_append, List.length_map, ← h.length_eq, ← List.length_append]
  exact (extractIf_perm m fun value => !complete value).length_eq

/-- What a page keeps of each entry that it processes, it keeps of all. -/
theorem forall_processed_iff {P : Felt → β → Prop} (key : ρ → Felt) (value : ρ → β)
    (h : List.Forall₂ R (pending complete m) results)
    (hstep : ∀ entry ∈ pending complete m, ∀ result, R entry result →
      (P (key result) (value result) ↔ P entry.1 entry.2)) :
    (∀ entry ∈ kept complete m ++ results.map fun result => (key result, value result),
      P entry.1 entry.2) ↔ ∀ entry ∈ m, P entry.1 entry.2 := by
  constructor
  · intro hall entry hentry
    by_cases hcomplete : complete entry.2 = true
    · exact hall entry (List.mem_append_left _ (mem_kept.mpr ⟨hentry, hcomplete⟩))
    · have hpending := mem_pending.mpr ⟨hentry, Bool.eq_false_iff.mpr hcomplete⟩
      obtain ⟨result, hresult, hR⟩ := exists_right_of_forall₂ h hpending
      exact (hstep entry hpending result hR).mp
        (hall _ (List.mem_append_right _ (List.mem_map_of_mem hresult)))
  · intro hall entry hentry
    rcases mem_processed h hentry with hkept | ⟨old, hold, hopen, result, hR, rfl⟩
    · exact hall entry hkept.1
    · exact (hstep old (mem_pending.mpr ⟨hold, hopen⟩) result hR).mpr (hall old hold)

/-- What a page makes true of each entry that it processes is true of all. -/
theorem forall_processed {P : β → Prop} (h : List.Forall₂ R (pending complete m) results)
    (hm : ∀ entry ∈ m, P entry.2)
    (hstep : ∀ entry ∈ pending complete m, ∀ result, R entry result → P (value result)) :
    ∀ entry ∈ kept complete m ++ results.map fun result => (key result, value result),
      P entry.2 := by
  intro entry hentry
  rcases mem_processed h hentry with hkept | ⟨old, hold, hopen, result, hR, rfl⟩
  · exact hm entry hkept.1
  · exact hstep old (mem_pending.mpr ⟨hold, hopen⟩) result hR

end Processed

/-! ### Subchannels -/

/-- What a probe of the boundary makes of a cursor that is within the limits: it is still
untouched, or the total that it has is within the limits and in reach. -/
structure SubchannelCursor.Probed (count maxNoteLogIndex : ℕ) (cursor cursor' : SubchannelCursor) :
    Prop where
  valid : cursor'.Valid (maxNotes maxNoteLogIndex)
  unprobed : cursor'.totalNNotes = none → cursor.totalNNotes = none
  exceeds : cursor.totalNNotes = none → 2 ^ maxNoteLogIndex ≤ count →
    cursor'.noteDiscoveryComplete = false ∧ cursor'.totalNNotes = none

/-- A count in reach of the probe is within the limits. -/
theorem le_maxNotes {count maxNoteLogIndex : ℕ} (hcount : count ≤ 2 ^ 32)
    (hreach : count < 2 ^ maxNoteLogIndex) : count ≤ maxNotes maxNoteLogIndex := by
  unfold maxNotes
  split_ifs
  · exact hreach.le
  · omega

theorem NotesPage.probed {count maxNoteLogIndex number : ℕ} {cursor cursor' : SubchannelCursor}
    (hcount : count ≤ 2 ^ 32) (hopen : cursor.noteDiscoveryComplete = false)
    (hcursor : cursor.Valid (maxNotes maxNoteLogIndex))
    (h : NotesPage count maxNoteLogIndex cursor cursor' number) :
    cursor.Probed count maxNoteLogIndex cursor' := by
  have hnext := h.startIndex_eq
  cases h with
  | short h => exact ⟨hcursor, id, fun _ _ => ⟨hopen, h⟩⟩
  | @scanned total number htotal hnumber =>
    have hle : total ≤ maxNotes maxNoteLogIndex ∧
        (cursor.totalNNotes = none → count < 2 ^ maxNoteLogIndex) := by
      rcases htotal with hsome | ⟨hnone, hrange, rfl⟩
      · have hold := hcursor.total_le
        rw [hsome, Option.getD_some] at hold
        exact ⟨hold, fun hnone => by rw [hsome] at hnone; cases hnone⟩
      · rw [hcursor.untouched hnone, show ({} : SubchannelCursor).startIndex = 0 from rfl,
          Nat.zero_add] at hrange
        refine ⟨?_, fun _ => hrange⟩
        split_ifs
        · exact Nat.zero_le _
        · exact le_maxNotes hcount hrange
    have hstart := hcursor.start_le
    refine ⟨⟨hle.1, ?_, (nomatch ·)⟩, (nomatch ·), ?_⟩
    · rw [hnext]
      omega
    · exact fun hnone hexceeds => absurd (hle.2 hnone) (Nat.not_lt.mpr hexceeds)

theorem SubchannelPaged.probed {maxNoteLogIndex : ℕ} {channelKey : Felt}
    {entry : Felt × SubchannelCursor} {result : ProcessSubchannelResult}
    (hcount : contents.count channelKey entry.1 ≤ 2 ^ 32)
    (hopen : entry.2.noteDiscoveryComplete = false)
    (hentry : entry.2.Valid (maxNotes maxNoteLogIndex))
    (h : SubchannelPaged full sn backend contents viewingKey maxNoteLogIndex channelKey entry
      result) :
    entry.2.Probed (contents.count channelKey entry.1) maxNoteLogIndex result.cursor := by
  obtain ⟨number, hpage, -⟩ := h.advanced
  exact hpage.probed hcount hopen hentry

/-! ### Channels -/

/-- The scan of a channel can end within the limits. -/
structure ChannelCursor.Fits (contents : Contents) (limits : CursorLimits)
    (cursor : ChannelCursor) : Prop where
  room : cursor.subchannelDiscoveryComplete = false → cursor.subchannels.length +
    ((contents.tokens cursor.channelKey).length - nextIndex cursor.lastSubchannelIndex) <
      limits.maxSubchannels
  reach : ¬cursor.Exceeds contents limits.maxNoteLogIndex

theorem ChannelCursor.fits_new_iff {channelKey : Felt} :
    (newChannelCursor channelKey).Fits contents limits ↔
      (contents.tokens channelKey).length < limits.maxSubchannels ∧
        ∀ token ∈ contents.tokens channelKey,
          contents.count channelKey token < 2 ^ limits.maxNoteLogIndex := by
  have hunprobed : ∀ token, (newChannelCursor channelKey).Unprobed contents token ↔
      token ∈ contents.tokens channelKey := by
    intro token
    unfold ChannelCursor.Unprobed newChannelCursor
    simp [nextIndex]
  constructor
  · rintro ⟨hroom, hreach⟩
    refine ⟨by simpa [newChannelCursor, nextIndex] using hroom, fun token htoken => ?_⟩
    by_contra hexceeds
    exact hreach ⟨token, (hunprobed token).mpr htoken, Nat.not_lt.mp hexceeds⟩
  · rintro ⟨hroom, hreach⟩
    refine ⟨by simpa [newChannelCursor, nextIndex] using hroom, ?_⟩
    rintro ⟨token, htoken, hexceeds⟩
    exact Nat.not_lt.mpr hexceeds (hreach token ((hunprobed token).mp htoken))

/-- A complete channel has nothing left that could exceed the limits. -/
theorem ChannelCursor.fits_of_isComplete {cursor : ChannelCursor} (h : cursor.isComplete = true) :
    cursor.Fits contents limits := by
  obtain ⟨hcomplete, hall⟩ := Bool.and_eq_true_iff.mp h
  refine ⟨fun hopen => ?_, ?_⟩
  · rw [hcomplete] at hopen
    cases hopen
  · rintro ⟨token, ⟨sub, hsub, -, hopen, -⟩ | ⟨hopen, -⟩, -⟩
    · have hdone := List.all_eq_true.mp hall sub hsub
      rw [hopen] at hdone
      cases hdone
    · rw [hcomplete] at hopen
      cases hopen

section Scan

variable {cursor cursor' : ChannelCursor} (hnodup : (contents.tokens cursor.channelKey).Nodup)
  (hcursor : cursor.Follows contents)
  (h : SubchannelsPage full (contents.tokens cursor.channelKey) limits.maxSubchannels cursor cursor')
include h

theorem SubchannelsPage.valid (hvalid : cursor.Valid limits) : cursor'.Valid limits := by
  cases h with
  | closed h => exact hvalid
  | @advanced number complete hopen hadvance hslots =>
    refine ⟨?_, fun sub hsub => ?_⟩
    · have hfilter := List.length_filter_le (fun token => decide (token ∉ keys cursor.subchannels))
        (((contents.tokens cursor.channelKey).drop
          (nextIndex cursor.lastSubchannelIndex)).take number)
      have htake := List.length_take_le number
        ((contents.tokens cursor.channelKey).drop (nextIndex cursor.lastSubchannelIndex))
      have := hadvance.le_slots
      have := hvalid.length_le
      rw [List.length_append, List.length_map]
      omega
    · rcases List.mem_append.mp hsub with hold | hnew
      · exact hvalid.entries sub hold
      · obtain ⟨token, -, rfl⟩ := List.mem_map.mp hnew
        exact SubchannelCursor.valid_default _

include hnodup hcursor

theorem SubchannelsPage.fits_iff : cursor'.Fits contents limits ↔ cursor.Fits contents limits := by
  have hkey := h.channelKey_eq
  have hexceeds : cursor'.Exceeds contents limits.maxNoteLogIndex ↔
      cursor.Exceeds contents limits.maxNoteLogIndex := by
    unfold ChannelCursor.Exceeds
    simp only [h.unprobed_iff hnodup hcursor, hkey]
  have hroom : (cursor'.subchannelDiscoveryComplete = false → cursor'.subchannels.length +
      ((contents.tokens cursor'.channelKey).length - nextIndex cursor'.lastSubchannelIndex) <
        limits.maxSubchannels) ↔
      (cursor.subchannelDiscoveryComplete = false → cursor.subchannels.length +
        ((contents.tokens cursor.channelKey).length - nextIndex cursor.lastSubchannelIndex) <
          limits.maxSubchannels) := by
    rw [hkey]
    cases h with
    | closed h => rfl
    | @advanced number complete hopen hadvance hslots =>
      have hle := hadvance.le_length' hcursor.start_le
      rw [hcursor.filter_fresh hnodup]
      simp only [hopen, nextIndex_lastIndexAfter, List.length_append, List.length_map,
        List.length_take, List.length_drop, forall_const]
      cases complete with
      | false =>
        simp only [forall_const]
        omega
      | true =>
        -- At the end there was still a free slot.
        have := hslots rfl
        have := hadvance.ended rfl
        simp only [Bool.true_eq_false, false_implies, true_iff]
        omega
  exact ⟨fun hfits => ⟨hroom.mp hfits.room, fun hex => hfits.reach (hexceeds.mpr hex)⟩,
    fun hfits => ⟨hroom.mpr hfits.room, fun hex => hfits.reach (hexceeds.mp hex)⟩⟩

end Scan

section Processed

variable {ρ : Type} {results : List ρ} {key : ρ → Felt} {value : ρ → SubchannelCursor}
  {R : Felt × SubchannelCursor → ρ → Prop} {cursor : ChannelCursor}
  (h : List.Forall₂ R (pending SubchannelCursor.noteDiscoveryComplete cursor.subchannels) results)
  (hkey : ∀ sub result, R sub result → key result = sub.1)
  (hprobed : ∀ sub ∈ pending SubchannelCursor.noteDiscoveryComplete cursor.subchannels,
    ∀ result, R sub result → sub.2.Probed (contents.count cursor.channelKey sub.1)
      limits.maxNoteLogIndex (value result))
include h hprobed

theorem ChannelCursor.Valid.processed (hcursor : cursor.Valid limits) :
    ChannelCursor.Valid limits { cursor with
      subchannels := kept SubchannelCursor.noteDiscoveryComplete cursor.subchannels ++
        results.map fun result => (key result, value result) } where
  length_le := (length_processed h).trans_le hcursor.length_le
  entries := forall_processed h hcursor.entries fun sub hsub result hR =>
    (hprobed sub hsub result hR).valid

include hkey

theorem ChannelCursor.fits_processed_iff :
    ChannelCursor.Fits contents limits { cursor with
      subchannels := kept SubchannelCursor.noteDiscoveryComplete cursor.subchannels ++
        results.map fun result => (key result, value result) } ↔ cursor.Fits contents limits := by
  -- Processing keeps which subchannels have a boundary out of reach.
  have hexceeds : ChannelCursor.Exceeds contents limits.maxNoteLogIndex { cursor with
      subchannels := kept SubchannelCursor.noteDiscoveryComplete cursor.subchannels ++
        results.map fun result => (key result, value result) } ↔
      cursor.Exceeds contents limits.maxNoteLogIndex := by
    constructor
    · rintro ⟨token, ⟨sub, hsub, rfl, hopen, hnone⟩ | hrest, hcount⟩
      · rcases mem_processed h hsub with ⟨hkept, -⟩ | ⟨old, hold, hopen', result, hR, rfl⟩
        · exact ⟨sub.1, .inl ⟨sub, hkept, rfl, hopen, hnone⟩, hcount⟩
        · have hpage := hprobed old (mem_pending.mpr ⟨hold, hopen'⟩) result hR
          exact ⟨key result, .inl ⟨old, hold, (hkey old result hR).symm, hopen',
            hpage.unprobed hnone⟩, hcount⟩
      · exact ⟨token, .inr hrest, hcount⟩
    · rintro ⟨token, ⟨sub, hsub, rfl, hopen, hnone⟩ | hrest, hcount⟩
      · have hpending := mem_pending.mpr ⟨hsub, hopen⟩
        obtain ⟨result, hresult, hR⟩ := exists_right_of_forall₂ h hpending
        obtain ⟨hopen', hnone'⟩ := (hprobed sub hpending result hR).exceeds hnone hcount
        exact ⟨sub.1, .inl ⟨(key result, value result),
          List.mem_append_right _ (List.mem_map_of_mem hresult), hkey sub result hR, hopen',
          hnone'⟩, hcount⟩
      · exact ⟨token, .inr hrest, hcount⟩
  constructor
  · rintro ⟨hroom, hreach⟩
    dsimp only at hroom
    rw [length_processed h] at hroom
    exact ⟨hroom, fun hex => hreach (hexceeds.mpr hex)⟩
  · rintro ⟨hroom, hreach⟩
    refine ⟨?_, fun hex => hreach (hexceeds.mp hex)⟩
    dsimp only
    rwa [length_processed h]

end Processed

section Channel

variable {entry : Felt × ChannelCursor} (hheld : contents.Held sn backend entry.2.channelKey)
  (hentry : entry.2.Follows contents) (hvalid : entry.2.Valid limits)
include hheld hentry hvalid

theorem ChannelPaged.valid_fits {result : ProcessChannelResult}
    (h : ChannelPaged full sn backend contents viewingKey limits entry result) :
    result.cursor.Valid limits ∧
      (result.cursor.Fits contents limits ↔ entry.2.Fits contents limits) := by
  obtain ⟨scanned, results, hpage, hprocessed⟩ := h.steps
  have hscanned := hpage.follows hheld.nodup hentry
  have hvalid' := hpage.valid hvalid
  have hprobed : ∀ sub ∈ pending SubchannelCursor.noteDiscoveryComplete scanned.subchannels,
      ∀ result : ProcessSubchannelResult,
        SubchannelPaged full sn backend contents viewingKey limits.maxNoteLogIndex
          scanned.channelKey sub result →
        sub.2.Probed (contents.count scanned.channelKey sub.1) limits.maxNoteLogIndex
          result.cursor := by
    intro sub hsub result hR
    obtain ⟨hmem, hopen⟩ := mem_pending.mp hsub
    have hnotes := (hpage.channelKey_eq ▸ hheld : contents.Held sn backend scanned.channelKey).notes
      sub.1 (List.mem_of_mem_take (hscanned.known sub hmem))
    exact hR.probed hnotes.count_le hopen (hvalid'.entries sub hmem)
  rw [hprocessed.cursor_eq]
  exact ⟨hvalid'.processed hprocessed.paged hprobed,
    (ChannelCursor.fits_processed_iff hprocessed.paged (fun _ _ hR => hR.token_eq) hprobed).trans
      (hpage.fits_iff hheld.nodup hentry)⟩

omit hheld hentry hvalid in
/-- When everything is granted, a page completes a channel that fits. -/
theorem ChannelPaged.isComplete_of_full {result : ProcessChannelResult}
    (hstart : nextIndex entry.2.lastSubchannelIndex ≤ (contents.tokens entry.2.channelKey).length)
    (hfits : entry.2.Fits contents limits)
    (h : ChannelPaged True sn backend contents viewingKey limits entry result) :
    result.cursor.isComplete = true := by
  obtain ⟨scanned, results, hpage, hprocessed⟩ := h.steps
  have hover : scanned.subchannelDiscoveryComplete = true := by
    cases hpage with
    | closed hover => exact hover
    | @advanced number complete hopen hadvance hslots =>
      -- There is a slot left after the last subchannel, so the scan sees its end.
      refine (hadvance.granted trivial).resolve_right fun hall => ?_
      have hroom := hfits.room hopen
      have hle := hadvance.le_length' hstart
      omega
  rw [hprocessed.cursor_eq]
  refine Bool.and_eq_true_iff.mpr ⟨hover, List.all_eq_true.mpr fun sub hsub => ?_⟩
  rcases mem_processed hprocessed.paged hsub with ⟨-, hdone⟩ | ⟨old, hold, -, processed, hR, rfl⟩
  · exact hdone
  · exact hR.granted trivial

end Channel

end PrivacyPool.Discovery
