import PrivacyPool.Discovery.CursorGrowth
import PrivacyPool.Discovery.Service
import PrivacyPool.Properties.BoundarySearch

/-!
# Cursors under sync

A server accepts cursors within its limits. What a call adds to a cursor stays within them, but
for one thing: the boundary search of a subchannel looks as far ahead of its start index as the
limit allows in all. From a start index that is not zero it can find a total that the server
does not accept.

The last indices of channels and subchannels have no limit, so that a client may send the
greatest one. A scan behind it starts anew, and takes the last index back if it finds anything.

## Main definitions

* `SubchannelCursor.Overshoots` — the search finds a total beyond the limit
* `DiscoveryCursor.KeepsIndices` — where a scan starts anew, it finds nothing
* `ClosedUnderSync` — what a call returns is accepted, and has only moved forward

## Main results

* `cursor_closed_iff` — when a cursor is closed under sync
-/

namespace PrivacyPool.Discovery

open Budget Budget.Task HashMap

variable {sn : Starknet} {newFromX : Felt → Option sn.EcPoint} {backend : Backend}
  {limits : CursorLimits} {cursor : DiscoveryCursor} {count : Felt → Felt → ℕ}

/-! ### Accepted cursors -/

theorem validateBound_eq_ok_iff {actualSize maxAllowed : ℕ} {fieldName : String} :
    validateBound actualSize maxAllowed fieldName = .ok () ↔ actualSize ≤ maxAllowed := by
  unfold validateBound
  split_ifs with hlt
  · exact iff_of_false nofun (Nat.not_le.mpr hlt)
  · exact iff_of_true rfl (Nat.not_lt.mp hlt)

/-- What validation asks of a subchannel cursor. -/
theorem validateSubchannel_eq_ok_iff {maxNotes : ℕ} {cursor : SubchannelCursor} :
    validateSubchannel maxNotes cursor = .ok () ↔
      cursor.totalNNotes.getD 0 ≤ maxNotes ∧ cursor.startIndex ≤ maxNotes := by
  unfold validateSubchannel SubchannelCursor.startIndex nextIndex
  rw [Fallible.bind_eq_ok]
  refine Iff.trans (b := validateTotalNNotes maxNotes cursor.totalNNotes = .ok () ∧
    validateLastNoteIndex maxNotes cursor.lastNoteIndex = .ok ())
    ⟨fun ⟨_, h⟩ => h, fun h => ⟨(), h⟩⟩ (and_congr ?_ ?_)
  · cases cursor.totalNNotes with
    | none => exact iff_of_true rfl (Nat.zero_le _)
    | some total =>
      unfold validateTotalNNotes
      rw [Option.getD_some]
      dsimp only
      split_ifs with hlt
      · exact iff_of_false nofun (Nat.not_le.mpr hlt)
      · exact iff_of_true rfl (Nat.not_lt.mp hlt)
  · cases cursor.lastNoteIndex with
    | none => exact iff_of_true rfl (Nat.zero_le _)
    | some last =>
      unfold validateLastNoteIndex
      rw [Option.elim_some]
      dsimp only
      split_ifs with hle
      · exact iff_of_false nofun (by omega)
      · exact iff_of_true rfl (by omega)

/-- What validation asks of a cursor. -/
structure DiscoveryCursor.Accepted (limits : CursorLimits) (cursor : DiscoveryCursor) : Prop where
  channels_le : cursor.channels.length ≤ limits.maxChannels
  subchannels_le : ∀ entry ∈ cursor.channels, entry.2.subchannels.length ≤ limits.maxSubchannels
  total_le : ∀ entry ∈ cursor.channels, ∀ sub ∈ entry.2.subchannels,
    sub.2.totalNNotes.getD 0 ≤ maxNotes limits.maxNoteLogIndex
  start_le : ∀ entry ∈ cursor.channels, ∀ sub ∈ entry.2.subchannels,
    sub.2.startIndex ≤ maxNotes limits.maxNoteLogIndex

theorem DiscoveryCursor.accepted_default (limits : CursorLimits) :
    DiscoveryCursor.Accepted limits {} :=
  ⟨Nat.zero_le _, nofun, nofun, nofun⟩

theorem validateCursor_eq_ok_iff :
    validateCursor cursor limits = .ok () ↔ cursor.Accepted limits := by
  have hchannel : ∀ ch : ChannelCursor, validateChannel limits ch = .ok () ↔
      ch.subchannels.length ≤ limits.maxSubchannels ∧ ∀ sub ∈ ch.subchannels,
        sub.2.totalNNotes.getD 0 ≤ maxNotes limits.maxNoteLogIndex ∧
          sub.2.startIndex ≤ maxNotes limits.maxNoteLogIndex := by
    intro ch
    unfold validateChannel
    rw [Fallible.bind_eq_ok]
    constructor
    · rintro ⟨_, hlength, hsubs⟩
      exact ⟨validateBound_eq_ok_iff.mp hlength, fun sub hsub =>
        validateSubchannel_eq_ok_iff.mp (Fallible.forM_eq_ok.mp hsubs sub hsub)⟩
    · rintro ⟨hlength, hsubs⟩
      exact ⟨(), validateBound_eq_ok_iff.mpr hlength, Fallible.forM_eq_ok.mpr fun sub hsub =>
        validateSubchannel_eq_ok_iff.mpr (hsubs sub hsub)⟩
  unfold validateCursor
  rw [Fallible.bind_eq_ok]
  constructor
  · rintro ⟨_, hlength, hentries⟩
    have hall := fun entry hentry => (hchannel _).mp (Fallible.forM_eq_ok.mp hentries entry hentry)
    exact ⟨validateBound_eq_ok_iff.mp hlength, fun entry hentry => (hall entry hentry).1,
      fun entry hentry sub hsub => ((hall entry hentry).2 sub hsub).1,
      fun entry hentry sub hsub => ((hall entry hentry).2 sub hsub).2⟩
  · intro h
    exact ⟨(), validateBound_eq_ok_iff.mpr h.channels_le, Fallible.forM_eq_ok.mpr fun entry hentry =>
      (hchannel _).mpr ⟨h.subchannels_le entry hentry, fun sub hsub =>
        ⟨h.total_le entry hentry sub hsub, h.start_le entry hentry sub hsub⟩⟩⟩

/-! ### A call -/

/-- The search of a subchannel is still to come, and finds a total beyond the limit. -/
structure SubchannelCursor.Overshoots (count maxNoteLogIndex : ℕ) (cursor : SubchannelCursor) :
    Prop where
  isOpen : cursor.noteDiscoveryComplete = false
  total_eq : cursor.totalNNotes = none
  start_lt : cursor.startIndex < count
  reached : count < cursor.startIndex + 2 ^ maxNoteLogIndex
  exceeds : maxNotes maxNoteLogIndex < count

/-- No search of the cursor finds a total beyond the limit. -/
def DiscoveryCursor.InReach (count : Felt → Felt → ℕ) (maxNoteLogIndex : ℕ)
    (cursor : DiscoveryCursor) : Prop :=
  ∀ entry ∈ cursor.channels, ∀ sub ∈ entry.2.subchannels,
    ¬sub.2.Overshoots (count entry.2.channelKey sub.1) maxNoteLogIndex

/-- The notes of the subchannels of a cursor occupy the indices below their counts. -/
def DiscoveryCursor.Contiguous (sn : Starknet) (backend : Backend) (count : Felt → Felt → ℕ)
    (cursor : DiscoveryCursor) : Prop :=
  ∀ entry ∈ cursor.channels, ∀ sub ∈ entry.2.subchannels,
    NotesHeld sn backend entry.2.channelKey sub.1 (count entry.2.channelKey sub.1)

theorem maxNotes_lt (maxNoteLogIndex : ℕ) : maxNotes maxNoteLogIndex < 2 ^ 64 := by
  unfold maxNotes
  split_ifs with hlog
  · exact Nat.pow_lt_pow_right (by decide) hlog
  · decide

theorem le_maxNotes_of_lt {total maxNoteLogIndex : ℕ} (hlt : total < 2 ^ maxNoteLogIndex)
    (hle : total ≤ 2 ^ 63) : total ≤ maxNotes maxNoteLogIndex := by
  unfold maxNotes
  split_ifs
  · exact hlt.le
  · omega

/-- A subchannel cursor stays within the limits. -/
theorem SubchannelCursor.Moves.accepted {channelKey token : Felt} {maxNoteLogIndex : ℕ}
    {cursor cursor' : SubchannelCursor}
    (h : cursor.Moves sn backend channelKey token maxNoteLogIndex cursor')
    (htotal : cursor.totalNNotes.getD 0 ≤ maxNotes maxNoteLogIndex)
    (hstart : cursor.startIndex ≤ maxNotes maxNoteLogIndex)
    (hreach : cursor = {} ∨ ∃ count, NotesHeld sn backend channelKey token count ∧
      ¬cursor.Overshoots count maxNoteLogIndex) :
    cursor'.totalNNotes.getD 0 ≤ maxNotes maxNoteLogIndex ∧
      cursor'.startIndex ≤ maxNotes maxNoteLogIndex := by
  have htotal' : cursor'.totalNNotes.getD 0 ≤ maxNotes maxNoteLogIndex := by
    rcases h.total with hsame | ⟨⟨hopen, hnone⟩, total, hfound, hsome⟩
    · exact hsame ▸ htotal
    · rw [hsome, Option.getD_some]
      rcases hfound with rfl | ⟨hlt, hwide, hrange, hcount⟩
      · exact Nat.zero_le _
      · rcases hreach with rfl | ⟨count, hheld, hreach⟩
        · rw [show ({} : SubchannelCursor).startIndex = 0 from rfl, Nat.zero_add] at hrange hwide
          exact le_maxNotes_of_lt hrange hwide
        · obtain rfl := hcount (hstart.trans_lt (maxNotes_lt _)) count hheld
          exact not_lt.mp fun hexceeds => hreach ⟨hopen, hnone, hlt, hrange, hexceeds⟩
  exact ⟨htotal', h.start_le.trans (max_le hstart htotal')⟩

/-- A cursor within the limits stays within them, when no search finds a total beyond. -/
theorem DiscoveryCursor.Moves.accepted {cursor' : DiscoveryCursor}
    (h : cursor.Moves (ChannelMoves sn backend limits) limits.maxChannels cursor')
    (haccepted : cursor.Accepted limits) (hheld : cursor.Contiguous sn backend count)
    (hreach : cursor.InReach count limits.maxNoteLogIndex) : cursor'.Accepted limits := by
  have hsubs : ∀ entry' ∈ cursor'.channels,
      entry'.2.subchannels.length ≤ limits.maxSubchannels ∧ ∀ sub' ∈ entry'.2.subchannels,
        sub'.2.totalNNotes.getD 0 ≤ maxNotes limits.maxNoteLogIndex ∧
          sub'.2.startIndex ≤ maxNotes limits.maxNoteLogIndex := by
    intro entry' hentry'
    obtain ⟨ch, hch, hmoves⟩ := h.channels.all entry' hentry'
    rcases hch with hold | ⟨channelKey, rfl⟩
    · refine ⟨hmoves.length_le.trans (max_le (haccepted.subchannels_le _ hold) le_rfl),
        fun sub' hsub' => ?_⟩
      obtain ⟨sc, hsc, hsub⟩ := hmoves.subchannels.all sub' hsub'
      rcases hsc with hold' | rfl
      · exact hsub.accepted (haccepted.total_le _ hold _ hold') (haccepted.start_le _ hold _ hold')
          (.inr ⟨_, hheld (_, ch) hold (_, sc) hold', hreach (_, ch) hold (_, sc) hold'⟩)
      · exact hsub.accepted (Nat.zero_le _) (Nat.zero_le _) (.inl rfl)
    · refine ⟨hmoves.length_le.trans (max_le (Nat.zero_le _) le_rfl), fun sub' hsub' => ?_⟩
      obtain ⟨sc, hsc, hsub⟩ := hmoves.subchannels.all sub' hsub'
      rcases hsc with hold' | rfl
      · cases hold'
      · exact hsub.accepted (Nat.zero_le _) (Nat.zero_le _) (.inl rfl)
  exact ⟨h.length_le.trans (max_le haccepted.channels_le le_rfl),
    fun entry' hentry' => (hsubs entry' hentry').1,
    fun entry' hentry' sub' hsub' => ((hsubs entry' hentry').2 sub' hsub').1,
    fun entry' hentry' sub' hsub' => ((hsubs entry' hentry').2 sub' hsub').2⟩

theorem DiscoveryCursor.Moves.advances {cursor' : DiscoveryCursor}
    (h : cursor.Moves (ChannelMoves sn backend limits) limits.maxChannels cursor') :
    cursor.Advances cursor' := by
  refine ⟨h.complete, h.start_le, h.channels.nodup, fun entry hentry => ?_⟩
  obtain ⟨entry', hentry', hkey, hmoves⟩ := h.channels.old entry hentry
  refine ⟨entry', hentry', hkey, hmoves.channelKey_eq, hmoves.complete, hmoves.start_le,
    hmoves.subchannels.nodup, fun sub hsub => ?_⟩
  obtain ⟨sub', hsub', htoken, hmoved⟩ := hmoves.subchannels.old sub hsub
  exact ⟨sub', hsub', htoken, hmoved.advances⟩

/-! ### A search that overshoots -/

section Overshoot

variable {channelKey token addr : Felt} {maxNoteLogIndex : ℕ}

theorem SubchannelCursor.Overshoots.log_lt {sub : SubchannelCursor} {count : ℕ}
    (h : sub.Overshoots count maxNoteLogIndex) (hcount : count ≤ 2 ^ 32) : maxNoteLogIndex < 32 := by
  have hexceeds := h.exceeds
  unfold maxNotes at hexceeds
  split_ifs at hexceeds with hlog
  · exact (Nat.pow_lt_pow_iff_right (a := 2) (by decide)).mp (hexceeds.trans_le hcount)
  · omega

theorem findLastNoteIndex_thrifty (sub : SubchannelCursor) :
    (findLastNoteIndex sn backend channelKey token sub maxNoteLogIndex).Thrifty
      (boundaryBudget maxNoteLogIndex) := by
  intro budget hbudget
  cases htotal : sub.totalNNotes with
  | none => exact ⟨_, _, le_rfl, findLastNoteIndex_short htotal hbudget⟩
  | some total =>
    unfold findLastNoteIndex
    rw [htotal, Option.isSome_some, if_pos rfl]
    exact ⟨_, budget, le_rfl, rfl⟩

theorem processOutgoingSubchannel_thrifty (sub : SubchannelCursor) :
    (processOutgoingSubchannel sn backend channelKey token sub maxNoteLogIndex).Thrifty
      (boundaryBudget maxNoteLogIndex) := by
  unfold processOutgoingSubchannel
  split_ifs
  · exact thrifty_pure
  · exact thrifty_bind (findLastNoteIndex_thrifty sub) fun _ => thrifty_pure

/-- The price of one search pays for the search of a subchannel, and leaves less than that. -/
theorem processOutgoingSubchannel_overshoots {sub : SubchannelCursor} {count : ℕ}
    (hheld : NotesHeld sn backend channelKey token count)
    (h : sub.Overshoots count maxNoteLogIndex)
    (hstart : sub.startIndex ≤ maxNotes maxNoteLogIndex) :
    ∃ result left, left < boundaryBudget maxNoteLogIndex ∧
      (processOutgoingSubchannel sn backend channelKey token sub maxNoteLogIndex).runOn
        (boundaryBudget maxNoteLogIndex) = (.ok result, left) ∧
      result.token = token ∧ result.cursor.totalNNotes = some count := by
  have hlog := h.log_lt hheld.count_le
  have hpow : 2 ^ maxNoteLogIndex ≤ 2 ^ 31 := Nat.pow_le_pow_right (by decide) (by omega)
  have hmax : maxNotes maxNoteLogIndex = 2 ^ maxNoteLogIndex := if_pos (by omega)
  rw [hmax] at hstart
  have hfits : sub.startIndex + 2 ^ maxNoteLogIndex < 2 ^ 64 := by omega
  have hprobed := exponentialProbe_probed hheld.value_ne_zero_iff h.start_lt.le hfits
  have hrun : (findLastNoteIndex sn backend channelKey token sub maxNoteLogIndex).runOn _ = _ :=
    findLastNoteIndex_run h.total_eq (le_refl (boundaryBudget maxNoteLogIndex))
  generalize exponentialProbe sn backend channelKey token sub.startIndex maxNoteLogIndex =
    probed at hprobed hrun
  -- The probes end between a hit and a miss, which the bisection narrows down to the count.
  cases hprobed with
  | exceeded hcount => exact absurd h.reached (Nat.not_lt.mpr hcount)
  | missed hcount => exact absurd hcount h.start_lt.ne'
  | @between k cache hk hlower hupper hcache =>
    have hpow' : 2 ^ (k + 1) ≤ 2 ^ maxNoteLogIndex := Nat.pow_le_pow_right (by decide) hk
    have hfinds := bisectBoundary_finds hheld.value_ne_zero_iff cache hlower hupper (by omega) le_rfl
    unfold processOutgoingSubchannel
    rw [h.isOpen, if_neg Bool.false_ne_true, runOn_bind, hrun]
    refine ⟨_, _, ?_, rfl, rfl, congrArg some hfinds⟩
    rw [Nat.sub_self, Nat.zero_add, boundaryBudget, costNoteProbing]
    omega

theorem scanSubchannels_affordable (slots index : ℕ) :
    (scanSubchannels sn backend channelKey slots index).Affordable := by
  induction slots generalizing index with
  | zero => exact affordable_pure
  | succ slots ih =>
    refine affordable_consume_bind ?_
    simp only [Bool.not_true, Bool.false_eq_true, if_false]
    refine affordable_read.bind fun _ => ?_
    split_ifs
    · exact affordable_pure
    · exact (ih (index + 1)).bind fun _ => affordable_pure

theorem scanSubchannels_thrifty {limit : ℕ} (slots index : ℕ) :
    (scanSubchannels sn backend channelKey slots index).Thrifty limit := by
  induction slots generalizing index with
  | zero => exact thrifty_pure
  | succ slots ih =>
    refine thrifty_bind thrifty_consume fun ok => ?_
    cases ok with
    | false => exact thrifty_pure
    | true =>
      simp only [Bool.not_true, Bool.false_eq_true, if_false]
      refine thrifty_bind thrifty_read fun _ => ?_
      split_ifs
      · exact thrifty_pure
      · exact thrifty_bind (ih _) fun _ => thrifty_pure

theorem discoverSubchannelsPaginated_affordable (ch : ChannelCursor) (maxSubchannels : ℕ) :
    (discoverSubchannelsPaginated sn backend channelKey ch maxSubchannels).Affordable := by
  unfold discoverSubchannelsPaginated
  split_ifs
  · exact affordable_pure
  · dsimp only
    split_ifs
    · exact affordable_pure
    · exact ((scanSubchannels_affordable _ _).bind fun _ => affordable_pure).bind
        fun _ => affordable_pure

theorem discoverSubchannelsPaginated_thrifty {limit : ℕ} (ch : ChannelCursor)
    (maxSubchannels : ℕ) :
    (discoverSubchannelsPaginated sn backend channelKey ch maxSubchannels).Thrifty limit := by
  unfold discoverSubchannelsPaginated
  split_ifs
  · exact thrifty_pure
  · dsimp only
    split_ifs
    · exact thrifty_pure
    · exact thrifty_bind (thrifty_bind (scanSubchannels_thrifty _ _) fun _ => thrifty_pure)
        fun _ => thrifty_pure

/-! ### A scan that starts anew -/

/-- With nothing left a scan ends at once. -/
theorem scanSubchannels_runOn_zero (slots index : ℕ) :
    (scanSubchannels sn backend channelKey slots index).runOn 0 = (.ok ([], true), 0) := by
  cases slots with
  | zero => rfl
  | succ slots =>
    unfold scanSubchannels
    rw [runOn_bind, runOn_consume_of_lt (by decide)]
    rfl

/-- The price of one subchannel pays for the first one, which takes the last index back. -/
theorem discoverSubchannelsPaginated_restarts {ch : ChannelCursor} {maxSubchannels : ℕ}
    (h : ch.Restarts maxSubchannels)
    (hfirst : (backend.getSubchannelInfo sn (computeSubchannelId sn ch.channelKey 0)).salt ≠ 0) :
    ∃ scanned found, (discoverSubchannelsPaginated sn backend ch.channelKey ch
      maxSubchannels).runOn costSubchannelInfo = (.ok (scanned, found), 0) ∧
        scanned.lastSubchannelIndex = some 0 := by
  obtain ⟨slots, hslots⟩ := Nat.exists_eq_succ_of_ne_zero (Nat.sub_ne_zero_of_lt h.slots_pos)
  have hscan : (scanSubchannels sn backend ch.channelKey (slots + 1) 0).runOn costSubchannelInfo =
      (.ok ([⟨0, decryptSubchannelToken sn (backend.getSubchannelInfo sn
        (computeSubchannelId sn ch.channelKey 0)) ch.channelKey 0⟩], true), 0) := by
    unfold scanSubchannels
    rw [runOn_bind, runOn_consume_of_le le_rfl, Nat.sub_self]
    simp only [Bool.not_true, Bool.false_eq_true, if_false]
    rw [runOn_read_bind, if_neg hfirst, runOn_bind, scanSubchannels_runOn_zero]
    rfl
  unfold discoverSubchannelsPaginated discoverSubchannels
  rw [h.isOpen, if_neg Bool.false_ne_true]
  dsimp only
  rw [hslots, if_neg (Nat.succ_ne_zero slots), wrappingNext_of_le h.wraps, runOn_bind, runOn_bind,
    hscan]
  exact ⟨_, _, rfl, rfl⟩

theorem scanOutgoingChannels_runOn_zero {senderAddr viewingKey : Felt} (slots index : ℕ) :
    (scanOutgoingChannels sn backend senderAddr viewingKey slots index).runOn 0 =
      (.ok ([], none, true), 0) := by
  cases slots with
  | zero => rfl
  | succ slots =>
    unfold scanOutgoingChannels
    rw [runOn_bind, runOn_consume_of_lt (by decide)]
    rfl

/-- The price of one outgoing channel pays for the first one. -/
theorem discoverOutgoingChannelsPaginated_restarts {senderAddr viewingKey : Felt}
    {maxChannels : ℕ} (h : cursor.Restarts maxChannels)
    (hfirst : (backend.getOutgoingChannelInfo sn
      (computeOutgoingChannelId sn senderAddr viewingKey 0)).salt ≠ 0) :
    ∃ scanned found, (discoverOutgoingChannelsPaginated sn backend senderAddr viewingKey cursor
      maxChannels none).runOn costOutgoingChannelInfo = (.ok (scanned, found), 0) ∧
        scanned.lastChannelIndex = some 0 := by
  obtain ⟨slots, hslots⟩ := Nat.exists_eq_succ_of_ne_zero (Nat.sub_ne_zero_of_lt h.slots_pos)
  obtain ⟨channel, hscan⟩ : ∃ channel, (scanOutgoingChannels sn backend senderAddr viewingKey
      (slots + 1) 0).runOn costOutgoingChannelInfo = (.ok ([channel], some 0, true), 0) := by
    unfold scanOutgoingChannels
    rw [runOn_bind, runOn_consume_of_le le_rfl, Nat.sub_self]
    simp only [Bool.not_true, Bool.false_eq_true, if_false]
    rw [runOn_read_bind, if_neg hfirst, runOn_read_bind, runOn_bind,
      scanOutgoingChannels_runOn_zero]
    exact ⟨_, rfl⟩
  unfold discoverOutgoingChannelsPaginated discoverOutgoingChannels
  rw [h.isOpen, if_neg Bool.false_ne_true]
  dsimp only
  rw [hslots, if_neg (Nat.succ_ne_zero slots), wrappingNext_of_le h.wraps, runOn_bind, runOn_bind,
    hscan]
  exact ⟨_, _, rfl, rfl⟩

/-- The price of the number of channels, unless it is cached, pays for it. -/
theorem cachedChannelCount_runOn (backend : Backend) (recipient : ContractAddress) (cursor : DiscoveryCursor) :
    ∃ cost, ∀ left, (cachedChannelCount backend recipient cursor).runOn (cost + left) =
      (.ok (some (cursor.totalNChannels.getD (backend.getNumOfChannels recipient))), left) := by
  unfold cachedChannelCount
  cases cursor.totalNChannels with
  | some total => exact ⟨0, fun left => by rw [Nat.zero_add]; rfl⟩
  | none =>
    refine ⟨costNumChannels, fun left => ?_⟩
    unfold getIncomingChannelCount
    rw [runOn_bind, runOn_consume_of_le (Nat.le_add_right _ _), Nat.add_sub_cancel_left]
    rfl

/-- The price of one incoming channel pays for the first one. -/
theorem discoverIncomingChannels_first {recipient : ContractAddress} {privateKey : Felt}
    {channel : ChannelInfo} {number : ℕ} (hpos : 0 < number)
    (hfirst : decryptChannelInfo sn newFromX (backend.getChannelInfo recipient 0) privateKey =
      .ok channel) :
    ∃ found, (discoverIncomingChannels sn newFromX backend recipient privateKey 0 number).runOn
      costChannelInfo = (.ok found, 0) ∧ found.lastIndex = some 0 := by
  have hone : min (costChannelInfo / costChannelInfo) number = 1 :=
    min_eq_left hpos
  have hdecrypt : decryptChannels sn newFromX privateKey 0
      (backend.getChannelInfoBatch recipient 0 1) =
        .ok [⟨channel.channelKey, channel.senderAddr⟩] := by
    unfold Backend.getChannelInfoBatch decryptChannels
    simp only [List.range_one, List.map_cons, List.map_nil, Nat.add_zero, hfirst]
    rfl
  unfold discoverIncomingChannels
  rw [runOn_bind, runOn_consumeUpTo, hone]
  dsimp only
  rw [if_neg one_ne_zero, runOn_read_bind, hdecrypt, runOn_bind]
  exact ⟨_, rfl, rfl⟩

theorem discoverIncomingChannelsPaginated_restarts {recipient : ContractAddress}
    {privateKey : Felt} {maxChannels : ℕ} (h : cursor.Restarts maxChannels)
    (hfirst : FirstIncoming sn newFromX backend recipient privateKey cursor) :
    ∃ budget scanned found, (discoverIncomingChannelsPaginated sn newFromX backend recipient
      privateKey cursor maxChannels).runOn budget = (.ok (scanned, found), 0) ∧
        scanned.lastChannelIndex = some 0 := by
  obtain ⟨hpos, channel, hdecrypt⟩ := hfirst
  obtain ⟨cost, hcount⟩ := cachedChannelCount_runOn backend recipient cursor
  have hslots := Nat.sub_ne_zero_of_lt h.slots_pos
  obtain ⟨found, hfound, hlast⟩ := discoverIncomingChannels_first
    (lt_min hpos (Nat.pos_of_ne_zero hslots)) hdecrypt
  unfold discoverIncomingChannelsPaginated
  refine ⟨cost + costChannelInfo, ?_⟩
  rw [h.isOpen, if_neg Bool.false_ne_true]
  dsimp only
  rw [if_neg hslots, runOn_bind, hcount]
  dsimp only
  rw [wrappingNext_of_le h.wraps, Nat.sub_zero, if_neg hpos.ne', runOn_bind, hfound]
  exact ⟨_, _, rfl, by rw [hlast]; rfl⟩

/-! ### The rest of a call -/

theorem processOutgoingChannel_thrifty (ch : ChannelCursor) (maxSubchannels : ℕ) :
    (processOutgoingChannel sn backend addr ch maxSubchannels maxNoteLogIndex []).Thrifty
      (boundaryBudget maxNoteLogIndex) := by
  unfold processOutgoingChannel
  refine thrifty_bind (discoverSubchannelsPaginated_thrifty _ _) fun scanned => ?_
  refine thrifty_bind (thrifty_parallel (List.forall_mem_map.mpr fun sub _ => ?_))
    fun _ => thrifty_pure
  exact processOutgoingSubchannel_thrifty _

/-- The result of an entry is in the map after the call. -/
theorem mem_foldl_insert {β ρ : Type} {complete : β → Bool} {m : List (Felt × β)}
    {results : List ρ} {key : ρ → Felt} (value : ρ → β) (hnodup : (keys m).Nodup)
    (h : List.Forall₂ (fun entry result => key result = entry.1) (pending complete m) results)
    {result : ρ} (hresult : result ∈ results) :
    (key result, value result) ∈
      results.foldl (fun m result => insert m (key result) (value result)) (kept complete m) := by
  rw [foldl_insert_extractIf hnodup value (map_eq_keys h fun _ _ hkey => hkey)]
  exact List.mem_append_right _ (List.mem_map_of_mem hresult)

theorem processOutgoingChannel_runOn {ch scanned : ChannelCursor} {found : List Subchannel}
    {results : List ProcessOutgoingSubchannelResult} {turns : List ℕ}
    {maxSubchannels budget rest left : ℕ}
    (hscan : (discoverSubchannelsPaginated sn backend ch.channelKey ch maxSubchannels).runOn budget =
      (.ok (scanned, found), rest))
    (h : (parallel turns ((pending SubchannelCursor.noteDiscoveryComplete scanned.subchannels).map
      fun sub => processOutgoingSubchannel sn backend ch.channelKey sub.1 sub.2
        maxNoteLogIndex)).runOn rest = (.ok results, left)) :
    (processOutgoingChannel sn backend addr ch maxSubchannels maxNoteLogIndex turns).runOn budget =
      (.ok ⟨addr, results.map fun result => ⟨addr, result.token, result.lastNoteIndex⟩,
        { scanned with
          subchannels := results.foldl (fun m result => insert m result.token result.cursor)
            (kept SubchannelCursor.noteDiscoveryComplete scanned.subchannels) }⟩, left) := by
  unfold processOutgoingChannel processOutgoingSubchannels
  rw [runOn_bind, hscan]
  dsimp only
  rw [runOn_bind, h]
  rfl

/-- Of a channel the subchannel that overshoots is searched before all others. -/
theorem processOutgoingChannel_overshoots {entry : Felt × ChannelCursor}
    (hnodup : (keys entry.2.subchannels).Nodup)
    (hkeeps : entry.2.KeepsLast sn backend limits.maxSubchannels) {sub : Felt × SubchannelCursor}
    (hsub : sub ∈ entry.2.subchannels) {count : ℕ}
    (hheld : NotesHeld sn backend entry.2.channelKey sub.1 count)
    (h : sub.2.Overshoots count limits.maxNoteLogIndex)
    (hstart : sub.2.startIndex ≤ maxNotes limits.maxNoteLogIndex) :
    ∃ budget turns result left, left < boundaryBudget limits.maxNoteLogIndex ∧
      (processOutgoingChannel sn backend entry.1 entry.2 limits.maxSubchannels
        limits.maxNoteLogIndex turns).runOn budget = (.ok result, left) ∧
      ∃ sub' ∈ result.cursor.subchannels, sub'.2.totalNNotes = some count := by
  obtain ⟨cost, ⟨scanned, found⟩, hscan⟩ : (discoverSubchannelsPaginated sn backend
      entry.2.channelKey entry.2 limits.maxSubchannels).Affordable :=
    discoverSubchannelsPaginated_affordable entry.2 limits.maxSubchannels
  have hmoves : entry.2.Moves (fun _ sc sc' => sc' = sc) limits.maxSubchannels scanned :=
    (discoverSubchannelsPaginated_moves hnodup hkeeps).of_ok
      (congrArg Prod.fst (hscan 0))
  have hmem : sub ∈ pending SubchannelCursor.noteDiscoveryComplete scanned.subchannels := by
    obtain ⟨sub', hsub', htoken, hsame⟩ := hmoves.subchannels.old sub hsub
    obtain rfl : sub' = sub := Prod.ext htoken hsame
    exact mem_pending.mpr ⟨hsub', h.isOpen⟩
  obtain ⟨j, hj⟩ := List.getElem?_of_mem hmem
  obtain ⟨result, left, hleft, hrun, htoken, htotal⟩ :=
    processOutgoingSubchannel_overshoots hheld h hstart
  have htask : ((pending SubchannelCursor.noteDiscoveryComplete scanned.subchannels).map fun sub =>
      processOutgoingSubchannel sn backend entry.2.channelKey sub.1 sub.2
        limits.maxNoteLogIndex)[j]? = some (processOutgoingSubchannel sn backend
          entry.2.channelKey sub.1 sub.2 limits.maxNoteLogIndex) := by
    rw [List.getElem?_map, hj, Option.map_some]
  -- Its search goes first and leaves too little for the others to search.
  obtain ⟨turns, results, left', hle, hparallel, hresult⟩ :=
    runOn_parallel_first htask hrun hleft fun _ task _ htask => by
      obtain ⟨other, -, rfl⟩ := List.mem_map.mp (List.mem_of_getElem? htask)
      exact processOutgoingSubchannel_thrifty other.2
  have hmoved : ∀ sub ∈ pending SubchannelCursor.noteDiscoveryComplete scanned.subchannels,
      (processOutgoingSubchannel sn backend entry.2.channelKey sub.1 sub.2
        limits.maxNoteLogIndex).Within False _ _ :=
    fun sub hsub => processOutgoingSubchannel_moves (mem_pending.mp hsub).2
  have hresults := (within_parallel hmoved).of_ok (congrArg Prod.fst hparallel)
  have hput := mem_foldl_insert ProcessOutgoingSubchannelResult.cursor hmoves.subchannels.nodup
    (hresults.imp fun _ _ hR => hR.1) (List.mem_of_getElem? hresult)
  refine ⟨cost + boundaryBudget limits.maxNoteLogIndex, turns, _, left', hle.trans_lt hleft,
    processOutgoingChannel_runOn (hscan _) hparallel, _, hput, htotal⟩

end Overshoot

/-! ### Closure -/

/-- Whatever a call is asked, what it returns is accepted and has moved forward. -/
structure ClosedUnderSync (sn : Starknet) (newFromX : Felt → Option sn.EcPoint)
    (backend : Backend) (limits : CursorLimits) (cursor : DiscoveryCursor) : Prop where
  incoming : ∀ recipient privateKey schedule budget result,
    (syncIncomingState sn newFromX backend recipient privateKey cursor limits schedule).outcome
        budget = .ok result →
      validateCursor result.cursor limits = .ok () ∧ cursor.Advances result.cursor
  outgoing : ∀ senderAddr viewingKey recipients schedule budget result,
    (syncOutgoingState sn backend senderAddr viewingKey cursor limits recipients schedule).outcome
        budget = .ok result →
      validateCursor result.cursor limits = .ok () ∧ cursor.Advances result.cursor

theorem isComplete_eq_false {ch : ChannelCursor} {sub : Felt × SubchannelCursor}
    (hsub : sub ∈ ch.subchannels) (hopen : sub.2.noteDiscoveryComplete = false) :
    ch.isComplete = false := by
  refine Bool.eq_false_iff.mpr fun hcomplete => ?_
  have hall := List.all_eq_true.mp (Bool.and_eq_true_iff.mp hcomplete).2 sub hsub
  rw [hopen] at hall
  cases hall

theorem missingChannels_thrifty {senderAddr viewingKey : Felt} {limit : ℕ}
    (recipients : Option (List Felt)) :
    (missingChannels sn backend senderAddr viewingKey cursor recipients).Thrifty limit := by
  unfold missingChannels precomputeChannels
  split_ifs
  · exact thrifty_pure
  · exact thrifty_bind thrifty_consume fun _ => thrifty_pure
  · exact thrifty_pure

/-- While a channel is open, an outgoing call goes on with the channels of the cursor. -/
theorem syncOutgoingState_pending {entry : Felt × ChannelCursor} (hentry : entry ∈ cursor.channels)
    (hopen : entry.2.isComplete = false) {schedule : Schedule} {budget left : ℕ}
    {cursor' : DiscoveryCursor} {found : List OutgoingSubchannel}
    (hrun : (processOutgoingChannels sn backend cursor limits schedule).runOn budget =
      (.ok (cursor', found), left)) :
    ∃ result, (syncOutgoingState sn backend 0 0 cursor limits none schedule).outcome budget =
      .ok result ∧ result.cursor = cursor' := by
  have hpending : cursor.allChannelsProcessed = false := by
    refine Bool.eq_false_iff.mpr fun hall => ?_
    have hcomplete := List.all_eq_true.mp hall entry hentry
    rw [hopen] at hcomplete
    cases hcomplete
  have hthrifty : (missingChannels sn backend 0 0 cursor' none).Thrifty (left + 1) :=
    missingChannels_thrifty none
  obtain ⟨missing, left', -, hmissing⟩ := hthrifty left (Nat.lt_succ_self left)
  refine ⟨⟨[] ++ missing, found, cursor'⟩, ?_, rfl⟩
  change (Task.runOn _ budget).1 = _
  unfold syncOutgoingState newOutgoingChannels
  rw [hpending, if_neg Bool.false_ne_true, runOn_bind, runOn_pure]
  dsimp only
  rw [runOn_bind, hrun]
  dsimp only
  rw [runOn_bind, hmissing]
  rfl

theorem processOutgoingChannels_runOn {schedule : Schedule} {budget left : ℕ}
    {results : List ProcessOutgoingChannelResult}
    (h : (parallel schedule.channels ((pending ChannelCursor.isComplete cursor.channels).map
      fun entry => processOutgoingChannel sn backend entry.1 entry.2 limits.maxSubchannels
        limits.maxNoteLogIndex (schedule.subchannels entry.1))).runOn budget = (.ok results, left)) :
    (processOutgoingChannels sn backend cursor limits schedule).runOn budget =
      (.ok ({ cursor with
        channels := results.foldl (fun m result => insert m result.recipientAddr result.cursor)
          (kept ChannelCursor.isComplete cursor.channels) },
        results.flatMap (·.subchannels)), left) := by
  unfold processOutgoingChannels
  rw [runOn_bind, h]
  rfl

theorem processOutgoingChannel_addr {maxSubchannels maxNoteLogIndex : ℕ} {turns : List ℕ}
    (addr : Felt) (ch : ChannelCursor) :
    (processOutgoingChannel sn backend addr ch maxSubchannels maxNoteLogIndex turns).Within False
      (fun _ => True) fun result => result.recipientAddr = addr := by
  unfold processOutgoingChannel processOutgoingSubchannels
  exact within_bind (within_true.mono fun _ _ => within_bind (within_true.mono fun _ _ =>
    within_pure rfl))

/-- A channel whose processing leaves less than the price of a search can go first: the others
take no turns of their own. -/
theorem syncOutgoingState_first (hkeyed : cursor.Keyed) {entry : Felt × ChannelCursor}
    (hentry : entry ∈ cursor.channels) (hopen : entry.2.isComplete = false) {budget left : ℕ}
    {turns : List ℕ} {result : ProcessOutgoingChannelResult}
    (hleft : left < boundaryBudget limits.maxNoteLogIndex)
    (hrun : (processOutgoingChannel sn backend entry.1 entry.2 limits.maxSubchannels
      limits.maxNoteLogIndex turns).runOn budget = (.ok result, left)) :
    ∃ schedule final, (syncOutgoingState sn backend 0 0 cursor limits none schedule).outcome budget =
      .ok final ∧ (entry.1, result.cursor) ∈ final.cursor.channels := by
  obtain ⟨i, hi⟩ := List.getElem?_of_mem (mem_pending.mpr ⟨hentry, hopen⟩)
  let subTurns : Felt → List ℕ := fun addr => if addr = entry.1 then turns else []
  have hturns : subTurns entry.1 = turns := if_pos rfl
  have hnodup : (keys (pending ChannelCursor.isComplete cursor.channels)).Nodup :=
    (((extractIf_perm cursor.channels _).map Prod.fst).nodup_iff.mpr hkeyed.nodup).sublist
      ((List.sublist_append_right _ _).map Prod.fst)
  have htask : ((pending ChannelCursor.isComplete cursor.channels).map fun entry =>
      processOutgoingChannel sn backend entry.1 entry.2 limits.maxSubchannels
        limits.maxNoteLogIndex (subTurns entry.1))[i]? = some (processOutgoingChannel sn backend
          entry.1 entry.2 limits.maxSubchannels limits.maxNoteLogIndex turns) := by
    rw [List.getElem?_map, hi, Option.map_some, hturns]
  obtain ⟨order, results, left', -, hparallel, hresult⟩ :=
    runOn_parallel_first htask hrun hleft fun j task hne htask => by
      rw [List.getElem?_map] at htask
      obtain ⟨other, hother, rfl⟩ := Option.map_eq_some_iff.mp htask
      -- Each address is in the cursor once, so the others have no turns.
      have haddr : other.1 ≠ entry.1 := by
        intro heq
        refine hne ((List.getElem?_inj ?_ hnodup).mp ?_)
        · rw [keys, List.length_map]
          exact (List.getElem?_eq_some_iff.mp hother).1
        · rw [keys, List.getElem?_map, List.getElem?_map, hother, hi]
          exact congrArg some heq
      rw [show subTurns other.1 = [] from if_neg haddr]
      exact processOutgoingChannel_thrifty other.2 limits.maxSubchannels
  have hresults := (within_parallel fun entry _ =>
    processOutgoingChannel_addr entry.1 entry.2).of_ok (congrArg Prod.fst hparallel)
  have hput := mem_foldl_insert ProcessOutgoingChannelResult.cursor hkeyed.nodup hresults
    (List.mem_of_getElem? hresult)
  have hprocessed : (processOutgoingChannels sn backend cursor limits
      ⟨order, subTurns⟩).runOn budget = _ := processOutgoingChannels_runOn hparallel
  obtain ⟨final, hok, hcursor⟩ := syncOutgoingState_pending hentry hopen hprocessed
  have haddr : result.recipientAddr = entry.1 :=
    (processOutgoingChannel_addr entry.1 entry.2).of_ok (congrArg Prod.fst hrun)
  refine ⟨_, final, hok, ?_⟩
  rw [hcursor]
  exact haddr ▸ hput

/-- A subchannel that overshoots takes a call to a cursor that is not accepted. -/
theorem not_accepted_of_overshoots (hkeyed : cursor.Keyed) {entry : Felt × ChannelCursor}
    (hentry : entry ∈ cursor.channels)
    (hkeeps : entry.2.KeepsLast sn backend limits.maxSubchannels) {sub : Felt × SubchannelCursor}
    (hsub : sub ∈ entry.2.subchannels) {count : ℕ}
    (hheld : NotesHeld sn backend entry.2.channelKey sub.1 count)
    (h : sub.2.Overshoots count limits.maxNoteLogIndex)
    (hstart : sub.2.startIndex ≤ maxNotes limits.maxNoteLogIndex) :
    ∃ schedule budget result,
      (syncOutgoingState sn backend 0 0 cursor limits none schedule).outcome budget = .ok result ∧
        ¬result.cursor.Accepted limits := by
  obtain ⟨budget, turns, result, left, hleft, hrun, sub', hsub', htotal⟩ :=
    processOutgoingChannel_overshoots (hkeyed.entries entry hentry) hkeeps hsub hheld h hstart
  obtain ⟨schedule, final, hok, hput⟩ := syncOutgoingState_first hkeyed hentry
    (isComplete_eq_false hsub h.isOpen) hleft hrun
  refine ⟨schedule, budget, final, hok, fun haccepted => ?_⟩
  have hle := haccepted.total_le _ hput sub' hsub'
  rw [htotal, Option.getD_some] at hle
  exact absurd h.exceeds (Nat.not_lt.mpr hle)

/-- A channel whose scan starts anew takes a call back. -/
theorem not_advances_of_subchannel (hkeyed : cursor.Keyed) {entry : Felt × ChannelCursor}
    (hentry : entry ∈ cursor.channels)
    (hgoesBack : ¬entry.2.KeepsLast sn backend limits.maxSubchannels) :
    ∃ schedule budget result,
      (syncOutgoingState sn backend 0 0 cursor limits none schedule).outcome budget = .ok result ∧
        ¬cursor.Advances result.cursor := by
  unfold ChannelCursor.KeepsLast at hgoesBack
  push Not at hgoesBack
  obtain ⟨hrestarts, hfirst⟩ := hgoesBack
  obtain ⟨scanned, found, hscan, hlast⟩ := discoverSubchannelsPaginated_restarts hrestarts hfirst
  have hpos : 0 < boundaryBudget limits.maxNoteLogIndex := Nat.succ_pos _
  have hthrifty : (parallel [] ((pending SubchannelCursor.noteDiscoveryComplete
      scanned.subchannels).map fun sub => processOutgoingSubchannel sn backend entry.2.channelKey
        sub.1 sub.2 limits.maxNoteLogIndex)).Thrifty (boundaryBudget limits.maxNoteLogIndex) :=
    thrifty_parallel (List.forall_mem_map.mpr fun sub _ => processOutgoingSubchannel_thrifty sub.2)
  obtain ⟨results, left, hle, hparallel⟩ := hthrifty 0 hpos
  have hopen : entry.2.isComplete = false := by
    rw [ChannelCursor.isComplete, hrestarts.isOpen, Bool.false_and]
  obtain ⟨schedule, final, hok, hput⟩ := syncOutgoingState_first hkeyed hentry hopen
    (hle.trans_lt hpos) (processOutgoingChannel_runOn hscan hparallel)
  refine ⟨schedule, _, final, hok, fun hadvances => ?_⟩
  obtain ⟨entry', hentry', hkey, hadvanced⟩ := hadvances.channels entry hentry
  obtain rfl := List.inj_on_of_nodup_map hadvances.nodup hentry' hput hkey
  have hback := hrestarts.wraps.trans hadvanced.start_le
  rw [hlast] at hback
  exact absurd hback (by decide)

theorem processOutgoingChannels_thrifty (cursor : DiscoveryCursor) :
    (processOutgoingChannels sn backend cursor limits ⟨[], fun _ => []⟩).Thrifty
      (boundaryBudget limits.maxNoteLogIndex) := by
  unfold processOutgoingChannels
  refine thrifty_bind (thrifty_parallel (List.forall_mem_map.mpr fun entry _ => ?_))
    fun _ => thrifty_pure
  exact processOutgoingChannel_thrifty entry.2 limits.maxSubchannels

/-- An outgoing scan that starts anew takes a call back. -/
theorem not_advances_of_outgoing {senderAddr viewingKey : Felt}
    (hgoesBack : ¬cursor.KeepsOutgoing sn backend senderAddr viewingKey limits.maxChannels) :
    ∃ schedule budget result, (syncOutgoingState sn backend senderAddr viewingKey cursor limits none
      schedule).outcome budget = .ok result ∧ ¬cursor.Advances result.cursor := by
  unfold DiscoveryCursor.KeepsOutgoing at hgoesBack
  push Not at hgoesBack
  obtain ⟨hrestarts, hfirst⟩ := hgoesBack
  obtain ⟨scanned, found, hscan, hlast⟩ := discoverOutgoingChannelsPaginated_restarts hrestarts
    hfirst
  have hrest : (processOutgoingChannels sn backend scanned limits ⟨[], fun _ => []⟩).Thrifty
      (boundaryBudget limits.maxNoteLogIndex) := processOutgoingChannels_thrifty scanned
  obtain ⟨⟨cursor', subs⟩, left, -, hprocess⟩ := hrest 0 (Nat.succ_pos _)
  have hsame : (processOutgoingChannels sn backend scanned limits ⟨[], fun _ => []⟩).Within False
      (fun _ => True) fun result => result.1.lastChannelIndex = scanned.lastChannelIndex :=
    within_bind (within_true.mono fun _ _ => within_pure rfl)
  -- The scan has found the channel at zero, and what follows keeps that index.
  have hlast' : cursor'.lastChannelIndex = some 0 :=
    (hsame.of_ok (congrArg Prod.fst hprocess)).trans hlast
  have hthrifty : (missingChannels sn backend senderAddr viewingKey cursor' none).Thrifty
      (left + 1) := missingChannels_thrifty none
  obtain ⟨missing, left', -, hmissing⟩ := hthrifty left (Nat.lt_succ_self left)
  refine ⟨⟨[], fun _ => []⟩, costOutgoingChannelInfo, ⟨found ++ missing, subs, cursor'⟩, ?_,
    fun hadvances => ?_⟩
  · change (Task.runOn _ _).1 = _
    unfold syncOutgoingState newOutgoingChannels
    rw [hrestarts.processed, if_pos rfl, runOn_bind, hscan]
    dsimp only
    rw [runOn_bind, hprocess]
    dsimp only
    rw [runOn_bind, hmissing]
    rfl
  · have hback := hrestarts.wraps.trans hadvances.start_le
    rw [hlast'] at hback
    exact absurd hback (by decide)

theorem processSubchannel_thrifty {channelKey token viewingKey : Felt} (sub : SubchannelCursor)
    (maxNoteLogIndex : ℕ) :
    (processSubchannel sn backend channelKey token sub viewingKey maxNoteLogIndex).Thrifty 1 := by
  have hnotes : ∀ startIndex endIndex cache, (discoverNotes sn backend channelKey token startIndex
      endIndex viewingKey cache).Thrifty 1 := by
    intro startIndex endIndex cache b hb
    obtain rfl := Nat.lt_one_iff.mp hb
    unfold discoverNotes
    rw [runOn_bind, runOn_consumeUpTo, Nat.zero_div, Nat.zero_min]
    exact ⟨_, 0, le_rfl, rfl⟩
  have hsearch : (findLastNoteIndex sn backend channelKey token sub maxNoteLogIndex).Thrifty 1 :=
    fun b hb => findLastNoteIndex_thrifty sub b (hb.trans_le (Nat.succ_le_succ (Nat.zero_le _)))
  unfold processSubchannel discoverNotesPaginated
  split_ifs
  · exact thrifty_pure
  · refine thrifty_bind (thrifty_bind hsearch fun searched => ?_) fun _ => thrifty_pure
    dsimp only
    split_ifs
    · exact thrifty_pure
    · split
      · exact thrifty_pure
      · exact thrifty_bind (hnotes _ _ _) fun _ => thrifty_pure

theorem processChannels_thrifty {viewingKey : Felt} (cursor : DiscoveryCursor)
    (newChannels : List IncomingChannel) :
    (processChannels sn backend cursor newChannels viewingKey limits ⟨[], fun _ => []⟩).Thrifty
      1 := by
  unfold processChannels processChannel processSubchannels
  refine thrifty_bind (thrifty_parallel (List.forall_mem_map.mpr fun entry _ => ?_))
    fun _ => thrifty_pure
  refine thrifty_bind (discoverSubchannelsPaginated_thrifty _ _) fun scanned => ?_
  refine thrifty_bind (thrifty_parallel (List.forall_mem_map.mpr fun sub _ => ?_))
    fun _ => thrifty_pure
  exact processSubchannel_thrifty _ _

/-- An incoming scan that starts anew takes a call back. -/
theorem not_advances_of_incoming {recipient : ContractAddress} {viewingKey : Felt}
    (hgoesBack : ¬cursor.KeepsIncoming sn newFromX backend recipient viewingKey
      limits.maxChannels) :
    ∃ schedule budget result, (syncIncomingState sn newFromX backend recipient viewingKey cursor
      limits schedule).outcome budget = .ok result ∧ ¬cursor.Advances result.cursor := by
  unfold DiscoveryCursor.KeepsIncoming at hgoesBack
  push Not at hgoesBack
  obtain ⟨hrestarts, hfirst⟩ := hgoesBack
  obtain ⟨budget, scanned, found, hscan, hlast⟩ := discoverIncomingChannelsPaginated_restarts
    hrestarts hfirst
  have hrest : (processChannels sn backend scanned found viewingKey limits
      ⟨[], fun _ => []⟩).Thrifty 1 := processChannels_thrifty scanned found
  obtain ⟨result, left, -, hprocess⟩ := hrest 0 one_pos
  have hsame : (processChannels sn backend scanned found viewingKey limits
      ⟨[], fun _ => []⟩).Within False (fun _ => True) fun result =>
        result.cursor.lastChannelIndex = scanned.lastChannelIndex :=
    within_bind (within_true.mono fun _ _ => within_pure rfl)
  have hlast' : result.cursor.lastChannelIndex = some 0 :=
    (hsame.of_ok (congrArg Prod.fst hprocess)).trans hlast
  refine ⟨⟨[], fun _ => []⟩, budget, result, ?_, fun hadvances => ?_⟩
  · change (Task.runOn _ _).1 = _
    unfold syncIncomingState newIncomingChannels
    rw [hrestarts.processed, if_pos rfl, runOn_bind, hscan]
    exact congrArg Prod.fst hprocess
  · have hback := hrestarts.wraps.trans hadvances.start_le
    rw [hlast'] at hback
    exact absurd hback (by decide)

/-- Where a scan that is still to come starts anew, it finds nothing. -/
structure DiscoveryCursor.KeepsIndices (sn : Starknet) (newFromX : Felt → Option sn.EcPoint)
    (backend : Backend) (limits : CursorLimits) (cursor : DiscoveryCursor) : Prop where
  subchannels : ∀ entry ∈ cursor.channels, entry.2.KeepsLast sn backend limits.maxSubchannels
  incoming : ∀ recipient privateKey,
    cursor.KeepsIncoming sn newFromX backend recipient privateKey limits.maxChannels
  outgoing : ∀ senderAddr viewingKey,
    cursor.KeepsOutgoing sn backend senderAddr viewingKey limits.maxChannels

theorem ClosedUnderSync.keepsIndices (hkeyed : cursor.Keyed)
    (h : ClosedUnderSync sn newFromX backend limits cursor) :
    cursor.KeepsIndices sn newFromX backend limits := by
  constructor
  · intro entry hentry
    by_contra hgoesBack
    obtain ⟨schedule, budget, result, hok, hnot⟩ :=
      not_advances_of_subchannel hkeyed hentry hgoesBack
    exact hnot (h.outgoing _ _ _ _ _ _ hok).2
  · intro recipient privateKey
    by_contra hgoesBack
    obtain ⟨schedule, budget, result, hok, hnot⟩ := not_advances_of_incoming hgoesBack
    exact hnot (h.incoming _ _ _ _ _ hok).2
  · intro senderAddr viewingKey
    by_contra hgoesBack
    obtain ⟨schedule, budget, result, hok, hnot⟩ := not_advances_of_outgoing hgoesBack
    exact hnot (h.outgoing _ _ _ _ _ _ hok).2

/-- **Cursors under sync.** A cursor that is accepted stays so under every call, and moves forward,
just when no search of it is to find a total beyond the limit and no scan of it that starts anew
is to find anything. -/
theorem cursor_closed_iff (hkeyed : cursor.Keyed) (haccepted : validateCursor cursor limits = .ok ())
    (hheld : cursor.Contiguous sn backend count) :
    ClosedUnderSync sn newFromX backend limits cursor ↔
      cursor.InReach count limits.maxNoteLogIndex ∧
        cursor.KeepsIndices sn newFromX backend limits := by
  have haccepted := validateCursor_eq_ok_iff.mp haccepted
  constructor
  · intro hclosed
    have hkeeps := hclosed.keepsIndices hkeyed
    refine ⟨fun entry hentry sub hsub hover => ?_, hkeeps⟩
    obtain ⟨schedule, budget, result, hok, hrejected⟩ := not_accepted_of_overshoots hkeyed hentry
      (hkeeps.subchannels entry hentry) hsub (hheld entry hentry sub hsub) hover
        (haccepted.start_le entry hentry sub hsub)
    exact hrejected (validateCursor_eq_ok_iff.mp (hclosed.outgoing _ _ _ _ _ _ hok).1)
  · rintro ⟨hreach, hkeeps⟩
    constructor
    · intro recipient privateKey schedule budget result hok
      have hmoves := (syncIncomingState_moves hkeyed hkeeps.subchannels
        (hkeeps.incoming recipient privateKey) schedule).of_ok hok
      exact ⟨validateCursor_eq_ok_iff.mpr (hmoves.accepted haccepted hheld hreach),
        hmoves.advances⟩
    · intro senderAddr viewingKey recipients schedule budget result hok
      have hmoves := (syncOutgoingState_moves hkeyed hkeeps.subchannels
        (hkeeps.outgoing senderAddr viewingKey) schedule).of_ok hok
      exact ⟨validateCursor_eq_ok_iff.mpr (hmoves.accepted haccepted hheld hreach),
        hmoves.advances⟩

/-! ### Three notes -/

namespace Sample

/-- The id of a note is its index. -/
def indexed : Starknet := { Starknet.sample with poseidonHashSpan := fun span => span.getD 3 0 }

/-- A pool with the notes of the first three indices. -/
def threeNotes : Backend :=
  ⟨{ Sample.backend.pool with words := fun word =>
      if word % 32 = 4 * StorageVar.notes.ctorIdx ∧ word / 32 < 3 then 5 else 0 }, fun _ => 7⟩

theorem threeNotes_held : NotesHeld indexed threeNotes 1 77 3 := by
  refine ⟨fun index hindex => ?_, by decide⟩
  have hid : (computeNoteId indexed 1 77 index).val = index :=
    Nat.mod_eq_of_lt (hindex.trans (by decide))
  have hword : (indexed.entry .notes (computeNoteId indexed 1 77 index)).val =
      index * 32 + 4 * StorageVar.notes.ctorIdx := by
    change ((computeNoteId indexed 1 77 index).val * 32 + _) % _ = _
    rw [hid]
    refine Nat.mod_eq_of_lt ?_
    have hctor : StorageVar.notes.ctorIdx < 8 := by decide
    omega
  change (if (indexed.entry .notes (computeNoteId indexed 1 77 index)).val % 32 = _ ∧
    (indexed.entry .notes (computeNoteId indexed 1 77 index)).val / 32 < 3 then (5 : Felt) else 0) ≠
      0 ↔ index < 3
  rw [hword]
  have hctor : StorageVar.notes.ctorIdx < 8 := by decide
  split_ifs with hnote
  · exact iff_of_true (by decide) (by omega)
  · exact iff_of_false (not_not.mpr rfl) (by omega)

/-- One channel with one subchannel, whose search is still to come. -/
def searching (lastNoteIndex : Option ℕ) : DiscoveryCursor where
  channelDiscoveryComplete := true
  channels := [(5, { channelKey := 1, subchannels := [(77, { lastNoteIndex })] })]

theorem searching_keyed (lastNoteIndex : Option ℕ) : (searching lastNoteIndex).Keyed := by
  refine ⟨List.nodup_singleton _, fun entry hentry => ?_⟩
  obtain rfl := List.mem_singleton.mp hentry
  exact List.nodup_singleton _

theorem searching_contiguous (lastNoteIndex : Option ℕ) :
    (searching lastNoteIndex).Contiguous indexed threeNotes fun _ _ => 3 := by
  intro entry hentry sub hsub
  obtain rfl := List.mem_singleton.mp hentry
  obtain rfl := List.mem_singleton.mp hsub
  exact threeNotes_held

end Sample

/-- From its first note on, the subchannel with three notes stays within four. -/
theorem cursor_closed_iff_sample : ClosedUnderSync Sample.indexed Starknet.sampleRecover
    Sample.threeNotes ⟨4, 4, 2⟩ (Sample.searching none) := by
  refine (cursor_closed_iff (Sample.searching_keyed none) (by decide)
    (Sample.searching_contiguous none)).mpr ⟨fun entry hentry sub hsub hover => ?_, ?_⟩
  · obtain rfl := List.mem_singleton.mp hentry
    obtain rfl := List.mem_singleton.mp hsub
    exact absurd hover.exceeds (by decide)
  · refine ⟨fun entry hentry hrestarts => ?_, fun _ _ hrestarts => ?_, fun _ _ hrestarts => ?_⟩
    · obtain rfl := List.mem_singleton.mp hentry
      exact absurd hrestarts.wraps (by decide)
    · cases hrestarts.isOpen
    · cases hrestarts.isOpen

/-- From its third note on, the search finds three notes where the server accepts two. -/
theorem cursor_overshoots : ¬ClosedUnderSync Sample.indexed Starknet.sampleRecover
    Sample.threeNotes ⟨4, 4, 1⟩ (Sample.searching (some 1)) := by
  intro hclosed
  obtain ⟨hvalid, -⟩ := hclosed.outgoing 5 3 none ⟨[], fun _ => []⟩ 100 _
    (Fallible.eq_ok_valueOr ⟨[], [], {}⟩ (by decide +kernel))
  have hrejected : validateCursor (Fallible.valueOr ⟨[], [], {}⟩
      ((syncOutgoingState Sample.indexed Sample.threeNotes 5 3 (Sample.searching (some 1))
        ⟨4, 4, 1⟩ none ⟨[], fun _ => []⟩).outcome 100)).cursor ⟨4, 4, 1⟩ ≠ .ok () := by
    decide +kernel
  exact hrejected hvalid

end PrivacyPool.Discovery
