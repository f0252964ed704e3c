import Mathlib.Algebra.Order.BigOperators.Group.List
import Mathlib.Algebra.Order.Group.Nat
import PrivacyPool.Discovery.Outgoing

/-!
# Every page makes progress

The work of a cursor counts what is left to do: notes to scan, boundaries and subchannels
to find, and the ends of the scans. No page adds to it. A request whose budget pays for one
step at each level does some of it, whichever task takes the first turn, as long as the
scan that comes next has a free slot in the cursor.

## Main definitions

* `SubchannelCursor.work`, `ChannelCursor.work` — what is left to do

## Main results

* `processChannel_leads`, `processOutgoingChannel_leads` — a channel with a free slot
  makes progress when it gets the first draw
-/

namespace PrivacyPool.Discovery

open Budget.Task HashMap

variable {full : Prop} {sn : Starknet} {backend : Backend} {contents : Contents}
  {viewingKey : Felt} {budget : ℕ}

/-- A budget that pays for one step at each level. -/
structure Affords (budget maxNoteLogIndex : ℕ) : Prop where
  boundary : boundaryBudget maxNoteLogIndex ≤ budget
  note : costNote ≤ budget
  subchannelInfo : costSubchannelInfo ≤ budget
  numChannels : costNumChannels ≤ budget
  channelInfo : costChannelInfo ≤ budget
  outgoingChannelInfo : costOutgoingChannelInfo ≤ budget

theorem affords_of_minServerBudget_le {maxNoteLogIndex : ℕ}
    (h : minServerBudget maxNoteLogIndex ≤ budget) : Affords budget maxNoteLogIndex := by
  unfold minServerBudget costNumChannels costChannelInfo costSubchannelInfo costNote at h
  exact ⟨by omega, by unfold costNote; omega, by unfold costSubchannelInfo; omega,
    by unfold costNumChannels; omega, by unfold costChannelInfo; omega,
    by unfold costOutgoingChannelInfo; omega⟩

/-! ### Subchannels -/

/-- The notes to scan, the boundary to find and the end. -/
def SubchannelCursor.work (count : ℕ) (cursor : SubchannelCursor) : ℕ :=
  if cursor.noteDiscoveryComplete then 0
  else 1 + (cursor.totalNNotes.getD (count + 1) - cursor.startIndex)

theorem SubchannelCursor.work_of_complete {count : ℕ} {cursor : SubchannelCursor}
    (h : cursor.noteDiscoveryComplete = true) : cursor.work count = 0 := if_pos h

theorem NotesPage.work_le {count maxNoteLogIndex number : ℕ} {cursor cursor' : SubchannelCursor}
    (hopen : cursor.noteDiscoveryComplete = false)
    (hstart : cursor.totalNNotes = none → cursor.startIndex ≤ count)
    (h : NotesPage count maxNoteLogIndex cursor cursor' number) :
    cursor'.work count ≤ cursor.work count ∧
      (cursor' ≠ cursor → cursor'.work count < cursor.work count) := by
  have hnext := h.startIndex_eq
  cases h with
  | short h => exact ⟨le_rfl, fun hne => absurd rfl hne⟩
  | @scanned total number htotal hnumber =>
    have hnew : SubchannelCursor.work count
        { noteDiscoveryComplete := decide (number = total - cursor.startIndex)
          lastNoteIndex :=
            if number = 0 then cursor.lastNoteIndex else some (cursor.startIndex + number - 1)
          totalNNotes := some total } =
        if number = total - cursor.startIndex then 0
        else 1 + (total - (cursor.startIndex + number)) := by
      unfold SubchannelCursor.work
      rw [hnext]
      simp only [decide_eq_true_eq, Option.getD_some]
    have hold : cursor.work count =
        1 + (cursor.totalNNotes.getD (count + 1) - cursor.startIndex) := by
      unfold SubchannelCursor.work
      rw [hopen]
      rfl
    rw [hnew, hold]
    -- The total was known before, or this page has found it.
    rcases htotal with hsome | ⟨hnone, -, htotal⟩
    · rw [hsome, Option.getD_some]
      refine ⟨by split_ifs <;> omega, fun hne => ?_⟩
      split_ifs with hover
      · omega
      · -- Without a note and without the end, nothing has changed.
        have hpos : number ≠ 0 := by
          rintro rfl
          refine hne ?_
          cases cursor
          cases hopen
          cases hsome
          simp only [if_true, decide_eq_false hover]
        omega
    · have hle := hstart hnone
      rw [hnone, Option.getD_none]
      split_ifs at htotal ⊢ <;> omega

theorem SubchannelPaged.work_le {maxNoteLogIndex : ℕ} {channelKey : Felt}
    {entry : Felt × SubchannelCursor} {result : ProcessSubchannelResult}
    (h : SubchannelPaged full sn backend contents viewingKey maxNoteLogIndex channelKey entry
      result) (hopen : entry.2.noteDiscoveryComplete = false)
    (hstart : entry.2.totalNNotes = none →
      entry.2.startIndex ≤ contents.count channelKey entry.1) :
    result.cursor.work (contents.count channelKey result.token) ≤
        entry.2.work (contents.count channelKey entry.1) ∧
      (result.cursor ≠ entry.2 → result.cursor.work (contents.count channelKey result.token) <
        entry.2.work (contents.count channelKey entry.1)) := by
  obtain ⟨number, hpage, -⟩ := h.advanced
  rw [h.token_eq]
  exact hpage.work_le hopen hstart

theorem OutgoingSubchannelPaged.work_le {maxNoteLogIndex : ℕ} {channelKey : Felt}
    {entry : Felt × SubchannelCursor} {result : ProcessOutgoingSubchannelResult}
    (h : OutgoingSubchannelPaged full contents maxNoteLogIndex channelKey entry result)
    (hopen : entry.2.noteDiscoveryComplete = false) :
    result.cursor.work (contents.count channelKey result.token) ≤
        entry.2.work (contents.count channelKey entry.1) ∧
      (result.cursor.noteDiscoveryComplete = true →
        result.cursor.work (contents.count channelKey result.token) <
          entry.2.work (contents.count channelKey entry.1)) := by
  obtain ⟨probed, hasMore, hfound, hresult, -⟩ := h.probed
  have hold : entry.2.work (contents.count channelKey entry.1) =
      1 + (entry.2.totalNNotes.getD (contents.count channelKey entry.1 + 1) -
        entry.2.startIndex) := by
    unfold SubchannelCursor.work
    rw [hopen]
    rfl
  have hdone : ∀ cursor : SubchannelCursor, cursor.noteDiscoveryComplete = true →
      cursor.work (contents.count channelKey entry.1) <
        entry.2.work (contents.count channelKey entry.1) := by
    intro cursor hcomplete
    rw [hold, SubchannelCursor.work, if_pos hcomplete]
    omega
  rw [h.token_eq]
  refine ⟨?_, hdone _⟩
  rw [hresult]
  -- The budget ran out and nothing has changed, or the boundary is known and the subchannel done.
  cases hfound with
  | short h =>
    refine le_of_eq (congrArg (SubchannelCursor.work _) ?_)
    cases hsame : entry.2
    rw [hsame] at hopen
    cases hopen
    rfl
  | cached h => exact (hdone _ rfl).le
  | found h hrange => exact (hdone _ rfl).le

/-- A boundary search that is paid for is done. -/
theorem findLastNoteIndex_leads {channelKey token : Felt} {cursor : SubchannelCursor}
    {maxNoteLogIndex : ℕ} (hbudget : boundaryBudget maxNoteLogIndex ≤ budget) :
    (findLastNoteIndex sn backend channelKey token cursor maxNoteLogIndex).Leads budget
      fun result => result.2.2 = false ∧ result.1.totalNNotes.isSome = true := by
  unfold findLastNoteIndex
  split_ifs with hcached
  · exact leads_pure ⟨rfl, hcached⟩
  · refine leads_bind (leads_consume hbudget ?_)
    simp only [Bool.not_true, Bool.false_eq_true, if_false]
    refine within_bind (within_read (within_bind (within_ofExcept ?_)))
    cases exponentialProbe sn backend channelKey token cursor.startIndex maxNoteLogIndex with
    | error e => trivial
    | ok found =>
      obtain ⟨bounds, cache⟩ := found
      cases bounds with
      | none => exact within_bind (within_reclaim (within_pure ⟨rfl, rfl⟩))
      | some bounds =>
        exact within_bind (within_read (within_bind (within_reclaim (within_pure ⟨rfl, rfl⟩))))

/-- A page on a subchannel that gets the first draw changes its cursor. -/
theorem discoverNotesPaginated_leads {channelKey token privateKey : Felt}
    {cursor : SubchannelCursor} (hopen : cursor.noteDiscoveryComplete = false)
    {maxNoteLogIndex : ℕ} (hboundary : boundaryBudget maxNoteLogIndex ≤ budget)
    (hnote : costNote ≤ budget) :
    (discoverNotesPaginated sn backend channelKey token cursor privateKey maxNoteLogIndex).Leads
      budget fun result => result.1 ≠ cursor := by
  unfold discoverNotesPaginated
  cases hcached : cursor.totalNNotes with
  | none =>
    -- The boundary is found, and from now on the cursor has a total.
    refine leads_bind ((findLastNoteIndex_leads hboundary).mono ?_)
    rintro ⟨cursor', cache, hasMore⟩ ⟨hdone, hsome⟩
    dsimp only at hdone hsome
    subst hdone
    have hne : ∀ cursor'' : SubchannelCursor, cursor''.totalNNotes = cursor'.totalNNotes →
        cursor'' ≠ cursor := by
      rintro _ hsame rfl
      rw [← hsame, hcached] at hsome
      cases hsome
    simp only [Bool.false_eq_true, if_false]
    split
    · exact within_pure (hne _ rfl)
    · refine within_bind (within_true.mono fun result _ => within_pure (hne _ ?_))
      dsimp only
      split_ifs <;> rfl
  | some total =>
    -- The total is known, so that nothing is probed.
    have hfind : findLastNoteIndex sn backend channelKey token cursor maxNoteLogIndex =
        pure (cursor, [], false) := by
      unfold findLastNoteIndex
      rw [if_pos (by rw [hcached]; rfl)]
    rw [hfind]
    refine leads_pure_bind ?_
    simp only [Bool.false_eq_true, if_false]
    have hcomplete : ∀ cursor'' : SubchannelCursor, cursor''.noteDiscoveryComplete = true →
        cursor'' ≠ cursor := by
      rintro _ hdone rfl
      rw [hopen] at hdone
      cases hdone
    split
    · exact leads_pure (hcomplete _ rfl)
    · rename_i maxNoteIndex _
      unfold discoverNotes
      refine leads_bind (leads_bind (leads_consumeUpTo (by decide) hnote ?_))
      intro items hitems hpos
      dsimp only
      split_ifs with hzero
      · -- Nothing was left to scan.
        have hrest : maxNoteIndex + 1 - cursor.startIndex = 0 := by
          by_contra hne
          exact absurd (hpos (Nat.pos_of_ne_zero hne)) (by omega)
        refine within_pure (within_pure (hcomplete _ ?_))
        rw [hzero, hrest]
        rfl
      -- A note was scanned, and the last index goes up.
      · refine within_bind (within_true.mono fun batch _ => ?_)
        refine within_bind (within_reclaim (within_pure (within_pure fun hsame => ?_)))
        have hlast := congrArg SubchannelCursor.startIndex hsame
        have hnext : ∀ cursor'' : SubchannelCursor,
            (if decide (items < maxNoteIndex + 1 - cursor.startIndex) = true then cursor''
              else { cursor'' with noteDiscoveryComplete := true }).startIndex =
                cursor''.startIndex := by
          intro cursor''
          split_ifs <;> rfl
        dsimp only at hlast
        rw [hnext] at hlast
        simp only [SubchannelCursor.startIndex, nextIndex, Option.some_or, Option.elim_some] at hlast
        omega

theorem processSubchannel_leads {channelKey : Felt} {entry : Felt × SubchannelCursor}
    (hopen : entry.2.noteDiscoveryComplete = false) {maxNoteLogIndex : ℕ}
    (hboundary : boundaryBudget maxNoteLogIndex ≤ budget) (hnote : costNote ≤ budget) :
    (processSubchannel sn backend channelKey entry.1 entry.2 viewingKey maxNoteLogIndex).Leads
      budget fun result => result.cursor ≠ entry.2 := by
  unfold processSubchannel
  rw [hopen]
  exact leads_bind ((discoverNotesPaginated_leads hopen hboundary hnote).mono
    fun result hresult => within_pure hresult)

theorem processOutgoingSubchannel_leads {channelKey : Felt} {entry : Felt × SubchannelCursor}
    (hopen : entry.2.noteDiscoveryComplete = false) {maxNoteLogIndex : ℕ}
    (hboundary : boundaryBudget maxNoteLogIndex ≤ budget) :
    (processOutgoingSubchannel sn backend channelKey entry.1 entry.2 maxNoteLogIndex).Leads
      budget fun result => result.cursor.noteDiscoveryComplete = true := by
  unfold processOutgoingSubchannel
  rw [hopen]
  refine leads_bind ((findLastNoteIndex_leads hboundary).mono ?_)
  rintro ⟨cursor', cache, hasMore⟩ ⟨rfl, -⟩
  exact within_pure rfl

/-! ### Channels -/

/-- No result weighs more than its task, and one that moved weighs less: together they
weigh no more, and less when one moved. -/
theorem sum_le_of_forall₂ {τ ρ : Type} {R : τ → ρ → Prop} {tasks : List τ} {results : List ρ}
    (moved : τ → ρ → Prop) (left : ρ → ℕ) (weight : τ → ℕ) (h : List.Forall₂ R tasks results)
    (hstep : ∀ task ∈ tasks, ∀ result, R task result →
      left result ≤ weight task ∧ (moved task result → left result < weight task)) :
    (results.map left).sum ≤ (tasks.map weight).sum ∧
      ((∃ (i : ℕ) (task : τ) (result : ρ), tasks[i]? = some task ∧ results[i]? = some result ∧
        moved task result) → (results.map left).sum < (tasks.map weight).sum) := by
  induction h with
  | nil => exact ⟨le_rfl, fun ⟨_, _, _, htask, _⟩ => by simp at htask⟩
  | @cons task result tasks results hR _ ih =>
    obtain ⟨hle, hlt⟩ := ih fun task' htask' => hstep task' (List.mem_cons_of_mem _ htask')
    have hhead := hstep task List.mem_cons_self result hR
    simp only [List.map_cons, List.sum_cons]
    refine ⟨Nat.add_le_add hhead.1 hle, ?_⟩
    rintro ⟨i, task', result', htask, hresult, hmoved⟩
    cases i with
    | zero =>
      obtain rfl : task = task' := Option.some.inj htask
      obtain rfl : result = result' := Option.some.inj hresult
      exact Nat.add_lt_add_of_lt_of_le (hhead.2 hmoved) hle
    | succ i => exact Nat.add_lt_add_of_le_of_lt hhead.1 (hlt ⟨i, task', result', htask, hresult, hmoved⟩)

/-- Processing the incomplete entries of a map adds no work, and takes some when one of
them moved. -/
theorem sum_processed_le {β ρ : Type} {complete : β → Bool} {m : List (Felt × β)}
    {results : List ρ} {key : ρ → Felt} {value : ρ → β} {R : Felt × β → ρ → Prop}
    (moved : Felt × β → ρ → Prop) (work : Felt → β → ℕ)
    (h : List.Forall₂ R (pending complete m) results)
    (hstep : ∀ entry ∈ pending complete m, ∀ result, R entry result →
      work (key result) (value result) ≤ work entry.1 entry.2 ∧
        (moved entry result → work (key result) (value result) < work entry.1 entry.2)) :
    ((kept complete m ++ results.map fun result => (key result, value result)).map
        fun entry => work entry.1 entry.2).sum ≤ (m.map fun entry => work entry.1 entry.2).sum ∧
      ((∃ (i : ℕ) (entry : Felt × β) (result : ρ), (pending complete m)[i]? = some entry ∧
        results[i]? = some result ∧ moved entry result) →
      ((kept complete m ++ results.map fun result => (key result, value result)).map
        fun entry => work entry.1 entry.2).sum < (m.map fun entry => work entry.1 entry.2).sum) := by
  have hsplit := ((extractIf_perm m fun value => !complete value).map
    fun entry => work entry.1 entry.2).sum_eq
  obtain ⟨hle, hlt⟩ := sum_le_of_forall₂ moved (fun result => work (key result) (value result))
    (fun entry => work entry.1 entry.2) h hstep
  rw [List.map_append, List.sum_append] at hsplit
  rw [List.map_append, List.sum_append, List.map_map, ← hsplit]
  exact ⟨Nat.add_le_add_left hle _, fun hone => Nat.add_lt_add_left (hlt hone) _⟩

/-- The work of the subchannels, found or not, and the rest of the scan with its end. -/
def ChannelCursor.work (contents : Contents) (cursor : ChannelCursor) : ℕ :=
  cursor.weight contents (fun token sc => sc.work (contents.count cursor.channelKey token)) +
    if cursor.subchannelDiscoveryComplete then 0
    else 1 + ((contents.tokens cursor.channelKey).length - nextIndex cursor.lastSubchannelIndex)

theorem ChannelCursor.work_of_isComplete {cursor : ChannelCursor} (h : cursor.isComplete = true) :
    cursor.work contents = 0 := by
  unfold ChannelCursor.work
  rw [ChannelCursor.weight_of_isComplete (fun _ _ => SubchannelCursor.work_of_complete) h,
    if_pos (Bool.and_eq_true_iff.mp h).1]

/-- Dropping complete subchannels takes no work away. -/
theorem ChannelCursor.Pruned.work_eq {cursor cursor' : ChannelCursor} (h : cursor.Pruned cursor') :
    cursor'.work contents = cursor.work contents := by
  unfold ChannelCursor.work
  rw [h.channelKey_eq, h.complete_eq, h.last_eq,
    h.weight_eq fun _ _ => SubchannelCursor.work_of_complete]

/-- The scan has moved on. -/
def ChannelCursor.Moved (cursor cursor' : ChannelCursor) : Prop :=
  nextIndex cursor.lastSubchannelIndex < nextIndex cursor'.lastSubchannelIndex ∨
    cursor'.subchannelDiscoveryComplete = true

/-- Finding subchannels adds no weight: those that the cursor has already lose theirs. -/
theorem SubchannelsPage.weight_le {maxCursorSubchannels : ℕ} {cursor cursor' : ChannelCursor}
    (h : SubchannelsPage full (contents.tokens cursor.channelKey) maxCursorSubchannels cursor
      cursor') (w : Felt → SubchannelCursor → ℕ) :
    cursor'.weight contents w ≤ cursor.weight contents w := by
  cases h with
  | closed h => exact le_rfl
  | @advanced number complete hopen hadvance hslots =>
    unfold ChannelCursor.weight
    dsimp only
    rw [hopen, if_neg Bool.false_ne_true, nextIndex_lastIndexAfter, ← List.drop_drop]
    generalize (contents.tokens cursor.channelKey).drop (nextIndex cursor.lastSubchannelIndex) = rest
    have hfresh := ((List.filter_sublist (p := fun token => decide (token ∉ keys cursor.subchannels))
      (l := rest.take number)).map fun token => w token {}).sum_le_sum fun _ _ => Nat.zero_le _
    have hrest := congrArg (fun l : List Felt => (l.map fun token => w token {}).sum)
      (List.take_append_drop number rest)
    simp only [List.map_append, List.sum_append] at hrest
    rw [List.map_append, List.sum_append, List.map_map]
    dsimp only [Function.comp_def]
    split_ifs <;> omega

theorem SubchannelsPage.work_le {maxCursorSubchannels : ℕ} {cursor cursor' : ChannelCursor}
    (hstart : nextIndex cursor.lastSubchannelIndex ≤ (contents.tokens cursor.channelKey).length)
    (h : SubchannelsPage full (contents.tokens cursor.channelKey) maxCursorSubchannels cursor
      cursor') :
    cursor'.work contents ≤ cursor.work contents ∧
      (cursor.subchannelDiscoveryComplete = false → cursor.Moved cursor' →
        cursor'.work contents < cursor.work contents) := by
  have hkey := h.channelKey_eq
  have hweight := h.weight_le fun token sc => sc.work (contents.count cursor.channelKey token)
  unfold ChannelCursor.work ChannelCursor.Moved
  rw [hkey]
  cases h with
  | closed h => exact ⟨le_rfl, fun hopen => by rw [h] at hopen; cases hopen⟩
  | @advanced number complete hopen hadvance hslots =>
    have hle := hadvance.le_length' hstart
    simp only [hopen, nextIndex_lastIndexAfter, Bool.false_eq_true, if_false]
    refine ⟨?_, fun _ hmoved => ?_⟩
    · split_ifs <;> omega
    · split_ifs with hcomplete
      · omega
      · have := hmoved.resolve_right hcomplete
        omega

/-- A scan that gets the first draw and has a free slot moves on. -/
theorem discoverSubchannelsPaginated_leads {channelKey : Felt}
    (hheld : contents.Held sn backend channelKey) {cursor : ChannelCursor}
    (hstart : nextIndex cursor.lastSubchannelIndex ≤ (contents.tokens channelKey).length)
    {maxCursorSubchannels : ℕ} (hopen : cursor.subchannelDiscoveryComplete = false)
    (hslots : cursor.subchannels.length < maxCursorSubchannels)
    (hbudget : costSubchannelInfo ≤ budget) :
    (discoverSubchannelsPaginated sn backend channelKey cursor maxCursorSubchannels).Leads budget
      fun result => cursor.Moved result.1 := by
  unfold discoverSubchannelsPaginated
  rw [if_neg (by rw [hopen]; exact Bool.false_ne_true),
    wrappingNext_of_lt (hstart.trans_lt hheld.length_lt)]
  dsimp only
  rw [if_neg (by omega)]
  obtain ⟨slots, hsucc⟩ := Nat.exists_eq_succ_of_ne_zero
    (show maxCursorSubchannels - cursor.subchannels.length ≠ 0 by omega)
  rw [hsucc, discoverSubchannels]
  refine leads_bind (leads_bind (leads_bind (leads_consume hbudget ?_)))
  simp only [Bool.not_true, Bool.false_eq_true, if_false]
  refine within_bind (within_read ?_)
  split_ifs with hsalt
  · exact within_pure (within_pure (within_pure (.inr rfl)))
  · -- The last index that is found is not before the first one.
    have hlt := (hheld.salt_ne_zero_iff _ hstart).mp hsalt
    refine within_bind ((scanSubchannels_within hheld (Nat.succ_le_of_lt hlt)).mono ?_)
    rintro ⟨_, hasMore⟩ ⟨number, -, -, rfl⟩
    refine within_pure (within_pure (within_pure (.inl ?_)))
    have hlast := getLast?_zipIdx
      ((contents.tokens channelKey)[nextIndex cursor.lastSubchannelIndex] ::
        ((contents.tokens channelKey).drop (nextIndex cursor.lastSubchannelIndex + 1)).take number)
      (nextIndex cursor.lastSubchannelIndex)
      (fun entry => (⟨entry.2, entry.1⟩ : Subchannel)) Subchannel.index (fun _ => rfl)
      cursor.lastSubchannelIndex rfl
    rw [List.zipIdx_cons, List.map_cons, ← hheld.token_eq _ hlt] at hlast
    dsimp only at hlast ⊢
    rw [hlast, nextIndex_lastIndexAfter, List.length_cons]
    omega

/-- What such a scan finds is less work. -/
theorem discoverSubchannelsPaginated_work {cursor : ChannelCursor}
    (hheld : contents.Held sn backend cursor.channelKey)
    (hstart : nextIndex cursor.lastSubchannelIndex ≤ (contents.tokens cursor.channelKey).length)
    {maxCursorSubchannels : ℕ} (hopen : cursor.subchannelDiscoveryComplete = false)
    (hslots : cursor.subchannels.length < maxCursorSubchannels)
    (hbudget : costSubchannelInfo ≤ budget) :
    (discoverSubchannelsPaginated sn backend cursor.channelKey cursor maxCursorSubchannels).Leads
      budget fun result => SubchannelsPage False (contents.tokens cursor.channelKey)
        maxCursorSubchannels cursor result.1 ∧ result.1.work contents < cursor.work contents := by
  refine ((discoverSubchannelsPaginated_leads hheld hstart hopen hslots hbudget).and
    (discoverSubchannelsPaginated_within (E := fun _ => True) hheld hstart)).mono ?_
  rintro result ⟨hmoved, hpage⟩
  exact ⟨hpage, (hpage.work_le hstart).2 hopen hmoved⟩

section Incoming

variable {maxNoteLogIndex : ℕ} {senderAddr : Felt} {cursor : ChannelCursor}
  {cursorLimits : CursorLimits} {turns : List ℕ}

theorem SubchannelsProcessed.work_le {results : List ProcessSubchannelResult}
    {result : ProcessChannelResult} (hcursor : cursor.Follows contents)
    (h : SubchannelsProcessed full sn backend contents viewingKey maxNoteLogIndex senderAddr cursor
      results result) :
    result.cursor.work contents ≤ cursor.work contents ∧
      ((∃ (i : ℕ) (entry : Felt × SubchannelCursor) (processed : ProcessSubchannelResult),
        (pending SubchannelCursor.noteDiscoveryComplete cursor.subchannels)[i]? = some entry ∧
          results[i]? = some processed ∧ processed.cursor ≠ entry.2) →
        result.cursor.work contents < cursor.work contents) := by
  obtain ⟨hle, hlt⟩ := sum_processed_le
    (fun sub (processed : ProcessSubchannelResult) => processed.cursor ≠ sub.2)
    (fun token sc => sc.work (contents.count cursor.channelKey token)) h.paged
    fun sub hsub processed hR => by
      obtain ⟨hmem, hopen⟩ := mem_pending.mp hsub
      exact hR.work_le hopen (hcursor.resumable sub hmem)
  rw [h.cursor_eq]
  unfold ChannelCursor.work ChannelCursor.weight
  exact ⟨Nat.add_le_add_right (Nat.add_le_add_right hle _) _,
    fun hone => Nat.add_lt_add_right (Nat.add_lt_add_right (hlt hone) _) _⟩

/-- The incomplete subchannels of a channel make progress. -/
theorem processSubchannels_leads (hheld : contents.Held sn backend cursor.channelKey)
    (hcursor : cursor.Follows contents)
    (hpending : pending SubchannelCursor.noteDiscoveryComplete cursor.subchannels ≠ [])
    (hboundary : boundaryBudget maxNoteLogIndex ≤ budget) (hnote : costNote ≤ budget) :
    (processSubchannels sn backend senderAddr cursor.channelKey cursor viewingKey maxNoteLogIndex
      turns).Leads budget fun result => result.cursor.work contents < cursor.work contents := by
  refine leads_bind (((leads_parallel hpending fun sub hsub =>
    processSubchannel_leads (mem_pending.mp hsub).2 hboundary hnote).and
      (within_parallel fun sub hsub => pendingSubchannels_within hheld hcursor hsub)).mono ?_)
  rintro results ⟨hmoved, hresults⟩
  have hprocessed := SubchannelsProcessed.of_paged senderAddr hcursor hresults
  exact within_pure ((hprocessed.work_le hcursor).2 hmoved)

theorem ChannelPaged.work_le {entry : Felt × ChannelCursor} {result : ProcessChannelResult}
    (hnodup : (contents.tokens entry.2.channelKey).Nodup) (hentry : entry.2.Follows contents)
    (h : ChannelPaged full sn backend contents viewingKey cursorLimits entry result) :
    result.cursor.work contents ≤ entry.2.work contents := by
  obtain ⟨scanned, results, hpage, hprocessed⟩ := h.steps
  exact ((hprocessed.work_le (hpage.follows hnodup hentry)).1).trans
    (hpage.work_le hentry.start_le).1

/-- A channel that is incomplete although its scan is over has an incomplete subchannel. -/
theorem ChannelCursor.pending_ne_nil (hincomplete : cursor.isComplete = false)
    (hover : cursor.subchannelDiscoveryComplete = true) :
    pending SubchannelCursor.noteDiscoveryComplete cursor.subchannels ≠ [] := by
  intro hnone
  refine Bool.eq_false_iff.mp hincomplete (Bool.and_eq_true_iff.mpr ⟨hover, ?_⟩)
  refine List.all_eq_true.mpr fun sub hsub => ?_
  by_contra hopen
  have hmem := mem_pending.mpr ⟨hsub, Bool.eq_false_iff.mpr hopen⟩
  rw [hnone] at hmem
  cases hmem

theorem discoverSubchannelsPaginated_over {channelKey : Felt} {maxCursorSubchannels : ℕ}
    (hover : cursor.subchannelDiscoveryComplete = true) :
    discoverSubchannelsPaginated sn backend channelKey cursor maxCursorSubchannels =
      pure (cursor, []) := by
  unfold discoverSubchannelsPaginated
  rw [if_pos hover]

/-- An incomplete channel makes progress, as long as its scan is over or has a free slot. -/
theorem processChannel_leads {entry : Felt × ChannelCursor}
    (hheld : contents.Held sn backend entry.2.channelKey) (hentry : entry.2.Follows contents)
    (hincomplete : entry.2.isComplete = false)
    (hslots : entry.2.subchannelDiscoveryComplete = false →
      entry.2.subchannels.length < cursorLimits.maxSubchannels)
    (haffords : Affords budget cursorLimits.maxNoteLogIndex) :
    (processChannel sn backend entry.1 entry.2 viewingKey cursorLimits.maxSubchannels
      cursorLimits.maxNoteLogIndex turns).Leads budget
      fun result => result.cursor.work contents < entry.2.work contents := by
  unfold processChannel
  dsimp only
  cases hover : entry.2.subchannelDiscoveryComplete with
  | true =>
    rw [discoverSubchannelsPaginated_over hover]
    exact processSubchannels_leads hheld hentry (entry.2.pending_ne_nil hincomplete hover)
      haffords.boundary haffords.note
  | false =>
    refine leads_bind ((discoverSubchannelsPaginated_work hheld hentry.start_le hover (hslots hover)
      haffords.subchannelInfo).mono ?_)
    rintro ⟨scanned, _⟩ ⟨hpage, hless⟩
    have hscanned := hpage.follows hheld.nodup hentry
    have hheld' : contents.Held sn backend scanned.channelKey := hpage.channelKey_eq ▸ hheld
    dsimp only
    rw [← hpage.channelKey_eq]
    refine ((processSubchannels_within hheld' hscanned).weaken fun _ _ => trivial).mono ?_
    rintro result ⟨results, hprocessed⟩
    exact (hprocessed.work_le hscanned).1.trans_lt hless

end Incoming

section Outgoing

variable {maxNoteLogIndex : ℕ} {recipientAddr : Felt} {cursor : ChannelCursor}
  {cursorLimits : CursorLimits} {turns : List ℕ}

theorem OutgoingSubchannelsProcessed.work_le {results : List ProcessOutgoingSubchannelResult}
    {result : ProcessOutgoingChannelResult}
    (h : OutgoingSubchannelsProcessed full contents maxNoteLogIndex recipientAddr cursor results
      result) :
    result.cursor.work contents ≤ cursor.work contents ∧
      ((∃ (i : ℕ) (entry : Felt × SubchannelCursor) (processed : ProcessOutgoingSubchannelResult),
        (pending SubchannelCursor.noteDiscoveryComplete cursor.subchannels)[i]? = some entry ∧
          results[i]? = some processed ∧ processed.cursor.noteDiscoveryComplete = true) →
        result.cursor.work contents < cursor.work contents) := by
  obtain ⟨hle, hlt⟩ := sum_processed_le
    (fun _ (processed : ProcessOutgoingSubchannelResult) =>
      processed.cursor.noteDiscoveryComplete = true)
    (fun token sc => sc.work (contents.count cursor.channelKey token)) h.paged
    fun sub hsub processed hR => hR.work_le (mem_pending.mp hsub).2
  rw [h.cursor_eq]
  unfold ChannelCursor.work ChannelCursor.weight
  exact ⟨Nat.add_le_add_right (Nat.add_le_add_right hle _) _,
    fun hone => Nat.add_lt_add_right (Nat.add_lt_add_right (hlt hone) _) _⟩

/-- The incomplete subchannels of a channel make progress. -/
theorem processOutgoingSubchannels_leads (hheld : contents.Held sn backend cursor.channelKey)
    (hcursor : cursor.Lags contents)
    (hpending : pending SubchannelCursor.noteDiscoveryComplete cursor.subchannels ≠ [])
    (hboundary : boundaryBudget maxNoteLogIndex ≤ budget) :
    (processOutgoingSubchannels sn backend recipientAddr cursor.channelKey cursor maxNoteLogIndex
      turns).Leads budget fun result => result.cursor.work contents < cursor.work contents := by
  refine leads_bind (((leads_parallel hpending fun sub hsub =>
    processOutgoingSubchannel_leads (mem_pending.mp hsub).2 hboundary).and
      (within_parallel fun sub hsub =>
        pendingOutgoingSubchannels_within hheld hcursor hsub)).mono ?_)
  rintro results ⟨hmoved, hresults⟩
  have hprocessed := OutgoingSubchannelsProcessed.of_paged recipientAddr hcursor hresults
  exact within_pure (hprocessed.work_le.2 hmoved)

theorem OutgoingChannelPaged.work_le {entry : Felt × ChannelCursor}
    {result : ProcessOutgoingChannelResult}
    (hstart : nextIndex entry.2.lastSubchannelIndex ≤ (contents.tokens entry.2.channelKey).length)
    (h : OutgoingChannelPaged full contents cursorLimits entry result) :
    result.cursor.work contents ≤ entry.2.work contents := by
  obtain ⟨scanned, results, hpage, hprocessed⟩ := h.steps
  exact hprocessed.work_le.1.trans (hpage.work_le hstart).1

/-- An incomplete channel makes progress, as long as its scan is over or has a free slot. -/
theorem processOutgoingChannel_leads {entry : Felt × ChannelCursor}
    (hheld : contents.Held sn backend entry.2.channelKey) (hentry : entry.2.Lags contents)
    (hincomplete : entry.2.isComplete = false)
    (hslots : entry.2.subchannelDiscoveryComplete = false →
      entry.2.subchannels.length < cursorLimits.maxSubchannels)
    (haffords : Affords budget cursorLimits.maxNoteLogIndex) :
    (processOutgoingChannel sn backend entry.1 entry.2 cursorLimits.maxSubchannels
      cursorLimits.maxNoteLogIndex turns).Leads budget
      fun result => result.cursor.work contents < entry.2.work contents := by
  unfold processOutgoingChannel
  dsimp only
  cases hover : entry.2.subchannelDiscoveryComplete with
  | true =>
    rw [discoverSubchannelsPaginated_over hover]
    exact processOutgoingSubchannels_leads hheld hentry
      (entry.2.pending_ne_nil hincomplete hover) haffords.boundary
  | false =>
    refine leads_bind ((discoverSubchannelsPaginated_work hheld hentry.start_le hover (hslots hover)
      haffords.subchannelInfo).mono ?_)
    rintro ⟨scanned, _⟩ ⟨hpage, hless⟩
    have hscanned := hpage.lags hheld.nodup hentry
    have hheld' : contents.Held sn backend scanned.channelKey := hpage.channelKey_eq ▸ hheld
    dsimp only
    rw [← hpage.channelKey_eq]
    refine ((processOutgoingSubchannels_within hheld' hscanned).weaken fun _ _ => trivial).mono ?_
    rintro result ⟨results, hprocessed⟩
    exact hprocessed.work_le.1.trans_lt hless

end Outgoing

end PrivacyPool.Discovery
