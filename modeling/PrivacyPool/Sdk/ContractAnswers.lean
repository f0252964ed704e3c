import PrivacyPool.Sdk.ContractTotals

/-!
# Answers of the pool contract

What an answer does, and what it keeps: the cursor and the calls in flight stay sound, and
what has been found and what the calls in flight lead to stay the same in total.

## Main definitions

* `Answer` — what the answer to a call does, by the call and by what the views show

## Main results

* `resume_answer` — an answer does one of these
* `Answer.keeps` — it leaves the cursor and all calls in flight sound
* `Answer.found_eq`, `Answer.added_eq` — it keeps the totals
* `Answer.cost_lt` — it leads to fewer calls
* `conserves_found`, `conserves_added`, `shrinks` — so do answers in any order
-/

namespace PrivacyPool.Sdk.NotesDiscovery

open Discovery HashMap

variable {sn : Starknet} {recoverPointFromX : Felt → Option sn.EcPoint} {backend : Backend}
  {address : ContractAddress} {viewingKey : Felt} {tokens : List Felt} {contents : Contents}
  {channels : List IncomingChannel}

/-- What the answer to a call does, by the call and by what the views show. -/
inductive Answer (sn : Starknet) (backend : Backend) (viewingKey : Felt) (tokens : List Felt)
    (contents : Contents) (channels : List IncomingChannel) (st : State) :
    Task → State × List Task → Prop
  | number (start : ℕ) :
    Answer sn backend viewingKey tokens contents channels st (.getNumOfChannels start)
      (st, (bisect start channels.length).map .getChannelInfo)
  | channel {scan : ScanTask} {channel : IncomingChannel} :
    channels[scan.index]? = some channel →
    Answer sn backend viewingKey tokens contents channels st (.getChannelInfo scan)
      ({ st with cursor := AddressMap.set st.cursor channel.senderAddr ⟨channel.channelKey, 0, [], []⟩ },
        (Sdk.scan 0).map (.getSubchannelInfo channel.senderAddr channel.channelKey) ++
          (scan.resume false true).map .getChannelInfo)
  | noSubchannel {sender channelKey : Felt} {scan : ScanTask} :
    (contents.tokens channelKey).length ≤ scan.index →
    Answer sn backend viewingKey tokens contents channels st (.getSubchannelInfo sender channelKey scan)
      (st, (scan.resume false false).map (.getSubchannelInfo sender channelKey))
  | skippedToken {sender channelKey token : Felt} {scan : ScanTask} :
    (contents.tokens channelKey)[scan.index]? = some token → ¬Passes tokens token →
    Answer sn backend viewingKey tokens contents channels st (.getSubchannelInfo sender channelKey scan)
      (st, (scan.resume false true).map (.getSubchannelInfo sender channelKey))
  | subchannel {sender channelKey token : Felt} {scan : ScanTask} :
    (contents.tokens channelKey)[scan.index]? = some token → Passes tokens token →
    Answer sn backend viewingKey tokens contents channels st (.getSubchannelInfo sender channelKey scan)
      (st.modifyChannel sender fun icc =>
          { icc with
            noteIndexes := AddressMap.set icc.noteIndexes token 0
            subchannelIdIndex := max icc.subchannelIdIndex scan.index },
        (Sdk.scan 0).map (.getNote sender channelKey token) ++
          (scan.resume false true).map (.getSubchannelInfo sender channelKey))
  | touchedSpent {sender channelKey token : Felt} {i : ℕ} :
    isSpent sn backend viewingKey channelKey token i = true →
    Answer sn backend viewingKey tokens contents channels st
      (.getNote sender channelKey token (.touch i)) (st, [])
  | touchedUnspent {sender channelKey token : Felt} {i : ℕ} :
    isSpent sn backend viewingKey channelKey token i = false →
    Answer sn backend viewingKey tokens contents channels st
      (.getNote sender channelKey token (.touch i)) (st, [.getUnspentNote sender channelKey token i])
  | noNote {sender channelKey token : Felt} {scan : ScanTask} :
    contents.count channelKey token ≤ scan.index →
    Answer sn backend viewingKey tokens contents channels st (.getNote sender channelKey token scan)
      (st, (scan.resume false false).map (.getNote sender channelKey token))
  | note {sender channelKey token : Felt} {scan : ScanTask} :
    scan.index < contents.count channelKey token →
    Answer sn backend viewingKey tokens contents channels st (.getNote sender channelKey token scan)
      (st, .nullifierExists sender channelKey token scan.index
          (packedValueOf sn backend channelKey token scan.index) ::
        (scan.resume false true).map (.getNote sender channelKey token))
  | noUnspentNote {sender channelKey token : Felt} {i : ℕ} :
    contents.count channelKey token ≤ i →
    Answer sn backend viewingKey tokens contents channels st
      (.getUnspentNote sender channelKey token i) (st, [])
  | unspentNote {sender channelKey token : Felt} {i : ℕ} :
    i < contents.count channelKey token →
    Answer sn backend viewingKey tokens contents channels st
      (.getUnspentNote sender channelKey token i)
      (addNote sn sender channelKey token i (packedValueOf sn backend channelKey token i) st, [])
  | spent {sender channelKey token packedValue : Felt} {i : ℕ} :
    isSpent sn backend viewingKey channelKey token i = true →
    Answer sn backend viewingKey tokens contents channels st
      (.nullifierExists sender channelKey token i packedValue) (st, [])
  | unspent {sender channelKey token packedValue : Felt} {i : ℕ} :
    isSpent sn backend viewingKey channelKey token i = false →
    Answer sn backend viewingKey tokens contents channels st
      (.nullifierExists sender channelKey token i packedValue)
      (addNote sn sender channelKey token i packedValue st, [])

variable {st : State} {task : Task} {result : State × List Task}

/-- The packed value of a note is not zero just where there is a note. -/
theorem Readable.packedValueOf_ne_zero_iff
    (hread : Readable sn recoverPointFromX backend address viewingKey channels contents)
    {sender channelKey token : Felt} (hchannel : ⟨channelKey, sender⟩ ∈ channels)
    (htoken : token ∈ contents.tokens channelKey) {i : ℕ}
    (hi : i < scanBound (contents.count channelKey token)) :
    packedValueOf sn backend channelKey token i ≠ 0 ↔ i < contents.count channelKey token := by
  have hnotes := hread.notes _ hchannel token htoken
  exact hnotes.value_ne_zero_iff i (hi.trans_le (scanBound_le hnotes.count_le))

/-- The answer to a call for a note, which asks for the packed value or for the nullifier. -/
theorem getNote_answer
    (hread : Readable sn recoverPointFromX backend address viewingKey channels contents)
    {sender channelKey token : Felt} {scan : ScanTask}
    (hvalid : Valid sn backend contents channels st (.getNote sender channelKey token scan)) :
    Answer sn backend viewingKey tokens contents channels st (.getNote sender channelKey token scan)
      (resume sn recoverPointFromX backend address viewingKey tokens
        (.getNote sender channelKey token scan) st) := by
  obtain ⟨hchannel, -, htoken, hscan⟩ := hvalid
  have hpacked := hread.packedValueOf_ne_zero_iff hchannel htoken hscan.index_lt
  cases scan with
  -- Only a touch asks whether the note is spent.
  | touch i =>
    change Answer sn backend viewingKey tokens contents channels st
      (.getNote sender channelKey token (.touch i))
      (if isSpent sn backend viewingKey channelKey token i = true then (st, [])
        else (st, [.getUnspentNote sender channelKey token i]))
    split_ifs with hspent
    · exact .touchedSpent hspent
    · exact .touchedUnspent (Bool.eq_false_iff.mpr hspent)
  | bisect start stop =>
    simp only [resume, ScanTask.skipResult, Bool.false_eq_true, if_false]
    split_ifs with hzero
    · exact .noNote (not_lt.mp fun hlt => hpacked.mpr hlt hzero)
    · exact .note (hpacked.mp hzero)
  | scan start offset step prev =>
    simp only [resume, ScanTask.skipResult, Bool.false_eq_true, if_false]
    split_ifs with hzero
    · exact .noNote (not_lt.mp fun hlt => hpacked.mpr hlt hzero)
    · exact .note (hpacked.mp hzero)

/-- The answer to a call for a subchannel: its token, when it passes the filter, is scanned for
notes. -/
theorem getSubchannelInfo_answer
    (hread : Readable sn recoverPointFromX backend address viewingKey channels contents)
    (hsound : Sound contents channels st) {sender channelKey : Felt} {scan : ScanTask}
    (hvalid : Valid sn backend contents channels st (.getSubchannelInfo sender channelKey scan)) :
    Answer sn backend viewingKey tokens contents channels st
      (.getSubchannelInfo sender channelKey scan)
      (resume sn recoverPointFromX backend address viewingKey tokens
        (.getSubchannelInfo sender channelKey scan) st) := by
  obtain ⟨hchannel, hsender, hscan⟩ := hvalid
  have hindex := hscan.index_lt.trans_le (scanBound_le (hread.tokens_le _ hchannel))
  have hsalt := hread.subchannel _ hchannel scan.index hindex
  simp only [resume]
  by_cases hzero : (backend.getSubchannelInfo sn
      (computeSubchannelId sn channelKey scan.index)).salt = 0
  · rw [if_pos hzero]
    exact .noSubchannel (not_lt.mp fun hlt => hsalt.mpr hlt hzero)
  · have hlt := hsalt.mp hzero
    rw [if_neg hzero, hread.token _ hchannel scan.index hlt]
    have htoken := List.getElem?_eq_getElem hlt
    split_ifs with hskip
    · exact .skippedToken htoken (not_not.mpr hskip)
    · -- The channel is in the cursor, with the key of the call.
      obtain ⟨icc, hicc, hkey, -⟩ := hsound.known.get hread.senders hchannel hsender
      have hnext : ∀ f : IncomingChannelCursor → IncomingChannelCursor,
          (∀ icc, (f icc).channelKey = icc.channelKey) → ∀ token : Felt,
            discoverNotes (st.modifyChannel sender f).cursor sender token 0 =
              (Sdk.scan 0).map (.getNote sender channelKey token) := by
        intro f hf token
        unfold discoverNotes State.modifyChannel
        dsimp only
        rw [hicc, Option.elim_some, AddressMap.get_set, if_pos rfl, Option.elim_some, hf, hkey]
      rw [hnext]
      · exact .subchannel htoken hskip
      · exact fun _ => rfl

/-- The answer to a valid call. -/
theorem resume_answer
    (hread : Readable sn recoverPointFromX backend address viewingKey channels contents)
    (hsound : Sound contents channels st)
    (hvalid : Valid sn backend contents channels st task) :
    Answer sn backend viewingKey tokens contents channels st task
      (resume sn recoverPointFromX backend address viewingKey tokens task st) := by
  cases task with
  | getNumOfChannels start =>
    simp only [resume, hread.number]
    exact .number start
  | getChannelInfo scan =>
    have hindex : scan.index < channels.length := ScanTask.Valid.index_lt hvalid
    have hget := hread.channel scan.index hindex
    simp only [resume, hget, ofBigInt_toBigInt]
    rw [discoverSubchannels, AddressMap.get_set, if_pos rfl]
    exact .channel (List.getElem?_eq_getElem hindex)
  | getSubchannelInfo sender channelKey scan => exact getSubchannelInfo_answer hread hsound hvalid
  | getNote sender channelKey token scan => exact getNote_answer hread hvalid
  | getUnspentNote sender channelKey token i =>
    obtain ⟨hchannel, -, htoken, hi⟩ := hvalid
    have hpacked := hread.packedValueOf_ne_zero_iff hchannel htoken hi
    simp only [resume]
    split_ifs with hzero
    · exact .noUnspentNote (not_lt.mp fun hlt => hpacked.mpr hlt hzero)
    · exact .unspentNote (hpacked.mp hzero)
  | nullifierExists sender channelKey token i packedValue =>
    simp only [resume]
    split_ifs with hspent
    · exact .spent hspent
    · exact .unspent (Bool.eq_false_iff.mpr hspent)

/-! ### What an answer keeps -/

theorem Valid.mono {st st' : State} (hkeys : keys st.cursor ⊆ keys st'.cursor)
    (h : Valid sn backend contents channels st task) : Valid sn backend contents channels st' task := by
  cases task with
  | getNumOfChannels start => trivial
  | getChannelInfo scan => exact h
  | getSubchannelInfo sender channelKey scan => exact ⟨h.1, hkeys h.2.1, h.2.2⟩
  | getNote sender channelKey token scan => exact ⟨h.1, hkeys h.2.1, h.2.2⟩
  | getUnspentNote sender channelKey token i => exact ⟨h.1, hkeys h.2.1, h.2.2⟩
  | nullifierExists sender channelKey token i packedValue => exact ⟨h.1, hkeys h.2.1, h.2.2⟩

/-- The first call of a scan among the notes of a subchannel is valid. -/
theorem valid_discoverNotes {sender channelKey token : Felt} {index : ℕ}
    (hchannel : ⟨channelKey, sender⟩ ∈ channels) (hsender : sender ∈ keys st.cursor)
    (htoken : token ∈ contents.tokens channelKey) (hindex : index ≤ contents.count channelKey token) :
    ∀ next ∈ (Sdk.scan index).map (Task.getNote sender channelKey token),
      Valid sn backend contents channels st next := by
  intro next hnext
  obtain ⟨scan, hscan, rfl⟩ := List.mem_map.mp hnext
  exact ⟨hchannel, hsender, htoken, valid_scan hindex scan hscan⟩

theorem valid_discoverSubchannels {sender channelKey : Felt} {index : ℕ}
    (hchannel : ⟨channelKey, sender⟩ ∈ channels) (hsender : sender ∈ keys st.cursor)
    (hindex : index ≤ (contents.tokens channelKey).length) :
    ∀ next ∈ (Sdk.scan index).map (Task.getSubchannelInfo sender channelKey),
      Valid sn backend contents channels st next := by
  intro next hnext
  obtain ⟨scan, hscan, rfl⟩ := List.mem_map.mp hnext
  exact ⟨hchannel, hsender, valid_scan hindex scan hscan⟩

/-- A note that is pushed leaves the cursor sound. -/
theorem Sound.addNote {sender channelKey token packedValue : Felt} {i : ℕ}
    (hsound : Sound contents channels st) (hsenders : (channels.map IncomingChannel.senderAddr).Nodup)
    (hchannel : ⟨channelKey, sender⟩ ∈ channels) (hsender : sender ∈ keys st.cursor)
    (htoken : token ∈ contents.tokens channelKey) (hi : i < contents.count channelKey token) :
    Sound contents channels (addNote sn sender channelKey token i packedValue st) := by
  refine ⟨hsound.known.modifyChannel (fun _ => rfl) ?_, AddressMap.nodup_keys_set hsound.nodup,
    hsound.noErrors⟩
  intro icc hicc hwithin
  obtain ⟨icc', hicc', hkey, -⟩ := hsound.known.get hsenders hchannel hsender
  obtain rfl : icc' = icc := Option.some.inj (hicc'.symm.trans hicc)
  subst hkey
  refine hwithin.set htoken (max_le ?_ hi) hwithin.index_le
  cases hget : AddressMap.get icc'.noteIndexes token with
  | none => exact Nat.zero_le _
  | some index => exact (hwithin.noteIndexes _ (AddressMap.mem_of_get hget)).2

@[simp] theorem keys_addNote {sender channelKey token packedValue : Felt} {i : ℕ} :
    keys (addNote sn sender channelKey token i packedValue st).cursor = keys st.cursor :=
  keys_modifyChannel _ _ _

/-- The calls after an answer are valid when those of the scan are. -/
theorem forall_map_resume {scan : ScanTask} {n bound : ℕ} {found : Bool}
    (h : scan.Valid n bound) (hfound : found = decide (scan.index < n)) {call : ScanTask → Task}
    {P : Task → Prop} (hcall : ∀ next, next.Valid n bound → P (call next)) :
    ∀ next ∈ (scan.resume false found).map call, P next := by
  subst hfound
  intro next hnext
  obtain ⟨scan', hscan', rfl⟩ := List.mem_map.mp hnext
  exact hcall scan' (ScanTask.valid_resume h scan' hscan')

/-- A new channel starts without subchannels. -/
theorem Sound.addChannel {channel : IncomingChannel} (h : Sound contents channels st)
    (hmem : channel ∈ channels) :
    Sound contents channels { st with
      cursor := AddressMap.set st.cursor channel.senderAddr ⟨channel.channelKey, 0, [], []⟩ } := by
  refine ⟨h.known.set hmem ?_, h.nodup, h.noErrors⟩
  exact ⟨Nat.zero_le _, List.nodup_nil, fun _ hentry => absurd hentry List.not_mem_nil⟩

/-- A new subchannel starts without notes, at its index. -/
theorem Sound.addSubchannel {sender channelKey token : Felt} {i : ℕ}
    (h : Sound contents channels st) (hsenders : (channels.map (·.senderAddr)).Nodup)
    (hchannel : ⟨channelKey, sender⟩ ∈ channels) (hsender : sender ∈ keys st.cursor)
    (htoken : (contents.tokens channelKey)[i]? = some token) :
    Sound contents channels (st.modifyChannel sender fun icc =>
      { icc with
        noteIndexes := AddressMap.set icc.noteIndexes token 0
        subchannelIdIndex := max icc.subchannelIdIndex i }) := by
  have hindex := (List.getElem?_eq_some_iff.mp htoken).1
  refine ⟨h.known.modifyChannel (fun _ => rfl) ?_, h.nodup, h.noErrors⟩
  intro icc hicc hwithin
  obtain ⟨icc', hicc', hkey, -⟩ := h.known.get hsenders hchannel hsender
  obtain rfl : icc' = icc := Option.some.inj (hicc'.symm.trans hicc)
  subst hkey
  exact hwithin.set (List.mem_of_getElem? htoken) (Nat.zero_le _)
    (max_le hwithin.index_le hindex.le)

/-- An answer leaves the cursor and all calls in flight sound. -/
theorem Answer.keeps (h : Answer sn backend viewingKey tokens contents channels st task result)
    (hread : Readable sn recoverPointFromX backend address viewingKey channels contents)
    (hsound : Sound contents channels st) (hvalid : Valid sn backend contents channels st task) :
    Sound contents channels result.1 ∧
      keys st.cursor ⊆ keys result.1.cursor ∧
      ∀ next ∈ result.2, Valid sn backend contents channels result.1 next := by
  cases h with
  | number start =>
    refine ⟨hsound, List.Subset.refl _, fun next hnext => ?_⟩
    obtain ⟨scan, hscan, rfl⟩ := List.mem_map.mp hnext
    exact ScanTask.forall_bisect (P := fun scan => scan.Valid channels.length channels.length)
      (fun hlt => ⟨hlt, le_rfl⟩) scan hscan
  | @channel scan channel hchannel =>
    have hmem : ⟨channel.channelKey, channel.senderAddr⟩ ∈ channels := List.mem_of_getElem? hchannel
    have hindex : scan.index < channels.length := ScanTask.Valid.index_lt hvalid
    have hkeys : keys st.cursor ⊆
        keys (AddressMap.set st.cursor channel.senderAddr ⟨channel.channelKey, 0, [], []⟩) :=
      fun _ hold => AddressMap.mem_keys_set.mpr (.inl hold)
    refine ⟨hsound.addChannel hmem, hkeys, fun next hnext => ?_⟩
    rcases List.mem_append.mp hnext with hsubchannels | hrest
    · exact valid_discoverSubchannels hmem (AddressMap.mem_keys_set.mpr (.inr rfl))
        (Nat.zero_le _) next hsubchannels
    · exact forall_map_resume hvalid (decide_eq_true hindex).symm (fun _ hnext => hnext) next hrest
  | noSubchannel hmissing =>
    obtain ⟨hchannel, hsender, hscan⟩ := hvalid
    exact ⟨hsound, List.Subset.refl _, forall_map_resume hscan
      (decide_eq_false (not_lt.mpr hmissing)).symm fun _ hnext => ⟨hchannel, hsender, hnext⟩⟩
  | skippedToken htoken _ =>
    obtain ⟨hchannel, hsender, hscan⟩ := hvalid
    have hindex := (List.getElem?_eq_some_iff.mp htoken).1
    exact ⟨hsound, List.Subset.refl _, forall_map_resume hscan (decide_eq_true hindex).symm
      fun _ hnext => ⟨hchannel, hsender, hnext⟩⟩
  | @subchannel sender channelKey token scan htoken _ =>
    obtain ⟨hchannel, hsender, hscan⟩ := hvalid
    have hindex := (List.getElem?_eq_some_iff.mp htoken).1
    have hmem := List.mem_of_getElem? htoken
    refine ⟨hsound.addSubchannel hread.senders hchannel hsender htoken, ?_, fun next hnext => ?_⟩
    · exact (keys_modifyChannel _ _ _).symm ▸ List.Subset.refl _
    · have hsender' : sender ∈ keys (st.modifyChannel sender fun icc =>
          { icc with
            noteIndexes := AddressMap.set icc.noteIndexes token 0
            subchannelIdIndex := max icc.subchannelIdIndex scan.index }).cursor :=
        (keys_modifyChannel _ _ _).symm ▸ hsender
      rcases List.mem_append.mp hnext with hnotes | hrest
      · exact valid_discoverNotes hchannel hsender' hmem (Nat.zero_le _) next hnotes
      · exact forall_map_resume hscan (decide_eq_true hindex).symm
          (fun _ hnext => ⟨hchannel, hsender', hnext⟩) next hrest
  | touchedSpent _ =>
    exact ⟨hsound, List.Subset.refl _, fun _ hnext => absurd hnext List.not_mem_nil⟩
  | touchedUnspent _ =>
    obtain ⟨hchannel, hsender, htoken, hscan⟩ := hvalid
    refine ⟨hsound, List.Subset.refl _, fun next hnext => ?_⟩
    obtain rfl := List.mem_singleton.mp hnext
    exact ⟨hchannel, hsender, htoken, hscan.index_lt⟩
  | noNote hmissing =>
    obtain ⟨hchannel, hsender, htoken, hscan⟩ := hvalid
    exact ⟨hsound, List.Subset.refl _, forall_map_resume hscan
      (decide_eq_false (not_lt.mpr hmissing)).symm fun _ hnext => ⟨hchannel, hsender, htoken, hnext⟩⟩
  | note hindex =>
    obtain ⟨hchannel, hsender, htoken, hscan⟩ := hvalid
    refine ⟨hsound, List.Subset.refl _, List.forall_mem_cons.mpr ⟨?_, ?_⟩⟩
    · exact ⟨hchannel, hsender, htoken, hindex, rfl⟩
    · exact forall_map_resume hscan (decide_eq_true hindex).symm
        fun _ hnext => ⟨hchannel, hsender, htoken, hnext⟩
  | noUnspentNote _ =>
    exact ⟨hsound, List.Subset.refl _, fun _ hnext => absurd hnext List.not_mem_nil⟩
  | unspentNote hi =>
    obtain ⟨hchannel, hsender, htoken, -⟩ := hvalid
    refine ⟨hsound.addNote hread.senders hchannel hsender htoken hi, ?_,
      fun _ hnext => absurd hnext List.not_mem_nil⟩
    exact keys_addNote.symm ▸ List.Subset.refl _
  | spent _ =>
    exact ⟨hsound, List.Subset.refl _, fun _ hnext => absurd hnext List.not_mem_nil⟩
  | unspent _ =>
    obtain ⟨hchannel, hsender, htoken, hi, -⟩ := hvalid
    refine ⟨hsound.addNote hread.senders hchannel hsender htoken hi, ?_,
      fun _ hnext => absurd hnext List.not_mem_nil⟩
    exact keys_addNote.symm ▸ List.Subset.refl _

/-! ### What an answer finds -/

section Sums

variable {M : Type*} [AddCommMonoid M]

theorem sum_map_map {α β : Type*} (l : List α) (f : α → β) (g : β → M) :
    ((l.map f).map g).sum = (l.map fun a => g (f a)).sum := by rw [List.map_map]; rfl

end Sums

theorem allNotes_addNote {sender channelKey token packedValue : Felt} {i : ℕ}
    (hnodup : (keys st.notes).Nodup) :
    allNotes (addNote sn sender channelKey token i packedValue st).notes =
      (token, toNote sn sender channelKey token i packedValue) ::ₘ allNotes st.notes :=
  allNotes_push hnodup token _

/-- What has been found and what the calls in flight lead to stay the same in total. -/
theorem Answer.found_eq (h : Answer sn backend viewingKey tokens contents channels st task result)
    (hsound : Sound contents channels st) (hvalid : Valid sn backend contents channels st task) :
    allNotes result.1.notes +
        (result.2.map (Task.found sn backend viewingKey tokens contents channels)).sum =
      allNotes st.notes + task.found sn backend viewingKey tokens contents channels := by
  cases h with
  | number start =>
    refine congrArg _ ?_
    rw [sum_map_map]
    refine (ScanTask.sum_bisect_weight (n := channels.length) start channels.length).trans ?_
    rw [min_self]
    rfl
  | @channel scan channel hchannel =>
    refine congrArg _ ?_
    have hitem : channelItem sn backend viewingKey tokens contents channels scan.index =
        notesIn sn backend viewingKey tokens contents channel.senderAddr channel.channelKey := by
      rw [channelItem, hchannel, Option.elim_some]
    -- The channel that was found leads to its notes, and the rest of the scan to the others.
    rw [List.map_append, List.sum_append, sum_map_map, sum_map_map, add_comm]
    dsimp only [Task.found]
    rw [← ScanTask.weight_resume_true _ hvalid (ScanTask.Valid.index_lt hvalid), weight_scan, hitem]
    rfl
  | noSubchannel hmissing =>
    refine congrArg _ ?_
    rw [sum_map_map]
    exact ScanTask.weight_resume_false _ hvalid.2.2 hmissing
  | @skippedToken sender channelKey token scan htoken hskip =>
    refine congrArg _ ?_
    have hindex := (List.getElem?_eq_some_iff.mp htoken).1
    have hitem : subchannelItem sn backend viewingKey tokens contents sender channelKey scan.index =
        0 := by
      rw [subchannelItem, htoken, Option.elim_some, if_neg hskip]
    rw [sum_map_map]
    dsimp only [Task.found]
    rw [← ScanTask.weight_resume_true _ hvalid.2.2 hindex, hitem, add_zero]
  | @subchannel sender channelKey token scan htoken hpasses =>
    have hindex := (List.getElem?_eq_some_iff.mp htoken).1
    have hitem : subchannelItem sn backend viewingKey tokens contents sender channelKey scan.index =
        notesOf sn backend viewingKey contents sender channelKey token := by
      rw [subchannelItem, htoken, Option.elim_some, if_pos hpasses]
    refine congrArg (allNotes st.notes + ·) ?_
    rw [List.map_append, List.sum_append, sum_map_map, sum_map_map, add_comm]
    dsimp only [Task.found]
    rw [← ScanTask.weight_resume_true _ hvalid.2.2 hindex, weight_scan, hitem]
    rfl
  | @touchedSpent sender channelKey token i hspent =>
    refine congrArg _ ?_
    have hitem : noteItem sn backend viewingKey sender channelKey token i = 0 := by
      rw [noteItem, hspent, if_pos rfl]
    dsimp only [Task.found, ScanTask.weight]
    rw [hitem, ite_self]
    rfl
  | @touchedUnspent sender channelKey token i hunspent =>
    refine congrArg _ ?_
    rw [List.map_singleton, List.sum_singleton]
    dsimp only [Task.found, ScanTask.weight]
    rw [noteItem, hunspent, if_neg Bool.false_ne_true]
  | noNote hmissing =>
    refine congrArg _ ?_
    rw [sum_map_map]
    exact ScanTask.weight_resume_false _ hvalid.2.2.2 hmissing
  | note hindex =>
    refine congrArg _ ?_
    rw [List.map_cons, List.sum_cons, sum_map_map, add_comm]
    exact ScanTask.weight_resume_true _ hvalid.2.2.2 hindex
  | noUnspentNote hmissing =>
    refine congrArg _ ?_
    dsimp only [Task.found]
    rw [if_neg (not_lt.mpr hmissing)]
    rfl
  | unspentNote hi =>
    dsimp only [Task.found]
    rw [if_pos hi, allNotes_addNote hsound.nodup, List.map_nil, List.sum_nil, add_zero, add_comm,
      Multiset.singleton_add]
  | @spent sender channelKey token packedValue i hspent =>
    refine congrArg _ ?_
    dsimp only [Task.found]
    rw [noteItem, hspent, if_pos rfl]
    rfl
  | @unspent sender channelKey token packedValue i hunspent =>
    obtain ⟨-, -, -, -, rfl⟩ := hvalid
    dsimp only [Task.found]
    rw [noteItem, hunspent, if_neg Bool.false_ne_true, allNotes_addNote hsound.nodup, List.map_nil,
      List.sum_nil, add_zero, add_comm, Multiset.singleton_add]

/-! ### Which channels an answer adds -/

theorem sum_added_eq_zero {tasks : List Task}
    (h : ∀ task ∈ tasks, task.added channels = 0) : (tasks.map (Task.added channels)).sum = 0 :=
  List.sum_eq_zero fun x hx => by
    obtain ⟨task, htask, rfl⟩ := List.mem_map.mp hx
    exact h task htask

theorem added_map_eq_zero {scans : List ScanTask} {call : ScanTask → Task}
    (hcall : ∀ scan, (call scan).added channels = 0) :
    ((scans.map call).map (Task.added channels)).sum = 0 := by
  refine sum_added_eq_zero fun task htask => ?_
  obtain ⟨scan, -, rfl⟩ := List.mem_map.mp htask
  exact hcall scan

/-- The channels of the cursor and those that the calls in flight add stay the same in
total, when none of these is in the cursor. -/
theorem Answer.added_eq (h : Answer sn backend viewingKey tokens contents channels st task result)
    (hvalid : Valid sn backend contents channels st task)
    (hfresh : ((keys st.cursor : Multiset Felt) + task.added channels).Nodup) :
    (keys result.1.cursor : Multiset Felt) + (result.2.map (Task.added channels)).sum =
      keys st.cursor + task.added channels := by
  cases h with
  | number start =>
    refine congrArg _ ?_
    rw [sum_map_map]
    refine (ScanTask.sum_bisect_weight (n := channels.length) start channels.length).trans ?_
    rw [min_self]
    rfl
  | @channel scan channel hchannel =>
    have hweight := ScanTask.weight_resume_true (senderItem channels) hvalid
      (ScanTask.Valid.index_lt hvalid)
    have hitem : senderItem channels scan.index = {channel.senderAddr} := by
      rw [senderItem, hchannel, Option.elim_some]
    have hadded : (Task.getChannelInfo scan).added channels =
        ((scan.resume false true).map (ScanTask.weight channels.length (senderItem channels))).sum +
          {channel.senderAddr} := by
      rw [← hitem]
      exact hweight.symm
    rw [hadded] at hfresh ⊢
    -- The sender is not in the cursor yet.
    have hnot : channel.senderAddr ∉ keys st.cursor := by
      intro hmem
      refine Multiset.disjoint_left.mp (Multiset.nodup_add.mp hfresh).2.2 (Multiset.mem_coe.mpr hmem) ?_
      exact Multiset.mem_add.mpr (.inr (Multiset.mem_singleton_self _))
    dsimp only
    rw [List.map_append, List.sum_append, added_map_eq_zero fun _ => rfl, zero_add, sum_map_map,
      AddressMap.set, if_neg hnot, keys_append, ← Multiset.coe_add, add_assoc, add_comm]
    rw [add_comm (keys st.cursor : Multiset Felt), add_comm _ ({channel.senderAddr} : Multiset Felt)]
    rfl
  | noSubchannel _ => exact congrArg _ (added_map_eq_zero fun _ => rfl)
  | skippedToken _ _ => exact congrArg _ (added_map_eq_zero fun _ => rfl)
  | subchannel _ _ =>
    dsimp only
    rw [keys_modifyChannel, List.map_append, List.sum_append, added_map_eq_zero fun _ => rfl,
      added_map_eq_zero fun _ => rfl]
    rfl
  | touchedSpent _ => rfl
  | touchedUnspent _ => rfl
  | noNote _ => exact congrArg _ (added_map_eq_zero fun _ => rfl)
  | note _ =>
    refine congrArg _ ?_
    rw [List.map_cons, List.sum_cons, added_map_eq_zero fun _ => rfl]
    rfl
  | noUnspentNote _ => rfl
  | unspentNote _ =>
    dsimp only
    rw [keys_addNote]
    rfl
  | spent _ => rfl
  | unspent _ =>
    dsimp only
    rw [keys_addNote]
    rfl

/-! ### How many calls an answer leads to -/

/-- The calls after the answer to a probe cost less, by what the probe itself leads to. -/
theorem sum_cost_resume {scan : ScanTask} {n bound : ℕ} {found : Bool} {item : ℕ → ℕ}
    (h : scan.Valid n bound) (hfound : found = decide (scan.index < n)) {call : ScanTask → Task}
    (hcall : ∀ scan, (call scan).cost contents channels = scan.cost bound item) :
    (((scan.resume false found).map call).map (Task.cost contents channels)).sum +
      item scan.index ≤ (call scan).cost contents channels := by
  subst hfound
  have hmap : ((scan.resume false (decide (scan.index < n))).map call).map (Task.cost contents channels) =
      (scan.resume false (decide (scan.index < n))).map (ScanTask.cost bound item) := by
    rw [List.map_map]
    exact List.map_congr_left fun next _ => hcall next
  rw [hmap, hcall]
  exact ScanTask.cost_resume h

/-- An answer leads to fewer calls than the call that it ends. -/
theorem Answer.cost_lt (h : Answer sn backend viewingKey tokens contents channels st task result)
    (hvalid : Valid sn backend contents channels st task) :
    (result.2.map (Task.cost contents channels)).sum < task.cost contents channels := by
  cases h with
  | number start =>
    rw [sum_map_map]
    refine (ScanTask.sum_bisect_cost start channels.length channels.length).trans_lt ?_
    exact Nat.lt_add_of_pos_left Nat.one_pos
  | @channel scan channel hchannel =>
    have hindex : scan.index < channels.length := ScanTask.Valid.index_lt hvalid
    have hcost := sum_cost_resume hvalid (decide_eq_true hindex).symm
      fun scan => (rfl : (Task.getChannelInfo scan).cost contents channels = _)
    have hitem : Task.cost.channelCost contents channels scan.index = 1 +
        (((Sdk.scan 0).map (Task.getSubchannelInfo channel.senderAddr channel.channelKey)).map
          (Task.cost contents channels)).sum := by
      rw [Task.cost.channelCost, hchannel, Option.elim_some, sum_map_map, Sdk.scan,
        List.map_singleton, List.sum_singleton, Finset.range_eq_Ico]
      rfl
    rw [hitem] at hcost
    rw [List.map_append, List.sum_append]
    omega
  | @noSubchannel sender channelKey scan hmissing =>
    have hcost := sum_cost_resume hvalid.2.2 (decide_eq_false (not_lt.mpr hmissing)).symm
      fun scan => (rfl : (Task.getSubchannelInfo sender channelKey scan).cost contents channels = _)
    have hitem : 0 < Task.cost.subchannelCost contents channelKey scan.index := Nat.add_pos_left Nat.one_pos _
    dsimp only
    omega
  | @skippedToken sender channelKey token scan htoken _ =>
    have hindex := (List.getElem?_eq_some_iff.mp htoken).1
    have hcost := sum_cost_resume hvalid.2.2 (decide_eq_true hindex).symm
      fun scan => (rfl : (Task.getSubchannelInfo sender channelKey scan).cost contents channels = _)
    have hitem : 0 < Task.cost.subchannelCost contents channelKey scan.index := Nat.add_pos_left Nat.one_pos _
    dsimp only
    omega
  | @subchannel sender channelKey token scan htoken _ =>
    have hindex := (List.getElem?_eq_some_iff.mp htoken).1
    have hcost := sum_cost_resume hvalid.2.2 (decide_eq_true hindex).symm
      fun scan => (rfl : (Task.getSubchannelInfo sender channelKey scan).cost contents channels = _)
    have hitem : Task.cost.subchannelCost contents channelKey scan.index = 1 +
        (((Sdk.scan 0).map (Task.getNote sender channelKey token)).map
          (Task.cost contents channels)).sum := by
      rw [Task.cost.subchannelCost, htoken, Option.elim_some, sum_map_map, Sdk.scan,
        List.map_singleton, List.sum_singleton, Finset.range_eq_Ico]
      rfl
    rw [hitem] at hcost
    rw [List.map_append, List.sum_append]
    omega
  | touchedSpent _ => exact Nat.two_pos
  | touchedUnspent _ => exact Nat.one_lt_two
  | @noNote sender channelKey token scan hmissing =>
    have hcost := sum_cost_resume hvalid.2.2.2 (decide_eq_false (not_lt.mpr hmissing)).symm
      fun scan => (rfl : (Task.getNote sender channelKey token scan).cost contents channels = _)
    dsimp only
    omega
  | @note sender channelKey token scan hindex =>
    have hcost := sum_cost_resume hvalid.2.2.2 (decide_eq_true hindex).symm
      fun scan => (rfl : (Task.getNote sender channelKey token scan).cost contents channels = _)
    rw [List.map_cons, List.sum_cons]
    have hone : (Task.nullifierExists sender channelKey token scan.index
        (packedValueOf sn backend channelKey token scan.index)).cost contents channels = 1 := rfl
    omega
  | noUnspentNote _ => exact Nat.one_pos
  | unspentNote _ => exact Nat.one_pos
  | spent _ => exact Nat.one_pos
  | unspent _ => exact Nat.one_pos

/-! ### Answers in any order -/

variable (tokens)

theorem resume_keeps
    (hread : Readable sn recoverPointFromX backend address viewingKey channels contents)
    (hsound : Sound contents channels st) (hvalid : Valid sn backend contents channels st task) :
    Tracker.Keeps (resume sn recoverPointFromX backend address viewingKey tokens)
      (Sound contents channels) (Valid sn backend contents channels) st task := by
  obtain ⟨hsound', hkeys, hstarted⟩ := (resume_answer hread hsound hvalid).keeps hread hsound hvalid
  exact ⟨hsound', fun other hother => hother.mono hkeys, hstarted⟩

/-- The notes that are found are those that the first calls lead to. -/
theorem conserves_found
    (hread : Readable sn recoverPointFromX backend address viewingKey channels contents)
    (total : Multiset (Felt × Note)) :
    Tracker.Conserves (resume sn recoverPointFromX backend address viewingKey tokens)
      (Sound contents channels) (Valid sn backend contents channels)
      (fun st => allNotes st.notes) (Task.found sn backend viewingKey tokens contents channels)
      total := by
  intro st task hsound hvalid _
  have hanswer : Answer sn backend viewingKey tokens contents channels st task _ :=
    resume_answer hread hsound hvalid
  exact ⟨resume_keeps tokens hread hsound hvalid, hanswer.found_eq hsound hvalid⟩

/-- The channels that are added are those that the first calls lead to, each of them new. -/
theorem conserves_added
    (hread : Readable sn recoverPointFromX backend address viewingKey channels contents)
    {total : Multiset Felt} (hnodup : total.Nodup) :
    Tracker.Conserves (resume sn recoverPointFromX backend address viewingKey tokens)
      (Sound contents channels) (Valid sn backend contents channels)
      (fun st => (keys st.cursor : Multiset Felt)) (Task.added channels) total := by
  rintro st task hsound hvalid ⟨rest, rfl⟩
  have hanswer : Answer sn backend viewingKey tokens contents channels st task _ :=
    resume_answer hread hsound hvalid
  exact ⟨resume_keeps tokens hread hsound hvalid,
    hanswer.added_eq hvalid (Multiset.nodup_add.mp hnodup).1⟩

theorem shrinks
    (hread : Readable sn recoverPointFromX backend address viewingKey channels contents) :
    Tracker.Shrinks (resume sn recoverPointFromX backend address viewingKey tokens)
      (Sound contents channels) (Valid sn backend contents channels) (Task.cost contents channels) := by
  intro st task hsound hvalid
  exact (resume_answer hread hsound hvalid).cost_lt hvalid

end PrivacyPool.Sdk.NotesDiscovery
