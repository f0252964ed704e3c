import PrivacyPool.Discovery.Account
import PrivacyPool.Base.Metered

/-!
# The reads of a sync are within its budget

Every discovery function draws before it reads, and puts back what it has not used. Whatever the
channel and subchannel tasks are granted, and in whatever order they draw, what a sync has read
and what is left of its budget are within the budget at every moment. Only the public keys of the
recipients that an outgoing sync precomputes are read without a draw, when there is too little
left.
-/

namespace PrivacyPool.Discovery

open Budget Budget.Task

variable {sn : Starknet} {newFromX : Felt → Option sn.EcPoint} {backend : Backend}

/-! ### Channels -/

theorem covered_cachedChannelCount (recipient : ContractAddress) (cursor : DiscoveryCursor) :
    (cachedChannelCount backend recipient cursor).Covered := by
  unfold cachedChannelCount
  cases cursor.totalNChannels with
  | some count => exact covered_pure
  | none =>
    refine pays_bind (pays_consume ?_ covered_pure)
    exact pays_bind (pays_read le_rfl (pays_pure trivial))

theorem covered_discoverIncomingChannels (recipient : ContractAddress) (privateKey : Felt)
    (startIndex numChannels : ℕ) :
    (discoverIncomingChannels sn newFromX backend recipient privateKey startIndex
      numChannels).Covered := by
  refine pays_bind (pays_consumeUpTo fun batchSize _ => ?_)
  dsimp only
  split_ifs
  · exact pays_pure trivial
  · refine pays_bind (pays_read ?_ (covered_ofExcept.bind fun _ => covered_pure).of_surplus)
    rw [costChannelInfo]
    omega

theorem covered_discoverIncomingChannelsPaginated (recipient : ContractAddress) (privateKey : Felt)
    (cursor : DiscoveryCursor) (maxCursorChannels : ℕ) :
    (discoverIncomingChannelsPaginated sn newFromX backend recipient privateKey cursor
      maxCursorChannels).Covered := by
  unfold discoverIncomingChannelsPaginated
  dsimp only
  split_ifs
  · exact covered_pure
  · exact covered_pure
  · refine (covered_cachedChannelCount recipient cursor).bind fun count => ?_
    cases count with
    | none => exact covered_pure
    | some total =>
      dsimp only
      split_ifs
      · exact covered_pure
      · exact (covered_discoverIncomingChannels _ _ _ _).bind fun _ => covered_pure

theorem covered_scanSubchannels (channelKey : Felt) (slots index : ℕ) :
    (scanSubchannels sn backend channelKey slots index).Covered := by
  induction slots generalizing index with
  | zero => exact covered_pure
  | succ slots ih =>
    refine pays_bind (pays_consume ?_ covered_pure)
    refine pays_bind (pays_read le_rfl ?_)
    dsimp only
    split_ifs
    · exact covered_pure
    · exact (ih (index + 1)).bind fun _ => covered_pure

theorem covered_discoverSubchannelsPaginated (channelKey : Felt) (cursor : ChannelCursor)
    (maxCursorSubchannels : ℕ) :
    (discoverSubchannelsPaginated sn backend channelKey cursor maxCursorSubchannels).Covered := by
  unfold discoverSubchannelsPaginated
  dsimp only
  split_ifs
  · exact covered_pure
  · exact covered_pure
  · exact ((covered_scanSubchannels _ _ _).bind fun _ => covered_pure).bind fun _ => covered_pure

/-- An outgoing channel is paid with the public key of its recipient. -/
theorem covered_scanOutgoingChannels (senderAddr viewingKey : Felt) (slots index : ℕ) :
    (scanOutgoingChannels sn backend senderAddr viewingKey slots index).Covered := by
  induction slots generalizing index with
  | zero => exact covered_pure
  | succ slots ih =>
    refine pays_bind (pays_consume ?_ covered_pure)
    refine pays_bind (pays_read (by decide) ?_)
    dsimp only
    split_ifs
    · exact pays_pure trivial
    · refine pays_bind (pays_read (by decide) ?_)
      exact ((ih (index + 1)).bind fun _ => covered_pure).of_surplus

theorem covered_discoverOutgoingChannelsPaginated (senderAddr viewingKey : Felt)
    (cursor : DiscoveryCursor) (maxCursorChannels : ℕ) (recipients : Option (List Felt)) :
    (discoverOutgoingChannelsPaginated sn backend senderAddr viewingKey cursor maxCursorChannels
      recipients).Covered := by
  unfold discoverOutgoingChannelsPaginated
  dsimp only
  split_ifs
  · exact covered_pure
  · exact covered_pure
  · refine ((covered_scanOutgoingChannels _ _ _ _).bind fun _ => covered_pure).bind fun _ => ?_
    split_ifs
    · exact covered_pure
    · exact covered_pure

/-! ### Notes -/

/-- Between two neighbouring probes the bisection takes no more steps than are charged. -/
theorem bisect_steps_le {channelKey token : Felt} {startIndex maxNoteLogIndex lower upper : ℕ}
    {cache : ProbeCache}
    (h : exponentialProbe sn backend channelKey token startIndex maxNoteLogIndex =
      .ok (some (lower, upper), cache)) :
    (bisectBoundary sn backend channelKey token (upper - lower) lower upper cache).2.1 ≤
      maxNoteLogIndex := by
  have hneighbours : Task.Outcome _ _
      (exponentialProbe sn backend channelKey token startIndex maxNoteLogIndex) :=
    exponentialProbe_neighbours
  rw [h] at hneighbours
  obtain ⟨k, hk, rfl, rfl, -⟩ := hneighbours
  have hgap := probeOffset_succ_le k
  exact (bisectBoundary_steps_le _ cache (by omega)).trans hk.le

theorem covered_findLastNoteIndex (channelKey token : Felt) (cursor : SubchannelCursor)
    (maxNoteLogIndex : ℕ) :
    (findLastNoteIndex sn backend channelKey token cursor maxNoteLogIndex).Covered := by
  unfold findLastNoteIndex
  split_ifs
  · exact covered_pure
  · refine pays_bind (pays_consume ?_ covered_pure)
    have hprice : boundaryBudget maxNoteLogIndex = 2 * maxNoteLogIndex + 1 := Nat.mul_one _
    refine pays_bind (pays_read (by omega) ?_)
    refine pays_bind (pays_ofExcept fun probed hprobed => ?_)
    obtain ⟨bounds, cache⟩ := probed
    cases bounds with
    | none =>
      refine pays_bind (pays_reclaim ?_ (pays_pure trivial))
      rw [costNoteProbing]
      omega
    | some bounds =>
      obtain ⟨lower, upper⟩ := bounds
      have hsteps := bisect_steps_le hprobed
      have hreclaim : ∀ steps ≤ maxNoteLogIndex, (maxNoteLogIndex - steps) * costNoteProbing ≤
          0 + boundaryBudget maxNoteLogIndex - (maxNoteLogIndex + 1) - steps := by
        intro steps _
        rw [costNoteProbing]
        omega
      refine pays_bind (pays_read (hsteps.trans (by omega)) ?_)
      exact pays_bind (pays_reclaim (hreclaim _ hsteps) (pays_pure trivial))

/-- The entries of a list are skipped, or fetched. -/
theorem countP_add_length_filter (spent cached : ℕ → Bool) (indices : List ℕ) :
    (indices.countP fun index => spent index || cached index) +
      (indices.filter fun index => !spent index && !cached index).length = indices.length := by
  rw [← List.countP_eq_length_filter, List.length_eq_countP_add_countP
    fun index => spent index || cached index]
  congr 2
  funext index
  cases spent index <;> cases cached index <;> rfl

/-- A batch that is charged two slots a note leaves those of the notes that are skipped: it
fetches the others. -/
theorem pays_processNoteBatch (channelKey token privateKey : Felt) (startIndex batchSize : ℕ)
    (probeCache : ProbeCache) :
    (processNoteBatch sn backend channelKey token startIndex batchSize privateKey
      probeCache).Pays (0 + batchSize * costNote) fun result surplus =>
        result.2 * costNoteProbing ≤ surplus := by
  have hlength : ((List.range batchSize).map (startIndex + ·)).length = batchSize := by simp
  unfold processNoteBatch costNote costNoteProbing
  dsimp only
  generalize (List.range batchSize).map (startIndex + ·) = indices at hlength ⊢
  have hfetched := countP_add_length_filter
    (fun index => backend.nullifierExists sn
      (computeNullifier sn channelKey token index privateKey))
    (fun index => (probeCache.lookup index).isSome) indices
  refine pays_bind (pays_read (by omega) ?_)
  refine pays_bind (pays_read (by omega) (pays_pure ?_))
  omega

theorem covered_discoverNotes (channelKey token : Felt) (startIndex endIndex : ℕ)
    (privateKey : Felt) (probeCache : ProbeCache) :
    (discoverNotes sn backend channelKey token startIndex endIndex privateKey
      probeCache).Covered := by
  refine pays_bind (pays_consumeUpTo fun batchSize _ => ?_)
  dsimp only
  split_ifs
  · exact pays_pure trivial
  · refine pays_bind ((pays_processNoteBatch _ _ _ _ _ _).mono ?_)
    rintro ⟨notes, numSkipped⟩ surplus hskipped
    exact pays_bind (pays_reclaim hskipped (pays_pure trivial))

theorem covered_discoverNotesPaginated (channelKey token : Felt) (cursor : SubchannelCursor)
    (privateKey : Felt) (maxNoteLogIndex : ℕ) :
    (discoverNotesPaginated sn backend channelKey token cursor privateKey
      maxNoteLogIndex).Covered := by
  refine (covered_findLastNoteIndex _ _ _ _).bind fun found => ?_
  dsimp only
  split_ifs
  · exact covered_pure
  · cases found.1.lastExistingIndex with
    | none => exact covered_pure
    | some last => exact (covered_discoverNotes _ _ _ _ _ _).bind fun _ => covered_pure

/-! ### Syncs -/

theorem covered_processChannel (senderAddr : Felt) (cursor : ChannelCursor) (viewingKey : Felt)
    (maxCursorSubchannels maxNoteLogIndex : ℕ) (turns : List ℕ) :
    (processChannel sn backend senderAddr cursor viewingKey maxCursorSubchannels maxNoteLogIndex
      turns).Covered := by
  refine (covered_discoverSubchannelsPaginated _ _ _).bind fun scanned => ?_
  refine (covered_parallel fun task htask => ?_).bind fun _ => covered_pure
  obtain ⟨⟨token, scCursor⟩, -, rfl⟩ := List.mem_map.mp htask
  dsimp only
  unfold processSubchannel
  split_ifs
  · exact covered_pure
  · exact (covered_discoverNotesPaginated _ _ _ _ _).bind fun _ => covered_pure

theorem covered_syncIncomingState (recipient : ContractAddress) (viewingKey : Felt)
    (cursor : DiscoveryCursor) (cursorLimits : CursorLimits) (schedule : Schedule) :
    (syncIncomingState sn newFromX backend recipient viewingKey cursor cursorLimits
      schedule).Covered := by
  refine Covered.bind ?_ fun found => (covered_parallel fun task htask => ?_).bind fun _ =>
    covered_pure
  · unfold newIncomingChannels
    split_ifs
    · exact covered_discoverIncomingChannelsPaginated _ _ _ _
    · exact covered_pure
  · obtain ⟨⟨senderAddr, chCursor⟩, -, rfl⟩ := List.mem_map.mp htask
    exact covered_processChannel _ _ _ _ _ _

theorem covered_processOutgoingChannel (recipientAddr : Felt) (cursor : ChannelCursor)
    (maxCursorSubchannels maxNoteLogIndex : ℕ) (turns : List ℕ) :
    (processOutgoingChannel sn backend recipientAddr cursor maxCursorSubchannels maxNoteLogIndex
      turns).Covered := by
  refine (covered_discoverSubchannelsPaginated _ _ _).bind fun scanned => ?_
  refine (covered_parallel fun task htask => ?_).bind fun _ => covered_pure
  obtain ⟨⟨token, scCursor⟩, -, rfl⟩ := List.mem_map.mp htask
  dsimp only
  unfold processOutgoingSubchannel
  split_ifs
  · exact covered_pure
  · exact (covered_findLastNoteIndex _ _ _ _).bind fun _ => covered_pure

theorem covered_newOutgoingChannels (senderAddr viewingKey : Felt) (cursor : DiscoveryCursor)
    (maxChannels : ℕ) (recipients : Option (List Felt)) :
    (newOutgoingChannels sn backend senderAddr viewingKey cursor maxChannels recipients).Covered := by
  unfold newOutgoingChannels
  split_ifs
  · exact covered_discoverOutgoingChannelsPaginated _ _ _ _ _
  · exact covered_pure

theorem covered_processOutgoingChannels (cursor : DiscoveryCursor) (cursorLimits : CursorLimits)
    (schedule : Schedule) :
    (processOutgoingChannels sn backend cursor cursorLimits schedule).Covered := by
  refine (covered_parallel fun task htask => ?_).bind fun _ => covered_pure
  obtain ⟨⟨recipientAddr, chCursor⟩, -, rfl⟩ := List.mem_map.mp htask
  exact covered_processOutgoingChannel _ _ _ _ _

/-- The outgoing sync up to the precomputed channels. -/
def searchOutgoing (sn : Starknet) (backend : Backend) (senderAddr viewingKey : Felt)
    (cursor : DiscoveryCursor) (cursorLimits : CursorLimits) (recipients : Option (List Felt))
    (schedule : Schedule) :
    Task (List OutgoingChannel × DiscoveryCursor × List OutgoingSubchannel) := do
  let (cursor, newChannels) ←
    newOutgoingChannels sn backend senderAddr viewingKey cursor cursorLimits.maxChannels recipients
  let (cursor, newSubchannels) ← processOutgoingChannels sn backend cursor cursorLimits schedule
  return (newChannels, cursor, newSubchannels)

theorem covered_searchOutgoing (senderAddr viewingKey : Felt) (cursor : DiscoveryCursor)
    (cursorLimits : CursorLimits) (recipients : Option (List Felt)) (schedule : Schedule) :
    (searchOutgoing sn backend senderAddr viewingKey cursor cursorLimits recipients
      schedule).Covered :=
  (covered_newOutgoingChannels _ _ _ _ _).bind fun _ =>
    (covered_processOutgoingChannels _ _ _).bind fun _ => covered_pure

theorem syncOutgoingState_eq (senderAddr viewingKey : Felt) (cursor : DiscoveryCursor)
    (cursorLimits : CursorLimits) (recipients : Option (List Felt)) (schedule : Schedule) :
    syncOutgoingState sn backend senderAddr viewingKey cursor cursorLimits recipients schedule =
      searchOutgoing sn backend senderAddr viewingKey cursor cursorLimits recipients schedule >>=
        fun (newChannels, cursor, newSubchannels) => do
          let precomputedChannels ← missingChannels sn backend senderAddr viewingKey cursor recipients
          return ⟨newChannels ++ precomputedChannels, newSubchannels, cursor⟩ := by
  unfold syncOutgoingState searchOutgoing
  rw [Task.bind_bind]
  refine congrArg _ (funext fun found => ?_)
  obtain ⟨cursor', newChannels⟩ := found
  dsimp only
  rw [Task.bind_bind]
  rfl

/-- The channels are all known, too little is left for the public keys of the recipients that are
missing, and only these have been read without a draw. -/
structure Overdrawn (cursor : DiscoveryCursor) (recipients : Option (List Felt)) (budget : ℕ)
    (meter : Meter) : Prop where
  complete : cursor.channelDiscoveryComplete = true
  short : meter.left < (missingRecipients cursor recipients).length
  owes : meter.Owes budget (missingRecipients cursor recipients).length

/-- What a run has read is paid for at every moment, or up to its last read, which overdraws. -/
def PaidOrOverdrawn (Q : Meter → Prop) (budget : ℕ) (meter : Meter) (moments : List Meter) : Prop :=
  meter.Solvent budget ∧ (∀ moment ∈ moments, moment.Solvent budget) ∨
    Q meter ∧ ∀ moment ∈ moments, moment.Solvent budget ∨ moment = meter

theorem PaidOrOverdrawn.mono {Q Q' : Meter → Prop} {budget : ℕ} {meter : Meter}
    {moments : List Meter} (h : PaidOrOverdrawn Q budget meter moments) (hQ : Q meter → Q' meter) :
    PaidOrOverdrawn Q' budget meter moments :=
  h.imp_right fun hover => ⟨hQ hover.1, hover.2⟩

theorem PaidOrOverdrawn.append {Q : Meter → Prop} {budget : ℕ} {meter : Meter}
    {before moments : List Meter} (h : PaidOrOverdrawn Q budget meter moments)
    (hbefore : ∀ moment ∈ before, moment.Solvent budget) :
    PaidOrOverdrawn Q budget meter (before ++ moments) := by
  rcases h with ⟨hend, hmoments⟩ | ⟨hover, hmoments⟩
  · exact .inl ⟨hend, List.forall_mem_append.mpr ⟨hbefore, hmoments⟩⟩
  · exact .inr ⟨hover, List.forall_mem_append.mpr ⟨fun moment h => .inl (hbefore moment h),
      hmoments⟩⟩

/-- What an outgoing sync has read is paid for, or it has overdrawn its budget at its end. -/
def OutgoingPaid (recipients : Option (List Felt)) (budget : ℕ)
    (run : Except DiscoveryError SyncOutgoingStateResult × Meter) (moments : List Meter) : Prop :=
  PaidOrOverdrawn (fun meter => ∃ result, run.1 = .ok result ∧
    Overdrawn result.cursor recipients budget meter) budget run.2 moments

theorem precomputed_draw {γ : Type} (a : γ) {cursor : DiscoveryCursor}
    {recipients : Option (List Felt)} (hcomplete : cursor.channelDiscoveryComplete = true)
    {budget surplus : ℕ} {meter : Meter} (hpaid : meter.Paid budget surplus) :
    let program : Prog γ :=
      .consume ((missingRecipients cursor recipients).length * costPublicKey) fun _ =>
        .read (missingRecipients cursor recipients).length (.done a)
    (program.meterRun meter).1 = a ∧ PaidOrOverdrawn (Overdrawn cursor recipients budget) budget
      (program.meterRun meter).2 (program.moments meter) := by
  intro program
  have hprice : ∀ missing, missing * costPublicKey = missing := Nat.mul_one
  simp only [program, Prog.meterRun, Prog.moments, hprice]
  split_ifs with hcost
  · have htaken := hpaid.take hcost
    have hread := htaken.countReads (Nat.le_add_left _ surplus)
    refine ⟨rfl, .inl ⟨hread.solvent, fun moment hmoment => ?_⟩⟩
    rcases List.mem_pair.mp hmoment with rfl | rfl
    · exact htaken.solvent
    · exact hread.solvent
  · refine ⟨rfl, .inr ⟨⟨hcomplete, not_le.mp hcost, hpaid.solvent.countReads_owes _⟩, ?_⟩⟩
    intro moment hmoment
    rcases List.mem_pair.mp hmoment with rfl | rfl
    · exact .inl hpaid.solvent
    · exact .inr rfl

variable (sn backend) in
theorem missingChannels_paidOrOverdrawn (senderAddr viewingKey : Felt) (cursor : DiscoveryCursor)
    (recipients : Option (List Felt)) {budget surplus : ℕ} {meter : Meter}
    (hpaid : meter.Paid budget surplus) {β : Type} (k : List OutgoingChannel → β) :
    let task : Task β := do
      let channels ← missingChannels sn backend senderAddr viewingKey cursor recipients
      return k channels
    ∃ channels, (Prog.meterRun task.run meter).1 = .ok (k channels) ∧
      PaidOrOverdrawn (Overdrawn cursor recipients budget) budget
        (Prog.meterRun task.run meter).2 (Prog.moments task.run meter) := by
  have hnone : (∀ moment ∈ ([] : List Meter), moment.Solvent budget) :=
    fun moment h => absurd h List.not_mem_nil
  unfold missingChannels precomputeChannels
  split_ifs with hcomplete hempty
  · exact ⟨[], rfl, .inl ⟨hpaid.solvent, hnone⟩⟩
  · exact ⟨_, precomputed_draw _ hcomplete hpaid⟩
  · exact ⟨[], rfl, .inl ⟨hpaid.solvent, hnone⟩⟩

/-- **Read budget of the incoming sync.** At every moment of a sync, whatever the storage, the
cursor, the budget and the schedule are, the sync has read no more than what is taken from the
budget and not put back, and has taken no more than was left. -/
theorem syncIncomingState_solvent (recipient : ContractAddress) (viewingKey : Felt)
    (cursor : DiscoveryCursor) (cursorLimits : CursorLimits) (schedule : Schedule) (budget : ℕ) :
    let task := syncIncomingState sn newFromX backend recipient viewingKey cursor cursorLimits
      schedule
    task.runOn budget = ((task.meterOn budget).1, (task.meterOn budget).2.left) ∧
      (task.meterOn budget).2.Solvent budget ∧
        ∀ moment ∈ task.momentsOn budget, moment.Solvent budget :=
  ⟨runOn_eq_meterOn _ budget, (covered_syncIncomingState _ _ _ _ _).meterOn budget⟩

/-- **Read budget of the outgoing sync.** So it is with an outgoing sync, unless its channels are
all known and too little is left for the public keys of the recipients that are missing: these are
read at its end, without a draw. -/
theorem syncOutgoingState_solvent (senderAddr viewingKey : Felt) (cursor : DiscoveryCursor)
    (cursorLimits : CursorLimits) (recipients : Option (List Felt)) (schedule : Schedule)
    (budget : ℕ) :
    let task := syncOutgoingState sn backend senderAddr viewingKey cursor cursorLimits recipients
      schedule
    task.runOn budget = ((task.meterOn budget).1, (task.meterOn budget).2.left) ∧
      OutgoingPaid recipients budget (task.meterOn budget) (task.momentsOn budget) := by
  intro task
  refine ⟨runOn_eq_meterOn task budget, ?_⟩
  have hsearch : (searchOutgoing sn backend senderAddr viewingKey cursor cursorLimits recipients
    schedule).Covered := covered_searchOutgoing _ _ _ _ _ _
  have hbefore := (hsearch.meterOn budget).2
  have htask : task = _ :=
    syncOutgoingState_eq senderAddr viewingKey cursor cursorLimits recipients schedule
  rw [htask]
  refine hsearch.meterOn_bind fun outcome meter surplus hpaid => ?_
  -- A search that fails reads no keys; one that succeeds reads those of the missing recipients.
  cases outcome with
  | error e =>
    have hnone : (∀ moment ∈ ([] : List Meter), moment.Solvent budget) :=
      fun moment h => absurd h List.not_mem_nil
    exact PaidOrOverdrawn.append (.inl ⟨hpaid.solvent, hnone⟩) hbefore
  | ok found =>
    obtain ⟨newChannels, cursor', newSubchannels⟩ := found
    obtain ⟨channels, hresult, hmeter⟩ :=
      missingChannels_paidOrOverdrawn sn backend senderAddr viewingKey cursor' recipients hpaid
        fun channels =>
          (⟨newChannels ++ channels, newSubchannels, cursor'⟩ : SyncOutgoingStateResult)
    exact (hmeter.mono fun hover => ⟨_, hresult, hover⟩).append hbefore

/-- Two public keys are read on an empty budget. -/
example : ((syncOutgoingState Starknet.sample Sample.backend 1 2
    { channelDiscoveryComplete := true } ⟨1, 1, 1⟩ (some [3, 4]) ⟨[], fun _ => []⟩).meterOn 0).2 =
      ⟨0, 0, 0, 2⟩ := by decide +kernel

end PrivacyPool.Discovery
