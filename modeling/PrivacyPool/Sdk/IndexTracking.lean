import PrivacyPool.Sdk.CompilerOutput

/-!
# The indices of client actions

The simulator counts what the compiler emits: the indices of the channels, of the
subchannels of a recipient and of the notes of a subchannel follow one another, from the
counts that it starts with.

## Main definitions

* `IndicesFollow` — the indices of client actions go on from given counts
* `Tracks`, `TracksTokens` — the simulator has counted what is emitted

## Main results

* `transformToClientActions_emitted` — the indices that a compile emits
-/

namespace PrivacyPool.Sdk

open Fallible HashMap

/-! ### Consecutive indices -/

/-- The indices are the numbers from a start on. -/
def Consecutive (start : ℕ) (indices : List ℕ) : Prop :=
  indices = List.range' start indices.length

instance (start : ℕ) (indices : List ℕ) : Decidable (Consecutive start indices) :=
  inferInstanceAs (Decidable (indices = _))

theorem consecutive_nil (start : ℕ) : Consecutive start [] := rfl

theorem Consecutive.concat {start : ℕ} {indices : List ℕ} (h : Consecutive start indices) :
    Consecutive start (indices ++ [start + indices.length]) := by
  unfold Consecutive at h ⊢
  rw [List.length_append, List.length_singleton, List.range'_concat, ← h, Nat.one_mul]

/-- Indices that follow from a start also follow from another one only when there are none. -/
theorem Consecutive.iff {start start' : ℕ} {indices : List ℕ} (h : Consecutive start indices) :
    Consecutive start' indices ↔ indices = [] ∨ start = start' := by
  constructor
  · intro h'
    cases indices with
    | nil => exact .inl rfl
    | cons index indices =>
      unfold Consecutive at h h'
      rw [List.length_cons, List.range'_succ] at h h'
      exact .inr ((List.cons.inj h).1.symm.trans (List.cons.inj h').1)
  · rintro (rfl | rfl)
    · exact consecutive_nil start'
    · exact h

/-! ### Indices of client actions -/

/-- The index of the channel that an action opens. -/
def channelIndex : ClientAction → Option ℕ
  | .openChannel input => some input.index
  | _ => none

/-- The index of the subchannel toward a recipient that an action opens. -/
def subchannelIndex (recipient : Felt) : ClientAction → Option ℕ
  | .openSubchannel input => if input.recipientAddr = recipient then some input.index else none
  | _ => none

/-- The index of the note for a recipient and a token that an action creates. -/
def noteIndex (recipient token : Felt) : ClientAction → Option ℕ
  | .createEncNote input =>
    if input.recipientAddr = recipient ∧ input.token = token then some input.index else none
  | .createOpenNote input =>
    if input.recipientAddr = recipient ∧ input.token = token then some input.index else none
  | _ => none

/-- The indices of the channels, of the subchannels of each recipient, and of the notes of
each recipient and token go on from these counts. -/
structure IndicesFollow (channels : ℕ) (subchannels : Felt → ℕ) (notes : Felt → Felt → ℕ)
    (emitted : List ClientAction) : Prop where
  channels : Consecutive channels (emitted.filterMap channelIndex)
  subchannels : ∀ recipient,
    Consecutive (subchannels recipient) (emitted.filterMap (subchannelIndex recipient))
  notes : ∀ recipient token,
    Consecutive (notes recipient token) (emitted.filterMap (noteIndex recipient token))

/-- The indices by kind: those of channels, of subchannels and of notes. -/
def ClientActions.channelIndices (out : ClientActions) : List ℕ := out.openChannels.map (·.index)

/-- The subchannel indices of a list, for one recipient. -/
def ClientActions.subchannelIndices (out : ClientActions) (recipient : Felt) : List ℕ :=
  out.openTokenChannels.filterMap fun input => subchannelIndex recipient (.openSubchannel input)

/-- The note indices of a list, for one recipient and token. -/
def ClientActions.noteIndices (out : ClientActions) (recipient token : Felt) : List ℕ :=
  out.createNotes.filterMap fun input => noteIndex recipient token (createNoteAction input)

theorem filterMap_channelIndex_values (out : ClientActions) :
    out.values.filterMap channelIndex = out.channelIndices := by
  simp [ClientActions.values, ClientActions.channelIndices, List.filterMap_map, Function.comp_def,
    channelIndex, createNoteAction]

theorem filterMap_subchannelIndex_values (out : ClientActions) (recipient : Felt) :
    out.values.filterMap (subchannelIndex recipient) = out.subchannelIndices recipient := by
  simp [ClientActions.values, ClientActions.subchannelIndices, List.filterMap_map,
    Function.comp_def, subchannelIndex, createNoteAction]

theorem filterMap_noteIndex_values (out : ClientActions) (recipient token : Felt) :
    out.values.filterMap (noteIndex recipient token) = out.noteIndices recipient token := by
  simp [ClientActions.values, ClientActions.noteIndices, List.filterMap_map, Function.comp_def,
    noteIndex]

/-- The indices by kind follow. -/
structure ClientActions.Follow (channels : ℕ) (subchannels : Felt → ℕ) (notes : Felt → Felt → ℕ)
    (out : ClientActions) : Prop where
  channels : Consecutive channels out.channelIndices
  subchannels : ∀ recipient, Consecutive (subchannels recipient) (out.subchannelIndices recipient)
  notes : ∀ recipient token,
    Consecutive (notes recipient token) (out.noteIndices recipient token)

theorem indicesFollow_values_iff {channels : ℕ} {subchannels : Felt → ℕ} {notes : Felt → Felt → ℕ}
    {out : ClientActions} :
    IndicesFollow channels subchannels notes out.values ↔ out.Follow channels subchannels notes := by
  constructor
  · rintro ⟨hchannels, hsubchannels, hnotes⟩
    simp only [filterMap_channelIndex_values, filterMap_subchannelIndex_values,
      filterMap_noteIndex_values] at hchannels hsubchannels hnotes
    exact ⟨hchannels, hsubchannels, hnotes⟩
  · rintro ⟨hchannels, hsubchannels, hnotes⟩
    refine ⟨?_, fun recipient => ?_, fun recipient token => ?_⟩
    · rw [filterMap_channelIndex_values]
      exact hchannels
    · rw [filterMap_subchannelIndex_values]
      exact hsubchannels recipient
    · rw [filterMap_noteIndex_values]
      exact hnotes recipient token

/-- Indices that follow from some counts also follow from others where the counts agree. -/
theorem ClientActions.Follow.iff {channels channels' : ℕ} {subchannels subchannels' : Felt → ℕ}
    {notes notes' : Felt → Felt → ℕ} {out : ClientActions}
    (h : out.Follow channels subchannels notes) :
    out.Follow channels' subchannels' notes' ↔
      (out.channelIndices = [] ∨ channels = channels') ∧
      (∀ recipient, out.subchannelIndices recipient = [] ∨
        subchannels recipient = subchannels' recipient) ∧
      ∀ recipient token, out.noteIndices recipient token = [] ∨
        notes recipient token = notes' recipient token := by
  constructor
  · intro h'
    exact ⟨h.channels.iff.mp h'.channels, fun recipient =>
      (h.subchannels recipient).iff.mp (h'.subchannels recipient), fun recipient token =>
      (h.notes recipient token).iff.mp (h'.notes recipient token)⟩
  · rintro ⟨hchannels, hsubchannels, hnotes⟩
    exact ⟨h.channels.iff.mpr hchannels, fun recipient =>
      (h.subchannels recipient).iff.mpr (hsubchannels recipient), fun recipient token =>
      (h.notes recipient token).iff.mpr (hnotes recipient token)⟩

/-! ### The simulator -/

section Pool

variable {sn : Starknet} {pool pool' : PoolSimulator} {channel : Channel} {token : Felt}

theorem PoolSimulator.getChannel_setChannel {addr recipient : Felt} :
    (pool.setChannel addr channel).getChannel recipient =
      if recipient = addr then some channel else pool.getChannel recipient :=
  AddressMap.get_set

theorem Channel.tokenChannel_of_not_mem (h : token ∉ keys channel.tokens) :
    channel.tokenChannel token = ⟨0, 0⟩ := by
  rw [tokenChannel, AddressMap.get_eq_none_iff.mpr h]
  rfl

theorem Channel.noteNonce_incrementNoteNonce (t : Felt) :
    ((channel.incrementNoteNonce token).tokenChannel t).noteNonce =
      (channel.tokenChannel t).noteNonce + if t = token then 1 else 0 := by
  unfold incrementNoteNonce tokenChannel
  dsimp only
  rw [AddressMap.get_set]
  split_ifs with h
  · rw [h]
    rfl
  · rfl

/-- What opening a channel changes. -/
theorem execute_openChannel_eq_ok {input : OpenChannelInput}
    (h : pool.execute sn (.openChannel input) = .ok pool') :
    pool'.nextChannelIndex = pool.nextChannelIndex + 1 ∧ ∃ channel key,
      pool.getChannel input.recipientAddr = some channel ∧ ∀ recipient,
        pool'.getChannel recipient =
          if recipient = input.recipientAddr then some { channel with key := some key }
          else pool.getChannel recipient := by
  simp only [PoolSimulator.execute, PoolSimulator.handleOpenChannel, bind_eq_ok, expect_eq_ok,
    pure_eq_ok] at h
  obtain ⟨channel, hchannel, rfl⟩ := h
  exact ⟨rfl, channel, _, hchannel, fun _ => PoolSimulator.getChannel_setChannel⟩

/-- What opening a subchannel changes. -/
theorem execute_openSubchannel_eq_ok {input : OpenSubchannelInput}
    (h : pool.execute sn (.openSubchannel input) = .ok pool') :
    pool'.nextChannelIndex = pool.nextChannelIndex ∧ ∃ channel,
      pool.getChannel input.recipientAddr = some channel ∧ ∀ recipient,
        pool'.getChannel recipient =
          if recipient = input.recipientAddr then
            some { channel with tokens := AddressMap.set channel.tokens input.token ⟨input.index, 0⟩ }
          else pool.getChannel recipient := by
  simp only [PoolSimulator.execute, PoolSimulator.handleOpenSubchannel, bind_eq_ok, expect_eq_ok,
    pure_eq_ok] at h
  obtain ⟨channel, hchannel, rfl⟩ := h
  exact ⟨rfl, channel, hchannel, fun _ => PoolSimulator.getChannel_setChannel⟩

/-- What using a note leaves. -/
theorem executeUseNote_pool {state state' : Transform} {action : UseNoteAction}
    (h : executeUseNote sn state action = .ok state') :
    state'.pool.nextChannelIndex = state.pool.nextChannelIndex ∧
      ∀ recipient, state'.pool.getChannel recipient = state.pool.getChannel recipient := by
  simp only [executeUseNote, trackNote, bind_eq_ok, expect_eq_ok] at h
  obtain ⟨pool, ⟨id, -, htracked⟩, pool', hused, h⟩ := h
  obtain rfl := Except.ok.inj hused
  obtain rfl := Except.ok.inj h
  split_ifs at htracked
  · obtain rfl := Except.ok.inj htracked
    exact ⟨rfl, fun _ => rfl⟩
  · simp only [PoolSimulator.setupNote, bind_eq_ok, pure_eq_ok] at htracked
    obtain ⟨_, -, rfl⟩ := htracked
    exact ⟨rfl, fun _ => rfl⟩

/-- What creating a note changes. -/
theorem execute_createNoteInput_eq_ok {random : Randomness} {position : ℕ}
    {action : CreateNoteAction}
    (h : pool.execute sn (createNoteAction (createNoteInput random channel position action)) =
      .ok pool') :
    pool'.nextChannelIndex = pool.nextChannelIndex ∧ ∃ channel,
      pool.getChannel action.recipient = some channel ∧ ∀ recipient,
        pool'.getChannel recipient =
          if recipient = action.recipient then some (channel.incrementNoteNonce action.token)
          else pool.getChannel recipient := by
  unfold createNoteInput at h
  split at h
  · simp only [createNoteAction, Sum.elim_inr, PoolSimulator.execute,
      PoolSimulator.handleCreateOpenNote, bind_eq_ok, expect_eq_ok, pure_eq_ok] at h
    obtain ⟨channel, hchannel, rfl⟩ := h
    exact ⟨rfl, channel, hchannel, fun _ => PoolSimulator.getChannel_setChannel⟩
  · simp only [createNoteAction, Sum.elim_inl, PoolSimulator.execute,
      PoolSimulator.handleCreateEncNote, bind_eq_ok, expect_eq_ok] at h
    obtain ⟨channel, hchannel, h⟩ := h
    split_ifs at h <;>
    · obtain rfl := Except.ok.inj h
      exact ⟨rfl, channel, hchannel, fun _ => PoolSimulator.getChannel_setChannel⟩

theorem noteIndex_createNoteInput (random : Randomness) (position : ℕ) (action : CreateNoteAction)
    (recipient token : Felt) :
    noteIndex recipient token (createNoteAction (createNoteInput random channel position action)) =
      if action.recipient = recipient ∧ action.token = token then
        some (channel.tokenChannel action.token).noteNonce
      else none := by
  unfold createNoteInput
  cases action.amount <;> rfl

end Pool

/-! ### Counting -/

/-- The indices of what is emitted follow, and the simulator has counted the channels and
the notes of each subchannel. -/
structure Tracks (channels : ℕ) (subchannels : Felt → ℕ) (notes : Felt → Felt → ℕ)
    (state : Transform) : Prop where
  follow : state.out.Follow channels subchannels notes
  nextChannel : state.pool.nextChannelIndex = channels + state.out.channelIndices.length
  noteNonce : ∀ recipient channel, state.pool.getChannel recipient = some channel → ∀ token,
    (channel.tokenChannel token).noteNonce =
      notes recipient token + (state.out.noteIndices recipient token).length

/-- The simulator has counted the subchannels. Reading the note count of a subchannel that
does not exist adds an entry, so this only lasts while subchannels are opened first. -/
def TracksTokens (subchannels : Felt → ℕ) (state : Transform) : Prop :=
  ∀ recipient channel, state.pool.getChannel recipient = some channel →
    channel.tokens.length = subchannels recipient + (state.out.subchannelIndices recipient).length

section Tracking

variable {sn : Starknet} {random : Randomness} {options : ExecuteOptions} {poolAddress : Felt}
  {pool : PoolSimulator} {actions : Actions} {state state' : Transform} {channel : Channel}
  {channels : ℕ} {subchannels : Felt → ℕ} {notes : Felt → Felt → ℕ}

/-- A channel with given counts is tracked before anything is emitted. -/
structure Channel.Counted (subchannels : ℕ) (notes : Felt → ℕ) (channel : Channel) : Prop where
  tokens : channel.tokens.length = subchannels
  noteNonce : ∀ token, (channel.tokenChannel token).noteNonce = notes token

/-- The simulator starts with the counts of its channels. -/
theorem tracks_start (hnext : pool.nextChannelIndex = channels)
    (hcounted : ∀ recipient channel, pool.getChannel recipient = some channel →
      channel.Counted (subchannels recipient) (notes recipient)) :
    Tracks channels subchannels notes { pool } ∧ TracksTokens subchannels { pool } :=
  ⟨⟨⟨consecutive_nil _, fun _ => consecutive_nil _, fun _ _ => consecutive_nil _⟩, hnext,
    fun recipient channel hchannel => (hcounted recipient channel hchannel).noteNonce⟩,
    fun recipient channel hchannel => (hcounted recipient channel hchannel).tokens⟩

/-- Registering adds the channel of the user, without subchannels. -/
theorem executeSetViewingKey_tracks
    (h : executeSetViewingKey sn random actions state = .ok state')
    (hfresh : actions.setViewingKey = true → state.pool.getChannel state.pool.userAddress = none →
      subchannels state.pool.userAddress = 0 ∧ (∀ token, notes state.pool.userAddress token = 0) ∧
      state.out = {})
    (htracks : Tracks channels subchannels notes state) (htokens : TracksTokens subchannels state) :
    Tracks channels subchannels notes state' ∧ TracksTokens subchannels state' := by
  unfold executeSetViewingKey at h
  split_ifs at h with hset
  · simp only [PoolSimulator.execute, PoolSimulator.handleSetViewingKey, bind_eq_ok, require_eq_ok,
      exists_and_left, exists_const, pure_eq_ok, Option.isNone_iff_eq_none] at h
    obtain ⟨_, ⟨publicKey, -, hnone, rfl⟩, rfl⟩ := h
    -- The user has no channel yet, and nothing was counted for it.
    obtain ⟨hsubchannels, hnotes, hout⟩ := hfresh hset hnone
    refine ⟨⟨⟨htracks.follow.channels, htracks.follow.subchannels, htracks.follow.notes⟩,
      htracks.nextChannel, ?_⟩, ?_⟩
    · intro recipient channel hchannel token
      rw [PoolSimulator.getChannel_setChannel] at hchannel
      split_ifs at hchannel with hrecipient
      · obtain rfl := Option.some.inj hchannel
        rw [hrecipient, hnotes, hout]
        rfl
      · exact htracks.noteNonce recipient channel hchannel token
    · intro recipient channel hchannel
      rw [PoolSimulator.getChannel_setChannel] at hchannel
      split_ifs at hchannel with hrecipient
      · obtain rfl := Option.some.inj hchannel
        rw [hrecipient, hsubchannels, hout]
        rfl
      · exact htokens recipient channel hchannel
  · obtain rfl := Except.ok.inj h
    exact ⟨htracks, htokens⟩

/-- Opening a channel emits the next index. -/
theorem executeOpenChannel_tracks {seen seen' : List Felt} {recipient : Felt}
    (h : executeOpenChannel sn random (state, seen) recipient = .ok (state', seen'))
    (htracks : Tracks channels subchannels notes state) (htokens : TracksTokens subchannels state) :
    Tracks channels subchannels notes state' ∧ TracksTokens subchannels state' := by
  unfold executeOpenChannel at h
  dsimp only at h
  split_ifs at h
  · obtain ⟨rfl, -⟩ := Prod.mk.inj (Except.ok.inj h)
    exact ⟨htracks, htokens⟩
  · simp only [bind_eq_ok] at h
    obtain ⟨_, -, pool', hexecute, h⟩ := h
    obtain ⟨rfl, -⟩ := Prod.mk.inj (Except.ok.inj h)
    obtain ⟨hnext, channel, key, hchannel, hget⟩ := execute_openChannel_eq_ok hexecute
    have hindices : ClientActions.channelIndices { state.out with openChannels :=
        state.out.openChannels ++ [⟨recipient, state.pool.nextChannelIndex,
          (random.openChannel state.out.openChannels.length).1,
          (random.openChannel state.out.openChannels.length).2⟩] } =
        state.out.channelIndices ++ [channels + state.out.channelIndices.length] := by
      rw [ClientActions.channelIndices, List.map_append, List.map_singleton, htracks.nextChannel]
      rfl
    -- The channel of the recipient has a key now; its counts are the same.
    refine ⟨⟨⟨?_, htracks.follow.subchannels, htracks.follow.notes⟩, ?_, ?_⟩, ?_⟩
    · rw [hindices]
      exact htracks.follow.channels.concat
    · rw [hindices, List.length_append, List.length_singleton, ← Nat.add_assoc,
        ← htracks.nextChannel]
      exact hnext
    · intro addr channel' hchannel' token
      rw [hget] at hchannel'
      split_ifs at hchannel' with haddr
      · obtain rfl := Option.some.inj hchannel'
        subst haddr
        exact htracks.noteNonce _ channel hchannel token
      · exact htracks.noteNonce addr channel' hchannel' token
    · intro addr channel' hchannel'
      rw [hget] at hchannel'
      split_ifs at hchannel' with haddr
      · obtain rfl := Option.some.inj hchannel'
        subst haddr
        exact htokens _ channel hchannel
      · exact htokens addr channel' hchannel'

theorem subchannelIndices_concat (out : ClientActions) (input : OpenSubchannelInput)
    (recipient : Felt) :
    ClientActions.subchannelIndices { out with
        openTokenChannels := out.openTokenChannels ++ [input] } recipient =
      out.subchannelIndices recipient ++
        if input.recipientAddr = recipient then [input.index] else [] := by
  unfold ClientActions.subchannelIndices
  rw [List.filterMap_append, List.filterMap_cons, List.filterMap_nil, subchannelIndex]
  split_ifs <;> rfl

/-- The channel that a subchannel is opened in has it, and the indices go on. -/
theorem transformOpenSubchannel_tracks {force : Bool} {recipient token : Felt}
    (h : transformOpenSubchannel sn random options force state recipient token =
      .ok (state', channel))
    (htracks : Tracks channels subchannels notes state)
    (htokens : (force || options.autoSetup) = true → TracksTokens subchannels state) :
    Tracks channels subchannels notes state' ∧ state'.pool.getChannel recipient = some channel ∧
      ((force || options.autoSetup) = true →
        TracksTokens subchannels state' ∧ token ∈ keys channel.tokens) := by
  simp only [transformOpenSubchannel, bind_eq_ok, expect_eq_ok] at h
  obtain ⟨current, hcurrent, h⟩ := h
  -- The subchannel is there, or none is to be opened, or it is opened here.
  split_ifs at h with hmem hopen
  · obtain ⟨rfl, rfl⟩ := Prod.mk.inj (Except.ok.inj h)
    exact ⟨htracks, hcurrent, fun hopen => ⟨htokens hopen, hmem⟩⟩
  · obtain ⟨rfl, rfl⟩ := Prod.mk.inj (Except.ok.inj h)
    refine ⟨htracks, hcurrent, fun hopen' => ?_⟩
    simp only [Bool.and_eq_true, Bool.not_eq_true'] at hopen
    rw [hopen.1, hopen.2] at hopen'
    cases hopen'
  · have htokens := htokens (by
      rw [Bool.and_eq_true, Bool.not_eq_true', Bool.not_eq_true'] at hopen
      cases hforce : force
      · exact Bool.eq_true_of_not_eq_false fun hsetup => hopen ⟨hforce, hsetup⟩
      · rfl)
    simp only [bind_eq_ok, expect_eq_ok] at h
    obtain ⟨pool', hexecute, opened, hopened, h⟩ := h
    obtain ⟨rfl, rfl⟩ := Prod.mk.inj (Except.ok.inj h)
    obtain ⟨hnext, channel', hchannel', hget⟩ := execute_openSubchannel_eq_ok hexecute
    dsimp only at hchannel' hget
    obtain rfl : current = channel' := Option.some.inj (hcurrent.symm.trans hchannel')
    have hlength := htokens recipient current hcurrent
    have hopened' := hopened
    rw [hget, if_pos rfl] at hopened'
    obtain rfl := Option.some.inj hopened'
    refine ⟨⟨⟨htracks.follow.channels, fun addr => ?_, htracks.follow.notes⟩,
      hnext.trans htracks.nextChannel, ?_⟩, hopened, fun _ => ⟨?_, ?_⟩⟩
    · rw [subchannelIndices_concat]
      split_ifs with haddr
      · dsimp only at haddr ⊢
        subst haddr
        rw [hlength]
        exact (htracks.follow.subchannels recipient).concat
      · rw [List.append_nil]
        exact htracks.follow.subchannels addr
    · intro addr channel' hchannel' t
      rw [hget] at hchannel'
      split_ifs at hchannel' with haddr
      · obtain rfl := Option.some.inj hchannel'
        subst haddr
        have hnonce := htracks.noteNonce addr current hcurrent t
        unfold Channel.tokenChannel at hnonce ⊢
        dsimp only at hnonce ⊢
        rw [AddressMap.get_set]
        split_ifs with ht
        · -- The new subchannel has no notes, and none were emitted for it.
          subst ht
          rw [AddressMap.get_eq_none_iff.mpr hmem] at hnonce
          exact hnonce
        · exact hnonce
      · exact htracks.noteNonce addr channel' hchannel' t
    · intro addr channel' hchannel'
      rw [hget] at hchannel'
      rw [subchannelIndices_concat, List.length_append, ← Nat.add_assoc]
      split_ifs at hchannel' with haddr
      · obtain rfl := Option.some.inj hchannel'
        subst haddr
        rw [← hlength, if_pos rfl, List.length_singleton]
        exact AddressMap.length_set_of_not_mem hmem
      · rw [if_neg (Ne.symm haddr), List.length_nil, Nat.add_zero]
        exact htokens addr channel' hchannel'
    · exact AddressMap.mem_keys_set.mpr (.inr rfl)

theorem executeOpenTokenChannel_tracks {action : OpenTokenChannelAction}
    (h : executeOpenTokenChannel sn random options state action = .ok state')
    (htracks : Tracks channels subchannels notes state) (htokens : TracksTokens subchannels state) :
    Tracks channels subchannels notes state' ∧ TracksTokens subchannels state' := by
  simp only [executeOpenTokenChannel, bind_eq_ok, pure_eq_ok] at h
  obtain ⟨⟨_, _⟩, hopen, rfl⟩ := h
  obtain ⟨htracks', -, hopened⟩ := transformOpenSubchannel_tracks hopen htracks fun _ => htokens
  exact ⟨htracks', (hopened rfl).1⟩

/-- Only the channels and the emitted indices of a state matter. -/
theorem Tracks.of_eq (htracks : Tracks channels subchannels notes state)
    (hnext : state'.pool.nextChannelIndex = state.pool.nextChannelIndex)
    (hget : ∀ recipient, state'.pool.getChannel recipient = state.pool.getChannel recipient)
    (hchannels : state'.out.openChannels = state.out.openChannels)
    (hsubchannels : state'.out.openTokenChannels = state.out.openTokenChannels)
    (hnotes : state'.out.createNotes = state.out.createNotes) :
    Tracks channels subchannels notes state' := by
  obtain ⟨⟨hfollow, hfollow', hfollow''⟩, hcount, hnonce⟩ := htracks
  unfold ClientActions.channelIndices at hfollow hcount
  unfold ClientActions.subchannelIndices at hfollow'
  unfold ClientActions.noteIndices at hfollow'' hnonce
  rw [← hchannels] at hfollow hcount
  rw [← hsubchannels] at hfollow'
  rw [← hnotes] at hfollow'' hnonce
  refine ⟨⟨hfollow, hfollow', hfollow''⟩, hnext.trans hcount, fun recipient channel hchannel => ?_⟩
  exact hnonce recipient channel ((hget recipient).symm.trans hchannel)

theorem TracksTokens.of_eq (htokens : TracksTokens subchannels state)
    (hget : ∀ recipient, state'.pool.getChannel recipient = state.pool.getChannel recipient)
    (hsubchannels : state'.out.openTokenChannels = state.out.openTokenChannels) :
    TracksTokens subchannels state' := by
  intro recipient channel hchannel
  unfold ClientActions.subchannelIndices
  rw [hsubchannels]
  exact htokens recipient channel ((hget recipient).symm.trans hchannel)

theorem executeUseNote_tracks {action : UseNoteAction}
    (h : executeUseNote sn state action = .ok state')
    (htracks : Tracks channels subchannels notes state) (htokens : TracksTokens subchannels state) :
    Tracks channels subchannels notes state' ∧ TracksTokens subchannels state' := by
  obtain ⟨hnext, hget⟩ := executeUseNote_pool h
  have hout := executeUseNote_out h
  have hchannels : state'.out.openChannels = state.out.openChannels := by rw [hout]
  have hsubchannels : state'.out.openTokenChannels = state.out.openTokenChannels := by rw [hout]
  exact ⟨htracks.of_eq hnext hget hchannels hsubchannels (by rw [hout]),
    htokens.of_eq hget hsubchannels⟩

theorem noteIndices_concat (out : ClientActions) (input : CreateEncNoteInput ⊕ CreateOpenNoteInput)
    (recipient token : Felt) :
    ClientActions.noteIndices { out with createNotes := out.createNotes ++ [input] } recipient token =
      out.noteIndices recipient token ++
        (noteIndex recipient token (createNoteAction input)).toList := by
  unfold ClientActions.noteIndices
  rw [List.filterMap_append, List.filterMap_cons, List.filterMap_nil]
  cases noteIndex recipient token (createNoteAction input) <;> rfl

/-- A note is created at the next index of its subchannel. -/
theorem executeCreateNote_tracks {action : CreateNoteAction}
    (h : executeCreateNote sn random options state action = .ok state')
    (htracks : Tracks channels subchannels notes state)
    (htokens : options.autoSetup = true → TracksTokens subchannels state) :
    Tracks channels subchannels notes state' ∧
      (options.autoSetup = true → TracksTokens subchannels state') := by
  simp only [executeCreateNote, bind_eq_ok, pure_eq_ok] at h
  obtain ⟨⟨opened, channel⟩, hopen, pool', hexecute, rfl⟩ := h
  obtain ⟨htracks', hchannel, hopened⟩ := transformOpenSubchannel_tracks hopen htracks htokens
  obtain ⟨hnext, channel', hchannel', hget⟩ := execute_createNoteInput_eq_ok hexecute
  obtain rfl : channel = channel' := Option.some.inj (hchannel.symm.trans hchannel')
  have hindices := fun recipient token => noteIndices_concat opened.out
    (createNoteInput random channel opened.out.createNotes.length action) recipient token
  simp only [noteIndex_createNoteInput] at hindices
  -- The simulator takes the index from the nonce, which has counted the notes so far.
  have hnonce := htracks'.noteNonce action.recipient channel hchannel
  refine ⟨⟨⟨htracks'.follow.channels, htracks'.follow.subchannels, fun recipient token => ?_⟩,
    hnext.trans htracks'.nextChannel, ?_⟩, fun hsetup => ?_⟩
  · rw [hindices]
    split_ifs with htarget
    · obtain ⟨rfl, rfl⟩ := htarget
      rw [hnonce, Option.toList_some]
      exact (htracks'.follow.notes action.recipient action.token).concat
    · rw [Option.toList_none, List.append_nil]
      exact htracks'.follow.notes recipient token
  · intro recipient channel'' hchannel'' token
    rw [hget] at hchannel''
    rw [hindices]
    split_ifs at hchannel'' with hrecipient
    · obtain rfl := Option.some.inj hchannel''
      subst hrecipient
      rw [Channel.noteNonce_incrementNoteNonce, hnonce]
      by_cases htoken : token = action.token
      · rw [if_pos htoken, if_pos ⟨rfl, htoken.symm⟩, Option.toList_some, List.length_append,
          List.length_singleton, Nat.add_assoc]
      · rw [if_neg htoken, if_neg fun h => htoken h.2.symm, Option.toList_none, List.append_nil,
          Nat.add_zero]
    · rw [if_neg fun h => hrecipient h.1.symm, Option.toList_none, List.append_nil]
      exact htracks'.noteNonce recipient channel'' hchannel'' token
  · -- The subchannel has been opened, so that its entry is there.
    obtain ⟨htokens', hmem⟩ := hopened (by rw [hsetup, Bool.or_true])
    intro recipient channel'' hchannel''
    rw [hget] at hchannel''
    split_ifs at hchannel'' with hrecipient
    · obtain rfl := Option.some.inj hchannel''
      subst hrecipient
      exact (AddressMap.length_set_of_mem hmem).trans (htokens' _ channel hchannel)
    · exact htokens' recipient channel'' hchannel''

/-! ### What is emitted at all -/

/-- Opening a subchannel adds at most that of the recipient, and none when it need not. -/
theorem transformOpenSubchannel_opened {force : Bool} {recipient token : Felt}
    (h : transformOpenSubchannel sn random options force state recipient token =
      .ok (state', channel)) :
    ∃ opened, state'.out = { state.out with
        openTokenChannels := state.out.openTokenChannels ++ opened } ∧
      (∀ input ∈ opened, input.recipientAddr = recipient) ∧
      ((force || options.autoSetup) = false → opened = []) := by
  simp only [transformOpenSubchannel, bind_eq_ok] at h
  obtain ⟨current, -, h⟩ := h
  split_ifs at h with hmem hopen
  · obtain ⟨rfl, -⟩ := Prod.mk.inj (Except.ok.inj h)
    exact ⟨[], by rw [List.append_nil], nofun, fun _ => rfl⟩
  · obtain ⟨rfl, -⟩ := Prod.mk.inj (Except.ok.inj h)
    exact ⟨[], by rw [List.append_nil], nofun, fun _ => rfl⟩
  · simp only [bind_eq_ok] at h
    obtain ⟨_, -, _, -, h⟩ := h
    obtain ⟨rfl, -⟩ := Prod.mk.inj (Except.ok.inj h)
    refine ⟨_, rfl, fun input hinput => ?_, fun hneither => ?_⟩
    · rw [List.mem_singleton.mp hinput]
    · rw [Bool.or_eq_false_iff] at hneither
      rw [hneither.1, hneither.2] at hopen
      exact absurd rfl hopen

/-- The loop over `openTokenChannels` opens subchannels of its recipients only. -/
theorem foldlM_openTokenChannel_opened {openTokenChannels : List OpenTokenChannelAction}
    (h : openTokenChannels.foldlM (executeOpenTokenChannel sn random options) state = .ok state') :
    ∃ opened, state'.out.openTokenChannels = state.out.openTokenChannels ++ opened ∧
      ∀ input ∈ opened, ∃ action ∈ openTokenChannels, action.recipient = input.recipientAddr := by
  induction openTokenChannels generalizing state with
  | nil =>
    obtain rfl := foldlM_nil_eq_ok.mp h
    exact ⟨[], by rw [List.append_nil], nofun⟩
  | cons action openTokenChannels ih =>
    obtain ⟨middle, hfirst, hrest⟩ := foldlM_cons_eq_ok.mp h
    simp only [executeOpenTokenChannel, bind_eq_ok, pure_eq_ok] at hfirst
    obtain ⟨⟨_, _⟩, hopen, rfl⟩ := hfirst
    obtain ⟨opened, hout, hrecipient, -⟩ := transformOpenSubchannel_opened hopen
    obtain ⟨opened', hout', hrecipients⟩ := ih hrest
    refine ⟨opened ++ opened', by rw [hout', hout, List.append_assoc], fun input hinput => ?_⟩
    rcases List.mem_append.mp hinput with hinput | hinput
    · exact ⟨action, List.mem_cons_self, (hrecipient input hinput).symm⟩
    · obtain ⟨action', haction', hrecipient'⟩ := hrecipients input hinput
      exact ⟨action', List.mem_cons_of_mem action haction', hrecipient'⟩

/-- A recipient that starts without subchannels gets one, when one is to be opened. -/
theorem foldlM_openTokenChannel_nonempty {openTokenChannels : List OpenTokenChannelAction}
    (h : openTokenChannels.foldlM (executeOpenTokenChannel sn random options) state = .ok state')
    (htracks : Tracks channels subchannels notes state) (htokens : TracksTokens subchannels state)
    {action : OpenTokenChannelAction} (haction : action ∈ openTokenChannels)
    (hnone : subchannels action.recipient = 0) :
    state'.out.subchannelIndices action.recipient ≠ [] := by
  induction openTokenChannels generalizing state with
  | nil => cases haction
  | cons first openTokenChannels ih =>
    obtain ⟨middle, hfirst, hrest⟩ := foldlM_cons_eq_ok.mp h
    obtain ⟨htracks', htokens'⟩ := executeOpenTokenChannel_tracks hfirst htracks htokens
    rcases List.mem_cons.mp haction with rfl | haction
    · simp only [executeOpenTokenChannel, bind_eq_ok, pure_eq_ok] at hfirst
      obtain ⟨⟨_, channel⟩, hopen, rfl⟩ := hfirst
      obtain ⟨-, hchannel, hopened⟩ := transformOpenSubchannel_tracks hopen htracks fun _ => htokens
      have hlength := htokens' _ channel hchannel
      -- The channel has the subchannel now, and had none before: it was emitted.
      have hpositive : 0 < channel.tokens.length := by
        have hmem := (hopened rfl).2
        rw [keys, List.mem_map] at hmem
        obtain ⟨entry, hentry, -⟩ := hmem
        exact List.length_pos_of_mem hentry
      obtain ⟨opened, hout, -⟩ := foldlM_openTokenChannel_opened hrest
      intro hempty
      rw [ClientActions.subchannelIndices, hout, List.filterMap_append,
        List.append_eq_nil_iff] at hempty
      rw [ClientActions.subchannelIndices, hempty.1, hnone] at hlength
      exact absurd hlength hpositive.ne'
    · exact ih hrest htracks' htokens' haction

/-- The loop over `createNotes` opens subchannels of its recipients only, and none without
`autoSetup`. -/
theorem foldlM_createNote_opened {createNotes : List CreateNoteAction}
    (h : createNotes.foldlM (executeCreateNote sn random options) state = .ok state') :
    ∃ opened, state'.out.openTokenChannels = state.out.openTokenChannels ++ opened ∧
      (∀ input ∈ opened, ∃ c ∈ createNotes, c.recipient = input.recipientAddr) ∧
      (options.autoSetup = false → opened = []) := by
  induction createNotes generalizing state with
  | nil =>
    obtain rfl := foldlM_nil_eq_ok.mp h
    exact ⟨[], by rw [List.append_nil], nofun, fun _ => rfl⟩
  | cons action createNotes ih =>
    obtain ⟨middle, hfirst, hrest⟩ := foldlM_cons_eq_ok.mp h
    simp only [executeCreateNote, bind_eq_ok, pure_eq_ok] at hfirst
    obtain ⟨⟨state'', _⟩, hopen, _, -, rfl⟩ := hfirst
    obtain ⟨opened, hout, hrecipient, hnone⟩ := transformOpenSubchannel_opened hopen
    obtain ⟨opened', hout', hrecipients, hnone'⟩ := ih hrest
    refine ⟨opened ++ opened', by rw [hout', hout, List.append_assoc], fun input hinput => ?_,
      fun hsetup => ?_⟩
    · rcases List.mem_append.mp hinput with hinput | hinput
      · exact ⟨action, List.mem_cons_self, (hrecipient input hinput).symm⟩
      · obtain ⟨c, hc, hsame⟩ := hrecipients input hinput
        exact ⟨c, List.mem_cons_of_mem action hc, hsame⟩
    · rw [hnone (by rw [hsetup]; rfl), hnone' hsetup, List.append_nil]

/-- With `autoSetup`, a recipient that starts without subchannels gets one when a note is
created for it. -/
theorem foldlM_createNote_nonempty {createNotes : List CreateNoteAction}
    (h : createNotes.foldlM (executeCreateNote sn random options) state = .ok state')
    (htracks : Tracks channels subchannels notes state) (htokens : TracksTokens subchannels state)
    (hsetup : options.autoSetup = true) {c : CreateNoteAction} (hc : c ∈ createNotes)
    (hnone : subchannels c.recipient = 0) :
    state'.out.subchannelIndices c.recipient ≠ [] := by
  induction createNotes generalizing state with
  | nil => cases hc
  | cons first createNotes ih =>
    obtain ⟨middle, hfirst, hrest⟩ := foldlM_cons_eq_ok.mp h
    obtain ⟨htracks', htokens'⟩ := executeCreateNote_tracks hfirst htracks fun _ => htokens
    rcases List.mem_cons.mp hc with rfl | hc
    · simp only [executeCreateNote, bind_eq_ok, pure_eq_ok] at hfirst
      obtain ⟨⟨opened, channel⟩, hopen, _, -, rfl⟩ := hfirst
      obtain ⟨-, hchannel, hopened⟩ := transformOpenSubchannel_tracks hopen htracks fun _ => htokens
      obtain ⟨hcounted, hmem⟩ := hopened (by rw [hsetup, Bool.or_true])
      obtain ⟨entry, hentry, -⟩ := List.mem_map.mp hmem
      have hlength := hcounted _ channel hchannel
      obtain ⟨more, hout, -, -⟩ := foldlM_createNote_opened hrest
      intro hempty
      rw [ClientActions.subchannelIndices, hout, List.filterMap_append,
        List.append_eq_nil_iff] at hempty
      rw [ClientActions.subchannelIndices, hempty.1, hnone] at hlength
      exact absurd hlength (List.length_pos_of_mem hentry).ne'
    · exact ih hrest htracks' (htokens' hsetup) hc

/-- A channel is opened when one is to be opened. -/
theorem foldlM_openChannel_eq_nil_iff {openChannels : List Felt} {s s' : Transform × List Felt}
    (h : openChannels.foldlM (executeOpenChannel sn random) s = .ok s')
    (hseen : s.2 = []) (hout : s.1.out.openChannels = []) :
    s'.1.out.openChannels = [] ↔ openChannels = [] := by
  cases openChannels with
  | nil =>
    obtain rfl := foldlM_nil_eq_ok.mp h
    exact iff_of_true hout rfl
  -- The first recipient has not been seen, so that a channel is opened and stays in the list.
  | cons recipient openChannels =>
    obtain ⟨middle, hfirst, hrest⟩ := foldlM_cons_eq_ok.mp h
    refine iff_of_false ?_ (List.cons_ne_nil _ _)
    refine foldlM_invariant (fun s : Transform × List Felt => s.1.out.openChannels ≠ [])
      ?_ ?_ hrest
    · intro recipient' _ t t' ht hstep
      unfold executeOpenChannel at hstep
      dsimp only at hstep
      split_ifs at hstep
      · obtain rfl := Except.ok.inj hstep
        exact ht
      · simp only [bind_eq_ok, pure_eq_ok] at hstep
        obtain ⟨_, -, _, -, rfl⟩ := hstep
        exact List.append_ne_nil_of_left_ne_nil ht _
    · unfold executeOpenChannel at hfirst
      dsimp only at hfirst
      rw [hseen, if_neg List.not_mem_nil] at hfirst
      simp only [bind_eq_ok, pure_eq_ok] at hfirst
      obtain ⟨_, -, _, -, rfl⟩ := hfirst
      exact List.append_ne_nil_of_right_ne_nil _ (List.cons_ne_nil _ _)

theorem noteIndex_eq_none_iff {c : CreateNoteAction} {input : CreateEncNoteInput ⊕ CreateOpenNoteInput}
    (h : c.Emits input) (recipient token : Felt) :
    noteIndex recipient token (createNoteAction input) = none ↔
      ¬(c.recipient = recipient ∧ c.token = token) := by
  cases h with
  | enc hrecipient htoken _ => simp [createNoteAction, noteIndex, hrecipient, htoken]
  | isOpen hrecipient htoken _ => simp [createNoteAction, noteIndex, hrecipient, htoken]

/-- No index is emitted for a subchannel exactly when no note is to be created in it. -/
theorem noteIndices_eq_nil_iff {out : ClientActions} (h : out.Of random actions)
    (recipient token : Felt) :
    out.noteIndices recipient token = [] ↔
      ∀ c ∈ actions.createNotes, ¬(c.recipient = recipient ∧ c.token = token) := by
  obtain ⟨-, -, hemits, -⟩ := h
  rw [ClientActions.noteIndices, List.filterMap_eq_nil_iff]
  generalize actions.createNotes = createNotes at hemits ⊢
  generalize out.createNotes = inputs at hemits ⊢
  induction hemits with
  | nil => exact iff_of_true nofun nofun
  | cons hfirst _ ih =>
    rw [List.forall_mem_cons, List.forall_mem_cons, noteIndex_eq_none_iff hfirst, ih]

/-- The invoke-phase action changes no index. -/
theorem executeInvoke_indices (h : executeInvoke sn poolAddress actions state = .ok state') :
    state'.out.openChannels = state.out.openChannels ∧
      state'.out.openTokenChannels = state.out.openTokenChannels ∧
      state'.out.createNotes = state.out.createNotes := by
  simp only [executeInvoke, bind_eq_ok, require_eq_ok, exists_and_left, exists_const] at h
  obtain ⟨-, h⟩ := h
  split at h
  · simp only [bind_eq_ok, pure_eq_ok] at h
    obtain ⟨_, -, rfl⟩ := h
    exact ⟨rfl, rfl, rfl⟩
  · simp only [bind_eq_ok, pure_eq_ok] at h
    obtain ⟨_, -, rfl⟩ := h
    exact ⟨rfl, rfl, rfl⟩
  · obtain rfl := Except.ok.inj h
    exact ⟨rfl, rfl, rfl⟩

/-! ### The whole list -/

/-- A subchannel of a recipient is asked for, or `autoSetup` opens one for a note. -/
def OpensSubchannel (options : ExecuteOptions) (openTokenChannels : List OpenTokenChannelAction)
    (creates : CreateNoteAction → Prop) (recipient : Felt) : Prop :=
  (∃ action ∈ openTokenChannels, action.recipient = recipient) ∨
    options.autoSetup = true ∧ ∃ c, creates c ∧ c.recipient = recipient

/-- The indices that a compile emits go on from the counts of the simulator, those of a new
user from zero; and when which of them are emitted. -/
structure Emitted (options : ExecuteOptions) (actions : Actions) (openChannels : List Felt)
    (channels : ℕ) (subchannels : Felt → ℕ) (notes : Felt → Felt → ℕ) (out : ClientActions) :
    Prop where
  follow : out.Follow channels subchannels notes
  channels : out.channelIndices = [] ↔ openChannels = []
  recipients : ∀ recipient, out.subchannelIndices recipient ≠ [] →
    OpensSubchannel options actions.openTokenChannels (· ∈ actions.createNotes) recipient
  opened : ∀ recipient, subchannels recipient = 0 →
    OpensSubchannel options actions.openTokenChannels (· ∈ actions.createNotes) recipient →
    out.subchannelIndices recipient ≠ []
  notes : ∀ recipient token, out.noteIndices recipient token = [] ↔
    ∀ c ∈ actions.createNotes, ¬(c.recipient = recipient ∧ c.token = token)

section Loops
variable {setup : Actions} {seen : List Felt} {registered opened subs used created : Transform}

/-- The loops of a transformation keep the counts: of what they open, of what is used after that,
and of the notes that are created at last. -/
theorem tracks_loops
    (hregister : executeSetViewingKey sn random setup { pool } = .ok registered)
    (hopens : setup.openChannels.foldlM (executeOpenChannel sn random) (registered, []) =
      .ok (opened, seen))
    (hsubs : setup.openTokenChannels.foldlM (executeOpenTokenChannel sn random options) opened =
      .ok subs)
    (hused : setup.useNotes.foldlM (executeUseNote sn) { subs with out := { subs.out with
      deposits := depositInputs setup.deposits } } = .ok used)
    (hcreated : setup.createNotes.foldlM (executeCreateNote sn random options) used = .ok created)
    (hnext : pool.nextChannelIndex = channels)
    (hcounted : ∀ recipient channel, pool.getChannel recipient = some channel →
      channel.Counted (subchannels recipient) (notes recipient))
    (hfresh : setup.setViewingKey = true → pool.getChannel pool.userAddress = none →
      subchannels pool.userAddress = 0 ∧ ∀ token, notes pool.userAddress token = 0) :
    (Tracks channels subchannels notes opened ∧ TracksTokens subchannels opened) ∧
      (Tracks channels subchannels notes used ∧ TracksTokens subchannels used) ∧
        Tracks channels subchannels notes created := by
  obtain ⟨htracks, htokens⟩ := tracks_start hnext hcounted
  obtain ⟨htracks₁, htokens₁⟩ := executeSetViewingKey_tracks hregister
    (fun hset hnone => ⟨(hfresh hset hnone).1, (hfresh hset hnone).2, rfl⟩) htracks htokens
  obtain ⟨htracks₂, htokens₂⟩ := foldlM_invariant (fun s : Transform × List Felt =>
    Tracks channels subchannels notes s.1 ∧ TracksTokens subchannels s.1)
    (fun _ _ _ _ hs hstep => executeOpenChannel_tracks hstep hs.1 hs.2) ⟨htracks₁, htokens₁⟩ hopens
  obtain ⟨htracks₃, htokens₃⟩ := foldlM_invariant (fun s : Transform =>
    Tracks channels subchannels notes s ∧ TracksTokens subchannels s)
    (fun _ _ _ _ hs hstep => executeOpenTokenChannel_tracks hstep hs.1 hs.2) ⟨htracks₂, htokens₂⟩
    hsubs
  -- The deposits are put in at once, and count nothing.
  have hpaid : Tracks channels subchannels notes { subs with out := { subs.out with
      deposits := depositInputs setup.deposits } } :=
    htracks₃.of_eq rfl (fun _ => rfl) rfl rfl rfl
  obtain ⟨htracks₄, htokens₄⟩ := foldlM_invariant (fun s : Transform =>
    Tracks channels subchannels notes s ∧ TracksTokens subchannels s)
    (fun _ _ _ _ hs hstep => executeUseNote_tracks hstep hs.1 hs.2)
    ⟨hpaid, htokens₃.of_eq (fun _ => rfl) rfl⟩ hused
  obtain ⟨htracks₅, -⟩ := foldlM_invariant (fun s : Transform =>
    Tracks channels subchannels notes s ∧ (options.autoSetup = true → TracksTokens subchannels s))
    (fun _ _ _ _ hs hstep => executeCreateNote_tracks hstep hs.1 hs.2)
    ⟨htracks₄, fun _ => htokens₄⟩ hcreated
  exact ⟨⟨htracks₂, htokens₂⟩, ⟨htracks₄, htokens₄⟩, htracks₅⟩

/-- Channels are opened by their own loop only, and subchannels by the two loops that look for
them. -/
theorem opened_loops
    (hregister : executeSetViewingKey sn random setup { pool } = .ok registered)
    (hopens : setup.openChannels.foldlM (executeOpenChannel sn random) (registered, []) =
      .ok (opened, seen))
    (hsubs : setup.openTokenChannels.foldlM (executeOpenTokenChannel sn random options) opened =
      .ok subs)
    (hused : setup.useNotes.foldlM (executeUseNote sn) { subs with out := { subs.out with
      deposits := depositInputs setup.deposits } } = .ok used)
    (hcreated : setup.createNotes.foldlM (executeCreateNote sn random options) used = .ok created) :
    (created.out.openChannels = [] ↔ setup.openChannels = []) ∧
      ∃ fromNotes, created.out.openTokenChannels = subs.out.openTokenChannels ++ fromNotes ∧
        (∀ input ∈ subs.out.openTokenChannels, ∃ action ∈ setup.openTokenChannels,
          action.recipient = input.recipientAddr) ∧
        (∀ input ∈ fromNotes, ∃ c ∈ setup.createNotes, c.recipient = input.recipientAddr) ∧
        (options.autoSetup = false → fromNotes = []) := by
  obtain ⟨_, hregistered⟩ := executeSetViewingKey_out hregister
  -- The loop over channels opens no subchannel, and that over subchannels no channel.
  have hopened : opened.out.openTokenChannels = [] :=
    foldlM_invariant (fun s : Transform × List Felt => s.1.out.openTokenChannels = [])
      (fun _ _ s s' hs hstep => by
        obtain ⟨_, hout⟩ := executeOpenChannel_out hstep
        rw [hout, hs]) (by rw [hregistered]) hopens
  have hsubs' : subs.out.openChannels = opened.out.openChannels :=
    foldlM_invariant (fun s : Transform => s.out.openChannels = opened.out.openChannels)
      (fun _ _ s s' hs hstep => by
        obtain ⟨_, hout⟩ := executeOpenTokenChannel_out hstep
        rw [hout, hs]) rfl hsubs
  have hused' := foldlM_useNote_out hused
  obtain ⟨_, _, -, hcreated'⟩ := foldlM_createNote_out hcreated
  obtain ⟨fromTokens, hfromTokens, hrecipients⟩ := foldlM_openTokenChannel_opened hsubs
  obtain ⟨fromNotes, hfromNotes, hrecipients', hnone⟩ := foldlM_createNote_opened hcreated
  rw [hopened, List.nil_append] at hfromTokens
  refine ⟨?_, fromNotes, by rw [hfromNotes, hused'], hfromTokens ▸ hrecipients, hrecipients',
    hnone⟩
  rw [hcreated', hused', hsubs']
  exact foldlM_openChannel_eq_nil_iff hopens rfl (by rw [hregistered])

end Loops

/-- What a transformation emits. -/
theorem transformToClientActions_emitted {recipientsNeeded : List Felt}
    (h : transformToClientActions sn random options poolAddress actions pool recipientsNeeded =
      .ok state')
    (hnext : pool.nextChannelIndex = channels)
    (hcounted : ∀ recipient channel, pool.getChannel recipient = some channel →
      channel.Counted (subchannels recipient) (notes recipient))
    (hfresh : (setupActions pool recipientsNeeded options actions).setViewingKey = true →
      pool.getChannel pool.userAddress = none →
      subchannels pool.userAddress = 0 ∧ ∀ token, notes pool.userAddress token = 0) :
    Emitted options actions (setupActions pool recipientsNeeded options actions).openChannels
      channels subchannels notes state'.out := by
  have hof := transformToClientActions_of h
  simp only [transformToClientActions, bind_eq_ok] at h
  obtain ⟨registered, hregister, ⟨opened, _⟩, hopens, subs, hsubs, used, hused, created, hcreated,
    hinvoke⟩ := h
  obtain ⟨⟨htracks₂, htokens₂⟩, ⟨htracks₄, htokens₄⟩, htracks₅⟩ :=
    tracks_loops hregister hopens hsubs hused hcreated hnext hcounted hfresh
  obtain ⟨hopensNone, fromNotes, hboth, hrecipients, hrecipients', hnone⟩ :=
    opened_loops hregister hopens hsubs hused hcreated
  obtain ⟨hchannels, hsubchannels, hnotes⟩ := executeInvoke_indices hinvoke
  have hsubchannels' : state'.out.openTokenChannels = subs.out.openTokenChannels ++ fromNotes :=
    hsubchannels.trans hboth
  refine ⟨?_, ?_, ?_, ?_, noteIndices_eq_nil_iff hof⟩
  · have hfollow := htracks₅.follow
    refine ⟨?_, fun recipient => ?_, fun recipient token => ?_⟩
    · rw [ClientActions.channelIndices, hchannels]
      exact hfollow.channels
    · rw [ClientActions.subchannelIndices, hsubchannels]
      exact hfollow.subchannels recipient
    · rw [ClientActions.noteIndices, hnotes]
      exact hfollow.notes recipient token
  · rw [ClientActions.channelIndices, List.map_eq_nil_iff, hchannels]
    exact hopensNone
  · -- A subchannel was opened for an action of its own, or for a note with `autoSetup`.
    intro recipient hfound
    rw [ClientActions.subchannelIndices, hsubchannels'] at hfound
    obtain ⟨index, hindex⟩ := List.exists_mem_of_ne_nil _ hfound
    obtain ⟨input, hinput, hsame⟩ := List.mem_filterMap.mp hindex
    rw [subchannelIndex] at hsame
    split_ifs at hsame with hrecipient
    rw [← hrecipient]
    rcases List.mem_append.mp hinput with hinput | hinput
    · exact .inl (hrecipients input hinput)
    · refine .inr ⟨Bool.eq_true_of_not_eq_false fun hsetup => ?_, hrecipients' input hinput⟩
      rw [hnone hsetup] at hinput
      cases hinput
  · rintro _ hzero (⟨action, haction, rfl⟩ | ⟨hsetup, c, hc, rfl⟩)
    · have hfound := foldlM_openTokenChannel_nonempty hsubs htracks₂ htokens₂ haction hzero
      rw [ClientActions.subchannelIndices, hsubchannels', List.filterMap_append]
      exact List.append_ne_nil_of_left_ne_nil hfound _
    · rw [ClientActions.subchannelIndices, hsubchannels]
      exact foldlM_createNote_nonempty hcreated htracks₄ htokens₄ hsetup hc hzero

/-- A user that registers has no channel in the simulator. -/
theorem getChannel_of_registers {recipientsNeeded : List Felt}
    (h : transformToClientActions sn random options poolAddress actions pool recipientsNeeded =
      .ok state')
    (hset : (setupActions pool recipientsNeeded options actions).setViewingKey = true) :
    pool.getChannel pool.userAddress = none := by
  simp only [transformToClientActions, bind_eq_ok] at h
  obtain ⟨registered, hregister, -⟩ := h
  unfold executeSetViewingKey at hregister
  rw [if_pos hset] at hregister
  simp only [PoolSimulator.execute, PoolSimulator.handleSetViewingKey, bind_eq_ok, require_eq_ok,
    exists_and_left, exists_const, Option.isNone_iff_eq_none] at hregister
  obtain ⟨_, ⟨_, -, hnone, -⟩, -⟩ := hregister
  exact hnone

end Tracking

end PrivacyPool.Sdk
