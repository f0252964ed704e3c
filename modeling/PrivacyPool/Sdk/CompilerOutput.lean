import PrivacyPool.Sdk.Compiler

/-!
# The client actions of a compile

Each kind of action is emitted as it is given, in its place. Only channels and subchannels
are added.

## Main definitions

* `CreateNoteAction.Emits` — the client action of a note to create
* `ClientActions.Of` — the client actions of actions

## Main results

* `transformToClientActions_of` — what the compiler emits
-/

namespace PrivacyPool.Sdk

open Fallible HashMap

/-- The client action of a note to use. -/
def UseNoteAction.input (u : UseNoteAction) : UseNoteInput :=
  ⟨u.note.witness.channelKey, u.token, u.note.witness.index⟩

/-- The client action of a note to create. -/
inductive CreateNoteAction.Emits (c : CreateNoteAction) :
    CreateEncNoteInput ⊕ CreateOpenNoteInput → Prop
  | enc {input : CreateEncNoteInput} (recipient : input.recipientAddr = c.recipient)
      (token : input.token = c.token) (amount : c.amount = some input.amount) : Emits c (.inl input)
  | isOpen {input : CreateOpenNoteInput} (recipient : input.recipientAddr = c.recipient)
      (token : input.token = c.token) (amount : c.amount = none) : Emits c (.inr input)

/-- The client actions of actions: channels and subchannels apart, one for each. -/
structure ClientActions.Of (random : Randomness) (actions : Actions) (out : ClientActions) :
    Prop where
  deposits : out.deposits = depositInputs actions.deposits
  useNotes : out.useNotes = actions.useNotes.map UseNoteAction.input
  createNotes : List.Forall₂ CreateNoteAction.Emits actions.createNotes out.createNotes
  withdraws : out.withdraws = withdrawInputs random actions.withdraws
  invoke : out.invoke = none ∨ out.computeAndInvoke = none

/-- The notes that a list of client actions uses. -/
def usedNotes (emitted : List ClientAction) : List UseNoteInput :=
  emitted.filterMap fun
    | .useNote input => some input
    | _ => none

theorem usedNotes_values (out : ClientActions) : usedNotes out.values = out.useNotes := by
  have hnone : ∀ {α : Type} (f : α → ClientAction) (items : List α),
      (∀ a, usedNotes [f a] = []) → usedNotes (items.map f) = [] := by
    intro α f items hf
    rw [usedNotes, List.filterMap_map, List.filterMap_eq_nil_iff]
    intro a _
    have ha := hf a
    rw [usedNotes, List.filterMap_cons] at ha
    simp only [List.filterMap_nil] at ha
    split at ha
    · assumption
    · cases ha
  have happend : ∀ l l' : List ClientAction, usedNotes (l ++ l') = usedNotes l ++ usedNotes l' :=
    fun _ _ => List.filterMap_append
  have huse : usedNotes (out.useNotes.map .useNote) = out.useNotes := by
    rw [usedNotes, List.filterMap_map]
    exact List.filterMap_some
  rw [ClientActions.values]
  simp only [happend, huse]
  rw [hnone _ _ fun _ => rfl, hnone _ _ fun _ => rfl, hnone _ _ fun _ => rfl,
    hnone _ _ fun _ => rfl, hnone createNoteAction _ fun input => by cases input <;> rfl,
    hnone _ _ fun _ => rfl, hnone _ _ fun _ => rfl, hnone _ _ fun _ => rfl]
  simp

section Execute

variable {sn : Starknet} {random : Randomness} {options : ExecuteOptions} {poolAddress : Felt}
  {pool : PoolSimulator} {recipientsNeeded : List Felt} {actions : Actions}
  {state state' : Transform} {channel : Channel}

/-! ### What each loop emits -/

theorem executeSetViewingKey_out (h : executeSetViewingKey sn random actions state = .ok state') :
    ∃ setViewingKey, state'.out = { state.out with setViewingKey } := by
  unfold executeSetViewingKey at h
  split_ifs at h
  · simp only [bind_eq_ok, pure_eq_ok] at h
    obtain ⟨_, -, rfl⟩ := h
    exact ⟨_, rfl⟩
  · obtain rfl := Except.ok.inj h
    exact ⟨state.out.setViewingKey, rfl⟩

theorem executeOpenChannel_out {s s' : Transform × List Felt} {recipient : Felt}
    (h : executeOpenChannel sn random s recipient = .ok s') :
    ∃ openChannels, s'.1.out = { s.1.out with openChannels } := by
  unfold executeOpenChannel at h
  dsimp only at h
  split_ifs at h
  · obtain rfl := Except.ok.inj h
    exact ⟨s.1.out.openChannels, rfl⟩
  · simp only [bind_eq_ok, pure_eq_ok] at h
    obtain ⟨_, -, _, -, rfl⟩ := h
    exact ⟨_, rfl⟩

theorem transformOpenSubchannel_out {force : Bool} {recipient token : Felt}
    (h : transformOpenSubchannel sn random options force state recipient token =
      .ok (state', channel)) :
    ∃ openTokenChannels, state'.out = { state.out with openTokenChannels } := by
  simp only [transformOpenSubchannel, bind_eq_ok] at h
  obtain ⟨_, -, h⟩ := h
  split_ifs at h
  · obtain ⟨rfl, -⟩ := Prod.mk.inj (Except.ok.inj h)
    exact ⟨state.out.openTokenChannels, rfl⟩
  · obtain ⟨rfl, -⟩ := Prod.mk.inj (Except.ok.inj h)
    exact ⟨state.out.openTokenChannels, rfl⟩
  · simp only [bind_eq_ok] at h
    obtain ⟨_, -, _, -, h⟩ := h
    obtain ⟨rfl, -⟩ := Prod.mk.inj (Except.ok.inj h)
    exact ⟨_, rfl⟩

theorem executeOpenTokenChannel_out {action : OpenTokenChannelAction}
    (h : executeOpenTokenChannel sn random options state action = .ok state') :
    ∃ openTokenChannels, state'.out = { state.out with openTokenChannels } := by
  simp only [executeOpenTokenChannel, bind_eq_ok, pure_eq_ok] at h
  obtain ⟨⟨_, _⟩, hopen, rfl⟩ := h
  exact transformOpenSubchannel_out hopen

theorem executeUseNote_out {action : UseNoteAction} (h : executeUseNote sn state action = .ok state') :
    state'.out = { state.out with useNotes := state.out.useNotes ++ [action.input] } := by
  simp only [executeUseNote, bind_eq_ok, pure_eq_ok] at h
  obtain ⟨_, -, _, -, rfl⟩ := h
  rfl

theorem createNoteInput_emits (random : Randomness) (channel : Channel) (position : ℕ)
    (action : CreateNoteAction) : action.Emits (createNoteInput random channel position action) := by
  unfold createNoteInput
  cases hamount : action.amount with
  | none => exact .isOpen rfl rfl hamount
  | some amount => exact .enc rfl rfl hamount

theorem executeCreateNote_out {action : CreateNoteAction}
    (h : executeCreateNote sn random options state action = .ok state') :
    ∃ openTokenChannels input, action.Emits input ∧ state'.out = { state.out with
      openTokenChannels, createNotes := state.out.createNotes ++ [input] } := by
  simp only [executeCreateNote, bind_eq_ok, pure_eq_ok] at h
  obtain ⟨⟨opened, channel⟩, hopen, _, -, rfl⟩ := h
  obtain ⟨openTokenChannels, hout⟩ := transformOpenSubchannel_out hopen
  refine ⟨openTokenChannels, _,
    createNoteInput_emits random channel opened.out.createNotes.length action, ?_⟩
  dsimp only
  rw [hout]

theorem executeInvoke_out (h : executeInvoke sn poolAddress actions state = .ok state')
    (hinvoke : state.out.invoke = none) (hcompute : state.out.computeAndInvoke = none) :
    ∃ invoke computeAndInvoke, state'.out = { state.out with invoke, computeAndInvoke } ∧
      (invoke = none ∨ computeAndInvoke = none) := by
  simp only [executeInvoke, bind_eq_ok, require_eq_ok, exists_and_left, exists_const] at h
  obtain ⟨-, h⟩ := h
  split at h
  · simp only [bind_eq_ok, pure_eq_ok] at h
    obtain ⟨_, -, rfl⟩ := h
    exact ⟨_, state.out.computeAndInvoke, rfl, .inr hcompute⟩
  · simp only [bind_eq_ok, pure_eq_ok] at h
    obtain ⟨_, -, rfl⟩ := h
    exact ⟨state.out.invoke, _, rfl, .inl hinvoke⟩
  · obtain rfl := Except.ok.inj h
    exact ⟨state.out.invoke, state.out.computeAndInvoke, rfl, .inl hinvoke⟩

/-! ### The loops -/

theorem foldlM_useNote_out {useNotes : List UseNoteAction}
    (h : useNotes.foldlM (executeUseNote sn) state = .ok state') :
    state'.out = { state.out with
      useNotes := state.out.useNotes ++ useNotes.map UseNoteAction.input } := by
  induction useNotes generalizing state with
  | nil =>
    obtain rfl := foldlM_nil_eq_ok.mp h
    rw [List.map_nil, List.append_nil]
  | cons action useNotes ih =>
    obtain ⟨middle, hfirst, hrest⟩ := foldlM_cons_eq_ok.mp h
    rw [ih hrest, executeUseNote_out hfirst]
    simp only [List.append_assoc, List.singleton_append, List.map_cons]

theorem foldlM_createNote_out {createNotes : List CreateNoteAction}
    (h : createNotes.foldlM (executeCreateNote sn random options) state = .ok state') :
    ∃ openTokenChannels inputs, List.Forall₂ CreateNoteAction.Emits createNotes inputs ∧
      state'.out = { state.out with
        openTokenChannels, createNotes := state.out.createNotes ++ inputs } := by
  induction createNotes generalizing state with
  | nil =>
    obtain rfl := foldlM_nil_eq_ok.mp h
    refine ⟨state.out.openTokenChannels, [], .nil, ?_⟩
    rw [List.append_nil]
  | cons action createNotes ih =>
    obtain ⟨middle, hfirst, hrest⟩ := foldlM_cons_eq_ok.mp h
    obtain ⟨_, input, hemits, hout⟩ := executeCreateNote_out hfirst
    obtain ⟨openTokenChannels, inputs, hall, hout'⟩ := ih hrest
    refine ⟨openTokenChannels, input :: inputs, .cons hemits hall, ?_⟩
    rw [hout', hout]
    simp only [List.append_assoc, List.singleton_append]

/-- What the compiler emits. -/
theorem transformToClientActions_of
    (h : transformToClientActions sn random options poolAddress actions pool recipientsNeeded =
      .ok state') : state'.out.Of random actions := by
  simp only [transformToClientActions, bind_eq_ok] at h
  obtain ⟨registered, hregister, ⟨opened, _⟩, hopens, subs, hsubs, used, hused, created, hcreated,
    hinvoke⟩ := h
  -- Before the deposits only the registration, channels and subchannels are emitted.
  obtain ⟨setViewingKey, hregistered⟩ := executeSetViewingKey_out hregister
  obtain ⟨openChannels', hopened⟩ : ∃ openChannels, opened.out =
      { setViewingKey, openChannels } := by
    refine foldlM_invariant (fun s : Transform × List Felt =>
      ∃ openChannels, s.1.out = { setViewingKey, openChannels }) ?_ ⟨[], hregistered⟩ hopens
    rintro recipient - s s' ⟨_, hs⟩ hstep
    obtain ⟨openChannels, hout⟩ := executeOpenChannel_out hstep
    exact ⟨openChannels, by rw [hout, hs]⟩
  obtain ⟨_, hsubs'⟩ : ∃ openTokenChannels, subs.out =
      { setViewingKey, openChannels := openChannels', openTokenChannels } := by
    refine foldlM_invariant (fun s : Transform => ∃ openTokenChannels, s.out =
      { setViewingKey, openChannels := openChannels', openTokenChannels }) ?_ ⟨[], hopened⟩ hsubs
    rintro action - s s' ⟨_, hs⟩ hstep
    obtain ⟨openTokenChannels, hout⟩ := executeOpenTokenChannel_out hstep
    exact ⟨openTokenChannels, by rw [hout, hs]⟩
  have hused' := foldlM_useNote_out hused
  obtain ⟨_, inputs, hemits, hcreated'⟩ := foldlM_createNote_out hcreated
  obtain ⟨invoke, computeAndInvoke, hout, hone⟩ := executeInvoke_out hinvoke
    (by rw [hcreated', hused', hsubs']) (by rw [hcreated', hused', hsubs'])
  rw [hout]
  refine ⟨?_, ?_, ?_, rfl, hone⟩
  · rw [hcreated', hused']
    rfl
  · rw [hcreated', hused', hsubs']
    rfl
  · rw [hcreated', hused', hsubs']
    exact hemits

end Execute

/-! ### Attempts -/

section Compile

variable {sn : Starknet} {random : Randomness} {userAddress userViewingKey poolAddress : Felt}
  {provider provider' : DiscoveryProvider} {timing : Timing} {actions : Actions}
  {options : ExecuteOptions} {attempt : Attempt} {result : CompileResult}

theorem promiseAll_eq_ok {ε α β : Type} {secondFirst : Bool} {x : Except ε α} {y : Except ε β}
    {a : α} {b : β} : promiseAll secondFirst x y = .ok (a, b) ↔ x = .ok a ∧ y = .ok b := by
  rcases x with _ | _ <;> rcases y with _ | _ <;> simp [promiseAll]

/-- The parts of an attempt that succeeds. -/
theorem compileOnce_eq_ok
    (h : compileOnce sn random userAddress userViewingKey poolAddress attempt = .ok result) :
    ∃ resolved registry pool state,
      resolveRecipientChannels attempt.provider attempt.actions attempt.options
        attempt.options.startRegistry (getRecipientsNeeded userAddress attempt.actions) =
        .ok resolved ∧
      resolveNotes userAddress attempt.provider attempt.abandoned attempt.actions attempt.options
        attempt.options.startRegistry = .ok (result.actions, registry) ∧
      createPool userAddress userViewingKey registry resolved = .ok pool ∧
      transformToClientActions sn random attempt.options poolAddress result.actions pool
        (getRecipientsNeeded userAddress attempt.actions) = .ok state ∧
      result.clientActions = state.out.values ∧
      result.registry = state.pool.updateRegistry registry := by
  simp only [compileOnce, bind_eq_ok, pure_eq_ok] at h
  obtain ⟨⟨resolved, actions', registry⟩, hboth, pool, hpool, state, hstate, rfl⟩ := h
  obtain ⟨hresolved, hnotes⟩ := promiseAll_eq_ok.mp hboth
  exact ⟨resolved, registry, pool, state, hresolved, hnotes, hpool, hstate, rfl, rfl⟩

/-- The attempt of which a compile returns the result. -/
def lastAttempt (sn : Starknet) (random : Randomness)
    (userAddress userViewingKey poolAddress : Felt) (provider provider' : DiscoveryProvider)
    (timing : Timing) (actions : Actions) (options : ExecuteOptions) : Attempt :=
  let attempt := firstAttempt provider timing actions options
  match compileOnce sn random userAddress userViewingKey poolAddress attempt with
  | .error .reorg => attempt.again userAddress provider' timing
  | _ => attempt

theorem compile_eq : compile sn random userAddress userViewingKey poolAddress provider provider'
      timing actions options =
    compileOnce sn random userAddress userViewingKey poolAddress
      (lastAttempt sn random userAddress userViewingKey poolAddress provider provider' timing
        actions options) := by
  unfold compile lastAttempt
  dsimp only
  generalize hfirst : compileOnce sn random userAddress userViewingKey poolAddress
    (firstAttempt provider timing actions options) = first
  cases first with
  | ok result => exact hfirst.symm
  | error e => cases e <;> first | rfl | exact hfirst.symm

/-- What holds of the first attempt, and of the one after a reorganisation, holds of the last
one. -/
theorem lastAttempt_induction {motive : Attempt → Prop}
    (hfirst : motive (firstAttempt provider timing actions options))
    (hagain : compileOnce sn random userAddress userViewingKey poolAddress
        (firstAttempt provider timing actions options) = .error .reorg →
      motive ((firstAttempt provider timing actions options).again userAddress provider' timing)) :
    motive (lastAttempt sn random userAddress userViewingKey poolAddress provider provider' timing
      actions options) := by
  unfold lastAttempt
  dsimp only
  split
  · rename_i hreorg
    exact hagain hreorg
  · exact hfirst

end Compile

/-! ### The registry of an attempt -/

theorem startRegistry_channels (options : ExecuteOptions) :
    options.startRegistry.channels = (options.registry.getD {}).channels := by
  unfold ExecuteOptions.startRegistry
  dsimp only
  split_ifs <;> rfl

theorem startRegistry_notes (options : ExecuteOptions) :
    options.startRegistry.notes = (options.registry.getD {}).notes := by
  unfold ExecuteOptions.startRegistry
  dsimp only
  split_ifs <;> rfl

/-- After a reorganisation the registry starts empty. -/
theorem registry_afterReorg {options : ExecuteOptions} {registry : PrivateRegistry}
    (h : options.afterReorg.registry = some registry) : registry = {} := by
  cases hold : options.registry with
  | none => simp [ExecuteOptions.afterReorg, hold] at h
  | some old => simpa [ExecuteOptions.afterReorg, hold, eq_comm] using h

/-! ### A small setting

User 5 has a channel to itself, with a subchannel of token 77. -/

namespace Sample

/-- Randomness that is always 9. -/
def random : Randomness :=
  ⟨9, fun _ => (9, 9), fun _ => 9, fun _ => 9, fun _ => 9, fun _ => 9⟩

/-- A provider that finds nothing. -/
def blindProvider : DiscoveryProvider :=
  ⟨fun _ _ => .ok ([], []), fun _ => .ok {}⟩

/-- The notes are rejected before the channels, and nothing goes on. -/
def inTurn : Timing := ⟨true, true, .before⟩

/-- User 5's channel to itself, with a subchannel of token 77. -/
def ownRegistry : PrivateRegistry := { channels := [(5, ⟨3, some 1, [(77, ⟨0, 0⟩)]⟩)] }

/-- Notes are selected as they are needed. -/
def selecting : ExecuteOptions := { autoSelectNotes := some .naive, registry := some ownRegistry }

end Sample

end PrivacyPool.Sdk
