import PrivacyPool.Sdk.CompilerOutput
import PrivacyPool.Sdk.NoteSelection
import Mathlib.Algebra.Order.BigOperators.Group.List

/-!
# The selections of a compile

A compile can resolve notes twice: in its own attempt, and in an abandoned one that shares
the actions. Either resolution selects notes, and adds them to the actions with the outputs of
what is left over.

## Main definitions

* `Selection` — what a resolution of notes selects from, and how far it gets
* `Resolved` — what some selections add to the actions
* `Attempt.own`, `Attempt.beside` — the selections of an attempt
* `compileSelections` — all selections of a compile

## Main results

* `resolveNotes_resolved`, `compile_resolved` — what an attempt and a compile add to the actions
-/

namespace PrivacyPool.Sdk

open Fallible HashMap

/-- What a resolution of notes goes by: the ids that it passes over, the registry with the
notes, the balances that it comes to, and those of them that it resolves. -/
structure Selection where
  usedNoteIds : List (List Char)
  registry : PrivateRegistry
  reached : List (Felt × ℤ)
  resolved : List (Felt × ℤ)

namespace Selection

/-- The notes that are selected. -/
def notes (options : ExecuteOptions) (selection : Selection) : List UseNoteAction :=
  selectedNotes options selection.usedNoteIds selection.registry selection.reached

/-- What a selection adds to the balance of a token: its notes, less what is put out of what is
left over. -/
def flow (options : ExecuteOptions) (selection : Selection) (t : Felt) : ℤ :=
  ((selection.notes options).map fun u => amountIn u.token u.note.amount t).sum -
    (selection.resolved.map fun entry => amountIn entry.1
      (selectedFor options selection.usedNoteIds selection.registry entry.1 entry.2).2 t).sum

end Selection

/-- The selection of a resolution that gets its answer. -/
def PendingNotes.selection (pending : PendingNotes) (userAddress : Felt)
    (provider : DiscoveryProvider) (options : ExecuteOptions) (state : Actions × PrivateRegistry) :
    Option Selection :=
  match pending.discover provider state.2 with
  | .error _ => none
  | .ok discovered => some {
      usedNoteIds := pending.usedNoteIds
      registry := discovered
      reached := reachedBalances userAddress options pending.usedNoteIds discovered state.1
        pending.balances
      resolved := resolvedBalances userAddress options pending.usedNoteIds discovered state.1
        pending.balances }

/-- What an abandoned resolution selects, once it goes on. -/
def AbandonedNotes.selection (abandoned : AbandonedNotes) (userAddress : Felt)
    (options : ExecuteOptions) (state : Actions × PrivateRegistry) : Option Selection :=
  abandoned.pending.selection userAddress abandoned.provider options
    (state.1, abandoned.ownRegistry.getD state.2)

/-! ### Attempts -/

namespace Attempt

/-- The actions and the registry that an attempt starts with. -/
def start (attempt : Attempt) : Actions × PrivateRegistry :=
  (attempt.actions, attempt.options.startRegistry)

/-- Whether an abandoned resolution goes on while the attempt waits for its notes. -/
def early (attempt : Attempt) : Bool :=
  attempt.pending.any (·.query.isSome) && attempt.abandoned.any (·.early)

/-- What goes on beside the attempt, from a state. -/
def goOn (attempt : Attempt) (userAddress : Felt) (state : Actions × PrivateRegistry) :
    Actions × PrivateRegistry :=
  goOnBeside attempt.abandoned userAddress attempt.options state

/-- The state in which the attempt resolves its notes. -/
def finishState (attempt : Attempt) (userAddress : Felt) : Actions × PrivateRegistry :=
  if attempt.early then attempt.goOn userAddress attempt.start else attempt.start

/-- The state that the attempt's own resolution leaves. -/
def leftState (attempt : Attempt) (userAddress : Felt) : Actions × PrivateRegistry :=
  attempt.pending.elim (attempt.finishState userAddress) fun pending =>
    pending.leave userAddress attempt.provider attempt.options (attempt.finishState userAddress)

/-- The selection of the attempt itself. -/
def own (attempt : Attempt) (userAddress : Felt) : Option Selection :=
  attempt.pending.bind fun pending => pending.selection userAddress attempt.provider
    attempt.options (attempt.finishState userAddress)

/-- The selection of an abandoned resolution that goes on beside the attempt. -/
def beside (attempt : Attempt) (userAddress : Felt) : Option Selection :=
  attempt.abandoned.bind fun abandoned => abandoned.selection userAddress attempt.options
    (if attempt.early then attempt.start else attempt.leftState userAddress)

/-- The selections that an attempt goes through. -/
def selections (attempt : Attempt) (userAddress : Felt) : List Selection :=
  (attempt.own userAddress).toList ++ (attempt.beside userAddress).toList

end Attempt

/-! ### What selections add -/

/-- A note that is to be created: one of the actions, or the surplus of a balance that a
selection resolves. -/
def NoteCreated (userAddress : Felt) (options : ExecuteOptions) (selections : List Selection)
    (actions : Actions) (c : CreateNoteAction) : Prop :=
  c ∈ actions.createNotes ∨ ∃ selection ∈ selections, ∃ entry ∈ selection.resolved,
    SurplusNote userAddress actions entry.1
      (selectedFor options selection.usedNoteIds selection.registry entry.1 entry.2).2 c

/-- What some selections add: their notes, in some order, and outputs with positive amounts. -/
structure Resolved (userAddress : Felt) (options : ExecuteOptions) (selections : List Selection)
    (actions actions' : Actions) : Prop where
  useNotes : actions'.useNotes.Perm
    (actions.useNotes ++ selections.flatMap (Selection.notes options))
  balance : ∀ t, actions'.balance t =
    actions.balance t + (selections.map fun selection => selection.flow options t).sum
  positive : actions.Positive → actions'.Positive
  outputs : ∀ t, outputsIn actions.withdraws actions.createNotes t ≤
    outputsIn actions'.withdraws actions'.createNotes t
  createNotes : ∀ c, c ∈ actions'.createNotes ↔
    NoteCreated userAddress options selections actions c
  surpluses : actions.surpluses ≠ none → actions'.surpluses ≠ none
  surplusOf : ∀ t, actions'.surplusOf userAddress t = actions.surplusOf userAddress t
  fields : ∃ useNotes withdraws createNotes surpluses,
    actions' = { actions with useNotes, withdraws, createNotes, surpluses }

section Resolved

variable {userAddress : Felt} {options : ExecuteOptions} {selections selections' : List Selection}
  {actions actions' actions'' : Actions} {state state' : Actions × PrivateRegistry}

theorem Resolved.refl (actions : Actions) : Resolved userAddress options [] actions actions where
  useNotes := by rw [List.flatMap_nil, List.append_nil]
  balance t := (add_zero _).symm
  positive := id
  outputs t := le_refl _
  createNotes c := (or_iff_left fun ⟨_, hselection, _⟩ => List.not_mem_nil hselection).symm
  surpluses := id
  surplusOf t := rfl
  fields := ⟨actions.useNotes, actions.withdraws, actions.createNotes, actions.surpluses, rfl⟩

theorem Resolved.trans (h : Resolved userAddress options selections actions actions')
    (h' : Resolved userAddress options selections' actions' actions'') :
    Resolved userAddress options (selections ++ selections') actions actions'' where
  useNotes := by
    rw [List.flatMap_append, ← List.append_assoc]
    exact h'.useNotes.trans (h.useNotes.append_right _)
  balance t := by rw [h'.balance, h.balance, List.map_append, List.sum_append, add_assoc]
  positive hpositive := h'.positive (h.positive hpositive)
  outputs t := (h.outputs t).trans (h'.outputs t)
  createNotes c := by
    unfold NoteCreated
    simp only [h'.createNotes, NoteCreated, h.createNotes, SurplusNote, h.surplusOf,
      List.mem_append, or_and_right, exists_or, or_assoc]
  surpluses hgiven := h'.surpluses (h.surpluses hgiven)
  surplusOf t := (h'.surplusOf t).trans (h.surplusOf t)
  fields := by
    obtain ⟨_, _, _, _, hfields⟩ := h.fields
    obtain ⟨useNotes, withdraws, createNotes, surpluses, hfields'⟩ := h'.fields
    exact ⟨useNotes, withdraws, createNotes, surpluses, by rw [hfields', hfields]⟩

theorem Resolved.perm (h : Resolved userAddress options selections actions actions')
    (hperm : selections.Perm selections') : Resolved userAddress options selections' actions actions' :=
  { h with
    useNotes := h.useNotes.trans ((hperm.flatMap_right _).append_left _)
    balance := fun t => by rw [h.balance, (hperm.map _).sum_eq]
    createNotes := fun c => by
      rw [h.createNotes, NoteCreated, NoteCreated]
      simp only [hperm.mem_iff] }

/-- The registry of the options does not matter. -/
theorem Resolved.of_registry {registry : Option PrivateRegistry}
    (h : Resolved userAddress { options with registry } selections actions actions') :
    Resolved userAddress options selections actions actions' :=
  ⟨h.useNotes, h.balance, h.positive, h.outputs, h.createNotes, h.surpluses, h.surplusOf, h.fields⟩

theorem outputsIn_nonneg {withdraws : List WithdrawAction} {createNotes : List CreateNoteAction}
    (hwithdraws : ∀ w ∈ withdraws, 0 < w.amount)
    (hcreateNotes : ∀ c ∈ createNotes, ∀ amount, c.amount = some amount → 0 < amount) (t : Felt) :
    0 ≤ outputsIn withdraws createNotes t := by
  refine add_nonneg (List.sum_nonneg fun x hx => ?_) (List.sum_nonneg fun x hx => ?_)
  · obtain ⟨w, hw, rfl⟩ := List.mem_map.mp hx
    exact amountIn_nonneg (hwithdraws w hw).le
  · obtain ⟨c, hc, rfl⟩ := List.mem_map.mp hx
    refine amountIn_nonneg ?_
    unfold CreateNoteAction.counted
    cases hamount : c.amount with
    | none => exact le_refl 0
    | some amount => exact (hcreateNotes c hc amount hamount).le

/-- A resolution adds what its selection has, whether it fails or not. -/
theorem leave_resolved (userAddress : Felt) (options : ExecuteOptions) (pending : PendingNotes) (provider : DiscoveryProvider)
    (state : Actions × PrivateRegistry) :
    Resolved userAddress options (pending.selection userAddress provider options state).toList state.1
      (pending.leave userAddress provider options state).1 := by
  unfold PendingNotes.selection PendingNotes.leave
  cases hdiscover : pending.discover provider state.2 with
  -- Without an answer the resolution leaves the actions as they are.
  | error e => exact .refl state.1
  | ok discovered =>
    have hleft := leaveBalances_left userAddress options pending.usedNoteIds pending.balances
      state.1 discovered
    obtain ⟨surpluses, withdraws, createNotes, hactions, hleft'⟩ := hleft.actions
    have houtputs := outputsIn_nonneg hleft'.withdraws_pos hleft'.createNotes_pos
    refine ⟨?_, fun t => ?_, fun hpositive => ?_, fun t => ?_, fun c => ?_, hleft.surpluses,
      hleft.surplusOf, ⟨_, _, _, _, hactions⟩⟩
    · rw [hactions]
      simp [Selection.notes]
    · have hamounts := hleft'.amounts t
      rw [hactions]
      simp only [Actions.balance, outputsIn, List.map_append, List.sum_append, Option.toList_some,
        List.map_singleton, List.sum_singleton, Selection.flow, Selection.notes] at hamounts ⊢
      omega
    · rw [hactions]
      exact ⟨hpositive.deposits,
        fun w hw => (List.mem_append.mp hw).elim (hpositive.withdraws w) (hleft'.withdraws_pos w),
        fun c hc => (List.mem_append.mp hc).elim (hpositive.createNotes c)
          (hleft'.createNotes_pos c)⟩
    · rw [hactions, outputsIn_append]
      have := houtputs t
      omega
    · rw [hleft.createNotes]
      simp [NoteCreated]

/-- Resolving notes leaves the channels of the registry. -/
theorem leave_channels (pending : PendingNotes) (provider : DiscoveryProvider)
    (state : Actions × PrivateRegistry) :
    (pending.leave userAddress provider options state).2.channels = state.2.channels := by
  unfold PendingNotes.leave
  cases hdiscover : pending.discover provider state.2 with
  | error e => rfl
  | ok discovered =>
    exact (leaveBalances_left _ _ _ _ _ _).reads.channels.trans (discover_channels hdiscover)

theorem goOnBeside_resolved (abandoned : Option AbandonedNotes)
    (state : Actions × PrivateRegistry) :
    Resolved userAddress options (abandoned.bind fun a => a.selection userAddress options state).toList state.1
      (goOnBeside abandoned userAddress options state).1 := by
  cases abandoned with
  | none => exact .refl state.1
  | some abandoned =>
    exact leave_resolved userAddress options abandoned.pending abandoned.provider
      (state.1, abandoned.ownRegistry.getD state.2)

theorem goOnBeside_channels (userAddress : Felt) (options : ExecuteOptions)
    (abandoned : Option AbandonedNotes) (state : Actions × PrivateRegistry) :
    (goOnBeside abandoned userAddress options state).2.channels = state.2.channels := by
  cases abandoned with
  | none => rfl
  | some abandoned =>
    change (if abandoned.ownRegistry.isSome then _ else _ : PrivateRegistry).channels = _
    cases hown : abandoned.ownRegistry with
    | some registry => rfl
    | none => exact leave_channels abandoned.pending abandoned.provider _

/-- A resolution that succeeds leaves what it returns, has come to all balances and has
resolved them. -/
theorem finish_eq_leave {pending : PendingNotes} {provider : DiscoveryProvider}
    (h : pending.finish userAddress provider options state = .ok state') :
    pending.leave userAddress provider options state = state' ∧
      ∃ selection, pending.selection userAddress provider options state = some selection ∧
        selection.reached = pending.balances ∧ selection.resolved = pending.balances := by
  obtain ⟨discovered, hdiscover, hloop⟩ := finish_eq_ok h
  obtain ⟨hall, hleave⟩ := foldlM_resolveBalance hloop
  obtain ⟨hresolved, hreached⟩ := resolvedBalances_of_forall hall
  unfold PendingNotes.leave PendingNotes.selection
  rw [hdiscover]
  exact ⟨hleave, _, rfl, hreached, hresolved⟩

/-- What is added to a balance that is resolved cancels it. -/
theorem flow_of_resolved {selection : Selection} {balances : List (Felt × ℤ)}
    (hreached : selection.reached = balances) (hresolved : selection.resolved = balances)
    (hnodup : (keys balances).Nodup) (t : Felt) :
    selection.flow options t = -balanceOf balances t := by
  have hsum := sum_selectedNotes options selection.usedNoteIds selection.registry balances t
  rw [sum_balances hnodup t] at hsum
  rw [Selection.flow, Selection.notes, hreached, hresolved]
  omega

end Resolved

section Attempt

variable {userAddress : Felt} {attempt : Attempt} {actions' : Actions}
  {registry' : PrivateRegistry}

theorem pending_eq {pending : Option PendingNotes}
    (h : startNotes attempt.actions attempt.options attempt.options.startRegistry = .ok pending) :
    attempt.pending = pending := by
  rw [Attempt.pending, h]
  rfl

theorem startNotes_of_pending {pending : PendingNotes} (h : attempt.pending = some pending) :
    startNotes attempt.actions attempt.options attempt.options.startRegistry = .ok (some pending) := by
  unfold Attempt.pending at h
  cases hstart : startNotes attempt.actions attempt.options attempt.options.startRegistry with
  | error e =>
    rw [hstart] at h
    cases h
  | ok started =>
    rw [hstart] at h
    exact congrArg Except.ok h

/-- The own selection of an attempt, from its state. -/
theorem own_eq {pending : PendingNotes} (h : attempt.pending = some pending) :
    attempt.own userAddress = pending.selection userAddress attempt.provider attempt.options
      (attempt.finishState userAddress) := by
  rw [Attempt.own, h]
  rfl

theorem leftState_eq {pending : PendingNotes} (h : attempt.pending = some pending) :
    attempt.leftState userAddress = pending.leave userAddress attempt.provider attempt.options
      (attempt.finishState userAddress) := by
  rw [Attempt.leftState, h]
  rfl

/-- When an attempt's own resolution succeeds, its selection resolves the balances of its
actions. -/
structure ResolvesOwn (userAddress : Felt) (attempt : Attempt) (pending : PendingNotes) : Prop where
  positive : attempt.actions.Positive
  selection : ∃ selection, attempt.own userAddress = some selection ∧
    selection.usedNoteIds = attempt.actions.useNotes.map (fun u => u.note.id.toText) ∧
    selection.reached = pending.balances ∧
    ∀ t, selection.flow attempt.options t = -attempt.actions.balance t

theorem resolvesOwn_of_finish {pending : PendingNotes} {state' : Actions × PrivateRegistry}
    (hstart : startNotes attempt.actions attempt.options attempt.options.startRegistry =
      .ok (some pending))
    (hfinish : pending.finish userAddress attempt.provider attempt.options
      (attempt.finishState userAddress) = .ok state') :
    ResolvesOwn userAddress attempt pending := by
  obtain ⟨hbalances, hused, -⟩ := startNotes_eq_some hstart
  obtain ⟨hpositive, hnodup, hbalance⟩ := actionBalances_eq_ok hbalances
  obtain ⟨-, selection, hselection, hreached, hresolved⟩ := finish_eq_leave hfinish
  refine ⟨hpositive, selection, (own_eq (pending_eq hstart)).trans hselection, ?_, hreached,
    fun t => ?_⟩
  · unfold PendingNotes.selection at hselection
    split at hselection
    · cases hselection
    · obtain rfl := Option.some.inj hselection
      exact hused
  · rw [flow_of_resolved hreached hresolved hnodup, hbalance]

/-- What an attempt does to its actions when its notes are resolved. -/
theorem resolveNotes_resolved
    (h : resolveNotes userAddress attempt.provider attempt.abandoned attempt.actions
      attempt.options attempt.options.startRegistry = .ok (actions', registry')) :
    Resolved userAddress attempt.options (attempt.selections userAddress) attempt.actions actions' ∧
    ∀ pending, attempt.pending = some pending → ResolvesOwn userAddress attempt pending := by
  unfold resolveNotes at h
  obtain ⟨pending, hstart, h⟩ := bind_eq_ok.mp h
  have hpending := pending_eq hstart
  have hbeside : ∀ state, Resolved userAddress attempt.options
      (attempt.abandoned.bind fun a => a.selection userAddress attempt.options state).toList state.1
      (attempt.goOn userAddress state).1 := goOnBeside_resolved attempt.abandoned
  cases pending with
  | none =>
    have hstate : attempt.goOn userAddress attempt.start = (actions', registry') :=
      Except.ok.inj h
    have hearly : attempt.early = false := by
      rw [Attempt.early, hpending]
      rfl
    refine ⟨?_, fun pending hsome => by rw [hpending] at hsome; cases hsome⟩
    have hone := hbeside attempt.start
    rw [hstate] at hone
    unfold Attempt.selections Attempt.own Attempt.beside Attempt.leftState Attempt.finishState
    rw [hpending, hearly]
    exact hone
  | some pending =>
    have hadds := leave_resolved userAddress attempt.options pending attempt.provider
      (attempt.finishState userAddress)
    rw [← own_eq hpending, ← leftState_eq hpending] at hadds
    have hearly : attempt.early =
        decide (pending.query.isSome ∧ attempt.abandoned.any (·.early)) := by
      rw [Attempt.early, hpending]
      simp
    unfold Attempt.selections Attempt.beside
    dsimp only at h
    split_ifs at h with hcondition
    · -- The abandoned resolution goes on first.
      rw [decide_eq_true hcondition] at hearly
      have hstate : attempt.finishState userAddress = attempt.goOn userAddress attempt.start := by
        rw [Attempt.finishState, hearly, if_pos rfl]
      have hfinish : pending.finish userAddress attempt.provider attempt.options
          (attempt.finishState userAddress) = .ok (actions', registry') := hstate ▸ h
      refine ⟨?_, fun pending' hsome => ?_⟩
      · have hfirst := hbeside attempt.start
        rw [← hstate] at hfirst
        have hall := hfirst.trans hadds
        rw [leftState_eq hpending, (finish_eq_leave hfinish).1] at hall
        rw [hearly, if_pos rfl]
        exact hall.perm List.perm_append_comm
      · obtain rfl := Option.some.inj (hpending.symm.trans hsome)
        exact resolvesOwn_of_finish hstart hfinish
    · -- The attempt's own resolution is the first.
      obtain ⟨state, hown, h⟩ := bind_eq_ok.mp h
      rw [decide_eq_false hcondition] at hearly
      have hstate : attempt.finishState userAddress = attempt.start := by
        rw [Attempt.finishState, hearly]
        rfl
      have hfinish : pending.finish userAddress attempt.provider attempt.options
          (attempt.finishState userAddress) = .ok state := hstate ▸ hown
      refine ⟨?_, fun pending' hsome => ?_⟩
      · have hall := hadds.trans (hbeside (attempt.leftState userAddress))
        have hleft : attempt.goOn userAddress (attempt.leftState userAddress) =
            (actions', registry') := by
          rw [leftState_eq hpending, (finish_eq_leave hfinish).1]
          exact Except.ok.inj h
        rw [hstate, hleft] at hall
        rw [hearly]
        exact hall
      · obtain rfl := Option.some.inj (hpending.symm.trans hsome)
        exact resolvesOwn_of_finish hstart hfinish

/-- Resolving notes leaves the channels of the registry. -/
theorem resolveNotes_channels
    (h : resolveNotes userAddress attempt.provider attempt.abandoned attempt.actions
      attempt.options attempt.options.startRegistry = .ok (actions', registry')) :
    registry'.channels = attempt.options.startRegistry.channels := by
  unfold resolveNotes at h
  obtain ⟨pending, hstart, h⟩ := bind_eq_ok.mp h
  cases pending with
  | none =>
    have hchannels := goOnBeside_channels userAddress attempt.options attempt.abandoned
      attempt.start
    rwa [show goOnBeside attempt.abandoned userAddress attempt.options attempt.start =
      (actions', registry') from Except.ok.inj h] at hchannels
  | some pending =>
    have hfinish : ∀ {state state' : Actions × PrivateRegistry},
        pending.finish userAddress attempt.provider attempt.options state = .ok state' →
        state'.2.channels = state.2.channels := by
      intro state state' hok
      rw [← (finish_eq_leave hok).1]
      exact leave_channels pending attempt.provider state
    dsimp only at h
    split_ifs at h
    · exact (hfinish h).trans (goOnBeside_channels _ _ _ _)
    · obtain ⟨state, hown, h⟩ := bind_eq_ok.mp h
      have hchannels := goOnBeside_channels userAddress attempt.options attempt.abandoned state
      rw [show goOnBeside attempt.abandoned userAddress attempt.options state =
        (actions', registry') from Except.ok.inj h] at hchannels
      exact hchannels.trans (hfinish hown)

end Attempt

/-! ### Compiles -/

section Compile

variable {sn : Starknet} {random : Randomness} {userAddress userViewingKey poolAddress : Felt}
  {provider provider' : DiscoveryProvider} {timing : Timing} {actions : Actions}
  {options : ExecuteOptions} {result : CompileResult}

/-- The selection of the first attempt, when a reorganisation ends it after its notes are
resolved. -/
def priorSelections (sn : Starknet) (random : Randomness)
    (userAddress userViewingKey poolAddress : Felt) (provider : DiscoveryProvider)
    (timing : Timing) (actions : Actions) (options : ExecuteOptions) : List Selection :=
  let attempt := firstAttempt provider timing actions options
  match compileOnce sn random userAddress userViewingKey poolAddress attempt with
  | .error .reorg =>
    if attempt.settles timing.goesOn then
      ((attempt.abandon false).bind fun a =>
        a.selection userAddress options attempt.start).toList
    else []
  | _ => []

/-- The selections that a compile goes through, in the attempt that it returns and beside it
and before it. -/
def compileSelections (sn : Starknet) (random : Randomness)
    (userAddress userViewingKey poolAddress : Felt) (provider provider' : DiscoveryProvider)
    (timing : Timing) (actions : Actions) (options : ExecuteOptions) : List Selection :=
  priorSelections sn random userAddress userViewingKey poolAddress provider timing actions options ++
    (lastAttempt sn random userAddress userViewingKey poolAddress provider provider' timing actions
      options).selections userAddress

/-- The actions of the last attempt have what the first one has added. -/
theorem lastAttempt_resolved : Resolved userAddress options
    (priorSelections sn random userAddress userViewingKey poolAddress provider timing actions
      options) actions
    (lastAttempt sn random userAddress userViewingKey poolAddress provider provider' timing actions
      options).actions := by
  unfold priorSelections lastAttempt
  dsimp only
  generalize compileOnce sn random userAddress userViewingKey poolAddress
    (firstAttempt provider timing actions options) = first
  rcases first with e | result
  · cases e with
    | reorg =>
      dsimp only [Attempt.again]
      split_ifs
      · exact goOnBeside_resolved _ (firstAttempt provider timing actions options).start
      · exact .refl actions
    | _ => exact .refl actions
  · exact .refl actions

/-- Only the registry differs between the options of the attempts. -/
theorem lastAttempt_options : ∃ registry, (lastAttempt sn random userAddress userViewingKey
      poolAddress provider provider' timing actions options).options = { options with registry } :=
  lastAttempt_induction (motive := fun attempt => ∃ registry,
    attempt.options = { options with registry }) ⟨options.registry, rfl⟩ fun _ => ⟨_, rfl⟩

/-- What a compile adds to the actions. -/
theorem compile_resolved (h : compile sn random userAddress userViewingKey poolAddress provider
      provider' timing actions options = .ok result) :
    Resolved userAddress options (compileSelections sn random userAddress userViewingKey poolAddress
      provider provider' timing actions options) actions result.actions := by
  rw [compile_eq] at h
  obtain ⟨_, _, _, _, -, hnotes, -⟩ := compileOnce_eq_ok h
  obtain ⟨registry, hoptions⟩ : ∃ registry, (lastAttempt sn random userAddress userViewingKey
      poolAddress provider provider' timing actions options).options = { options with registry } :=
    lastAttempt_options
  have hlast := (resolveNotes_resolved hnotes).1
  rw [hoptions] at hlast
  exact lastAttempt_resolved.trans hlast.of_registry

end Compile

end PrivacyPool.Sdk
