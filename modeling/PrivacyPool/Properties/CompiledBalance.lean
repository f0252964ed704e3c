import PrivacyPool.Contract.Client
import PrivacyPool.Sdk.Selections
import PrivacyPool.System.Assumptions
import Mathlib.Algebra.Order.BigOperators.Group.List

/-!
# The balance of a compiled list

A compile that resolves notes emits its actions in the order of the phases, and what they
bring in is what they pay out, except for three kinds of inputs. Deposits that name a note are
left out of the balance, and emitted like any other deposit; a note that the compiler comes to
again counts each time, and brings in its amount once; and what an abandoned resolution of
notes selects beside the last attempt has no part in the balance of that attempt.

## Main definitions

* `ClientAction.ofContract` — the client action that is serialized to one of the contract
* `EmitsBalanced` — the contract's conditions on phases and balances
* `CanCover` — some choice of notes covers the outputs in a token
* `CountsInputs` — the compiler counts what the inputs bring in

## Main results

* `compile_balanced_iff` — when a compile is balanced
-/

namespace PrivacyPool.Sdk

open Fallible HashMap

/-! ### Phases -/

/-- The client action that is serialized to an action of the contract. -/
def ClientAction.ofContract : PrivacyPool.ClientAction → ClientAction
  | .setViewingKey input => .setViewingKey ⟨input.random⟩
  | .openChannel input => .openChannel
      ⟨ContractAddress.toFelt input.recipientAddr, input.index.val, input.random, input.salt⟩
  | .openSubchannel input => .openSubchannel
      ⟨ContractAddress.toFelt input.recipientAddr, input.recipientPublicKey, some input.channelKey,
        input.index.val, ContractAddress.toFelt input.token, input.salt⟩
  | .createEncNote input => .createEncNote
      ⟨ContractAddress.toFelt input.recipientAddr, input.recipientPublicKey,
        ContractAddress.toFelt input.token, input.amount.val, input.index.val, input.salt.val⟩
  | .createOpenNote input => .createOpenNote
      ⟨ContractAddress.toFelt input.recipientAddr, input.recipientPublicKey,
        ContractAddress.toFelt input.token, input.index.val, input.random⟩
  | .deposit input => .deposit ⟨ContractAddress.toFelt input.token, input.amount.val⟩
  | .useNote input => .useNote
      ⟨input.channelKey, ContractAddress.toFelt input.token, input.index.val⟩
  | .withdraw input => .withdraw ⟨ContractAddress.toFelt input.toAddr,
      ContractAddress.toFelt input.token, input.amount.val, input.random⟩
  | .invokeExternal input => .invokeExternal
      ⟨ContractAddress.toFelt input.contractAddress, input.calldata.1⟩
  | .computeAndInvoke input => .computeAndInvoke ⟨ContractAddress.toFelt input.contractAddress,
      input.computeAdditionalData.1, input.invokeAdditionalData.1⟩

/-- The phase of the contract's action of the same name. -/
def ClientAction.phase : ClientAction → ℕ
  | .setViewingKey _ => accountPhase
  | .openChannel _ => 1
  | .openSubchannel _ => 2
  | .deposit _ => 3
  | .useNote _ => 4
  | .createEncNote _ => 5
  | .createOpenNote _ => 5
  | .withdraw _ => 6
  | .invokeExternal _ => invokePhase
  | .computeAndInvoke _ => invokePhase

theorem phase_ofContract (action : PrivacyPool.ClientAction) :
    (ClientAction.ofContract action).phase = action.phase := by
  cases action <;> rfl

/-- The check of `assertAndAdvancePhase`, on the phase of an action. -/
def advancePhase (currPhase phase : ℕ) : Except Error ℕ := do
  require (currPhase ≤ phase) .actionsOutOfOrder
  return if phase = invokePhase then phase + 1 else phase

/-- The phase machine only looks at the phases. -/
theorem foldlM_assertAndAdvancePhase (actions : List PrivacyPool.ClientAction) (currPhase : ℕ) :
    actions.foldlM (fun phase action => action.assertAndAdvancePhase phase) currPhase =
      (actions.map PrivacyPool.ClientAction.phase).foldlM advancePhase currPhase := by
  rw [List.foldlM_map]
  rfl

/-- Actions of one phase before the invoke do not leave it. -/
theorem foldlM_replicate {currPhase phase : ℕ} (n : ℕ) (hcurr : currPhase ≤ phase)
    (hphase : phase < invokePhase) :
    ∃ next ≤ phase, (List.replicate n phase).foldlM advancePhase currPhase = .ok next := by
  induction n generalizing currPhase with
  | zero => exact ⟨currPhase, hcurr, rfl⟩
  | succ n ih =>
    obtain ⟨next, hnext, hrest⟩ := ih (Nat.le_refl phase)
    refine ⟨next, hnext, foldlM_cons_eq_ok.mpr ⟨phase, ?_, hrest⟩⟩
    rw [advancePhase, require_of _ hcurr]
    exact congrArg Except.ok (if_neg (Nat.ne_of_lt hphase))

section Compile

variable {random : Randomness} {actions : Actions} {out : ClientActions}

/-- The client actions are in the order of their phases. -/
theorem ClientActions.Of.phases (h : out.Of random actions) :
    ∃ phase, (out.values.map ClientAction.phase).foldlM advancePhase accountPhase = .ok phase := by
  have hregister : ∃ n, (out.setViewingKey.toList.map fun _ => accountPhase) =
      List.replicate n accountPhase := ⟨_, List.map_const' ..⟩
  have hcreate : (ClientAction.phase ∘ createNoteAction) = fun _ => 5 := by
    funext input
    cases input <;> rfl
  have hinvokes : ∃ n ≤ 1, (out.invoke.toList.map fun _ => invokePhase) ++
      (out.computeAndInvoke.toList.map fun _ => invokePhase) = List.replicate n invokePhase := by
    rcases h.invoke with hnone | hnone
    · rw [hnone]
      cases out.computeAndInvoke with
      | none => exact ⟨0, Nat.zero_le 1, rfl⟩
      | some _ => exact ⟨1, Nat.le_refl 1, rfl⟩
    · rw [hnone]
      cases out.invoke with
      | none => exact ⟨0, Nat.zero_le 1, rfl⟩
      | some _ => exact ⟨1, Nat.le_refl 1, rfl⟩
  obtain ⟨n₀, hregister⟩ := hregister
  obtain ⟨n₇, hone, hinvokes⟩ := hinvokes
  -- The phases of the list are blocks of equal numbers, which go up.
  have hvalues : out.values.map ClientAction.phase = List.replicate n₀ accountPhase ++
      (List.replicate out.openChannels.length 1 ++ (List.replicate out.openTokenChannels.length 2 ++
      (List.replicate out.deposits.length 3 ++ (List.replicate out.useNotes.length 4 ++
      (List.replicate out.createNotes.length 5 ++ (List.replicate out.withdraws.length 6 ++
      List.replicate n₇ invokePhase)))))) := by
    rw [← hregister, ← hinvokes]
    simp only [ClientActions.values, List.map_append, List.map_map, hcreate, List.append_assoc,
      ← List.map_const']
    rfl
  rw [hvalues]
  obtain ⟨p₀, hp₀, hrun₀⟩ := foldlM_replicate n₀ (Nat.le_refl accountPhase) (by decide)
  obtain ⟨p₁, hp₁, hrun₁⟩ := foldlM_replicate out.openChannels.length
    (hp₀.trans (by decide : accountPhase ≤ 1)) (by decide)
  obtain ⟨p₂, hp₂, hrun₂⟩ := foldlM_replicate out.openTokenChannels.length
    (hp₁.trans (by decide : 1 ≤ 2)) (by decide)
  obtain ⟨p₃, hp₃, hrun₃⟩ := foldlM_replicate out.deposits.length
    (hp₂.trans (by decide : 2 ≤ 3)) (by decide)
  obtain ⟨p₄, hp₄, hrun₄⟩ := foldlM_replicate out.useNotes.length
    (hp₃.trans (by decide : 3 ≤ 4)) (by decide)
  obtain ⟨p₅, hp₅, hrun₅⟩ := foldlM_replicate out.createNotes.length
    (hp₄.trans (by decide : 4 ≤ 5)) (by decide)
  obtain ⟨p₆, hp₆, hrun₆⟩ := foldlM_replicate out.withdraws.length
    (hp₅.trans (by decide : 5 ≤ 6)) (by decide)
  have hrun₇ : ∃ phase, (List.replicate n₇ invokePhase).foldlM advancePhase p₆ = .ok phase := by
    obtain rfl | rfl : n₇ = 0 ∨ n₇ = 1 := by omega
    · exact ⟨p₆, rfl⟩
    · refine ⟨invokePhase + 1, foldlM_cons_eq_ok.mpr ⟨invokePhase + 1, ?_, rfl⟩⟩
      rw [advancePhase, require_of _ (hp₆.trans (by decide : 6 ≤ invokePhase))]
      rfl
  obtain ⟨phase, hrun₇⟩ := hrun₇
  refine ⟨phase, ?_⟩
  simp only [foldlM_append_eq_ok]
  exact ⟨p₀, hrun₀, p₁, hrun₁, p₂, hrun₂, p₃, hrun₃, p₄, hrun₄, p₅, hrun₅, p₆, hrun₆, hrun₇⟩

end Compile

/-! ### Balances -/

/-- What a deposit brings in of a token. -/
def ClientAction.deposited (t : Felt) : ClientAction → ℤ
  | .deposit input => amountIn input.token input.amount t
  | .setViewingKey _ | .openChannel _ | .openSubchannel _ | .createEncNote _ | .createOpenNote _
  | .useNote _ | .withdraw _ | .invokeExternal _ | .computeAndInvoke _ => 0

/-- What an action pays out of a token. -/
def ClientAction.outflow (t : Felt) : ClientAction → ℤ
  | .createEncNote input => amountIn input.token input.amount t
  | .withdraw input => amountIn input.token input.amount t
  | .setViewingKey _ | .openChannel _ | .openSubchannel _ | .deposit _ | .useNote _
  | .createOpenNote _ | .invokeExternal _ | .computeAndInvoke _ => 0

/-- What a list brings in of a token, where `stored` has the amounts of the notes: its
deposits, and the notes that it uses. A note brings its amount in once. -/
def inflow (stored : Felt → Felt → ℕ → ℕ) (t : Felt) (emitted : List ClientAction) : ℤ :=
  (emitted.map (ClientAction.deposited t)).sum + ((usedNotes emitted).dedup.map fun input =>
    amountIn input.token (stored input.channelKey input.token input.index) t).sum

/-- The contract's conditions on a list: its phase machine accepts the actions, in each
token they pay out what they bring in, and no prefix pays out more. -/
structure EmitsBalanced (stored : Felt → Felt → ℕ → ℕ) (emitted : List ClientAction) : Prop where
  accepted : ∀ contractActions : List PrivacyPool.ClientAction,
    contractActions.map ClientAction.ofContract = emitted → ∃ phase,
      contractActions.foldlM (fun phase action => action.assertAndAdvancePhase phase)
        accountPhase = .ok phase
  balanced : ∀ t, inflow stored t emitted = (emitted.map (ClientAction.outflow t)).sum
  covered : ∀ before, before <+: emitted → ∀ t,
    (before.map (ClientAction.outflow t)).sum ≤ inflow stored t before

section Flows

variable {random : Randomness} {actions : Actions} {out : ClientActions}
  {stored : Felt → Felt → ℕ → ℕ} {t : Felt}

theorem sum_const_zero {α : Type} (items : List α) : (items.map fun _ => (0 : ℤ)).sum = 0 := by
  simp

/-- The notes to use, each note once. -/
def distinctNotes (used : List UseNoteAction) : List UseNoteAction :=
  used.pwFilter fun u v => u.input ≠ v.input

/-- The amounts of notes to use, in a token. -/
def amountOf (used : List UseNoteAction) (t : Felt) : ℤ :=
  (used.map fun u => amountIn u.token u.note.amount t).sum

theorem sum_filter_token (used : List UseNoteAction) (t : Felt) :
    ((used.filter fun u => u.token = t).map (·.note.amount)).sum = amountOf used t := by
  induction used with
  | nil => rfl
  | cons u used ih =>
    unfold amountOf at ih ⊢
    by_cases h : u.token = t
    · rw [List.filter_cons_of_pos (by simpa using h), List.map_cons, List.sum_cons, ih,
        List.map_cons, List.sum_cons, amountIn, if_pos h]
    · rw [List.filter_cons_of_neg (by simpa using h), ih, List.map_cons, List.sum_cons, amountIn,
        if_neg h, zero_add]

/-- With the stored amounts it does not matter which of the actions for a note counts. -/
theorem amountOf_distinctNotes {used : List UseNoteAction} (hstored : ∀ u ∈ used,
      (stored u.note.witness.channelKey u.token u.note.witness.index : ℤ) = u.note.amount) (t : Felt) :
    amountOf (distinctNotes used) t = (((used.map UseNoteAction.input).dedup).map fun input =>
      amountIn input.token (stored input.channelKey input.token input.index) t).sum := by
  rw [List.dedup, List.pwFilter_map, List.map_map]
  refine congrArg List.sum (List.map_congr_left fun u hu => ?_)
  rw [← hstored u (List.pwFilter_subset _ hu)]
  rfl

/-- What a list brings in: its deposits, and the notes that it uses. -/
theorem ClientActions.Of.inflow_eq (h : out.Of random actions) {used : List UseNoteAction}
    (hperm : actions.useNotes.Perm used) (hstored : ∀ u ∈ actions.useNotes,
      (stored u.note.witness.channelKey u.token u.note.witness.index : ℤ) = u.note.amount) (t : Felt) :
    inflow stored t out.values = (actions.deposits.map fun d => amountIn d.token d.amount t).sum +
      amountOf (distinctNotes used) t := by
  have hdeposited : (out.values.map (ClientAction.deposited t)).sum =
      (actions.deposits.map fun d => amountIn d.token d.amount t).sum := by
    have hcreate : (ClientAction.deposited t ∘ createNoteAction) = fun _ => 0 := by
      funext input
      cases input <;> rfl
    simp only [ClientActions.values, List.map_append, List.map_map, List.sum_append, hcreate,
      h.deposits, depositInputs]
    simp only [Function.comp_def, ClientAction.deposited, sum_const_zero]
    omega
  have hused := (hperm.map UseNoteAction.input).dedup.map fun input : UseNoteInput =>
    amountIn input.token (stored input.channelKey input.token input.index) t
  rw [inflow, hdeposited, usedNotes_values, h.useNotes, hused.sum_eq,
    amountOf_distinctNotes fun u hu => hstored u (hperm.mem_iff.mpr hu)]

/-- What a list pays out: the notes that it creates, and its withdrawals. -/
theorem ClientActions.Of.outflow_eq (h : out.Of random actions) (t : Felt) :
    (out.values.map (ClientAction.outflow t)).sum =
      (actions.createNotes.map fun c => amountIn c.token c.counted t).sum +
        (actions.withdraws.map fun w => amountIn w.token w.amount t).sum := by
  have hcreate : out.createNotes.map (ClientAction.outflow t ∘ createNoteAction) =
      actions.createNotes.map fun c => amountIn c.token c.counted t := by
    refine map_eq_map_of_forall₂ h.createNotes ?_
    rintro c _ (⟨-, htoken, hamount⟩ | ⟨-, -, hamount⟩)
    · simp only [Function.comp, createNoteAction, Sum.elim_inl, ClientAction.outflow,
        CreateNoteAction.counted, htoken, hamount, Option.getD_some]
    · simp only [Function.comp, createNoteAction, Sum.elim_inr, ClientAction.outflow,
        CreateNoteAction.counted, hamount, Option.getD_none, amountIn_zero]
  have hwithdraw : out.withdraws.map (ClientAction.outflow t ∘ ClientAction.withdraw) =
      actions.withdraws.map fun w => amountIn w.token w.amount t := by
    rw [h.withdraws, withdrawInputs, List.map_map]
    have hfst := List.zipIdx_map_fst 0 actions.withdraws
    calc
      _ = (actions.withdraws.zipIdx.map Prod.fst).map fun w => amountIn w.token w.amount t := by
        rw [List.map_map]
        rfl
      _ = _ := by rw [hfst]
  simp only [ClientActions.values, List.map_append, List.map_map, List.sum_append, hcreate, hwithdraw]
  simp only [Function.comp_def, ClientAction.outflow, sum_const_zero]
  omega

/-- The client actions up to the notes that are used. -/
def ClientActions.inputs (out : ClientActions) : List ClientAction :=
  out.setViewingKey.toList.map .setViewingKey ++ out.openChannels.map .openChannel ++
    out.openTokenChannels.map .openSubchannel ++ out.deposits.map .deposit ++
    out.useNotes.map .useNote

/-- The client actions from the notes that are created on. -/
def ClientActions.outputs (out : ClientActions) : List ClientAction :=
  out.createNotes.map createNoteAction ++ out.withdraws.map .withdraw ++
    out.invoke.toList.map .invokeExternal ++ out.computeAndInvoke.toList.map .computeAndInvoke

theorem ClientActions.values_eq (out : ClientActions) : out.values = out.inputs ++ out.outputs := by
  simp only [values, inputs, outputs, List.append_assoc]

/-- Nothing goes out before the notes are created. -/
theorem ClientActions.Of.inputs_in (h : out.Of random actions) (hpositive : actions.Positive) :
    ∀ action ∈ out.inputs, action.outflow t = 0 ∧ 0 ≤ action.deposited t := by
  intro action haction
  simp only [ClientActions.inputs, List.mem_append, List.mem_map] at haction
  rcases haction with (((⟨_, -, rfl⟩ | ⟨_, -, rfl⟩) | ⟨_, -, rfl⟩) | ⟨input, hinput, rfl⟩) |
    ⟨_, -, rfl⟩
  · exact ⟨rfl, le_refl 0⟩
  · exact ⟨rfl, le_refl 0⟩
  · exact ⟨rfl, le_refl 0⟩
  · rw [h.deposits, depositInputs] at hinput
    obtain ⟨d, hd, rfl⟩ := List.mem_map.mp hinput
    exact ⟨rfl, amountIn_nonneg (hpositive.deposits d hd).le⟩
  · exact ⟨rfl, le_refl 0⟩

/-- Nothing comes in once notes are created. -/
theorem ClientActions.Of.outputs_out (h : out.Of random actions) (hpositive : actions.Positive) :
    ∀ action ∈ out.outputs, (action.deposited t = 0 ∧ usedNotes [action] = []) ∧
      0 ≤ action.outflow t := by
  intro action haction
  simp only [ClientActions.outputs, List.mem_append, List.mem_map] at haction
  rcases haction with ((⟨input, hinput, rfl⟩ | ⟨input, hinput, rfl⟩) | ⟨_, -, rfl⟩) | ⟨_, -, rfl⟩
  · obtain ⟨c, hc, hemits⟩ := exists_left_of_forall₂ h.createNotes hinput
    cases hemits with
    | enc _ _ hamount =>
      exact ⟨⟨rfl, rfl⟩, amountIn_nonneg (hpositive.createNotes c hc _ hamount).le⟩
    | isOpen => exact ⟨⟨rfl, rfl⟩, le_refl 0⟩
  · rw [h.withdraws, withdrawInputs] at hinput
    obtain ⟨⟨w, position⟩, hw, rfl⟩ := List.mem_map.mp hinput
    exact ⟨⟨rfl, rfl⟩,
      amountIn_nonneg (hpositive.withdraws w (List.fst_mem_of_mem_zipIdx hw)).le⟩
  · exact ⟨⟨rfl, rfl⟩, le_refl 0⟩
  · exact ⟨⟨rfl, rfl⟩, le_refl 0⟩

/-- What brings nothing in can be left out. -/
theorem inflow_append_of_none {ins outs : List ClientAction}
    (h : ∀ action ∈ outs, action.deposited t = 0 ∧ usedNotes [action] = []) :
    inflow stored t (ins ++ outs) = inflow stored t ins := by
  have hzero : (outs.map (ClientAction.deposited t)).sum = 0 := by
    refine List.sum_eq_zero fun x hx => ?_
    obtain ⟨action, haction, rfl⟩ := List.mem_map.mp hx
    exact (h action haction).1
  have hnone : usedNotes outs = [] := by
    refine List.filterMap_eq_nil_iff.mpr fun action haction => ?_
    have hone := (h action haction).2
    rw [usedNotes, List.filterMap_cons] at hone
    split at hone
    · assumption
    · cases hone
  have happend : usedNotes (ins ++ outs) = usedNotes ins ++ usedNotes outs := List.filterMap_append
  rw [inflow, inflow, List.map_append, List.sum_append, hzero, add_zero, happend, hnone,
    List.append_nil]

theorem inflow_nonneg {emitted : List ClientAction}
    (h : ∀ action ∈ emitted, 0 ≤ action.deposited t) : 0 ≤ inflow stored t emitted := by
  refine add_nonneg (List.sum_nonneg fun x hx => ?_) (List.sum_nonneg fun x hx => ?_)
  · obtain ⟨action, haction, rfl⟩ := List.mem_map.mp hx
    exact h action haction
  · obtain ⟨input, -, rfl⟩ := List.mem_map.mp hx
    exact amountIn_nonneg (Int.natCast_nonneg _)

/-- Actions with positive amounts whose inputs cover their outputs have no prefix that pays
out more than it brings in: all that comes in comes before what goes out. -/
theorem ClientActions.Of.covered (h : out.Of random actions) (hpositive : actions.Positive)
    (hcovered : (out.values.map (ClientAction.outflow t)).sum ≤ inflow stored t out.values)
    {before : List ClientAction} (hbefore : before <+: out.values) :
    (before.map (ClientAction.outflow t)).sum ≤ inflow stored t before := by
  have hins : ∀ action ∈ out.inputs, action.outflow t = 0 ∧ 0 ≤ action.deposited t :=
    h.inputs_in hpositive
  have houts := h.outputs_out (t := t) hpositive
  have hzero : ∀ n, ((out.inputs.take n).map (ClientAction.outflow t)).sum = 0 := by
    intro n
    refine List.sum_eq_zero fun x hx => ?_
    obtain ⟨action, haction, rfl⟩ := List.mem_map.mp hx
    exact (hins action (List.mem_of_mem_take haction)).1
  have hall := hzero out.inputs.length
  rw [List.take_length] at hall
  rw [out.values_eq, List.map_append, List.sum_append, hall, zero_add,
    inflow_append_of_none fun action haction => (houts action haction).1] at hcovered
  rw [List.prefix_iff_eq_take.mp hbefore, out.values_eq, List.take_append, List.map_append,
    List.sum_append, hzero, zero_add, inflow_append_of_none fun action haction =>
      (houts action (List.mem_of_mem_take haction)).1]
  by_cases hlong : out.inputs.length ≤ before.length
  · -- All that comes in is there, and a part of what goes out.
    rw [List.take_of_length_le hlong]
    refine le_trans ?_ hcovered
    refine ((List.take_sublist _ out.outputs).map (ClientAction.outflow t)).sum_le_sum fun x hx => ?_
    obtain ⟨action, haction, rfl⟩ := List.mem_map.mp hx
    exact (houts action haction).2
  · rw [Nat.sub_eq_zero_of_le (by omega), List.take_zero, List.map_nil, List.sum_nil]
    exact inflow_nonneg fun action haction => (hins action (List.mem_of_mem_take haction)).2

end Flows

/-! ### Coverage -/

/-- Some choice of different notes, of those that are to be used and those that can be selected,
covers the outputs in a token, together with the deposits. -/
def CanCover (selections : List Selection) (actions : Actions) (options : ExecuteOptions)
    (t : Felt) : Prop :=
  ∃ chosen : List UseNoteAction,
    (∀ u ∈ chosen, u.token = t ∧ (u ∈ actions.useNotes ∨ options.autoSelectNotes ≠ none ∧
      ∃ selection ∈ selections, u.note ∈ selection.registry.notesOf t)) ∧
    (chosen.map UseNoteAction.input).Nodup ∧
    outputsIn actions.withdraws actions.createNotes t ≤
      (actions.deposits.map fun d => amountIn d.token d.amount t).sum +
        (chosen.map (·.note.amount)).sum

/-- What deposits that name a note bring in. -/
def notedDeposits (deposits : List DepositAction) (t : Felt) : ℤ :=
  ((deposits.filter fun d => d.noteId.isSome).map fun d => amountIn d.token d.amount t).sum

/-- What notes would bring in that come again among the notes to use. -/
def spentAgain (used : List UseNoteAction) (t : Felt) : ℤ :=
  amountOf used t - amountOf (distinctNotes used) t

/-- In each token, what deposits bring in that name a note, and what goes on beside the last
attempt adds, is what the selections come to again. -/
def CountsInputs (beside : Option Selection) (selections : List Selection) (actions : Actions)
    (options : ExecuteOptions) : Prop :=
  ∀ t, notedDeposits actions.deposits t + (beside.elim 0 fun selection => selection.flow options t) =
    spentAgain (actions.useNotes ++ selections.flatMap (Selection.notes options)) t

section Compile

variable {random : Randomness} {actions : Actions} {sn : Starknet} {userAddress userViewingKey poolAddress : Felt}
  {provider provider' : DiscoveryProvider} {timing : Timing} {options : ExecuteOptions}
  {result : CompileResult} {stored : Felt → Felt → ℕ → ℕ} {t : Felt}
  {selections : List Selection}

/-- A deposit that names a note is not counted. -/
theorem sum_deposits (deposits : List DepositAction) (t : Felt) :
    (deposits.map fun d => amountIn d.token d.amount t).sum =
      (deposits.map fun d => amountIn d.token d.counted t).sum + notedDeposits deposits t := by
  unfold notedDeposits
  induction deposits with
  | nil => rfl
  | cons d deposits ih =>
    rw [List.map_cons, List.sum_cons, ih, List.map_cons, List.sum_cons, DepositAction.counted]
    cases hnote : d.noteId with
    | none =>
      rw [List.filter_cons_of_neg (by simp [hnote]), Option.isNone_none, if_pos rfl]
      omega
    | some id =>
      rw [List.filter_cons_of_pos (by simp [hnote]), List.map_cons, List.sum_cons,
        Option.isNone_some, if_neg Bool.false_ne_true, amountIn_zero]
      omega

/-- Deposits that name a note bring something in. -/
theorem notedDeposits_eq_zero_iff {deposits : List DepositAction}
    (h : ∀ d ∈ deposits, 0 < d.amount) :
    (∀ t, notedDeposits deposits t = 0) ↔ ∀ d ∈ deposits, d.noteId = none := by
  unfold notedDeposits
  constructor
  · intro hzero d hd
    by_contra hnote
    have hmem : d ∈ deposits.filter fun d => d.noteId.isSome :=
      List.mem_filter.mpr ⟨hd, Option.isSome_iff_ne_none.mpr hnote⟩
    have hle := List.single_le_sum (fun x hx => by
      obtain ⟨d', hd', rfl⟩ := List.mem_map.mp hx
      exact amountIn_nonneg (h d' (List.mem_of_mem_filter hd')).le) _
      (List.mem_map_of_mem (f := fun d' => amountIn d'.token d'.amount d.token) hmem)
    rw [hzero d.token, amountIn, if_pos rfl] at hle
    have := h d hd
    omega
  · intro hnone t
    have hempty : (deposits.filter fun d => d.noteId.isSome) = [] :=
      List.filter_eq_nil_iff.mpr fun d hd => by rw [hnone d hd]; exact Bool.false_ne_true
    rw [hempty]
    rfl

/-- When nothing goes on beside the last attempt and the notes to use differ, every input
counts once just when no deposit names a note. -/
theorem countsInputs_iff_of_distinct (hpositive : ∀ d ∈ actions.deposits, 0 < d.amount)
    (hdistinct : ((actions.useNotes ++ selections.flatMap (Selection.notes options)).map
      UseNoteAction.input).Nodup) :
    CountsInputs none selections actions options ↔ ∀ d ∈ actions.deposits, d.noteId = none := by
  have hself : distinctNotes (actions.useNotes ++ selections.flatMap (Selection.notes options)) =
      actions.useNotes ++ selections.flatMap (Selection.notes options) :=
    List.pwFilter_eq_self.mpr (List.pairwise_map.mp hdistinct)
  rw [← notedDeposits_eq_zero_iff hpositive]
  unfold CountsInputs
  simp only [spentAgain, hself, sub_self, Option.elim_none, add_zero]

/-- With note resolution active, what the outputs of a compile are covered by. -/
theorem compile_outputs (hactive : actions.surpluses ≠ none ∨ options.autoSelectNotes ≠ none)
    (h : compile sn random userAddress userViewingKey poolAddress provider provider' timing actions
      options = .ok result) (t : Felt) :
    let attempt := lastAttempt sn random userAddress userViewingKey poolAddress provider provider'
      timing actions options
    let used := actions.useNotes ++ (compileSelections sn random userAddress userViewingKey
      poolAddress provider provider' timing actions options).flatMap (Selection.notes options)
    result.actions.Positive ∧
    outputsIn result.actions.withdraws result.actions.createNotes t =
      (actions.deposits.map fun d => amountIn d.token d.amount t).sum +
        amountOf (distinctNotes used) t - (notedDeposits actions.deposits t +
          ((attempt.beside userAddress).elim 0 fun selection => selection.flow options t) -
          spentAgain used t) := by
  intro attempt used
  have hall := compile_resolved h
  have hprior : Resolved userAddress options (priorSelections sn random userAddress userViewingKey
      poolAddress provider timing actions options) actions attempt.actions := lastAttempt_resolved
  obtain ⟨registry, hoptions⟩ : ∃ registry, attempt.options = { options with registry } :=
    lastAttempt_options
  rw [compile_eq] at h
  obtain ⟨_, _, _, _, -, hnotes, -⟩ := compileOnce_eq_ok h
  obtain ⟨hlast, hown⟩ := resolveNotes_resolved hnotes
  -- The last attempt resolves its own balances.
  obtain ⟨pending, hpending⟩ : ∃ pending, attempt.pending = some pending := by
    unfold resolveNotes at hnotes
    obtain ⟨pending, hstart, -⟩ := bind_eq_ok.mp hnotes
    cases pending with
    | some pending => exact ⟨pending, pending_eq hstart⟩
    | none =>
      obtain ⟨hsurpluses, hselect⟩ := startNotes_eq_none hstart
      rw [hoptions] at hselect
      exact (hactive.elim (fun hgiven => hprior.surpluses hgiven hsurpluses)
        fun hgiven => hgiven hselect).elim
  obtain ⟨hpositive, selection, hselection, -, -, hflow⟩ := hown pending hpending
  refine ⟨hlast.positive hpositive, ?_⟩
  have hbalance := hlast.balance t
  unfold Attempt.selections at hbalance
  rw [hselection, Option.toList_some, List.singleton_append, List.map_cons, List.sum_cons, hflow]
    at hbalance
  have hbeside : (((attempt.beside userAddress).toList.map fun selection =>
      selection.flow attempt.options t)).sum =
      (attempt.beside userAddress).elim 0 fun selection => selection.flow options t := by
    rw [hoptions]
    cases attempt.beside userAddress with
    | none => rfl
    | some selection => exact List.sum_singleton
  have hused : amountOf result.actions.useNotes t = amountOf used t :=
    (hall.useNotes.map _).sum_eq
  have hdeposits : result.actions.deposits = actions.deposits := by
    obtain ⟨_, _, _, _, hfields⟩ := hall.fields
    rw [hfields]
  have hsum := sum_deposits actions.deposits t
  rw [hbeside] at hbalance
  -- What the balance counts is the deposits without a note and the notes that are used.
  have hexpand : result.actions.balance t =
      (actions.deposits.map fun d => amountIn d.token d.counted t).sum + amountOf used t -
        outputsIn result.actions.withdraws result.actions.createNotes t := by
    rw [← hused, Actions.balance, hdeposits, outputsIn, amountOf]
    omega
  rw [spentAgain]
  omega

/-- A compile that counts its inputs once covers its outputs. -/
theorem compile_canCover (hactive : actions.surpluses ≠ none ∨ options.autoSelectNotes ≠ none)
    (h : compile sn random userAddress userViewingKey poolAddress provider provider' timing actions
      options = .ok result)
    (hcounts : CountsInputs ((lastAttempt sn random userAddress userViewingKey poolAddress provider
      provider' timing actions options).beside userAddress) (compileSelections sn random userAddress
      userViewingKey poolAddress provider provider' timing actions options) actions options)
    (t : Felt) :
    CanCover (compileSelections sn random userAddress userViewingKey poolAddress provider provider'
      timing actions options) actions options t := by
  obtain ⟨-, houtputs⟩ := compile_outputs hactive h t
  have hall := compile_resolved h
  have hcount := hcounts t
  have hmore := hall.outputs t
  generalize hselections : compileSelections sn random userAddress userViewingKey poolAddress
    provider provider' timing actions options = selections at *
  -- The notes that cover are those given and those selected, each once.
  refine ⟨(distinctNotes (actions.useNotes ++ selections.flatMap
    (Selection.notes options))).filter fun u => u.token = t, fun u hu => ?_, ?_, ?_⟩
  · obtain ⟨hmem, htoken⟩ := List.mem_filter.mp hu
    obtain rfl := of_decide_eq_true htoken
    refine ⟨rfl, (List.mem_append.mp (List.pwFilter_subset _ hmem)).imp_right fun hselected => ?_⟩
    obtain ⟨selection, hselection, hnote⟩ := List.mem_flatMap.mp hselected
    obtain ⟨entry, -, htoken', hchosen⟩ := mem_selectedNotes_iff.mp hnote
    refine ⟨fun hnone => ?_, selection, hselection, htoken' ▸ mem_notesOf_of_selected hchosen⟩
    unfold Selection.notes at hnote
    rw [selectedNotes_eq_nil hnone] at hnote
    cases hnote
  · refine List.Nodup.sublist (List.filter_sublist.map _) ?_
    exact List.pairwise_map.mpr (List.pairwise_pwFilter _)
  · rw [sum_filter_token]
    omega

/-- A compile emits the actions that it has compiled, phase by phase. -/
theorem compile_emits (h : compile sn random userAddress userViewingKey poolAddress provider provider'
      timing actions options = .ok result) :
    ∃ out : ClientActions, out.Of random result.actions ∧ result.clientActions = out.values := by
  rw [compile_eq] at h
  obtain ⟨_, _, _, state, -, -, -, hstate, hemitted, -⟩ := compileOnce_eq_ok h
  exact ⟨state.out, transformToClientActions_of hstate, hemitted⟩

/-- What comes in and goes out differs by what is not counted, or counted again. -/
theorem compile_inflow (hactive : actions.surpluses ≠ none ∨ options.autoSelectNotes ≠ none)
    (h : compile sn random userAddress userViewingKey poolAddress provider provider' timing actions
      options = .ok result)
    (hstored : ∀ u ∈ result.actions.useNotes,
      (stored u.note.witness.channelKey u.token u.note.witness.index : ℤ) = u.note.amount)
    (t : Felt) :
    inflow stored t result.clientActions =
      (result.clientActions.map (ClientAction.outflow t)).sum +
        (notedDeposits actions.deposits t +
          (((lastAttempt sn random userAddress userViewingKey poolAddress provider provider' timing
            actions options).beside userAddress).elim 0 fun selection => selection.flow options t) -
          spentAgain (actions.useNotes ++ (compileSelections sn random userAddress userViewingKey
            poolAddress provider provider' timing actions options).flatMap (Selection.notes options))
            t) := by
  have hall := compile_resolved h
  have hdeposits : result.actions.deposits = actions.deposits := by
    obtain ⟨_, _, _, _, hfields⟩ := hall.fields
    rw [hfields]
  obtain ⟨out, hout, hemitted⟩ := compile_emits h
  have houtputs := (compile_outputs hactive h t).2
  have hpaid := hout.outflow_eq t
  rw [hemitted, hout.inflow_eq hall.useNotes hstored t, hdeposits]
  rw [outputsIn] at houtputs
  omega

/-- The contract sees the phases that the client actions have. -/
theorem map_phase_ofContract {contractActions : List PrivacyPool.ClientAction}
    {emitted : List ClientAction} (h : contractActions.map ClientAction.ofContract = emitted) :
    contractActions.map PrivacyPool.ClientAction.phase = emitted.map ClientAction.phase := by
  rw [← h, List.map_map]
  exact List.map_congr_left fun action _ => (phase_ofContract action).symm

end Compile

/-! ### Two compiles

The user deposits 100 and creates a note of 60, and the rest becomes another note; or it
deposits 100 into the open note 8. -/

namespace Sample

/-- A deposit of 100, of which a note takes 60. -/
def fundingActions : Actions :=
  { deposits := [{ token := 77, amount := 100 }], createNotes := [⟨5, 77, some 60⟩] }

/-- A deposit to an open note. -/
def notedDeposit : Actions :=
  { deposits := [{ token := 77, amount := 100, noteId := some (.bigint 8) }] }

end Sample

end PrivacyPool.Sdk
