import PrivacyPool.Sdk.Compiler
import Mathlib.Algebra.BigOperators.Group.List.Basic
import Mathlib.Data.List.TakeWhile

/-!
# What note resolution does

The balances of the actions are those of their amounts. Resolving the balance of a token
uses notes of it until the balance is not negative, and turns the rest into one output.

## Main definitions

* `Actions.balance` — inputs less outputs, in a token
* `Resolves`, `resolvedBalances`, `reachedBalances` — how far the loop over the balances gets
* `BalanceResolved`, `NotesLeft` — what the resolution of one balance, and of all, does

## Main results

* `actionBalances_eq_ok` — the balances that the compiler computes
* `leaveBalances_left` — what the loop over the balances leaves, whether it fails or not
-/

namespace PrivacyPool.Sdk

open Fallible HashMap

/-! ### Amounts -/

/-- An amount of one token, in another. -/
def amountIn (token : Felt) (amount : ℤ) (t : Felt) : ℤ := if token = t then amount else 0

/-- What a deposit counts for: nothing when it goes into an open note. -/
def DepositAction.counted (d : DepositAction) : ℤ := if d.noteId.isNone then d.amount else 0

/-- What a created note counts for: nothing when it is open. -/
def CreateNoteAction.counted (c : CreateNoteAction) : ℤ := c.amount.getD 0

/-- Inputs less outputs, in a token. -/
def Actions.balance (actions : Actions) (t : Felt) : ℤ :=
  (actions.deposits.map fun d => amountIn d.token d.counted t).sum +
    (actions.useNotes.map fun u => amountIn u.token u.note.amount t).sum -
    (actions.withdraws.map fun w => amountIn w.token w.amount t).sum -
    (actions.createNotes.map fun c => amountIn c.token c.counted t).sum

/-- The amounts that are paid in and out are positive. -/
structure Actions.Positive (actions : Actions) : Prop where
  deposits : ∀ d ∈ actions.deposits, 0 < d.amount
  withdraws : ∀ w ∈ actions.withdraws, 0 < w.amount
  createNotes : ∀ c ∈ actions.createNotes, ∀ amount, c.amount = some amount → 0 < amount

variable {balances balances' : List (Felt × ℤ)} {token t : Felt} {amount : ℤ}

/-- The balance of a token, zero when there is none. -/
def balanceOf (balances : List (Felt × ℤ)) (t : Felt) : ℤ := (AddressMap.get balances t).getD 0

theorem balanceOf_updateBalance :
    balanceOf (updateBalance balances token amount) t = balanceOf balances t + amountIn token amount t := by
  unfold balanceOf updateBalance amountIn
  rw [AddressMap.get_set]
  by_cases h : t = token
  · rw [if_pos h, if_pos h.symm, h]
    rfl
  · rw [if_neg h, if_neg (Ne.symm h), add_zero]

theorem amountIn_neg : amountIn token (-amount) t = -amountIn token amount t := by
  unfold amountIn
  split_ifs
  · rfl
  · exact neg_zero.symm

theorem amountIn_zero : amountIn token 0 t = 0 := ite_self 0

theorem amountIn_nonneg (h : 0 ≤ amount) : 0 ≤ amountIn token amount t := by
  unfold amountIn
  split_ifs
  · exact h
  · exact le_refl 0

theorem sum_map_neg {α : Type} (f : α → ℤ) (items : List α) :
    (items.map fun a => -f a).sum = -(items.map f).sum := by
  induction items with
  | nil => rfl
  | cons a items ih =>
    rw [List.map_cons, List.map_cons, List.sum_cons, List.sum_cons, ih, neg_add]

/-- Balances that have changed by an amount in each token. -/
structure BalancesChanged (balances balances' : List (Felt × ℤ)) (change : Felt → ℤ) : Prop where
  nodup : (keys balances).Nodup → (keys balances').Nodup
  keys_subset : keys balances ⊆ keys balances'
  balance : ∀ t, balanceOf balances' t = balanceOf balances t + change t

theorem updateBalance_changed (balances : List (Felt × ℤ)) (token : Felt) (amount : ℤ) :
    BalancesChanged balances (updateBalance balances token amount) (amountIn token amount) :=
  ⟨AddressMap.nodup_keys_set, fun _ ht => AddressMap.mem_keys_set.mpr (.inl ht),
    fun _ => balanceOf_updateBalance⟩

theorem depositBalance_eq_ok {d : DepositAction} (h : depositBalance balances d = .ok balances') :
    0 < d.amount ∧ BalancesChanged balances balances' (amountIn d.token d.counted) := by
  simp only [depositBalance, bind_eq_ok, require_eq_ok, exists_and_left, exists_const,
    pure_eq_ok] at h
  obtain ⟨hpositive, rfl⟩ := h
  refine ⟨hpositive, ?_⟩
  unfold DepositAction.counted
  split_ifs
  · exact updateBalance_changed _ _ _
  · exact ⟨id, fun _ ht => ht, fun t => by rw [amountIn_zero, add_zero]⟩

theorem useNoteBalance_eq_ok {u : UseNoteAction} (h : useNoteBalance balances u = .ok balances') :
    0 < u.note.amount ∧ BalancesChanged balances balances' (amountIn u.token u.note.amount) := by
  simp only [useNoteBalance, bind_eq_ok, require_eq_ok, exists_and_left, exists_const,
    pure_eq_ok] at h
  obtain ⟨hpositive, rfl⟩ := h
  exact ⟨hpositive, updateBalance_changed _ _ _⟩

theorem withdrawBalance_eq_ok {w : WithdrawAction} (h : withdrawBalance balances w = .ok balances') :
    0 < w.amount ∧ BalancesChanged balances balances' (amountIn w.token (-w.amount)) := by
  simp only [withdrawBalance, bind_eq_ok, require_eq_ok, exists_and_left, exists_const,
    pure_eq_ok] at h
  obtain ⟨hpositive, rfl⟩ := h
  exact ⟨hpositive, updateBalance_changed _ _ _⟩

theorem createNoteBalance_eq_ok {c : CreateNoteAction}
    (h : createNoteBalance balances c = .ok balances') :
    (∀ amount, c.amount = some amount → 0 < amount) ∧
      BalancesChanged balances balances' (amountIn c.token (-c.counted)) := by
  unfold createNoteBalance at h
  unfold CreateNoteAction.counted
  cases hamount : c.amount with
  | none =>
    rw [hamount] at h
    obtain rfl := Except.ok.inj h
    refine ⟨nofun, id, fun _ ht => ht, fun t => ?_⟩
    rw [Option.getD_none, neg_zero, amountIn_zero, add_zero]
  | some amount =>
    simp only [hamount, bind_eq_ok, require_eq_ok, exists_and_left, exists_const, pure_eq_ok] at h
    obtain ⟨hpositive, rfl⟩ := h
    refine ⟨?_, updateBalance_changed _ _ _⟩
    rintro _ ⟨⟩
    exact hpositive

/-- A loop of updates adds the changes of its items. -/
theorem foldlM_balance {α : Type} {step : List (Felt × ℤ) → α → Except CompileError (List (Felt × ℤ))}
    {P : α → Prop} (change : α → Felt → ℤ)
    (hstep : ∀ {balances a balances'}, step balances a = .ok balances' →
      P a ∧ BalancesChanged balances balances' (change a))
    {items : List α} (h : items.foldlM step balances = .ok balances') :
    (∀ a ∈ items, P a) ∧
      BalancesChanged balances balances' fun t => (items.map fun a => change a t).sum := by
  induction items generalizing balances with
  | nil =>
    obtain rfl := foldlM_nil_eq_ok.mp h
    exact ⟨nofun, id, fun _ ht => ht, fun t => (add_zero _).symm⟩
  | cons a items ih =>
    obtain ⟨middle, hfirst, hrest⟩ := foldlM_cons_eq_ok.mp h
    obtain ⟨hP, hchanged⟩ := hstep hfirst
    obtain ⟨hPs, hchangeds⟩ := ih hrest
    refine ⟨List.forall_mem_cons.mpr ⟨hP, hPs⟩, fun hstart => hchangeds.nodup (hchanged.nodup hstart),
      fun t ht => hchangeds.keys_subset (hchanged.keys_subset ht), fun t => ?_⟩
    rw [hchangeds.balance, hchanged.balance, List.map_cons, List.sum_cons, add_assoc]

/-- The balances that the compiler computes, once it has checked the amounts. -/
theorem actionBalances_eq_ok {actions : Actions} (h : actionBalances actions = .ok balances) :
    actions.Positive ∧ (keys balances).Nodup ∧ ∀ t, balanceOf balances t = actions.balance t := by
  simp only [actionBalances, bind_eq_ok] at h
  obtain ⟨afterDeposits, hdeposits, afterUse, huse, afterWithdraws, hwithdraws, hcreates⟩ := h
  obtain ⟨hpositive₁, hchanged₁⟩ := foldlM_balance
    (fun d : DepositAction => amountIn d.token d.counted) depositBalance_eq_ok hdeposits
  obtain ⟨-, hchanged₂⟩ := foldlM_balance
    (fun u : UseNoteAction => amountIn u.token u.note.amount) useNoteBalance_eq_ok huse
  obtain ⟨hpositive₃, hchanged₃⟩ := foldlM_balance
    (fun w : WithdrawAction => amountIn w.token (-w.amount)) withdrawBalance_eq_ok hwithdraws
  obtain ⟨hpositive₄, hchanged₄⟩ := foldlM_balance
    (fun c : CreateNoteAction => amountIn c.token (-c.counted)) createNoteBalance_eq_ok hcreates
  refine ⟨⟨hpositive₁, hpositive₃, hpositive₄⟩, hchanged₄.nodup (hchanged₃.nodup
    (hchanged₂.nodup (hchanged₁.nodup List.nodup_nil))), fun t => ?_⟩
  have hstart : balanceOf [] t = 0 := rfl
  rw [hchanged₄.balance, hchanged₃.balance, hchanged₂.balance, hchanged₁.balance, hstart, zero_add]
  simp only [amountIn_neg, sum_map_neg]
  rfl

theorem mem_keys_foldlM_useNote {useNotes : List UseNoteAction}
    (h : useNotes.foldlM useNoteBalance balances = .ok balances') :
    ∀ u ∈ useNotes, u.token ∈ keys balances' := by
  induction useNotes generalizing balances with
  | nil => exact nofun
  | cons u useNotes ih =>
    obtain ⟨middle, hfirst, hrest⟩ := foldlM_cons_eq_ok.mp h
    have htoken : u.token ∈ keys middle := by
      simp only [useNoteBalance, bind_eq_ok, require_eq_ok, exists_and_left, exists_const,
        pure_eq_ok] at hfirst
      obtain ⟨-, rfl⟩ := hfirst
      exact AddressMap.mem_keys_set.mpr (.inr rfl)
    obtain ⟨-, hchanged⟩ := foldlM_balance
      (fun u : UseNoteAction => amountIn u.token u.note.amount) useNoteBalance_eq_ok hrest
    exact List.forall_mem_cons.mpr ⟨hchanged.keys_subset htoken, ih hrest⟩

/-! ### Selecting notes -/

section Selection

variable {all : Bool} {used : List (List Char)} {notes : List Note} {balance : ℤ}

theorem selectNotes_sublist (all : Bool) (used : List (List Char)) (notes : List Note) (balance : ℤ) :
    (selectNotes all used notes balance).1.Sublist notes := by
  induction notes generalizing balance with
  | nil => exact List.Sublist.refl []
  | cons note notes ih =>
    unfold selectNotes
    split_ifs
    · exact (ih balance).cons note
    · exact (List.nil_sublist notes).cons_cons note
    · exact (ih _).cons_cons note

theorem selectNotes_balance (all : Bool) (used : List (List Char)) (notes : List Note) (balance : ℤ) :
    (selectNotes all used notes balance).2 =
      balance + ((selectNotes all used notes balance).1.map (·.amount)).sum := by
  induction notes generalizing balance with
  | nil => exact (add_zero _).symm
  | cons note notes ih =>
    unfold selectNotes
    split_ifs
    · exact ih balance
    · rw [List.map_singleton, List.sum_singleton]
    · rw [List.map_cons, List.sum_cons, ← add_assoc]
      exact ih _

/-- Notes that are used already are passed over. -/
theorem selectNotes_filter (all : Bool) (used : List (List Char)) (notes : List Note) (balance : ℤ) :
    selectNotes all used notes balance =
      selectNotes all [] (notes.filter fun note => note.id.toText ∉ used) balance := by
  induction notes generalizing balance with
  | nil => rfl
  | cons note notes ih =>
    by_cases hused : note.id.toText ∈ used
    · rw [List.filter_cons_of_neg (by simpa using hused), selectNotes, if_pos hused, ih]
    · rw [List.filter_cons_of_pos (by simpa using hused), selectNotes, if_neg hused, selectNotes,
        if_neg List.not_mem_nil, ih]

/-- The selection comes to a note after others: all notes are taken, or those before it leave
a deficit. -/
def ReachesAfter (all : Bool) (candidates : List Note) (balance : ℤ) (before : List Note)
    (note : Note) : Prop :=
  before ++ [note] <+: candidates ∧
    (all = true ∨ ∀ earlier, earlier <+: before → balance + (earlier.map (·.amount)).sum < 0)

/-- The notes are selected in the order in which the selection comes to them. -/
theorem prefix_selectNotes_iff {candidates before : List Note} {note : Note}
    (hdeficit : all = false → balance < 0) :
    before ++ [note] <+: (selectNotes all [] candidates balance).1 ↔
      ReachesAfter all candidates balance before note := by
  induction candidates generalizing balance before with
  | nil =>
    have hnil : ¬before ++ [note] <+: [] := fun h =>
      List.append_ne_nil_of_right_ne_nil before (List.cons_ne_nil note []) (List.prefix_nil.mp h)
    exact iff_of_false hnil fun h => hnil h.1
  | cons first candidates ih =>
    have hfirst : ∀ {n : Note}, ReachesAfter all (first :: candidates) balance [] n ↔ n = first := by
      intro n
      constructor
      · rintro ⟨hbegins, -⟩
        exact (List.cons_prefix_cons.mp hbegins).1
      · rintro rfl
        refine ⟨List.cons_prefix_cons.mpr ⟨rfl, List.nil_prefix⟩, ?_⟩
        cases hall : all with
        | true => exact .inl rfl
        | false =>
          refine .inr fun earlier hearlier => ?_
          rw [List.prefix_nil.mp hearlier, List.map_nil, List.sum_nil, add_zero]
          exact hdeficit hall
    rw [selectNotes, if_neg List.not_mem_nil]
    split_ifs with henough
    · -- The first note covers the deficit.
      cases before with
      | nil =>
        rw [hfirst, List.nil_append, List.cons_prefix_cons, and_iff_left (List.prefix_refl [])]
      | cons b before =>
        refine iff_of_false (fun h => ?_) ?_
        · exact List.append_ne_nil_of_right_ne_nil before (List.cons_ne_nil note [])
            (List.prefix_nil.mp (List.cons_prefix_cons.mp h).2)
        · rintro ⟨hbegins, hreach⟩
          obtain ⟨rfl, -⟩ := List.cons_prefix_cons.mp hbegins
          rcases hreach with hall | hreach
          · exact Bool.false_ne_true (henough.2.symm.trans hall)
          · have := hreach [b] (List.cons_prefix_cons.mpr ⟨rfl, List.nil_prefix⟩)
            rw [List.map_singleton, List.sum_singleton] at this
            omega
    -- The balance stays negative, or all notes are selected: the selection goes on.
    · have hstill : all = false → balance + first.amount < 0 := by
        intro hall
        by_contra hle
        exact henough ⟨by omega, hall⟩
      cases before with
      | nil =>
        rw [hfirst, List.nil_append, List.cons_prefix_cons, and_iff_left List.nil_prefix]
      | cons b before =>
        rw [List.cons_append, List.cons_prefix_cons, ih hstill]
        unfold ReachesAfter
        rw [List.cons_append, List.cons_prefix_cons, and_assoc]
        refine and_congr_right fun hsame => and_congr_right fun _ => ?_
        subst hsame
        by_cases hall : all = true
        · exact iff_of_true (.inl hall) (.inl hall)
        rw [or_iff_right hall, or_iff_right hall]
        constructor
        · intro hreach earlier hearlier
          rcases List.prefix_cons_iff.mp hearlier with rfl | ⟨rest, rfl, hrest⟩
          · rw [List.map_nil, List.sum_nil, add_zero]
            exact hdeficit (Bool.eq_false_iff.mpr hall)
          · have := hreach rest hrest
            rw [List.map_cons, List.sum_cons]
            omega
        · intro hreach earlier hearlier
          have := hreach (b :: earlier) (List.cons_prefix_cons.mpr ⟨rfl, hearlier⟩)
          rw [List.map_cons, List.sum_cons] at this
          omega

end Selection

section Resolution

variable {userAddress : Felt} {options : ExecuteOptions} {used : List (List Char)}
  {registry registry' : PrivateRegistry} {actions actions' : Actions} {balance : ℤ}

theorem selectedFor_balance (options : ExecuteOptions) (used : List (List Char))
    (registry : PrivateRegistry) (token : Felt) (balance : ℤ) :
    (selectedFor options used registry token balance).2 =
      balance + ((selectedFor options used registry token balance).1.map (·.amount)).sum := by
  unfold selectedFor
  split_ifs
  · exact selectNotes_balance _ _ _ _
  · exact (add_zero _).symm

/-! ### Resolving a balance -/

/-- The surplus action of a token, without what it adds to the actions. -/
def Actions.surplusOf (userAddress : Felt) (actions : Actions) (t : Felt) : Option SurplusAction :=
  ((actions.surpluses.getD []).find? (·.token = t)).or
    (if actions.deposits.any (·.token = t) then some { recipient := userAddress, token := t } else none)

/-- Taking the surplus action of a token only adds what it is. -/
theorem surplusActionOf_eq_some {surplusAction : SurplusAction}
    (h : surplusActionOf userAddress actions token = some (surplusAction, actions')) :
    actions.surplusOf userAddress token = some surplusAction ∧
      (∃ surpluses, actions' = { actions with surpluses }) ∧
      (actions.surpluses ≠ none → actions'.surpluses ≠ none) ∧
      ∀ t, actions'.surplusOf userAddress t = actions.surplusOf userAddress t := by
  unfold surplusActionOf at h
  unfold Actions.surplusOf
  split at h
  · rename_i found hfound
    obtain ⟨rfl, rfl⟩ := Prod.mk.inj (Option.some.inj h)
    rw [hfound]
    exact ⟨rfl, ⟨actions.surpluses, rfl⟩, id, fun _ => rfl⟩
  · rename_i hnone
    split_ifs at h with hdeposit
    obtain ⟨rfl, rfl⟩ := Prod.mk.inj (Option.some.inj h)
    refine ⟨by rw [hnone, if_pos hdeposit]; rfl, ⟨_, rfl⟩, fun _ => Option.some_ne_none _,
      fun t => ?_⟩
    rw [Option.getD_some, List.find?_append]
    by_cases ht : t = token
    · subst ht
      rw [hnone, if_pos hdeposit, List.find?_cons_of_pos (by simp)]
      rfl
    · rw [List.find?_cons_of_neg (by simpa using Ne.symm ht), List.find?_nil, Option.or_none]

theorem surplusActionOf_isSome :
    (surplusActionOf userAddress actions token).isSome =
      (actions.surplusOf userAddress token).isSome := by
  unfold surplusActionOf Actions.surplusOf
  split
  · rename_i found hfound
    rw [hfound]
    rfl
  · rename_i hnone
    rw [hnone]
    split_ifs <;> rfl

/-- Whether the balance of a token is resolved: the selection covers it, and a surplus has an
action. -/
def Resolves (userAddress : Felt) (options : ExecuteOptions) (used : List (List Char))
    (registry : PrivateRegistry) (actions : Actions) (entry : Felt × ℤ) : Prop :=
  0 ≤ (selectedFor options used registry entry.1 entry.2).2 ∧
    (0 < (selectedFor options used registry entry.1 entry.2).2 →
      (actions.surplusOf userAddress entry.1).isSome)

instance (entry : Felt × ℤ) :
    Decidable (Resolves userAddress options used registry actions entry) :=
  inferInstanceAs (Decidable (_ ∧ _))

/-- The outputs that a balance becomes: none, a withdrawal or a note. -/
inductive SurplusOutputs (token : Felt) (balance : ℤ) :
    List WithdrawAction → List CreateNoteAction → Prop
  | none (h : balance = 0) : SurplusOutputs token balance [] []
  | withdraw (recipient : Felt) (h : 0 < balance) :
      SurplusOutputs token balance [⟨recipient, token, balance⟩] []
  | createNote (recipient : Felt) (h : 0 < balance) :
      SurplusOutputs token balance [] [⟨recipient, token, some balance⟩]

/-- The same registry, up to entries without notes. -/
structure PrivateRegistry.Reads (registry registry' : PrivateRegistry) : Prop where
  notes : ∀ t, registry'.notesOf t = registry.notesOf t
  channels : registry'.channels = registry.channels
  cursor : registry'.cursor = registry.cursor

theorem PrivateRegistry.Reads.refl (registry : PrivateRegistry) : registry.Reads registry :=
  ⟨fun _ => rfl, rfl, rfl⟩

theorem PrivateRegistry.Reads.trans {registry'' : PrivateRegistry} (h : registry.Reads registry')
    (h' : registry'.Reads registry'') : registry.Reads registry'' :=
  ⟨fun t => (h'.notes t).trans (h.notes t), h'.channels.trans h.channels,
    h'.cursor.trans h.cursor⟩

theorem PrivateRegistry.reads_readNotes (registry : PrivateRegistry) (token : Felt) :
    registry.Reads (registry.readNotes token) := by
  refine ⟨fun t => ?_, rfl, rfl⟩
  unfold readNotes notesOf
  rw [AddressMap.get_set]
  split_ifs with h
  · rw [h]
    rfl
  · rfl

theorem PrivateRegistry.Reads.selectedFor_eq (h : registry.Reads registry') (options : ExecuteOptions)
    (used : List (List Char)) (token : Felt) (balance : ℤ) :
    selectedFor options used registry' token balance =
      selectedFor options used registry token balance := by
  unfold selectedFor
  rw [h.notes]

/-- What resolving the balance of a token does. -/
structure BalanceResolved (userAddress : Felt) (options : ExecuteOptions)
    (used : List (List Char)) (token : Felt) (balance : ℤ) (actions : Actions)
    (registry : PrivateRegistry) (actions' : Actions) (registry' : PrivateRegistry) : Prop where
  resolves : Resolves userAddress options used registry actions (token, balance)
  surpluses : actions.surpluses ≠ none → actions'.surpluses ≠ none
  surplusOf : ∀ t, actions'.surplusOf userAddress t = actions.surplusOf userAddress t
  actions : ∃ surpluses withdraws createNotes,
    actions' = { actions with
      useNotes := actions.useNotes ++
        (selectedFor options used registry token balance).1.map fun note => ⟨token, note⟩
      withdraws := actions.withdraws ++ withdraws
      createNotes := actions.createNotes ++ createNotes
      surpluses } ∧
    SurplusOutputs token (selectedFor options used registry token balance).2 withdraws createNotes
  reads : registry.Reads registry'

theorem resolveSurplus_eq_ok (h : resolveSurplus userAddress actions token balance = .ok actions')
    (hpositive : 0 < balance) :
    (actions.surplusOf userAddress token).isSome ∧
    (actions.surpluses ≠ none → actions'.surpluses ≠ none) ∧
    (∀ t, actions'.surplusOf userAddress t = actions.surplusOf userAddress t) ∧
    ∃ surpluses withdraws createNotes, actions' = { actions with
        withdraws := actions.withdraws ++ withdraws
        createNotes := actions.createNotes ++ createNotes
        surpluses } ∧ SurplusOutputs token balance withdraws createNotes := by
  simp only [resolveSurplus, bind_eq_ok, expect_eq_ok] at h
  obtain ⟨⟨surplusAction, given⟩, hgiven, h⟩ := h
  obtain ⟨hfound, ⟨surpluses, rfl⟩, hkept, hsame⟩ := surplusActionOf_eq_some hgiven
  refine ⟨Option.isSome_iff_exists.mpr ⟨_, hfound⟩, ?_⟩
  dsimp only at h
  split_ifs at h
  · obtain rfl := Except.ok.inj h
    exact ⟨hkept, hsame, surpluses, _, [], by rw [List.append_nil],
      .withdraw surplusAction.recipient hpositive⟩
  · obtain rfl := Except.ok.inj h
    exact ⟨hkept, hsame, surpluses, [], _, by rw [List.append_nil],
      .createNote surplusAction.recipient hpositive⟩

theorem resolveSurplus_isOk :
    (resolveSurplus userAddress actions token balance).isOk =
      (actions.surplusOf userAddress token).isSome := by
  rw [← surplusActionOf_isSome, resolveSurplus]
  cases surplusActionOf userAddress actions token with
  | none => rfl
  | some given =>
    change Except.isOk (if given.1.withdraw = true then _ else _) = true
    split_ifs <;> rfl

theorem selectInto_reads (options : ExecuteOptions) (used : List (List Char)) (actions : Actions)
    (registry : PrivateRegistry) (entry : Felt × ℤ) :
    registry.Reads (selectInto options used (actions, registry) entry).2 := by
  unfold selectInto
  dsimp only
  split_ifs
  · exact registry.reads_readNotes entry.1
  · exact .refl registry

theorem resolveBalance_eq_ok
    (h : resolveBalance userAddress options used (actions, registry) (token, balance) =
      .ok (actions', registry')) :
    BalanceResolved userAddress options used token balance actions registry actions' registry' := by
  have hreads := selectInto_reads options used actions registry (token, balance)
  simp only [resolveBalance, bind_eq_ok, require_eq_ok, exists_and_left, exists_const] at h
  obtain ⟨hcovered, h⟩ := h
  by_cases hpositive : 0 < (selectedFor options used registry token balance).2
  · rw [if_pos hpositive, bind_eq_ok] at h
    obtain ⟨_, hsurplus, h⟩ := h
    obtain ⟨rfl, rfl⟩ := Prod.mk.inj (Except.ok.inj h)
    obtain ⟨hfound, hkept, hsame, houtputs⟩ := resolveSurplus_eq_ok hsurplus hpositive
    exact ⟨⟨hcovered, fun _ => hfound⟩, hkept, hsame, houtputs, hreads⟩
  · rw [if_neg hpositive] at h
    obtain ⟨rfl, rfl⟩ := Prod.mk.inj (Except.ok.inj h)
    refine ⟨⟨hcovered, fun h => absurd h hpositive⟩, id, fun _ => rfl,
      ⟨actions.surpluses, [], [], ?_, .none (by omega)⟩, hreads⟩
    rw [List.append_nil, List.append_nil]
    rfl

/-- The resolution of a balance fails just when the selection does not cover it or a surplus
has no action. -/
theorem resolveBalance_eq_error {e : CompileError} {entry : Felt × ℤ}
    (h : resolveBalance userAddress options used (actions, registry) entry = .error e) :
    ¬Resolves userAddress options used registry actions entry := by
  rintro ⟨hcovered, hsurplus⟩
  unfold resolveBalance at h
  dsimp only at h
  rw [require_of _ hcovered] at h
  change (if 0 < (selectedFor options used registry entry.1 entry.2).2 then _ else _) = _ at h
  split_ifs at h with hpositive
  · have hok : (resolveSurplus userAddress (selectInto options used (actions, registry) entry).1
        entry.1 (selectedFor options used registry entry.1 entry.2).2).isOk = true :=
      resolveSurplus_isOk.trans (hsurplus hpositive)
    rw [eq_ok_valueOr actions hok] at h
    cases h
  · cases h

/-! ### Notes that surpluses become -/

/-- The note that the surplus of a token becomes. -/
def SurplusNote (userAddress : Felt) (actions : Actions) (t : Felt) (balance : ℤ)
    (c : CreateNoteAction) : Prop :=
  0 < balance ∧ ∃ surplusAction, actions.surplusOf userAddress t = some surplusAction ∧
    surplusAction.withdraw = false ∧ c = ⟨surplusAction.recipient, t, some balance⟩

/-- The notes to create after the balance of a token is resolved. -/
theorem mem_createNotes_resolveBalance {entry : Felt × ℤ}
    (h : resolveBalance userAddress options used (actions, registry) entry =
      .ok (actions', registry')) (c : CreateNoteAction) :
    c ∈ actions'.createNotes ↔ c ∈ actions.createNotes ∨ SurplusNote userAddress actions
      entry.1 (selectedFor options used registry entry.1 entry.2).2 c := by
  simp only [resolveBalance, bind_eq_ok, require_eq_ok, exists_and_left, exists_const] at h
  obtain ⟨-, h⟩ := h
  by_cases hpositive : 0 < (selectedFor options used registry entry.1 entry.2).2
  · rw [if_pos hpositive, bind_eq_ok] at h
    obtain ⟨resolved, hsurplus, h⟩ := h
    obtain ⟨rfl, -⟩ := Prod.mk.inj (Except.ok.inj h)
    simp only [resolveSurplus, bind_eq_ok, expect_eq_ok] at hsurplus
    obtain ⟨⟨surplusAction, given⟩, hgiven, hresolved⟩ := hsurplus
    obtain ⟨hfound, ⟨_, rfl⟩, -, -⟩ := surplusActionOf_eq_some hgiven
    -- The selected notes do not matter for the surplus action.
    have hsurplus : actions.surplusOf userAddress entry.1 = some surplusAction := hfound
    dsimp only at hresolved
    split_ifs at hresolved with hwithdraw <;> obtain rfl := Except.ok.inj hresolved
    · refine (or_iff_left ?_).symm
      rintro ⟨-, surplusAction', hsurplus', hnote, -⟩
      obtain rfl := Option.some.inj (hsurplus.symm.trans hsurplus')
      rw [hnote] at hwithdraw
      cases hwithdraw
    · dsimp only
      rw [List.mem_append, List.mem_singleton]
      refine or_congr_right ⟨?_, ?_⟩
      · rintro rfl
        exact ⟨hpositive, surplusAction, hsurplus, Bool.eq_false_iff.mpr hwithdraw, rfl⟩
      · rintro ⟨-, surplusAction', hsurplus', -, rfl⟩
        obtain rfl := Option.some.inj (hsurplus.symm.trans hsurplus')
        rfl
  · rw [if_neg hpositive] at h
    obtain ⟨rfl, -⟩ := Prod.mk.inj (Except.ok.inj h)
    exact (or_iff_left fun hnote => hpositive hnote.1).symm

/-! ### Resolving all balances -/

/-- The selected notes, token by token. -/
def selectedNotes (options : ExecuteOptions) (used : List (List Char)) (registry : PrivateRegistry)
    (balances : List (Felt × ℤ)) : List UseNoteAction :=
  balances.flatMap fun entry =>
    (selectedFor options used registry entry.1 entry.2).1.map fun note => ⟨entry.1, note⟩

/-- The amounts of outputs in a token. -/
def outputsIn (withdraws : List WithdrawAction) (createNotes : List CreateNoteAction) (t : Felt) : ℤ :=
  (withdraws.map fun w => amountIn w.token w.amount t).sum +
    (createNotes.map fun c => amountIn c.token c.counted t).sum

/-- What is left over becomes outputs with positive amounts. -/
structure LeftOver (options : ExecuteOptions) (used : List (List Char)) (registry : PrivateRegistry)
    (balances : List (Felt × ℤ)) (withdraws : List WithdrawAction)
    (createNotes : List CreateNoteAction) : Prop where
  amounts : ∀ t, outputsIn withdraws createNotes t = (balances.map fun entry =>
    amountIn entry.1 (selectedFor options used registry entry.1 entry.2).2 t).sum
  withdraws_pos : ∀ w ∈ withdraws, 0 < w.amount
  createNotes_pos : ∀ c ∈ createNotes, ∀ amount, c.amount = some amount → 0 < amount

/-- What a loop over balances leaves: it has selected notes for those that it has come to,
and turned what is left over into outputs for those that it has resolved. -/
structure NotesLeft (userAddress : Felt) (options : ExecuteOptions) (used : List (List Char))
    (reached resolved : List (Felt × ℤ)) (actions : Actions) (registry : PrivateRegistry)
    (actions' : Actions) (registry' : PrivateRegistry) : Prop where
  surpluses : actions.surpluses ≠ none → actions'.surpluses ≠ none
  surplusOf : ∀ t, actions'.surplusOf userAddress t = actions.surplusOf userAddress t
  createNotes : ∀ c, c ∈ actions'.createNotes ↔ c ∈ actions.createNotes ∨
    ∃ entry ∈ resolved, SurplusNote userAddress actions entry.1
      (selectedFor options used registry entry.1 entry.2).2 c
  actions : ∃ surpluses withdraws createNotes,
    actions' = { actions with
      useNotes := actions.useNotes ++ selectedNotes options used registry reached
      withdraws := actions.withdraws ++ withdraws
      createNotes := actions.createNotes ++ createNotes
      surpluses } ∧ LeftOver options used registry resolved withdraws createNotes
  reads : registry.Reads registry'

theorem outputsIn_append (withdraws withdraws' : List WithdrawAction)
    (createNotes createNotes' : List CreateNoteAction) (t : Felt) :
    outputsIn (withdraws ++ withdraws') (createNotes ++ createNotes') t =
      outputsIn withdraws createNotes t + outputsIn withdraws' createNotes' t := by
  simp only [outputsIn, List.map_append, List.sum_append]
  omega

theorem SurplusOutputs.leftOver {withdraws : List WithdrawAction}
    {createNotes : List CreateNoteAction}
    (h : SurplusOutputs token (selectedFor options used registry token balance).2 withdraws
      createNotes) :
    LeftOver options used registry [(token, balance)] withdraws createNotes := by
  cases h with
  | none hzero => exact ⟨fun t => by simp [outputsIn, hzero, amountIn_zero], nofun, nofun⟩
  | withdraw recipient hpositive =>
    refine ⟨fun t => by simp [outputsIn], ?_, nofun⟩
    simpa using hpositive
  | createNote recipient hpositive =>
    refine ⟨fun t => by simp [outputsIn, CreateNoteAction.counted], nofun, ?_⟩
    simpa using hpositive

theorem LeftOver.append {balances balances' : List (Felt × ℤ)}
    {withdraws withdraws' : List WithdrawAction} {createNotes createNotes' : List CreateNoteAction}
    (h : LeftOver options used registry balances withdraws createNotes)
    (h' : LeftOver options used registry balances' withdraws' createNotes') :
    LeftOver options used registry (balances ++ balances') (withdraws ++ withdraws')
      (createNotes ++ createNotes') where
  amounts t := by
    rw [outputsIn_append, h.amounts, h'.amounts, List.map_append, List.sum_append]
  withdraws_pos w hw := (List.mem_append.mp hw).elim (h.withdraws_pos w) (h'.withdraws_pos w)
  createNotes_pos c hc := (List.mem_append.mp hc).elim (h.createNotes_pos c) (h'.createNotes_pos c)

theorem PrivateRegistry.Reads.leftOver (h : registry.Reads registry')
    {withdraws : List WithdrawAction} {createNotes : List CreateNoteAction}
    (hleft : LeftOver options used registry' balances withdraws createNotes) :
    LeftOver options used registry balances withdraws createNotes := by
  refine ⟨fun t => (hleft.amounts t).trans ?_, hleft.withdraws_pos, hleft.createNotes_pos⟩
  simp only [h.selectedFor_eq]

/-- The balances that the loop resolves: those before the first one that fails. -/
def resolvedBalances (userAddress : Felt) (options : ExecuteOptions) (used : List (List Char))
    (registry : PrivateRegistry) (actions : Actions) (balances : List (Felt × ℤ)) :
    List (Felt × ℤ) :=
  balances.takeWhile fun entry => Resolves userAddress options used registry actions entry

/-- The balances that the loop comes to: those that it resolves, and the one that fails. -/
def reachedBalances (userAddress : Felt) (options : ExecuteOptions) (used : List (List Char))
    (registry : PrivateRegistry) (actions : Actions) (balances : List (Felt × ℤ)) :
    List (Felt × ℤ) :=
  balances.take
    ((resolvedBalances userAddress options used registry actions balances).length + 1)

theorem resolvedBalances_of_forall
    (h : ∀ entry ∈ balances, Resolves userAddress options used registry actions entry) :
    resolvedBalances userAddress options used registry actions balances = balances ∧
      reachedBalances userAddress options used registry actions balances = balances := by
  have hall : resolvedBalances userAddress options used registry actions balances = balances :=
    List.takeWhile_eq_self_iff.mpr fun entry hentry => decide_eq_true (h entry hentry)
  refine ⟨hall, ?_⟩
  rw [reachedBalances, hall]
  exact List.take_of_length_le (Nat.le_succ _)

/-- What the loop leaves, whether it fails or not. -/
theorem leaveBalances_left (userAddress : Felt) (options : ExecuteOptions)
    (used : List (List Char)) (balances : List (Felt × ℤ)) (actions : Actions)
    (registry : PrivateRegistry) :
    NotesLeft userAddress options used
      (reachedBalances userAddress options used registry actions balances)
      (resolvedBalances userAddress options used registry actions balances) actions registry
      (leaveBalances userAddress options used balances (actions, registry)).1
      (leaveBalances userAddress options used balances (actions, registry)).2 := by
  induction balances generalizing actions registry with
  | nil =>
    refine ⟨id, fun _ => rfl, fun c => (or_iff_left ?_).symm,
      ⟨actions.surpluses, [], [], ?_, fun _ => rfl, nofun, nofun⟩, .refl registry⟩
    · simp [resolvedBalances]
    · simp [selectedNotes, leaveBalances, reachedBalances]
  | cons entry balances ih =>
    rw [leaveBalances]
    cases hfirst : resolveBalance userAddress options used (actions, registry) entry with
    | error e =>
      -- The loop stops here: notes are selected, and nothing is put out.
      have hfails := resolveBalance_eq_error hfirst
      have hresolved : resolvedBalances userAddress options used registry actions
          (entry :: balances) = [] :=
        List.takeWhile_cons_of_neg (by simpa using hfails)
      have hreached : reachedBalances userAddress options used registry actions
          (entry :: balances) = [entry] := by
        rw [reachedBalances, hresolved]
        rfl
      rw [hreached, hresolved]
      refine ⟨id, fun _ => rfl, fun c => (or_iff_left ?_).symm,
        ⟨actions.surpluses, [], [], ?_, fun _ => rfl, nofun, nofun⟩,
        selectInto_reads options used actions registry entry⟩
      · simp
      · simp [selectedNotes, selectInto]
    | ok next =>
      obtain ⟨middle, middleRegistry⟩ := next
      have hone := resolveBalance_eq_ok hfirst
      have hall := ih middle middleRegistry
      -- What the rest resolves does not depend on what the first balance has put out.
      have hsame : ∀ e, Resolves userAddress options used middleRegistry middle e ↔
          Resolves userAddress options used registry actions e := by
        intro e
        unfold Resolves
        rw [hone.reads.selectedFor_eq, hone.surplusOf]
      have hrest : resolvedBalances userAddress options used middleRegistry middle balances =
          resolvedBalances userAddress options used registry actions balances := by
        unfold resolvedBalances
        simp only [hsame]
      have hresolved : resolvedBalances userAddress options used registry actions
          (entry :: balances) = [entry] ++
            resolvedBalances userAddress options used registry actions balances :=
        List.takeWhile_cons_of_pos (decide_eq_true hone.resolves)
      have hreached : reachedBalances userAddress options used registry actions
          (entry :: balances) = [entry] ++
            reachedBalances userAddress options used registry actions balances := by
        rw [reachedBalances, hresolved]
        rfl
      rw [hreached, hresolved]
      rw [reachedBalances, hrest] at hall
      have hnotes := mem_createNotes_resolveBalance hfirst
      obtain ⟨_, withdraws, createNotes, rfl, hsurplus⟩ := hone.actions
      obtain ⟨surpluses, withdraws', createNotes', hactions, hleft⟩ := hall.actions
      refine ⟨fun hgiven => hall.surpluses (hone.surpluses hgiven),
        fun t => (hall.surplusOf t).trans (hone.surplusOf t), fun c => ?_, ⟨surpluses,
        withdraws ++ withdraws', createNotes ++ createNotes', ?_,
        hsurplus.leftOver.append (hone.reads.leftOver hleft)⟩, hone.reads.trans hall.reads⟩
      · rw [hall.createNotes, hnotes, or_assoc, List.singleton_append,
          List.exists_mem_cons_iff]
        simp only [SurplusNote, hone.surplusOf, hone.reads.selectedFor_eq]
      · refine hactions.trans ?_
        simp only [List.append_assoc, selectedNotes, List.flatMap_cons, List.flatMap_append,
          List.flatMap_nil, List.append_nil, hone.reads.selectedFor_eq, reachedBalances]

/-- A loop that succeeds resolves all balances. -/
theorem foldlM_resolveBalance {state' : Actions × PrivateRegistry}
    (h : balances.foldlM (resolveBalance userAddress options used) (actions, registry) =
      .ok state') :
    (∀ entry ∈ balances, Resolves userAddress options used registry actions entry) ∧
      leaveBalances userAddress options used balances (actions, registry) = state' := by
  induction balances generalizing actions registry with
  | nil => exact ⟨nofun, foldlM_nil_eq_ok.mp h⟩
  | cons entry balances ih =>
    obtain ⟨⟨middle, middleRegistry⟩, hfirst, hrest⟩ := foldlM_cons_eq_ok.mp h
    have hone := resolveBalance_eq_ok hfirst
    obtain ⟨hall, hleave⟩ := ih hrest
    refine ⟨List.forall_mem_cons.mpr ⟨hone.resolves, fun e he => ?_⟩, ?_⟩
    · have hresolves := hall e he
      unfold Resolves at hresolves ⊢
      rwa [hone.reads.selectedFor_eq, hone.surplusOf] at hresolves
    · rw [leaveBalances, hfirst]
      exact hleave

/-! ### Parts of a resolution -/

section Pending

variable {provider : DiscoveryProvider} {pending : PendingNotes}

theorem startNotes_eq_some (h : startNotes actions options registry = .ok (some pending)) :
    actionBalances actions = .ok pending.balances ∧
      pending.usedNoteIds = actions.useNotes.map (fun u => u.note.id.toText) ∧
      pending.query = (notesQuery actions options registry pending.balances).map fun tokens =>
        (registry.cursor, tokens) := by
  unfold startNotes at h
  split_ifs at h
  · cases h
  · obtain ⟨balances, hbalances, hpending⟩ := bind_eq_ok.mp h
    obtain rfl := Option.some.inj (Except.ok.inj hpending)
    exact ⟨hbalances, rfl, rfl⟩

theorem startNotes_eq_none (h : startNotes actions options registry = .ok none) :
    actions.surpluses = none ∧ options.autoSelectNotes = none := by
  unfold startNotes at h
  split_ifs at h with hinactive
  · exact hinactive
  · obtain ⟨_, -, hnone⟩ := bind_eq_ok.mp h
    cases hnone

theorem discover_channels {registry' : PrivateRegistry}
    (h : pending.discover provider registry = .ok registry') :
    registry'.channels = registry.channels := by
  unfold PendingNotes.discover at h
  split at h
  · obtain rfl := Except.ok.inj h
    rfl
  · simp only [discoverInto, bind_eq_ok, pure_eq_ok] at h
    obtain ⟨_, -, rfl⟩ := h
    rfl

/-- A rest of a resolution that succeeds. -/
theorem finish_eq_ok {state' : Actions × PrivateRegistry}
    (h : pending.finish userAddress provider options (actions, registry) = .ok state') :
    ∃ discovered, pending.discover provider registry = .ok discovered ∧
      pending.balances.foldlM (resolveBalance userAddress options pending.usedNoteIds)
        (actions, discovered) = .ok state' := by
  simp only [PendingNotes.finish, bind_eq_ok] at h
  exact h

end Pending

/-! ### Amounts -/

theorem sum_amountIn_of_not_mem (h : t ∉ keys balances) (value : Felt × ℤ → ℤ) :
    (balances.map fun entry => amountIn entry.1 (value entry) t).sum = 0 := by
  refine List.sum_eq_zero fun x hx => ?_
  obtain ⟨entry, hentry, rfl⟩ := List.mem_map.mp hx
  exact if_neg fun (hsame : entry.1 = t) => h (hsame ▸ mem_keys_of_mem hentry)

/-- With one entry for each token, the balances add up to the balance of the token. -/
theorem sum_balances (hnodup : (keys balances).Nodup) (t : Felt) :
    (balances.map fun entry => amountIn entry.1 entry.2 t).sum = balanceOf balances t := by
  induction balances with
  | nil => rfl
  | cons entry balances ih =>
    rw [keys, List.map_cons, List.nodup_cons] at hnodup
    rw [List.map_cons, List.sum_cons]
    unfold balanceOf AddressMap.get
    by_cases h : entry.1 = t
    · rw [sum_amountIn_of_not_mem (h ▸ hnodup.1) Prod.snd, amountIn, if_pos h, add_zero,
        List.find?_cons_of_pos (by simpa using h)]
      rfl
    · rw [ih hnodup.2, amountIn, if_neg h, zero_add, List.find?_cons_of_neg (by simpa using h)]
      rfl

theorem sum_amountIn (token t : Felt) (amounts : List ℤ) :
    (amounts.map fun amount => amountIn token amount t).sum = amountIn token amounts.sum t := by
  induction amounts with
  | nil => exact amountIn_zero.symm
  | cons amount amounts ih =>
    rw [List.map_cons, List.sum_cons, ih, List.sum_cons]
    unfold amountIn
    split_ifs
    · rfl
    · rfl

/-- The selected notes bring the balances to what is left over. -/
theorem sum_selectedNotes (options : ExecuteOptions) (used : List (List Char))
    (registry : PrivateRegistry) (balances : List (Felt × ℤ)) (t : Felt) :
    ((selectedNotes options used registry balances).map fun u =>
        amountIn u.token u.note.amount t).sum +
      (balances.map fun entry => amountIn entry.1 entry.2 t).sum =
    (balances.map fun entry =>
      amountIn entry.1 (selectedFor options used registry entry.1 entry.2).2 t).sum := by
  induction balances with
  | nil => rfl
  | cons entry balances ih =>
    have hselected := sum_amountIn entry.1 t
      ((selectedFor options used registry entry.1 entry.2).1.map (·.amount))
    rw [List.map_map] at hselected
    have hentry : amountIn entry.1 (selectedFor options used registry entry.1 entry.2).2 t =
        amountIn entry.1 entry.2 t + amountIn entry.1
          ((selectedFor options used registry entry.1 entry.2).1.map (·.amount)).sum t := by
      rw [selectedFor_balance]
      unfold amountIn
      split_ifs
      · rfl
      · rfl
    rw [selectedNotes, List.flatMap_cons, List.map_append, List.sum_append, List.map_cons,
      List.map_cons, List.sum_cons, List.sum_cons, ← ih, hentry, List.map_map, ← hselected,
      selectedNotes]
    simp only [Function.comp_def]
    omega

end Resolution

/-! ### Selected notes -/

section Selected

variable {options : ExecuteOptions} {registry : PrivateRegistry} {balances : List (Felt × ℤ)}
  {used : List (List Char)} {t : Felt} {balance : ℤ} {note : Note}

theorem mem_notesOf_of_selected (h : note ∈ (selectedFor options used registry t balance).1) :
    note ∈ registry.notesOf t := by
  unfold selectedFor at h
  split_ifs at h
  · exact (List.mem_insertionSort _).mp ((selectNotes_sublist _ _ _ _).subset h)
  · cases h

theorem mem_selectedNotes_iff {u : UseNoteAction} :
    u ∈ selectedNotes options used registry balances ↔
      ∃ entry ∈ balances, u.token = entry.1 ∧
        u.note ∈ (selectedFor options used registry entry.1 entry.2).1 := by
  simp only [selectedNotes, List.mem_flatMap, List.mem_map]
  constructor
  · rintro ⟨entry, hentry, note, hnote, rfl⟩
    exact ⟨entry, hentry, rfl, hnote⟩
  · rintro ⟨entry, hentry, htoken, hnote⟩
    refine ⟨entry, hentry, u.note, hnote, ?_⟩
    rw [← htoken]

/-- Without a strategy no notes are selected. -/
theorem selectedNotes_eq_nil (h : options.autoSelectNotes = none) :
    selectedNotes options used registry balances = [] := by
  rw [selectedNotes, List.flatMap_eq_nil_iff]
  intro entry _
  unfold selectedFor selects
  rw [h]
  simp

end Selected

end PrivacyPool.Sdk
