import PrivacyPool.Refinement.Invariant

/-!
# What screening lets through

The server threads one optional screening subject through the loop over the
actions and compares it with the attestation at the end. This file compares that
loop with one that screens nothing and writes down every subject on its way. Where
nothing else fails, the transaction passes exactly when the subjects form a set
that the attestation covers, so their order and multiplicity play no role.

## Main definitions

* `collectAction` — a step of the loop that collects subjects instead of unifying them
* `Unscreened` — nothing but screening can fail
* `Screened` — a set of subjects and an attestation that covers it

## Main results

* `foldlM_unifyAddress_eq_ok` — unifying succeeds on lists without two elements
* `applyActions_iff_collect` — the server loop is the collecting loop, unified
* `screening_characterised` — when an application passes
-/

namespace PrivacyPool

open Fallible

variable {sn : Starknet} {invocation : Invocation sn} {tx : TxInfo} {world : World sn}
  {actions : Span ServerAction} {screening : Option ScreeningAttestation}

/-! ### Collecting the subjects -/

/-- The variables of the collecting loop. -/
structure CollectState (sn : Starknet) where
  world : World sn
  undepositedOpenNotes : Usize
  subjects : List ContractAddress

/-- The addresses that the policy of an invoked contract derives for its deposits. -/
def depositSubjects (policy : OpenNoteScreeningPolicy) (contractAddress : ContractAddress)
    (selector : Felt) (associatedAddresses : Option (Span ContractAddress)) :
    Except Error (List ContractAddress) :=
  match policy with
  | .required => return [contractAddress]
  | .exempt => return []
  | .delegated =>
    if selector = invokeWithComputationSelector then do
      let addresses ← expect associatedAddresses .invalidAssociatedAddresses
      require (addresses.1 ≠ []) .noAssociatedAddress
      return addresses.1
    else return []

/-- Call the external contract and apply its deposits, noting their subjects. -/
def collectInvoke (invocation : Invocation sn) (state : CollectState sn) (input : InvokeInput)
    (selector : Felt) : Except Error (CollectState sn) := do
  let (tokens, returnData) ←
    (invocation state.world input.contractAddress selector input.calldata).mapError .callFailed
  let world := { state.world with tokens }.emit
    (.externalContractInvoked ⟨input.contractAddress, selector⟩)
  let (deposits, associatedAddresses) ← deserializeInvokeReturnData returnData
  if deposits.1 = [] then return { state with world } else
    let subjects ← depositSubjects (world.pool.screeningPolicies input.contractAddress)
      input.contractAddress selector associatedAddresses
    let world ← deposits.1.foldlM (depositToOpenNote sn input.contractAddress) world
    let undepositedOpenNotes ← expect
      (checkedSub state.undepositedOpenNotes ⟨deposits.1.length, deposits.length_lt⟩)
      .tooManyOpenNotesDeposited
    return { world, undepositedOpenNotes, subjects := state.subjects ++ subjects }

/-- One step of the loop over the actions, with the subjects noted down instead of
unified. -/
def collectAction (invocation : Invocation sn) (state : CollectState sn) :
    ServerAction → Except Error (CollectState sn)
  | .transferFrom input => do
    let world ← applyTransferFrom sn state.world input
    return { state with world, subjects := state.subjects ++ [input.fromAddr] }
  | .invoke input => collectInvoke invocation state input invokeSelector
  | .invokeWithComputation input =>
    collectInvoke invocation state input invokeWithComputationSelector
  | action => do
    -- No other action reads or writes the subject.
    let next ← applyAction sn invocation ⟨state.world, state.undepositedOpenNotes, none⟩ action
    return { state with
      world := next.world, undepositedOpenNotes := next.undepositedOpenNotes }

/-! ### Unifying a list -/

theorem unifyAddress_eq_ok {subject subject' : Option ContractAddress}
    {reference : ContractAddress} :
    unifyAddress subject reference = .ok subject' ↔
      reference ≠ 0 ∧ (∀ a ∈ subject, a = reference) ∧ subject' = some reference := by
  cases subject with
  | none =>
    simp only [unifyAddress, bind_eq_ok, require_eq_ok, pure_eq_ok, exists_and_left, exists_const,
      Option.not_mem_none, false_implies, implies_true, true_and, eq_comm (b := subject')]
  | some a =>
    simp only [unifyAddress, bind_eq_ok, require_eq_ok, pure_eq_ok, exists_and_left, exists_const,
      Option.mem_def, Option.some.injEq, forall_eq']
    constructor
    · rintro ⟨hne, rfl, rfl⟩
      exact ⟨hne, rfl, rfl⟩
    · rintro ⟨hne, rfl, rfl⟩
      exact ⟨hne, rfl, rfl⟩

/-- Unifying a list succeeds when its elements are non-zero and agree with each
other and with the subject so far. -/
theorem foldlM_unifyAddress_eq_ok {subjects : List ContractAddress}
    {subject subject' : Option ContractAddress} :
    subjects.foldlM unifyAddress subject = .ok subject' ↔
      (∀ a ∈ subjects, a ≠ 0 ∧ subject' = some a) ∧
        (∀ a ∈ subject, subject' = some a) ∧ (subjects = [] → subject' = subject) := by
  induction subjects generalizing subject with
  | nil =>
    simp only [foldlM_nil_eq_ok, List.not_mem_nil, false_implies, implies_true, true_and,
      forall_const]
    exact ⟨fun h => ⟨fun a ha => h ▸ ha, h.symm⟩, fun h => h.2.symm⟩
  | cons reference subjects ih =>
    simp only [foldlM_cons_eq_ok, unifyAddress_eq_ok, ih, List.forall_mem_cons, reduceCtorEq,
      false_implies, and_true]
    constructor
    · rintro ⟨_, ⟨hne, hsame, rfl⟩, hall, hhead, -⟩
      have hhead := hhead reference rfl
      exact ⟨⟨⟨hne, hhead⟩, hall⟩, fun a ha => hsame a ha ▸ hhead⟩
    · rintro ⟨⟨⟨hne, hhead⟩, hall⟩, hsame⟩
      refine ⟨_, ⟨hne, fun a ha => ?_, rfl⟩, hall, fun a ha => ?_, fun _ => hhead⟩
      · exact Option.some.inj ((hsame a ha).symm.trans hhead)
      · rw [← Option.some.inj ha]
        exact hhead

theorem foldlM_unifyAddress_none_eq_ok_none {subjects : List ContractAddress} :
    subjects.foldlM unifyAddress none = .ok none ↔ subjects.toFinset = ∅ := by
  rw [foldlM_unifyAddress_eq_ok, List.toFinset_eq_empty_iff]
  constructor
  · rintro ⟨hall, -, -⟩
    exact List.eq_nil_iff_forall_not_mem.mpr fun a ha => Option.some_ne_none a (hall a ha).2.symm
  · rintro rfl
    simp

theorem foldlM_unifyAddress_none_eq_ok_some {subjects : List ContractAddress}
    {a : ContractAddress} :
    subjects.foldlM unifyAddress none = .ok (some a) ↔ subjects.toFinset = {a} ∧ a ≠ 0 := by
  rw [foldlM_unifyAddress_eq_ok, Finset.eq_singleton_iff_nonempty_unique_mem,
    List.toFinset_nonempty_iff]
  constructor
  · rintro ⟨hall, -, hempty⟩
    have hne : subjects ≠ [] := fun h => Option.some_ne_none a (hempty h)
    obtain ⟨b, hb⟩ := List.exists_mem_of_ne_nil subjects hne
    obtain ⟨hzero, hb⟩ := hall b hb
    refine ⟨⟨hne, fun x hx => ?_⟩, Option.some.inj hb ▸ hzero⟩
    exact (Option.some.inj (hall x (List.mem_toFinset.mp hx)).2).symm
  · rintro ⟨⟨hne, hall⟩, hzero⟩
    refine ⟨fun x hx => ?_, fun x hx => absurd hx (Option.not_mem_none x), fun h => absurd h hne⟩
    rw [hall x (List.mem_toFinset.mpr hx)]
    exact ⟨hzero, rfl⟩

/-! ### The loop, with and without screening -/

/-- The subjects of an invoke unify exactly when they are collected and unify as a
list. -/
theorem unifyDepositor_eq_ok {policy : OpenNoteScreeningPolicy} {contractAddress : ContractAddress}
    {selector : Felt} {associatedAddresses : Option (Span ContractAddress)}
    {subject subject' : Option ContractAddress} :
    unifyDepositor policy contractAddress selector associatedAddresses subject = .ok subject' ↔
      ∃ new, depositSubjects policy contractAddress selector associatedAddresses = .ok new ∧
        new.foldlM unifyAddress subject = .ok subject' := by
  cases policy with
  | required =>
    simp only [unifyDepositor, depositSubjects, pure_eq_ok, exists_eq_left', foldlM_cons_eq_ok,
      foldlM_nil_eq_ok, exists_eq_right]
  | exempt =>
    simp only [unifyDepositor, depositSubjects, pure_eq_ok, exists_eq_left', foldlM_nil_eq_ok]
  | delegated =>
    simp only [unifyDepositor, depositSubjects]
    split_ifs
    · simp only [bind_eq_ok, expect_eq_ok, require_eq_ok, pure_eq_ok, exists_and_left,
        exists_const]
      constructor
      · rintro ⟨addresses, hgiven, hne, hunify⟩
        exact ⟨addresses.1, ⟨addresses, hgiven, hne, rfl⟩, hunify⟩
      · rintro ⟨_, ⟨addresses, hgiven, hne, rfl⟩, hunify⟩
        exact ⟨addresses, hgiven, hne, hunify⟩
    · simp only [pure_eq_ok, exists_eq_left', foldlM_nil_eq_ok]

theorem applyInvokeAndDeposits_iff_collect {input : InvokeInput} {selector : Felt}
    {world world' : World sn} {undeposited undeposited' : Usize} (subjects : List ContractAddress)
    {subject subject' : Option ContractAddress} :
    applyInvokeAndDeposits sn invocation ⟨world, undeposited, subject⟩ input selector =
        .ok ⟨world', undeposited', subject'⟩ ↔
      ∃ new, collectInvoke invocation ⟨world, undeposited, subjects⟩ input selector =
          .ok ⟨world', undeposited', subjects ++ new⟩ ∧
        new.foldlM unifyAddress subject = .ok subject' := by
  simp only [applyInvokeAndDeposits, collectInvoke, bind_eq_ok, Prod.exists]
  constructor
  · rintro ⟨tokens, returnData, hcall, deposits, addresses, hreturn, h⟩
    split_ifs at h with hempty
    · obtain ⟨rfl, rfl, rfl⟩ := ApplyState.mk.inj (pure_eq_ok.mp h)
      refine ⟨[], ⟨tokens, returnData, hcall, deposits, addresses, hreturn, ?_⟩, rfl⟩
      rw [if_pos hempty, List.append_nil]
      rfl
    · obtain ⟨subject, hsubject, world, hdeposits, counter, hcounter, h⟩ := by
        simpa only [bind_eq_ok] using h
      obtain ⟨rfl, rfl, rfl⟩ := ApplyState.mk.inj (pure_eq_ok.mp h)
      -- The policy yields the same subjects either way.
      obtain ⟨new, hnew, hunify⟩ := unifyDepositor_eq_ok.mp hsubject
      refine ⟨new, ⟨tokens, returnData, hcall, deposits, addresses, hreturn, ?_⟩, hunify⟩
      rw [if_neg hempty]
      simp only [bind_eq_ok, pure_eq_ok]
      exact ⟨new, hnew, _, hdeposits, _, hcounter, rfl⟩
  · rintro ⟨new, ⟨tokens, returnData, hcall, deposits, addresses, hreturn, h⟩, hunify⟩
    refine ⟨tokens, returnData, hcall, deposits, addresses, hreturn, ?_⟩
    split_ifs at h ⊢ with hempty
    · obtain ⟨rfl, rfl, hsame⟩ := CollectState.mk.inj (pure_eq_ok.mp h)
      obtain rfl := List.append_cancel_left ((List.append_nil subjects).trans hsame)
      rw [foldlM_nil_eq_ok.mp hunify]
      rfl
    · simp only [bind_eq_ok, pure_eq_ok] at h ⊢
      obtain ⟨added, hadded, world, hdeposits, counter, hcounter, h⟩ := h
      obtain ⟨rfl, rfl, hsame⟩ := CollectState.mk.inj h
      obtain rfl := List.append_cancel_left hsame
      exact ⟨_, unifyDepositor_eq_ok.mpr ⟨added, hadded, hunify⟩, _, hdeposits, _, hcounter, rfl⟩

/-- An action other than a deposit or an invoke leaves the subject alone. -/
theorem applyAction_withSubject {action : ServerAction} (world : World sn) (undeposited : Usize)
    (subject : Option ContractAddress) (htransfer : ∀ input, action ≠ .transferFrom input)
    (hinvoke : ∀ input, action ≠ .invoke input)
    (hcompute : ∀ input, action ≠ .invokeWithComputation input) :
    applyAction sn invocation ⟨world, undeposited, subject⟩ action =
      (applyAction sn invocation ⟨world, undeposited, none⟩ action).map
        fun next => { next with screeningSubject := subject } := by
  cases action with
  | transferFrom input => exact absurd rfl (htransfer input)
  | invoke input => exact absurd rfl (hinvoke input)
  | invokeWithComputation input => exact absurd rfl (hcompute input)
  | writeOnce input =>
    cases hwrite : world.pool.applyWriteOnce input <;> simp [applyAction, hwrite, Except.map]
  | transferTo input =>
    cases hpaid : applyTransferTo sn world input <;> simp [applyAction, hpaid, Except.map]
  | emitOpenNoteCreated event =>
    cases hcount : checkedAdd undeposited 1 <;> simp [applyAction, hcount, Except.map]
  | append _ | emitViewingKeySet _ | emitWithdrawal _ | emitDeposit _ | emitEncNoteCreated _
  | emitNoteUsed _ => rfl

/-- An action is applied exactly when it is collected and its subjects unify with
the one so far. -/
theorem applyAction_iff_collect {action : ServerAction} {world world' : World sn}
    {undeposited undeposited' : Usize} (subjects : List ContractAddress)
    {subject subject' : Option ContractAddress} :
    applyAction sn invocation ⟨world, undeposited, subject⟩ action =
        .ok ⟨world', undeposited', subject'⟩ ↔
      ∃ new, collectAction invocation ⟨world, undeposited, subjects⟩ action =
          .ok ⟨world', undeposited', subjects ++ new⟩ ∧
        new.foldlM unifyAddress subject = .ok subject' := by
  cases action with
  | transferFrom input =>
    simp only [applyAction, collectAction, bind_eq_ok, pure_eq_ok, ApplyState.mk.injEq,
      CollectState.mk.injEq]
    constructor
    · rintro ⟨_, hunify, paid, hpaid, rfl, rfl, rfl⟩
      exact ⟨[input.fromAddr], ⟨paid, hpaid, rfl, rfl, rfl⟩,
        foldlM_cons_eq_ok.mpr ⟨_, hunify, rfl⟩⟩
    · rintro ⟨new, ⟨paid, hpaid, rfl, rfl, hnew⟩, hunify⟩
      obtain rfl := List.append_cancel_left hnew
      obtain ⟨unified, hfirst, hend⟩ := foldlM_cons_eq_ok.mp hunify
      exact ⟨unified, hfirst, paid, hpaid, rfl, rfl, foldlM_nil_eq_ok.mp hend⟩
  | invoke input | invokeWithComputation input => exact applyInvokeAndDeposits_iff_collect subjects
  -- These actions neither read nor change the subject.
  | writeOnce _ | append _ | transferTo _ | emitViewingKeySet _ | emitWithdrawal _ | emitDeposit _
  | emitOpenNoteCreated _ | emitEncNoteCreated _ | emitNoteUsed _ =>
    rw [applyAction_withSubject world undeposited subject (by simp) (by simp) (by simp)]
    simp only [collectAction, bind_eq_ok, pure_eq_ok, CollectState.mk.injEq]
    cases applyAction sn invocation ⟨world, undeposited, none⟩ _ with
    | error e => simp [Except.map]
    | ok next =>
      simp [Except.map, List.self_eq_append_right, and_assoc]

/-- Collecting an action adds to the subjects. -/
theorem collectAction_subjects {action : ServerAction} {state state' : CollectState sn}
    (h : collectAction invocation state action = .ok state') :
    state.subjects <+: state'.subjects := by
  have hinvoke : ∀ input selector, collectInvoke invocation state input selector = .ok state' →
      state.subjects <+: state'.subjects := by
    intro input selector h
    obtain ⟨⟨tokens, returnData⟩, -, h⟩ := bind_eq_ok.mp h
    obtain ⟨⟨deposits, addresses⟩, -, h⟩ := bind_eq_ok.mp h
    dsimp only at h
    split_ifs at h
    · obtain rfl := pure_eq_ok.mp h
      exact List.prefix_refl _
    · simp only [bind_eq_ok, pure_eq_ok] at h
      obtain ⟨new, -, _, -, _, -, rfl⟩ := h
      exact List.prefix_append _ _
  cases action with
  | transferFrom input =>
    obtain ⟨paid, -, h⟩ := bind_eq_ok.mp h
    obtain rfl := pure_eq_ok.mp h
    exact List.prefix_append _ _
  | invoke input | invokeWithComputation input => exact hinvoke _ _ h
  | _ =>
    obtain ⟨next, -, h⟩ := bind_eq_ok.mp h
    obtain rfl := pure_eq_ok.mp h
    exact List.prefix_refl _

/-- A loop over actions applies them exactly when it collects them and their
subjects unify. -/
theorem applyActions_iff_collect {actions : List ServerAction} {world world' : World sn}
    {undeposited undeposited' : Usize} (subjects : List ContractAddress)
    {subject subject' : Option ContractAddress} :
    actions.foldlM (applyAction sn invocation) ⟨world, undeposited, subject⟩ =
        .ok ⟨world', undeposited', subject'⟩ ↔
      ∃ new, actions.foldlM (collectAction invocation) ⟨world, undeposited, subjects⟩ =
          .ok ⟨world', undeposited', subjects ++ new⟩ ∧
        new.foldlM unifyAddress subject = .ok subject' := by
  induction actions generalizing world undeposited subjects subject with
  | nil =>
    simp only [foldlM_nil_eq_ok, ApplyState.mk.injEq, CollectState.mk.injEq,
      List.self_eq_append_right]
    constructor
    · rintro ⟨rfl, rfl, rfl⟩
      exact ⟨[], ⟨rfl, rfl, rfl⟩, rfl⟩
    · rintro ⟨_, ⟨rfl, rfl, rfl⟩, h⟩
      exact ⟨rfl, rfl, foldlM_nil_eq_ok.mp h⟩
  | cons action rest ih =>
    simp only [foldlM_cons_eq_ok]
    constructor
    · rintro ⟨⟨middle, count, unified⟩, hstep, hrest⟩
      obtain ⟨first, hfirst, hunify⟩ := (applyAction_iff_collect subjects).mp hstep
      obtain ⟨later, hlater, hunify'⟩ := (ih (subjects ++ first)).mp hrest
      rw [List.append_assoc] at hlater
      exact ⟨first ++ later, ⟨_, hfirst, hlater⟩, foldlM_append_eq_ok.mpr ⟨_, hunify, hunify'⟩⟩
    · rintro ⟨new, ⟨⟨middle, count, collected⟩, hstep, hrest⟩, hunify⟩
      obtain ⟨first, rfl⟩ := collectAction_subjects hstep
      -- Subjects are only added, so that those of the rest can be told apart.
      have hgrown : subjects ++ first <+: subjects ++ new :=
        foldlM_invariant (fun state => subjects ++ first <+: state.subjects)
          (fun _ _ _ _ hpre hstep => hpre.trans (collectAction_subjects hstep))
          (List.prefix_refl _) hrest
      obtain ⟨later, rfl⟩ := (List.prefix_append_right_inj subjects).mp hgrown
      rw [← List.append_assoc] at hrest
      obtain ⟨unified, hfirst, hlater⟩ := foldlM_append_eq_ok.mp hunify
      exact ⟨⟨middle, count, unified⟩, (applyAction_iff_collect subjects).mpr ⟨_, hstep, hfirst⟩,
        (ih _).mpr ⟨later, hrest, hlater⟩⟩

/-! ### What the check reads -/

/-- The facts that the final check reads: the screener's key and the block time. -/
def World.screener (world : World sn) : Felt × U64 :=
  (world.pool.screenerPublicKey, world.blockTimestamp)

theorem depositToOpenNote_screener {depositor : ContractAddress} {deposit : OpenNoteDeposit}
    {world world' : World sn} (h : depositToOpenNote sn depositor world deposit = .ok world') :
    world'.screener = world.screener := by
  simp only [depositToOpenNote, bind_eq_ok, pure_eq_ok] at h
  obtain ⟨-, -, -, -, _, -, -, -, _, -, -, -, -, -, -, -, _, -, -, -, _, -, rfl⟩ := h
  rfl

theorem applyAction_screener {action : ServerAction} {st st' : ApplyState sn}
    (h : applyAction sn invocation st action = .ok st') :
    st'.world.screener = st.world.screener := by
  cases action with
  | writeOnce input =>
    obtain ⟨pool, hwrite, h⟩ := bind_eq_ok.mp h
    obtain rfl := pure_eq_ok.mp h
    obtain ⟨-, -, -, rfl⟩ := applyWriteOnce_eq_ok.mp hwrite
    rfl
  | transferFrom input =>
    simp only [applyAction, applyTransferFrom, bind_eq_ok, pure_eq_ok] at h
    obtain ⟨subject, -, _, ⟨tokens, -, rfl⟩, rfl⟩ := h
    rfl
  | transferTo input =>
    simp only [applyAction, applyTransferTo, bind_eq_ok, pure_eq_ok] at h
    obtain ⟨_, ⟨tokens, -, rfl⟩, rfl⟩ := h
    rfl
  | invoke input | invokeWithComputation input =>
    obtain ⟨tokens, deposits, hinvoked⟩ := applyInvokeAndDeposits_eq_ok h
    exact foldlM_invariant (fun world => world.screener = st.world.screener)
      (fun _ _ _ _ hsame hstep => (depositToOpenNote_screener hstep).trans hsame) rfl
      hinvoked.deposited
  | emitOpenNoteCreated event =>
    obtain ⟨counter, -, h⟩ := bind_eq_ok.mp h
    obtain rfl := pure_eq_ok.mp h
    rfl
  | append _ | emitViewingKeySet _ | emitWithdrawal _ | emitDeposit _ | emitEncNoteCreated _
  | emitNoteUsed _ =>
    obtain rfl := pure_eq_ok.mp h
    rfl

/-! ### When a transaction passes -/

/-- Nothing but screening can make the call fail: its guards pass, the fee is paid,
the actions are collected and leave no open note undeposited. An attestation that
is looked at is dated so that none of the sums of the check overflows. -/
structure Unscreened (invocation : Invocation sn) (tx : TxInfo) (world : World sn)
    (actions : Span ServerAction) (screening : Option ScreeningAttestation) (tokens : sn.Tokens)
    (state : CollectState sn) : Prop where
  unlocked : world.pool.entered = false
  unpaused : world.pool.paused = false
  proof : validateProof sn world.enter tx actions = .ok ()
  fee : collectFee sn world.enter tx = .ok { world.enter with tokens }
  collected : actions.1.foldlM (collectAction invocation) ⟨{ world.enter with tokens }, 0, []⟩ =
    .ok state
  deposited : state.undepositedOpenNotes = 0
  clock : ∀ attestation ∈ screening, state.subjects ≠ [] →
    world.blockTimestamp.val + depositorValidationMaxFuture.val < 2 ^ 64 ∧
    (attestation.issuedAt.val ≤ world.blockTimestamp.val + depositorValidationMaxFuture.val →
      attestation.issuedAt.val + depositorValidationMaxAge.val < 2 ^ 64)

/-- The timestamp lies in the allowed window around the block time. -/
def InWindow (now issuedAt : U64) : Prop :=
  issuedAt.val ≤ now.val + depositorValidationMaxFuture.val ∧
    now.val ≤ issuedAt.val + depositorValidationMaxAge.val

/-- The attestation covers the subjects: there are none and none is given, or the
screener signed it for the only one, which is not zero, within the window. -/
def Screened (world : World sn) (screening : Option ScreeningAttestation)
    (subjects : Finset ContractAddress) : Prop :=
  (subjects = ∅ ∧ screening = none) ∨
    ∃ subject attestation, subjects = {subject} ∧ subject ≠ 0 ∧ screening = some attestation ∧
      isScreeningAttestationValid sn subject attestation world.pool.screenerPublicKey = true ∧
      InWindow world.blockTimestamp attestation.issuedAt

/-- The final check passes for a subject when its sums do not overflow, the
timestamp is in the window and the signature is valid. -/
theorem verifyScreening_eq_ok {attestation : ScreeningAttestation} {subject : ContractAddress} :
    verifyScreening sn world attestation subject = .ok () ↔
      world.blockTimestamp.val + depositorValidationMaxFuture.val < 2 ^ 64 ∧
      attestation.issuedAt.val + depositorValidationMaxAge.val < 2 ^ 64 ∧
      InWindow world.blockTimestamp attestation.issuedAt ∧
      isScreeningAttestationValid sn subject attestation world.pool.screenerPublicKey = true := by
  simp only [verifyScreening, bind_eq_ok, checkedAdd_eq_ok, require_eq_ok, exists_and_left,
    exists_const, InWindow, Fin.le_def]
  constructor
  · rintro ⟨latest, hlatest, hfuture, expiry, hexpiry, hpast, hsigned⟩
    rw [hlatest] at hfuture
    rw [hexpiry] at hpast
    exact ⟨hlatest ▸ latest.isLt, hexpiry ▸ expiry.isLt, ⟨hfuture, hpast⟩, hsigned⟩
  · rintro ⟨hlatest, hexpiry, ⟨hfuture, hpast⟩, hsigned⟩
    exact ⟨⟨_, hlatest⟩, rfl, hfuture, ⟨_, hexpiry⟩, rfl, hpast, hsigned⟩

/-- The final check reads the key of the screener and the block time only. -/
theorem checkScreening_congr {world' : World sn} (h : world'.screener = world.screener)
    (subject : Option ContractAddress) :
    checkScreening sn world' screening subject = checkScreening sn world screening subject := by
  obtain ⟨hkey, hnow⟩ := Prod.mk.inj h
  cases subject with
  | none => rfl
  | some a => simp only [checkScreening, verifyScreening, hkey, hnow]

/-- What unification and the final check let through together. -/
theorem checkScreening_iff_screened {subjects : List ContractAddress}
    (hclock : ∀ attestation ∈ screening, subjects ≠ [] →
      world.blockTimestamp.val + depositorValidationMaxFuture.val < 2 ^ 64 ∧
      (attestation.issuedAt.val ≤ world.blockTimestamp.val + depositorValidationMaxFuture.val →
        attestation.issuedAt.val + depositorValidationMaxAge.val < 2 ^ 64)) :
    (∃ subject, subjects.foldlM unifyAddress none = .ok subject ∧
        checkScreening sn world screening subject = .ok ()) ↔
      Screened world screening subjects.toFinset := by
  constructor
  · rintro ⟨_ | subject, hunify, hcheck⟩
    · exact Or.inl ⟨foldlM_unifyAddress_none_eq_ok_none.mp hunify, require_eq_ok.mp hcheck⟩
    · obtain ⟨hone, hne⟩ := foldlM_unifyAddress_none_eq_ok_some.mp hunify
      obtain ⟨attestation, hgiven, hverify⟩ := bind_eq_ok.mp hcheck
      obtain ⟨-, -, hwindow, hsigned⟩ := verifyScreening_eq_ok.mp hverify
      exact Or.inr ⟨subject, attestation, hone, hne, expect_eq_ok.mp hgiven, hsigned, hwindow⟩
  · rintro (⟨hempty, rfl⟩ | ⟨subject, attestation, hone, hne, rfl, hsigned, hwindow⟩)
    · exact ⟨none, foldlM_unifyAddress_none_eq_ok_none.mpr hempty, rfl⟩
    · refine ⟨some subject, foldlM_unifyAddress_none_eq_ok_some.mpr ⟨hone, hne⟩, ?_⟩
      have hsubjects : subjects ≠ [] := by
        rintro rfl
        exact Finset.singleton_ne_empty subject hone.symm
      obtain ⟨hlatest, hexpiry⟩ := hclock attestation rfl hsubjects
      exact bind_eq_ok.mpr ⟨attestation, rfl,
        verifyScreening_eq_ok.mpr ⟨hlatest, hexpiry hwindow.1, hwindow, hsigned⟩⟩

/-- A call that succeeds passes everything that is not screening, and its subjects
unify to one that passes the final check. -/
theorem applyActions_eq_ok_iff_collect {world' : World sn} :
    applyActions sn invocation tx world actions screening = .ok world' ↔
      ∃ tokens state, Unscreened invocation tx world actions screening tokens state ∧
        world' = guardEnd sn state.world ∧
        ∃ subject, state.subjects.foldlM unifyAddress none = .ok subject ∧
          checkScreening sn world screening subject = .ok () := by
  rw [applyActions_iff]
  constructor
  · rintro ⟨tokens, ⟨after, undeposited, subject⟩, h⟩
    obtain ⟨subjects, hcollected, hunify⟩ := (applyActions_iff_collect []).mp h.applied
    have hframe : after.screener = world.screener :=
      foldlM_invariant (fun st : ApplyState sn => st.world.screener = world.screener)
        (fun _ _ _ _ hsame hstep => (applyAction_screener hstep).trans hsame) rfl h.applied
    have hcheck := h.screened
    rw [checkScreening_congr hframe] at hcheck
    refine ⟨tokens, ⟨after, undeposited, subjects⟩, ⟨h.unlocked, h.unpaused, h.proof, h.fee,
      hcollected, h.deposited, fun attestation hgiven hne => ?_⟩, h.result, subject, hunify, hcheck⟩
    -- With a subject, the check has formed its sums.
    cases subject with
    | none =>
      exact absurd (foldlM_unifyAddress_none_eq_ok_none.mp hunify) (by simpa using hne)
    | some a =>
      obtain ⟨_, hgiven', hverify⟩ := bind_eq_ok.mp hcheck
      obtain rfl := Option.some.inj ((Option.mem_def.mp hgiven).symm.trans (expect_eq_ok.mp hgiven'))
      obtain ⟨hlatest, hexpiry, -, -⟩ := verifyScreening_eq_ok.mp hverify
      exact ⟨hlatest, fun _ => hexpiry⟩
  · rintro ⟨tokens, ⟨after, undeposited, subjects⟩, h, rfl, subject, hunify, hcheck⟩
    have happlied := (applyActions_iff_collect []).mpr ⟨subjects, h.collected, hunify⟩
    have hframe : after.screener = world.screener :=
      foldlM_invariant (fun st : ApplyState sn => st.world.screener = world.screener)
        (fun _ _ _ _ hsame hstep => (applyAction_screener hstep).trans hsame) rfl happlied
    refine ⟨tokens, ⟨after, undeposited, subject⟩, h.unlocked, h.unpaused, h.proof, h.fee,
      happlied, h.deposited, ?_, rfl⟩
    rw [checkScreening_congr hframe]
    exact hcheck

/-- The collecting loop of a call has one outcome. -/
theorem Unscreened.unique {tokens tokens' : sn.Tokens} {state state' : CollectState sn}
    (h : Unscreened invocation tx world actions screening tokens state)
    (h' : Unscreened invocation tx world actions screening tokens' state') : state = state' := by
  have htokens : tokens = tokens' :=
    congrArg World.tokens (Except.ok.inj (h.fee.symm.trans h'.fee))
  subst htokens
  exact Except.ok.inj (h.collected.symm.trans h'.collected)

/-- Where nothing else fails, a call succeeds exactly when its attestation covers
the set of its subjects. -/
theorem applyActions_isOk_iff_screened {tokens : sn.Tokens} {state : CollectState sn}
    (h : Unscreened invocation tx world actions screening tokens state) :
    (applyActions sn invocation tx world actions screening).isOk = true ↔
      Screened world screening state.subjects.toFinset := by
  rw [← checkScreening_iff_screened h.clock]
  constructor
  · intro hok
    obtain ⟨tokens', state', h', -, hscreened⟩ :=
      applyActions_eq_ok_iff_collect.mp (eq_ok_valueOr world hok)
    rwa [h.unique h']
  · intro hscreened
    rw [applyActions_eq_ok_iff_collect.mpr ⟨tokens, state, h, rfl, hscreened⟩]
    rfl

/-- **Screening.** Where nothing else fails, `apply_actions` succeeds exactly when
its actions require no screening and none is attested, or the screener attests the
only address that they require, for a time around the block's. A call that
succeeds is one where nothing else fails, and of two calls at one time whose
subjects form the same set, in whatever order and however often they arise, both
succeed or neither does. -/
theorem screening_characterised :
    (∀ world', applyActions sn invocation tx world actions screening = .ok world' →
      ∃ tokens state, Unscreened invocation tx world actions screening tokens state) ∧
    (∀ tokens state, Unscreened invocation tx world actions screening tokens state →
      ((applyActions sn invocation tx world actions screening).isOk = true ↔
        Screened world screening state.subjects.toFinset) ∧
      ∀ invocation' tx' world' actions' tokens' state',
        Unscreened invocation' tx' world' actions' screening tokens' state' →
        world'.screener = world.screener →
        state'.subjects.toFinset = state.subjects.toFinset →
        ((applyActions sn invocation' tx' world' actions' screening).isOk = true ↔
          (applyActions sn invocation tx world actions screening).isOk = true)) := by
  refine ⟨fun world' hok => ?_, fun tokens state h => ⟨applyActions_isOk_iff_screened h, ?_⟩⟩
  · obtain ⟨tokens, state, h, -⟩ := applyActions_eq_ok_iff_collect.mp hok
    exact ⟨tokens, state, h⟩
  · intro invocation' tx' world' actions' tokens' state' h' hscreener hsubjects
    obtain ⟨hkey, hnow⟩ := Prod.mk.inj hscreener
    rw [applyActions_isOk_iff_screened h, applyActions_isOk_iff_screened h', hsubjects, Screened,
      Screened, hkey, hnow]

theorem screening_characterised_sample :
    ∃ tokens state, Unscreened Sample.invocation Sample.tx Sample.deployed Sample.funding.actions
      (some Sample.attestation) tokens state ∧
      Screened Sample.deployed (some Sample.attestation) state.subjects.toFinset := by
  have happlied := Sample.funding_applies
  obtain ⟨tokens, state, h⟩ := screening_characterised.1 _ happlied
  refine ⟨tokens, state, h, (screening_characterised.2 tokens state h).1.mp ?_⟩
  exact congrArg Except.isOk happlied

end PrivacyPool
