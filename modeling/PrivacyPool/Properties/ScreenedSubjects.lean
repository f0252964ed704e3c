import PrivacyPool.Interceptor.ScreenedAddress
import PrivacyPool.Properties.AnonymizerCollection
import PrivacyPool.Properties.CompileSoundness
import PrivacyPool.Properties.Screening
import PrivacyPool.Properties.ShadowAccounts
import PrivacyPool.ShadowAccount.SharedRun

/-!
# The interceptor screens whom the pool screens

The interceptor decides from the client actions, before anything is proved, whom to
screen; the pool learns it when the list is applied, from what the invoked contract
returns. Both agree. The pool counts open notes, so that an invoke returns deposits exactly
when the list creates open notes, and the address that a delegated depositor associates
with them is derived from the commitment that the list was compiled with.

## Main definitions

* `CompiledShape` — a compiled list: plain actions, and an invoke at most at its end
* `Predicts` — a prediction that is right about a set of subjects

## Main results

* `compiledShape_of_main` — what `main` outputs has this shape
* `Collected.subjects` — the subjects of a list of this shape
* `screened_address_agrees` — the interceptor's address is the pool's subject
-/

namespace PrivacyPool

open Fallible Interceptor

/-! ### What an action contributes -/

/-- The depositor of a server action. -/
def ServerAction.from? : ServerAction → Option ContractAddress
  | transferFrom input => some input.fromAddr
  | _ => none

/-- Whether a server action announces an open note. -/
def ServerAction.announcesOpenNote : ServerAction → Bool
  | emitOpenNoteCreated _ => true
  | _ => false

/-- Whether a server action calls an external contract. -/
def ServerAction.isInvoke : ServerAction → Bool
  | invoke _ | invokeWithComputation _ => true
  | _ => false

variable {sn : Starknet} {call : CallContract} {userAddr : ContractAddress}
  {userPrivateKey : Felt}

/-- Client actions other than invokes, and the server actions compiled from them. -/
structure PlainPart (userAddr : ContractAddress) (plain : List ClientAction)
    (first : List ServerAction) : Prop where
  noInvoke : ∀ action ∈ plain, action.phase ≠ invokePhase
  noCall : ∀ action ∈ first, action.isInvoke = false
  depositors : first.filterMap ServerAction.from? =
    (plain.filter ClientAction.isDeposit).map fun _ => userAddr
  openNotes : first.countP ServerAction.announcesOpenNote =
    plain.countP ClientAction.createsOpenNote

theorem PlainPart.nil : PlainPart userAddr [] [] := ⟨by simp, by simp, rfl, rfl⟩

theorem PlainPart.append {plain plain' : List ClientAction} {first first' : List ServerAction}
    (h : PlainPart userAddr plain first) (h' : PlainPart userAddr plain' first') :
    PlainPart userAddr (plain ++ plain') (first ++ first') where
  noInvoke action haction := (List.mem_append.mp haction).elim (h.noInvoke _) (h'.noInvoke _)
  noCall action haction := (List.mem_append.mp haction).elim (h.noCall _) (h'.noCall _)
  depositors := by
    rw [List.filterMap_append, List.filter_append, List.map_append, h.depositors, h'.depositors]
  openNotes := by rw [List.countP_append, List.countP_append, h.openNotes, h'.openNotes]

/-- A client action that is not an invoke compiles to a plain part. -/
theorem compileAction_plain {pool : Pool} {balances balances' : TokenBalances}
    {action : ClientAction} {actions : List ServerAction} (hplain : action.phase ≠ invokePhase)
    (h : compileAction sn pool call userAddr userPrivateKey balances action =
      .ok (actions, balances')) : PlainPart userAddr [action] actions := by
  cases action with
  | invokeExternal _ | computeAndInvoke _ => exact absurd rfl hplain
  | setViewingKey _ | openChannel _ | openSubchannel _ | createOpenNote _ =>
    simp only [compileAction, setViewingKey, openChannel, openSubchannel, createOpenNote,
      toWriteOnceAction, bind_eq_ok, pure_eq_ok, Prod.mk.injEq] at h
    obtain ⟨_, h, rfl, -⟩ := h
    refine ⟨by simpa using hplain, ?_, ?_, ?_⟩ <;> grind [ServerAction.from?,
      ServerAction.announcesOpenNote, ServerAction.isInvoke, ClientAction.isDeposit,
      ClientAction.createsOpenNote]
  | deposit _ | withdraw _ | useNote _ | createEncNote _ =>
    simp only [compileAction, deposit, withdraw, useNote, createEncNote, toWriteOnceAction,
      bind_eq_ok, pure_eq_ok, Prod.mk.injEq] at h
    refine ⟨by simpa using hplain, ?_, ?_, ?_⟩ <;> grind [ServerAction.from?,
      ServerAction.announcesOpenNote, ServerAction.isInvoke, ClientAction.isDeposit,
      ClientAction.createsOpenNote]

/-- The end of a client list, and the server action compiled from it. -/
inductive Ending (sn : Starknet) (call : CallContract) (userAddr : ContractAddress)
    (userPrivateKey : Felt) : List ClientAction → List ServerAction → Prop
  | none : Ending sn call userAddr userPrivateKey [] []
  | invoke (input : InvokeExternalInput) : input.contractAddress ≠ 0 → Ending sn call userAddr userPrivateKey
      [.invokeExternal input] [.invoke ⟨input.contractAddress, input.calldata⟩]
  | compute (input : ComputeAndInvokeInput) (computeResult calldata : Span Felt) :
      input.contractAddress ≠ 0 → call input.contractAddress privacyComputeSelector
        (sn.computeIdentityKey userAddr userPrivateKey input.contractAddress ::
          input.computeAdditionalData.1) = .ok computeResult →
      calldata.1 = computeResult.1 ++ input.invokeAdditionalData.1 →
      Ending sn call userAddr userPrivateKey [.computeAndInvoke input]
        [.invokeWithComputation ⟨input.contractAddress, calldata⟩]

/-- A compiled list: plain actions, and an invoke at most at its end. -/
structure CompiledShape (sn : Starknet) (call : CallContract) (userAddr : ContractAddress)
    (userPrivateKey : Felt) (clientActions : List ClientAction) (actions : List ServerAction)
    (plain ending : List ClientAction) (first final : List ServerAction) : Prop where
  client : clientActions = plain ++ ending
  server : actions = first ++ final
  part : PlainPart userAddr plain first
  ends : Ending sn call userAddr userPrivateKey ending final

/-- An invoke compiles to its server action. -/
theorem compileAction_ending {pool : Pool} {balances balances' : TokenBalances}
    {action : ClientAction} {actions : List ServerAction} (hinvoke : action.phase = invokePhase)
    (h : compileAction sn pool call userAddr userPrivateKey balances action =
      .ok (actions, balances')) : Ending sn call userAddr userPrivateKey [action] actions := by
  cases action with
  | invokeExternal input =>
    simp only [compileAction, invokeExternal, InvokeExternalInput.assertValid, bind_eq_ok,
      require_eq_ok, pure_eq_ok, Prod.mk.injEq] at h
    obtain ⟨_, ⟨-, hne, rfl⟩, rfl, -⟩ := h
    exact .invoke input hne
  | computeAndInvoke input =>
    obtain ⟨compiled, hcompiled, hresult⟩ := bind_eq_ok.mp h
    obtain ⟨rfl, -⟩ := Prod.mk.inj (pure_eq_ok.mp hresult)
    obtain ⟨computeResult, calldata, hne, rfl, hcall, hcalldata⟩ :=
      computeAndInvoke_eq_ok hcompiled
    exact .compute input computeResult calldata hne hcall hcalldata
  | _ => simp [ClientAction.phase, accountPhase, invokePhase] at hinvoke

/-- A loop over client actions compiles them to a list of the shape. -/
theorem compiledShape_of_foldlM {clientActions : List ClientAction} {state state' : CompileState}
    (h : clientActions.foldlM (compileStep sn call userAddr userPrivateKey) state = .ok state') :
    ∃ actions plain ending first final, state'.serverActions = state.serverActions ++ actions ∧
      CompiledShape sn call userAddr userPrivateKey clientActions actions plain ending first
        final := by
  induction clientActions generalizing state with
  | nil =>
    obtain rfl := foldlM_nil_eq_ok.mp h
    exact ⟨[], [], [], [], [], (List.append_nil _).symm, rfl, rfl, .nil, .none⟩
  | cons action rest ih =>
    obtain ⟨middle, hstep, hrest⟩ := foldlM_cons_eq_ok.mp h
    have hcompiled : ∃ pool flag compiled balances phase,
        compileAction sn state.pool call userAddr userPrivateKey state.tokenBalances action =
          .ok (compiled, balances) ∧
        middle = ⟨pool, state.serverActions ++ compiled, phase, balances, flag⟩ := by
      simp only [compileStep, bind_eq_ok, pure_eq_ok] at hstep
      obtain ⟨phase, -, ⟨compiled, balances⟩, hcompile, ⟨pool, flag⟩, -, rfl⟩ := hstep
      exact ⟨pool, flag, compiled, balances, phase, hcompile, rfl⟩
    obtain ⟨pool, flag, compiled, balances, phase, hcompile, rfl⟩ := hcompiled
    by_cases hinvoke : action.phase = invokePhase
    · -- Nothing follows an invoke.
      obtain rfl := eq_nil_of_invoke hinvoke h
      obtain rfl := foldlM_nil_eq_ok.mp hrest
      exact ⟨compiled, [], [action], [], compiled, rfl, rfl, rfl, .nil,
        compileAction_ending hinvoke hcompile⟩
    · obtain ⟨actions, plain, ending, first, final, hactions, hshape⟩ := ih hrest
      refine ⟨compiled ++ actions, action :: plain, ending, compiled ++ first, final, ?_, ?_, ?_,
        (compileAction_plain hinvoke hcompile).append hshape.part, hshape.ends⟩
      · rw [hactions, List.append_assoc]
      · rw [hshape.client, List.cons_append]
      · rw [hshape.server, List.append_assoc]

/-- What `main` outputs has the shape of its client list. -/
theorem compiledShape_of_main {pool simulated : Pool} {clientActions : List ClientAction}
    {actions : List ServerAction}
    (h : main sn call pool userAddr userPrivateKey clientActions = .ok (actions, simulated)) :
    ∃ plain ending first final,
      CompiledShape sn call userAddr userPrivateKey clientActions actions plain ending first
        final := by
  obtain ⟨-, -, -, state, hloop, -, -, rfl, -⟩ := main_eq_ok h
  obtain ⟨actions, plain, ending, first, final, hactions, hshape⟩ := compiledShape_of_foldlM hloop
  have hnil : (CompileState.start pool).serverActions = [] := rfl
  rw [hactions, hnil, List.nil_append]
  exact ⟨plain, ending, first, final, hshape⟩

/-! ### What the pool collects -/

section Collect

variable {D : Domain} {platform : AnonymizerPlatform sn} {address : AddressFormula}
  {invocation : Invocation sn} {state state' : CollectState sn}

/-- Plain actions add their depositors to the subjects and count their open notes; the
policies and the shadow accounts stay. -/
structure PlainCollected (platform : AnonymizerPlatform sn) (first : List ServerAction)
    (state state' : CollectState sn) : Prop where
  subjects : state'.subjects = state.subjects ++ first.filterMap ServerAction.from?
  counted : state'.undepositedOpenNotes.val =
    state.undepositedOpenNotes.val + first.countP ServerAction.announcesOpenNote
  policies : state'.world.pool.screeningPolicies = state.world.pool.screeningPolicies
  accounts : platform.shadowAccounts state'.world.tokens =
    platform.shadowAccounts state.world.tokens

theorem collectAction_plain (hkeeps : platform.Keeps) {action : ServerAction}
    (hplain : action.isInvoke = false)
    (h : collectAction invocation state action = .ok state') :
    PlainCollected platform [action] state state' := by
  cases action with
  | invoke _ | invokeWithComputation _ => cases hplain
  -- The only plain action with a subject.
  | transferFrom input =>
    simp only [collectAction, applyTransferFrom, bind_eq_ok, pure_eq_ok, transferred_eq_ok] at h
    obtain ⟨_, ⟨tokens, hpaid, rfl⟩, rfl⟩ := h
    exact ⟨rfl, rfl, rfl, hkeeps.transferFrom hpaid⟩
  | transferTo input =>
    simp only [collectAction, applyAction, applyTransferTo, bind_eq_ok, pure_eq_ok,
      transferred_eq_ok] at h
    obtain ⟨_, ⟨_, ⟨tokens, hpaid, rfl⟩, rfl⟩, rfl⟩ := h
    exact ⟨(List.append_nil _).symm, rfl, rfl, hkeeps.transfer hpaid⟩
  | writeOnce input =>
    simp only [collectAction, applyAction, bind_eq_ok, pure_eq_ok] at h
    obtain ⟨_, ⟨pool, hwrite, rfl⟩, rfl⟩ := h
    obtain ⟨-, -, -, rfl⟩ := applyWriteOnce_eq_ok.mp hwrite
    exact ⟨(List.append_nil _).symm, rfl, rfl, rfl⟩
  | emitOpenNoteCreated event =>
    simp only [collectAction, applyAction, bind_eq_ok, pure_eq_ok, checkedAdd_eq_ok] at h
    obtain ⟨_, ⟨counter, hcounter, rfl⟩, rfl⟩ := h
    exact ⟨(List.append_nil _).symm, hcounter, rfl, rfl⟩
  | append _ | emitViewingKeySet _ | emitWithdrawal _ | emitDeposit _ | emitEncNoteCreated _
  | emitNoteUsed _ =>
    simp only [collectAction, applyAction, bind_eq_ok, pure_eq_ok] at h
    obtain ⟨_, rfl, rfl⟩ := h
    exact ⟨(List.append_nil _).symm, rfl, rfl, rfl⟩

theorem PlainCollected.nil : PlainCollected platform [] state state :=
  ⟨(List.append_nil _).symm, rfl, rfl, rfl⟩

theorem PlainCollected.append {state'' : CollectState sn} {first first' : List ServerAction}
    (h : PlainCollected platform first state state')
    (h' : PlainCollected platform first' state' state'') :
    PlainCollected platform (first ++ first') state state'' where
  subjects := by rw [h'.subjects, h.subjects, List.filterMap_append, List.append_assoc]
  counted := by rw [h'.counted, h.counted, List.countP_append, Nat.add_assoc]
  policies := h'.policies.trans h.policies
  accounts := h'.accounts.trans h.accounts

theorem foldlM_collectAction_plain (hkeeps : platform.Keeps) {first : List ServerAction}
    (hplain : ∀ action ∈ first, action.isInvoke = false)
    (h : first.foldlM (collectAction invocation) state = .ok state') :
    PlainCollected platform first state state' := by
  induction first generalizing state with
  | nil =>
    obtain rfl := foldlM_nil_eq_ok.mp h
    exact .nil
  | cons action rest ih =>
    obtain ⟨middle, hstep, hrest⟩ := foldlM_cons_eq_ok.mp h
    rw [List.forall_mem_cons] at hplain
    exact (collectAction_plain hkeeps hplain.1 hstep).append (ih hplain.2 hrest)

/-- What collecting an invoke does: the contract is called, as many open notes are struck off
as it returns deposits, and with deposits the policy derives subjects. -/
theorem collectInvoke_eq_ok {input : InvokeInput} {selector : Felt}
    (h : collectInvoke invocation state input selector = .ok state') :
    ∃ tokens returnData deposits addresses new,
      invocation state.world input.contractAddress selector input.calldata =
        .ok (tokens, returnData) ∧
      deserializeInvokeReturnData returnData = .ok (deposits, addresses) ∧
      state'.undepositedOpenNotes.val + deposits.1.length = state.undepositedOpenNotes.val ∧
      state'.subjects = state.subjects ++ new ∧
      (deposits.1 = [] ∧ new = [] ∨ deposits.1 ≠ [] ∧
        depositSubjects (state.world.pool.screeningPolicies input.contractAddress)
          input.contractAddress selector addresses = .ok new) := by
  obtain ⟨⟨tokens, returnData⟩, hcall, h⟩ := bind_eq_ok.mp h
  obtain ⟨⟨deposits, addresses⟩, hreturn, h⟩ := bind_eq_ok.mp h
  rw [mapError_eq_ok] at hcall
  dsimp only at h
  split_ifs at h with hempty
  · obtain rfl := pure_eq_ok.mp h
    exact ⟨tokens, returnData, deposits, addresses, [], hcall, hreturn, by rw [hempty]; rfl,
      (List.append_nil _).symm, Or.inl ⟨hempty, rfl⟩⟩
  · simp only [bind_eq_ok, expect_eq_ok, pure_eq_ok, checkedSub_eq_some] at h
    obtain ⟨new, hnew, _, -, counter, hcounter, rfl⟩ := h
    exact ⟨tokens, returnData, deposits, addresses, new, hcall, hreturn, hcounter, rfl,
      Or.inr ⟨hempty, hnew⟩⟩

/-- The invoke at the end of a list makes one deposit for each open note that is left, and
its policy derives subjects exactly when there are any. -/
theorem collectInvoke_last {input : InvokeInput} {selector : Felt}
    (h : collectInvoke invocation state input selector = .ok state')
    (hdeposited : state'.undepositedOpenNotes = 0) :
    ∃ tokens returnData deposits addresses new,
      invocation state.world input.contractAddress selector input.calldata =
        .ok (tokens, returnData) ∧
      deserializeInvokeReturnData returnData = .ok (deposits, addresses) ∧
      deposits.1.length = state.undepositedOpenNotes.val ∧
      state'.subjects = state.subjects ++ new ∧
      (state.undepositedOpenNotes.val = 0 → new = []) ∧
      (state.undepositedOpenNotes.val ≠ 0 →
        depositSubjects (state.world.pool.screeningPolicies input.contractAddress)
          input.contractAddress selector addresses = .ok new) := by
  obtain ⟨tokens, returnData, deposits, addresses, new, hcall, hreturn, hcount, hsubjects, hnew⟩ :=
    collectInvoke_eq_ok h
  have hlength : deposits.1.length = state.undepositedOpenNotes.val := by
    rw [hdeposited] at hcount
    rw [← hcount]
    exact (Nat.zero_add _).symm
  refine ⟨tokens, returnData, deposits, addresses, new, hcall, hreturn, hlength, hsubjects, ?_, ?_⟩
  · intro hzero
    rcases hnew with ⟨-, hnone⟩ | ⟨hne, -⟩
    · exact hnone
    · exact absurd (List.length_eq_zero_iff.mp (hlength.trans hzero)) hne
  · intro hsome
    rcases hnew with ⟨hempty, -⟩ | ⟨-, hderived⟩
    · rw [hempty] at hlength
      exact absurd hlength.symm hsome
    · exact hderived

/-! ### What the anonymizer returns -/

theorem toSpan_eq_ok {α : Type} {elems : List α} {span : Span α} (h : toSpan elems = .ok span) :
    span.1 = elems := by
  rw [toSpan, expect_eq_ok] at h
  split at h
  · exact (congrArg Subtype.val (Option.some.inj h)).symm
  · cases h

/-- The loop over the open notes makes one deposit for each. -/
theorem collectOpenNotes_length {shadowAccount : ContractAddress}
    {snapshots : List (OpenNote × ℕ)} {deposits : List OpenNoteDeposit}
    {tokens tokens' : sn.Tokens}
    (h : collectOpenNotes platform shadowAccount snapshots tokens = .ok (deposits, tokens')) :
    deposits.length = snapshots.length := by
  simp only [collectOpenNotes, bind_eq_ok, pure_eq_ok] at h
  obtain ⟨loop, hloop, last, -, hresult⟩ := h
  obtain ⟨rfl, -⟩ := Prod.mk.inj hresult
  have hgrown : ∀ {rest : List (OpenNote × ℕ)} {before after : CollectLoop sn},
      rest.foldlM (collectOpenNote platform shadowAccount) before = .ok after →
      after.deposits.length = before.deposits.length + rest.length := by
    intro rest
    induction rest with
    | nil =>
      intro before after hrun
      obtain rfl := foldlM_nil_eq_ok.mp hrun
      rfl
    | cons snapshot rest ih =>
      intro before after hrun
      obtain ⟨middle, hstep, hrest⟩ := foldlM_cons_eq_ok.mp hrun
      simp only [collectOpenNote, bind_eq_ok, pure_eq_ok] at hstep
      obtain ⟨_, -, -, -, _, -, deposit, -, rfl⟩ := hstep
      rw [ih hrest, List.length_append, List.length_cons, List.length_cons, List.length_nil]
      omega
  have hlength := hgrown hloop
  rwa [List.length_nil, Nat.zero_add] at hlength

/-- With deposits the anonymizer associates the derived account of the commitment that heads
its calldata, and it makes one deposit for each open note that the calldata names. -/
theorem privacyInvokeEntryPoint_returns (hkeeps : platform.Keeps)
    (hdeploys : platform.DeploysAt address) {tokens tokens' : sn.Tokens}
    (hderived : Derived platform address tokens) {caller : ContractAddress}
    {calldata : Span Felt} {returnData : List Felt} {deposits : Span OpenNoteDeposit}
    {addresses : Option (Span ContractAddress)}
    (h : privacyInvokeEntryPoint platform caller calldata tokens = .ok (tokens', returnData))
    (hreturn : deserializeInvokeReturnData returnData = .ok (deposits, addresses)) :
    ∃ (identityCommitment : Felt) (calls : Span Call) (openNotes : Span OpenNote),
      calldata.1 = identityCommitment :: (serialize calls ++ serialize openNotes) ∧
      deposits.1.length = openNotes.1.length ∧
      ∃ associated, addresses = some associated ∧ (deposits.1 ≠ [] → associated.1 =
        [shadowAccountAddress address identityCommitment platform.contractAddress]) ∧
      shadowAccountAddress address identityCommitment platform.contractAddress ≠ 0 := by
  obtain ⟨identityCommitment, calls, openNotes, ⟨deposits', associated⟩, hcalldata, hinteraction,
    rfl⟩ := privacyInvokeEntryPoint_eq_ok h
  rw [deserializeInvokeReturnData_serialize] at hreturn
  obtain ⟨rfl, rfl⟩ := Prod.mk.inj (Except.ok.inj hreturn)
  simp only [privacyInvokeWithComputation, bind_eq_ok, require_eq_ok, pure_eq_ok,
    exists_const] at hinteraction
  obtain ⟨-, ⟨shadowAccount, started⟩, hshadow, called, -, ⟨collectedDeposits, last⟩, hcollect,
    span, hspan, addressSpan, haddresses, hresult⟩ := hinteraction
  obtain ⟨hpair, -⟩ := Prod.mk.inj hresult
  obtain ⟨rfl, rfl⟩ := Prod.mk.inj hpair
  obtain ⟨haccount, hnonzero, -, -⟩ :=
    getOrDeployShadowAccount_spec hkeeps hdeploys hderived hshadow
  -- There is a deposit for each open note, and the account is associated when there is any.
  have hdeposits := toSpan_eq_ok hspan
  refine ⟨identityCommitment, calls, openNotes, hcalldata, ?_, addressSpan, rfl, fun hne => ?_,
    haccount ▸ hnonzero⟩
  · rw [hdeposits, collectOpenNotes_length hcollect, snapshotOpenNotes, List.length_map]
  · rw [hdeposits] at hne
    rw [toSpan_eq_ok haddresses, if_neg hne, haccount]

end Collect

/-! ### The prediction -/

/-- The prediction is right about a set of subjects: it names the only one, it is none for
the empty set, and it is a conflict exactly when there are several. -/
structure Predicts (screened : ScreenedAddress) (subjects : Finset ContractAddress) : Prop where
  one : ∀ a, screened = .one (addressHex a) ↔ subjects = {a}
  none : screened = .none ↔ subjects = ∅
  conflict : screened = .conflict ↔ 1 < subjects.card

/-- The users of deposits, as the interceptor notes them. -/
def screenedUsers (deposited : Bool) (userAddr : ContractAddress) : List String :=
  if deposited then [addressHex userAddr] else []

/-- The subjects of deposits. -/
def depositingUsers (deposited : Bool) (userAddr : ContractAddress) : Finset ContractAddress :=
  if deposited then {userAddr} else ∅

theorem predicts_empty : Predicts .none ∅ := by
  refine ⟨fun a => ?_, iff_of_true rfl rfl, iff_of_false nofun (by simp)⟩
  exact iff_of_false nofun (Finset.singleton_ne_empty a).symm

theorem predicts_singleton (a : ContractAddress) : Predicts (.one (addressHex a)) {a} := by
  refine ⟨fun b => ?_, iff_of_false nofun (Finset.singleton_ne_empty a),
    iff_of_false nofun (by simp)⟩
  rw [ScreenedAddress.one.injEq, addressHex_injective.eq_iff, Finset.singleton_inj]

theorem predicts_pair {a b : ContractAddress} (h : a ≠ b) : Predicts .conflict {a, b} := by
  have hcard : ({a, b} : Finset ContractAddress).card = 2 := Finset.card_pair h
  refine ⟨fun c => iff_of_false nofun fun hsingle => ?_, iff_of_false nofun fun hempty => ?_,
    iff_of_true rfl (by omega)⟩
  · rw [hsingle, Finset.card_singleton] at hcard
    omega
  · rw [hempty, Finset.card_empty] at hcard
    omega

/-- Without a further address the prediction is about the deposits alone. -/
theorem predicts_users (deposited : Bool) (userAddr : ContractAddress) :
    Predicts (unifyScreened (screenedUsers deposited userAddr))
      (depositingUsers deposited userAddr) := by
  cases deposited with
  | false => exact predicts_empty
  | true => exact predicts_singleton userAddr

/-- A further address conflicts with that of a deposit unless they are the same. -/
theorem predicts_insert (deposited : Bool) (userAddr a : ContractAddress) :
    Predicts (unifyScreened ((screenedUsers deposited userAddr).insert (addressHex a)))
      (depositingUsers deposited userAddr ∪ {a}) := by
  cases deposited with
  | false =>
    rw [depositingUsers, if_neg Bool.false_ne_true, Finset.empty_union]
    exact predicts_singleton a
  | true =>
    rw [depositingUsers, if_pos rfl, screenedUsers, if_pos rfl]
    by_cases hsame : a = userAddr
    · subst hsame
      rw [List.insert_of_mem (List.mem_singleton_self _), Finset.union_self]
      exact predicts_singleton a
    · have hne : addressHex a ∉ [addressHex userAddr] := by
        rw [List.mem_singleton, addressHex_injective.eq_iff]
        exact hsame
      rw [List.insert_of_not_mem hne]
      exact predicts_pair (Ne.symm hsame)

/-! ### Reading the shape -/

section Shape

variable {clientActions : List ClientAction} {actions : List ServerAction}
  {plain ending : List ClientAction} {first final : List ServerAction}

theorem PlainPart.toFinset_from (h : PlainPart userAddr plain first) :
    (first.filterMap ServerAction.from?).toFinset =
      depositingUsers (plain.any ClientAction.isDeposit) userAddr := by
  rw [h.depositors, depositingUsers]
  by_cases hany : plain.any ClientAction.isDeposit = true
  · obtain ⟨action, hmem, hdeposit⟩ := List.any_eq_true.mp hany
    rw [if_pos hany, Finset.eq_singleton_iff_unique_mem]
    refine ⟨?_, fun a ha => ?_⟩
    · rw [List.mem_toFinset, List.mem_map]
      exact ⟨action, List.mem_filter.mpr ⟨hmem, hdeposit⟩, rfl⟩
    · obtain ⟨_, -, rfl⟩ := List.mem_map.mp (List.mem_toFinset.mp ha)
      rfl
  · have hnone : plain.filter ClientAction.isDeposit = [] := by
      rw [List.filter_eq_nil_iff]
      intro action hmem hdeposit
      exact hany (List.any_eq_true.mpr ⟨action, hmem, hdeposit⟩)
    rw [if_neg hany, hnone]
    rfl

theorem PlainPart.depositor_eq_none (h : PlainPart userAddr plain first) :
    plain.findSome? ClientAction.depositor = none := by
  rw [List.findSome?_eq_none_iff]
  intro action hmem
  have hplain := h.noInvoke action hmem
  cases action with
  | invokeExternal _ | computeAndInvoke _ => exact absurd rfl hplain
  | _ => rfl

theorem Ending.flags (h : Ending sn call userAddr userPrivateKey ending final) :
    ending.any ClientAction.isDeposit = false ∧
      ending.any ClientAction.createsOpenNote = false := by
  cases h <;> exact ⟨rfl, rfl⟩

theorem CompiledShape.any_isDeposit (h : CompiledShape sn call userAddr userPrivateKey
    clientActions actions plain ending first final) :
    clientActions.any ClientAction.isDeposit = plain.any ClientAction.isDeposit := by
  rw [h.client, List.any_append, h.ends.flags.1, Bool.or_false]

/-- The interceptor finds a depositor exactly when the list creates open notes, at its end. -/
theorem CompiledShape.getOpenNoteDepositor_eq (h : CompiledShape sn call userAddr userPrivateKey
    clientActions actions plain ending first final) :
    getOpenNoteDepositor clientActions =
      if plain.countP ClientAction.createsOpenNote = 0 then none
      else ending.findSome? ClientAction.depositor := by
  have hany : clientActions.any ClientAction.createsOpenNote =
      plain.any ClientAction.createsOpenNote := by
    rw [h.client, List.any_append, h.ends.flags.2, Bool.or_false]
  have hfind : clientActions.findSome? ClientAction.depositor =
      ending.findSome? ClientAction.depositor := by
    rw [h.client, List.findSome?_append, h.part.depositor_eq_none, Option.none_or]
  rw [getOpenNoteDepositor, hany, hfind]
  by_cases hcount : plain.countP ClientAction.createsOpenNote = 0
  · have hnone : plain.any ClientAction.createsOpenNote = false := by
      rw [List.any_eq_false]
      exact List.countP_eq_zero.mp hcount
    rw [if_pos hcount, hnone, if_neg Bool.false_ne_true]
  · have hsome : plain.any ClientAction.createsOpenNote = true := by
      rw [List.any_eq_true]
      exact List.countP_pos_iff.mp (Nat.pos_of_ne_zero hcount)
    rw [if_neg hcount, if_pos hsome]

/-- The interaction that the interceptor derives the account from is the one at the end. -/
theorem getShadowAccountInteraction_append {decoder : AbiDecoder}
    (hplain : ∀ action ∈ plain, action.phase ≠ invokePhase) (input : ComputeAndInvokeInput) :
    getShadowAccountInteraction decoder (addressHex input.contractAddress)
        (plain ++ [.computeAndInvoke input]) =
      shadowAccountInteraction decoder input := by
  induction plain with
  | nil => simp [getShadowAccountInteraction]
  | cons action rest ih =>
    rw [List.forall_mem_cons] at hplain
    rw [List.cons_append, ← ih hplain.2]
    cases action with
    | computeAndInvoke _ => exact absurd rfl hplain.1
    | _ => rfl

end Shape

/-! ### Agreement -/

section Agreement

variable {D : Domain} {platform : AnonymizerPlatform sn} {address : AddressFormula}
  {decoder : AbiDecoder} {poolCall : PoolCallActions}

/-- What a prove transaction must be: a single direct call of the pool's `compile_actions`,
whose felts are spelled in any way. -/
structure ProvesCompile (transaction : ProveTxn) (poolAddress : ContractAddress)
    (poolText : String) (userAddr : ContractAddress) (userPrivateKey : Felt)
    (clientActions : List ClientAction) : Prop where
  pool : Hex.Spells poolText (ContractAddress.toFelt poolAddress).val
  calldata : ∃ selector inner actions, actions.1 = clientActions ∧
    inner.1 = compileCalldata userAddr userPrivateKey actions ∧
    SpellsAll transaction.calldata (Interceptor.poolCall poolAddress selector inner)

variable (sn address) in
theorem getScreenedAddress_of_decode {transaction : ProveTxn} {poolText : String}
    (getPolicy : String → Option OpenNoteScreeningPolicy)
    (hdecode : decodeClientActions decoder transaction poolText = some poolCall) :
    (getOpenNoteDepositor poolCall.actions = none →
      getScreenedAddress sn address decoder transaction poolText getPolicy = unifyScreened
        (if poolCall.actions.any ClientAction.isDeposit then [poolCall.userAddress] else [])) ∧
    ∀ depositor policy, getOpenNoteDepositor poolCall.actions = some depositor →
      getPolicy depositor.address = some policy →
      getScreenedAddress sn address decoder transaction poolText getPolicy = screenPolicy
        (if poolCall.actions.any ClientAction.isDeposit then [poolCall.userAddress] else [])
        depositor.address (getDelegatedAddress sn address decoder poolCall depositor) policy := by
  refine ⟨fun hnone => ?_, fun depositor policy hsome hpolicy => ?_⟩
  · simp only [getScreenedAddress, hdecode, hnone]
  · simp only [getScreenedAddress, hdecode, hsome, hpolicy]

/-- The policy of a depositor predicts the subjects that it derives. -/
theorem predicts_policy (deposited : Bool) (userAddr : ContractAddress)
    {policy : OpenNoteScreeningPolicy} {contractAddress : ContractAddress} {selector : Felt}
    {addresses : Option (Span ContractAddress)} {new : List ContractAddress}
    {delegated : ScreenedAddress}
    (h : depositSubjects policy contractAddress selector addresses = .ok new)
    (hcontract : contractAddress ≠ 0)
    (hdelegated : policy = .delegated → delegated = .none ∧ new = [] ∨
      ∃ a, a ≠ 0 ∧ delegated = .one (addressHex a) ∧ new = [a]) :
    Predicts (screenPolicy (screenedUsers deposited userAddr) (addressHex contractAddress)
        delegated policy) (depositingUsers deposited userAddr ∪ new.toFinset) ∧
      ∀ a ∈ new, a ≠ 0 := by
  cases policy with
  | required =>
    obtain rfl := pure_eq_ok.mp h
    exact ⟨predicts_insert deposited userAddr contractAddress, by simpa using hcontract⟩
  | exempt =>
    obtain rfl := pure_eq_ok.mp h
    rw [List.toFinset_nil, Finset.union_empty]
    exact ⟨predicts_users deposited userAddr, by simp⟩
  | delegated =>
    rcases hdelegated rfl with ⟨rfl, rfl⟩ | ⟨a, hne, rfl, rfl⟩
    · rw [List.toFinset_nil, Finset.union_empty]
      exact ⟨predicts_users deposited userAddr, by simp⟩
    · exact ⟨predicts_insert deposited userAddr a, by simpa using hne⟩

/-- The interceptor derives the address of the account that the commitment of the list
belongs to. -/
theorem getDelegatedAddress_compute (hdecoder : decoder.Reads) {plain : List ClientAction}
    {first : List ServerAction} (hpart : PlainPart userAddr plain first)
    {input : ComputeAndInvokeInput} {dappName nonce : Felt} {calls : Span Call}
    {openNotes : Span OpenNote} (htarget : input.contractAddress = platform.contractAddress)
    (hcompute : input.computeAdditionalData.1 = [dappName, nonce])
    (hinvoke : input.invokeAdditionalData.1 = serialize calls ++ serialize openNotes)
    (hnotes : openNotes.1 ≠ []) :
    getDelegatedAddress sn address decoder
        ⟨addressHex userAddr, some userPrivateKey.val, plain ++ [.computeAndInvoke input]⟩
        ⟨addressHex input.contractAddress, some input⟩ =
      .one (addressHex (shadowAccountAddress address
        (privacyCompute sn (sn.computeIdentityKey userAddr userPrivateKey platform.contractAddress)
          dappName nonce) platform.contractAddress)) := by
  have hspelled : ∀ felts : List Felt,
      SpellsAll (felts.map fun felt => Hex.writeText felt.val) felts := by
    intro felts
    exact List.forall₂_map_left_iff.mpr
      (List.forall₂_same.mpr fun felt _ => Hex.spells_writeText felt.val)
  -- The call data create open notes, and the data to compute name the account.
  have hcreates : createsOpenNotes decoder input = true := by
    have hread := hdecoder.invokeArguments (hspelled (serialize calls ++ serialize openNotes))
    rw [createsOpenNotes, hinvoke, hread]
    simpa using hnotes
  have hinteraction : shadowAccountInteraction decoder input = some ⟨dappName, nonce⟩ := by
    have hread := hdecoder.computeArguments (hspelled [dappName, nonce])
    rw [shadowAccountInteraction, hcompute, if_neg (by simp), hread]
    rfl
  have huser : parseFelt (addressHex userAddr) = some (ContractAddress.toFelt userAddr).val :=
    parseFelt_of_spells (Hex.spells_writeText _)
  have hanonymizer : parseFelt (normalizeFelt (addressHex input.contractAddress)) =
      some (ContractAddress.toFelt input.contractAddress).val := by
    rw [normalizeFelt_addressHex]
    exact parseFelt_of_spells (Hex.spells_writeText _)
  -- What the interceptor reads of the addresses is what they are.
  have hfelt : ∀ felt : Felt, Fin.ofNat feltPrime felt.val = felt := fun felt =>
    Fin.ext (Nat.mod_eq_of_lt felt.isLt)
  have hback : Fin.ofNat (2 ^ 251) (ContractAddress.toFelt input.contractAddress).val =
      input.contractAddress := Fin.ext (Nat.mod_eq_of_lt input.contractAddress.isLt)
  have haddress : getShadowAccountAddress sn address decoder
      ⟨addressHex userAddr, some userPrivateKey.val, plain ++ [.computeAndInvoke input]⟩
      (addressHex input.contractAddress) = some (addressHex (shadowAccountAddress address
        (privacyCompute sn (sn.computeIdentityKey userAddr userPrivateKey platform.contractAddress)
          dappName nonce) platform.contractAddress)) := by
    simp only [getShadowAccountAddress, getShadowAccountInteraction_append hpart.noInvoke,
      hinteraction, huser, hanonymizer, Option.bind_eq_bind, Option.bind_some, Option.pure_def,
      hback]
    rw [← htarget]
    simp only [shadowAccountPartialCommitment, hfelt]
    rfl
  simp only [getDelegatedAddress, hcreates, if_true, haddress]

/-- Without a compute-invoke there is no delegated address. -/
theorem getDelegatedAddress_invoke (depositor : String) :
    getDelegatedAddress sn address decoder poolCall ⟨depositor, none⟩ = .none := rfl

/-- The prediction for a list that ends in an invoke: right about the users alone when no
open notes are left, and else about what the policy of the invoked contract derives. -/
theorem predicts_last {invocation : Invocation sn} {middle state : CollectState sn}
    {input : InvokeInput} {selector : Felt} {deposited : Bool} {userAddr : ContractAddress}
    {screened delegated : ScreenedAddress} {policy : OpenNoteScreeningPolicy}
    (hlast : collectInvoke invocation middle input selector = .ok state)
    (hdeposited : state.undepositedOpenNotes = 0)
    (husers : middle.subjects.toFinset = depositingUsers deposited userAddr)
    (hpolicy : middle.world.pool.screeningPolicies input.contractAddress = policy)
    (hnone : middle.undepositedOpenNotes.val = 0 →
      screened = unifyScreened (screenedUsers deposited userAddr))
    (hsome : middle.undepositedOpenNotes.val ≠ 0 → screened =
      screenPolicy (screenedUsers deposited userAddr) (addressHex input.contractAddress)
        delegated policy)
    (hdelegated : ∀ tokens returnData deposits addresses new,
      invocation middle.world input.contractAddress selector input.calldata =
        .ok (tokens, returnData) →
      deserializeInvokeReturnData returnData = .ok (deposits, addresses) →
      deposits.1 ≠ [] → policy = .delegated →
      depositSubjects policy input.contractAddress selector addresses = .ok new →
      delegated = .none ∧ new = [] ∨ ∃ a, a ≠ 0 ∧ delegated = .one (addressHex a) ∧ new = [a])
    (hcontract : input.contractAddress ≠ 0) (hnonzero : ∀ a ∈ middle.subjects, a ≠ 0) :
    Predicts screened state.subjects.toFinset ∧ ∀ a ∈ state.subjects, a ≠ 0 := by
  obtain ⟨tokens, returnData, deposits, addresses, new, hcall, hreturn, hlength, hsubjects,
    hzero, hnew⟩ := collectInvoke_last hlast hdeposited
  rw [hsubjects, List.toFinset_append, husers, List.forall_mem_append]
  -- Without open notes left nothing is deposited; with some the policy decides.
  by_cases hcount : middle.undepositedOpenNotes.val = 0
  · rw [hnone hcount, hzero hcount, List.toFinset_nil, Finset.union_empty]
    exact ⟨predicts_users _ _, hnonzero, by simp⟩
  · rw [hsome hcount]
    have hpolicySubjects := hnew hcount
    rw [hpolicy] at hpolicySubjects
    have hne : deposits.1 ≠ [] := by
      intro hempty
      rw [hempty] at hlength
      exact hcount hlength.symm
    have hpredicts := predicts_policy deposited userAddr hpolicySubjects hcontract fun hdel =>
      hdelegated _ _ _ _ _ hcall hreturn hne hdel hpolicySubjects
    exact ⟨hpredicts.1, hnonzero, hpredicts.2⟩

/-- The subject of a delegated compute-invoke is the address that the interceptor derives. -/
theorem delegated_compute {invocation : Invocation sn} (hkeeps : platform.Keeps)
    (hdeploys : platform.DeploysAt address) (hdecoder : decoder.Reads)
    (hhosts : invocation.Hosts platform) {world : World sn}
    (hderived : Derived platform address world.tokens) {plain : List ClientAction}
    {first : List ServerAction} (hpart : PlainPart userAddr plain first)
    {input : ComputeAndInvokeInput} {computeResult calldata : Span Felt}
    (htarget : input.contractAddress = platform.contractAddress)
    (hcompute : privacyComputeEntryPoint sn
      (sn.computeIdentityKey userAddr userPrivateKey input.contractAddress ::
        input.computeAdditionalData.1) = .ok computeResult)
    (hcalldata : calldata.1 = computeResult.1 ++ input.invokeAdditionalData.1)
    {tokens : sn.Tokens} {returnData : List Felt} {deposits : Span OpenNoteDeposit}
    {addresses : Option (Span ContractAddress)} {new : List ContractAddress}
    (hcall : invocation world input.contractAddress invokeWithComputationSelector calldata =
      .ok (tokens, returnData))
    (hreturn : deserializeInvokeReturnData returnData = .ok (deposits, addresses))
    (hdeposits : deposits.1 ≠ [])
    (hsubjects : depositSubjects .delegated input.contractAddress invokeWithComputationSelector
      addresses = .ok new) :
    ∃ a, a ≠ 0 ∧ getDelegatedAddress sn address decoder
        ⟨addressHex userAddr, some userPrivateKey.val, plain ++ [.computeAndInvoke input]⟩
        ⟨addressHex input.contractAddress, some input⟩ = .one (addressHex a) ∧ new = [a] := by
  -- The call computes the commitment of the account, and the platform acts with that account.
  obtain ⟨identityKey, dappName, nonce, harguments, hresult⟩ := privacyComputeEntryPoint_eq_ok hcompute
  obtain ⟨rfl, hdata⟩ := List.cons.inj harguments
  rw [htarget] at hcall hresult
  obtain ⟨identityCommitment, calls, openNotes, hinvoked, hlength, associated, rfl, hassociated,
    hnonzero⟩ := privacyInvokeEntryPoint_returns hkeeps hdeploys hderived
      (hhosts.interaction hcall) hreturn
  rw [hinvoked, hresult, List.singleton_append] at hcalldata
  obtain ⟨rfl, hinvoke⟩ := List.cons.inj hcalldata
  -- The deposits fill the open notes of the call, so that there are some.
  have hnotes : openNotes.1 ≠ [] := by
    intro hempty
    rw [hempty] at hlength
    exact hdeposits (List.length_eq_zero_iff.mp hlength)
  refine ⟨_, hnonzero,
    getDelegatedAddress_compute hdecoder hpart htarget hdata hinvoke.symm hnotes, ?_⟩
  rw [depositSubjects, if_pos rfl] at hsubjects
  simp only [bind_eq_ok, expect_eq_ok, require_eq_ok, pure_eq_ok, exists_const] at hsubjects
  obtain ⟨_, hsame, -, rfl⟩ := hsubjects
  rw [← Option.some.inj hsame, hassociated hdeposits]

variable {sub : Submission sn} {visited : List (World sn)} {labels : List (Label sn)}
  {world : World sn} {tokens : sn.Tokens} {state : CollectState sn} {transaction : ProveTxn}
  {poolAddress : ContractAddress} {poolText : String}
  {getPolicy : String → Option OpenNoteScreeningPolicy}

theorem eq_of_mem_depositingUsers {deposited : Bool} {userAddr a : ContractAddress}
    (h : a ∈ depositingUsers deposited userAddr) : a = userAddr := by
  unfold depositingUsers at h
  split_ifs at h
  · exact Finset.mem_singleton.mp h
  · exact absurd h (Finset.notMem_empty a)

/-- The state in which the plain actions of a list are collected: the open notes that are left,
the users that have deposited, and the accounts and policies that they leave alone. -/
structure AfterPlain (platform : AnonymizerPlatform sn) (address : AddressFormula)
    (userAddr : ContractAddress) (plain : List ClientAction) (world : World sn)
    (middle : CollectState sn) : Prop where
  counted : middle.undepositedOpenNotes.val = plain.countP ClientAction.createsOpenNote
  users : middle.subjects.toFinset =
    depositingUsers (plain.any ClientAction.isDeposit) userAddr
  derived : Derived platform address middle.world.tokens
  policies : ∀ contract, middle.world.pool.screeningPolicies contract =
    world.pool.screeningPolicies contract

/-- The plain actions of a list are collected first. -/
theorem CompiledShape.collect_plain (hkeeps : platform.Keeps)
    (hdeploys : platform.DeploysAt address) (run : SharedRun D platform visited labels world)
    {screening : Option ScreeningAttestation}
    (hcollected : Unscreened sub.invocation sub.tx world sub.actions screening tokens state)
    {plain ending : List ClientAction} {first final : List ServerAction}
    (hshape : CompiledShape sn call sub.userAddr userPrivateKey clientActions sub.actions.1 plain
      ending first final) :
    ∃ middle, AfterPlain platform address sub.userAddr plain world middle ∧
      final.foldlM (collectAction sub.invocation) middle = .ok state := by
  have hrun := hcollected.collected
  rw [hshape.server] at hrun
  obtain ⟨middle, hfirst, hfinal⟩ := foldlM_append_eq_ok.mp hrun
  have hplain := foldlM_collectAction_plain hkeeps hshape.part.noCall hfirst
  have hfee : platform.shadowAccounts tokens = platform.shadowAccounts world.tokens :=
    collectFee_accounts hkeeps hcollected.fee
  have hderived : Derived platform address world.tokens :=
    (sharedRun_accounts hkeeps hdeploys run world run.mem_visited).1
  refine ⟨middle, ⟨?_, ?_, (hderived.congr hfee).congr hplain.accounts, congrFun hplain.policies⟩,
    hfinal⟩
  · rw [hplain.counted, hshape.part.openNotes]
    exact Nat.zero_add _
  · rw [hplain.subjects, List.nil_append, hshape.part.toFinset_from]

variable (address getPolicy) in
/-- What the interceptor makes of a compiled list: the policy counts only with open notes. -/
theorem CompiledShape.getScreenedAddress_eq (hdecoder : decoder.Reads)
    {plain ending : List ClientAction} {first final : List ServerAction}
    (hshape : CompiledShape sn call userAddr userPrivateKey clientActions actions plain ending
      first final)
    (hcall : ProvesCompile transaction poolAddress poolText userAddr userPrivateKey
      clientActions) :
    (plain.countP ClientAction.createsOpenNote = 0 →
      getScreenedAddress sn address decoder transaction poolText getPolicy =
        unifyScreened (screenedUsers (plain.any ClientAction.isDeposit) userAddr)) ∧
    ∀ contract computeInput policy, ending.findSome? ClientAction.depositor =
        some ⟨normalizeFelt (addressHex contract), computeInput⟩ →
      getPolicy (addressHex contract) = some policy →
      plain.countP ClientAction.createsOpenNote ≠ 0 →
      getScreenedAddress sn address decoder transaction poolText getPolicy =
        screenPolicy (screenedUsers (plain.any ClientAction.isDeposit) userAddr)
          (addressHex contract) (getDelegatedAddress sn address decoder
            ⟨addressHex userAddr, some userPrivateKey.val, clientActions⟩
            ⟨addressHex contract, computeInput⟩) policy := by
  obtain ⟨selector, inner, clientActions, rfl, hinner, hspells⟩ := hcall.calldata
  obtain ⟨-, hdecode⟩ := decodeClientActions_of_spells hdecoder hcall.pool hinner hspells
  obtain ⟨hnone, hsome⟩ := getScreenedAddress_of_decode sn address getPolicy hdecode
  have husers : (if clientActions.1.any ClientAction.isDeposit then [addressHex userAddr]
      else []) = screenedUsers (plain.any ClientAction.isDeposit) userAddr := by
    rw [hshape.any_isDeposit, screenedUsers]
  dsimp only at hnone hsome
  rw [husers, hshape.getOpenNoteDepositor_eq] at hnone hsome
  refine ⟨fun hcount => hnone (if_pos hcount),
    fun contract computeInput policy hfound hpolicy hcount => ?_⟩
  rw [normalizeFelt_addressHex] at hfound
  refine hsome ⟨addressHex contract, computeInput⟩ policy ?_ hpolicy
  rw [if_neg hcount, hfound]

/-- A plain invoke of a delegated contract derives no subject. -/
theorem depositSubjects_delegated_invoke {contractAddress : ContractAddress}
    {addresses : Option (Span ContractAddress)} {new : List ContractAddress}
    (h : depositSubjects .delegated contractAddress invokeSelector addresses = .ok new) :
    new = [] := by
  have hdiffer : invokeSelector ≠ invokeWithComputationSelector := by decide
  rw [depositSubjects, if_neg hdiffer, pure_eq_ok] at h
  exact h.symm

/-- What the interceptor predicts of a compiled list, and the subjects of that list. -/
theorem predicts_subjects (hkeeps : platform.Keeps) (hdeploys : platform.DeploysAt address)
    (hdecoder : decoder.Reads) (run : SharedRun D platform visited labels world)
    (hcompiled : sub.Compiled) (hhosted : sub.Hosted D platform)
    {screening : Option ScreeningAttestation}
    (hcollected : Unscreened sub.invocation sub.tx world sub.actions screening tokens state)
    (hcall : ProvesCompile transaction poolAddress poolText sub.userAddr sub.userPrivateKey
      sub.clientActions)
    (hpolicies : ∀ contract, getPolicy (addressHex contract) =
      some (world.pool.screeningPolicies contract))
    (hdelegated : ∀ input, .invokeWithComputation input ∈ sub.actions.1 →
      world.pool.screeningPolicies input.contractAddress = .delegated →
      input.contractAddress = platform.contractAddress) :
    Predicts (getScreenedAddress sn address decoder transaction poolText getPolicy)
        state.subjects.toFinset ∧ ∀ a ∈ state.subjects, a ≠ 0 := by
  obtain ⟨plain, ending, first, final, hshape⟩ := compiledShape_of_main hcompiled
  obtain ⟨middle, hmiddle, hfinal⟩ := hshape.collect_plain hkeeps hdeploys run hcollected
  obtain ⟨hnone, hsome⟩ := hshape.getScreenedAddress_eq address getPolicy hdecoder hcall
  rw [← hmiddle.counted] at hnone hsome
  have hnonzero : ∀ a ∈ middle.subjects, a ≠ 0 := by
    intro a ha
    rw [← List.mem_toFinset, hmiddle.users] at ha
    rw [eq_of_mem_depositingUsers ha]
    exact (main_eq_ok hcompiled).1
  have hends := hshape.ends
  -- The last call, if there is one, adds its subjects to the depositing users.
  cases hends with
  | none =>
    obtain rfl := foldlM_nil_eq_ok.mp hfinal
    rw [hnone (congrArg Fin.val hcollected.deposited), hmiddle.users]
    exact ⟨predicts_users _ _, hnonzero⟩
  | invoke input hcontract =>
    obtain ⟨_, hlast, hrest⟩ := foldlM_cons_eq_ok.mp hfinal
    obtain rfl := foldlM_nil_eq_ok.mp hrest
    refine predicts_last hlast hcollected.deposited hmiddle.users (hmiddle.policies _) hnone
      (hsome input.contractAddress none _ rfl (hpolicies _)) ?_ hcontract hnonzero
    intro _ _ _ _ new _ _ _ hpolicy hsubjects
    rw [hpolicy] at hsubjects
    exact .inl ⟨getDelegatedAddress_invoke _, depositSubjects_delegated_invoke hsubjects⟩
  | compute input computeResult calldata hcontract hcompute hcalldata =>
    obtain ⟨_, hlast, hrest⟩ := foldlM_cons_eq_ok.mp hfinal
    obtain rfl := foldlM_nil_eq_ok.mp hrest
    refine predicts_last hlast hcollected.deposited hmiddle.users (hmiddle.policies _) hnone
      (hsome input.contractAddress (some input) _ rfl (hpolicies _)) ?_ hcontract hnonzero
    intro _ _ _ _ new hinvoked hreturn hdeposits hpolicy hsubjects
    have hmem : .invokeWithComputation ⟨input.contractAddress, calldata⟩ ∈ sub.actions.1 := by
      rw [hshape.server]
      exact List.mem_append_right _ (List.mem_singleton_self _)
    -- A delegated depositor is the platform, whose accounts the interceptor derives.
    have htarget : input.contractAddress = platform.contractAddress := hdelegated _ hmem hpolicy
    rw [hpolicy] at hsubjects
    rw [htarget, hhosted.compute, ← htarget] at hcompute
    rw [hshape.client]
    exact .inr (delegated_compute hkeeps hdeploys hdecoder hhosted.invocation hmiddle.derived
      hshape.part htarget hcompute hcalldata hinvoked hreturn hdeposits hsubjects)

/-- **Who is screened.** In every run of the pool and the anonymizer, for every compiled list
that the current state accepts but for screening, however old the state it was compiled on:
the address that the interceptor predicts from the transaction before it is proved is the
only subject that the pool requires, it predicts none exactly when the pool requires none,
and a conflict exactly when the pool requires several and rejects the list. The policies it
read are the pool's, and the depositor of the list is the anonymizer if it is delegated. -/
theorem screened_address_agrees (hkeeps : platform.Keeps) (hdeploys : platform.DeploysAt address)
    (hdecoder : decoder.Reads) (run : SharedRun D platform visited labels world)
    (hcompiled : sub.Compiled) (hhosted : sub.Hosted D platform)
    (hcollected : Unscreened sub.invocation sub.tx world sub.actions sub.screening tokens state)
    (hcall : ProvesCompile transaction poolAddress poolText sub.userAddr sub.userPrivateKey
      sub.clientActions)
    (hpolicies : ∀ contract, getPolicy (addressHex contract) =
      some (world.pool.screeningPolicies contract))
    (hdelegated : ∀ input, .invokeWithComputation input ∈ sub.actions.1 →
      world.pool.screeningPolicies input.contractAddress = .delegated →
      input.contractAddress = platform.contractAddress) :
    Predicts (getScreenedAddress sn address decoder transaction poolText getPolicy)
      state.subjects.toFinset := by
  exact (predicts_subjects hkeeps hdeploys hdecoder run hcompiled hhosted hcollected hcall hpolicies
    hdelegated).1

end Agreement

/-! ### The sample interaction -/

namespace ShadowSample

/-- The felts that texts spell. -/
def readFelts (texts : List String) : Option (List Felt) :=
  texts.mapM fun text => (Hex.readText text).map (Fin.ofNat feltPrime)

/-- A coder that reads the felts and deserialises them. -/
def decoder : AbiDecoder where
  clientActions texts := do
    let felts ← readFelts texts
    let (actions, _) ← deserialize (α := Span ClientAction) felts
    return actions.1
  computeArguments texts := do
    let felts ← readFelts texts
    let (arguments, _) ← deserialize (α := Felt × Felt) felts
    return arguments
  invokeArguments texts := do
    let felts ← readFelts texts
    let (arguments, _) ← deserialize (α := Span Call × Span OpenNote) felts
    return (arguments.1.1, arguments.2.1)

theorem readFelts_of_spells {texts : List String} {felts : List Felt}
    (h : SpellsAll texts felts) : readFelts texts = some felts := by
  induction h with
  | nil => rfl
  | cons hfirst _ ih =>
    have hread : ∀ felt : Felt, Fin.ofNat feltPrime felt.val = felt := fun felt =>
      Fin.ext (Nat.mod_eq_of_lt felt.isLt)
    rw [readFelts] at ih ⊢
    rw [List.mapM_cons, hfirst.readText, Option.map_some, hread, ih]
    rfl

/-- What is serialised is read back to its end. -/
theorem deserialize_serialized {α : Type} [Serde α] (a : α) :
    deserialize (serialize a) = some (a, []) := by
  have hread := deserialize_serialize a []
  rwa [List.append_nil] at hread

theorem decoder_reads : decoder.Reads where
  clientActions {_ actions} h := by
    simp [decoder, readFelts_of_spells h, deserialize_serialized actions]
  computeArguments {_ dappName nonce} h := by
    have hread : deserialize [dappName, nonce] = some ((dappName, nonce), []) :=
      deserialize_serialized (dappName, nonce)
    simp [decoder, readFelts_of_spells h, hread]
  invokeArguments {_ calls openNotes} h := by
    have hread : deserialize (serialize calls ++ serialize openNotes) =
        some ((calls, openNotes), []) := deserialize_serialized (calls, openNotes)
    simp [decoder, readFelts_of_spells h, hread]

/-- The client actions as an array. -/
def clientSpan : Span ClientAction := ⟨clientActions 1, show 5 < 2 ^ 32 by decide⟩

/-- The calldata of the call of the pool at address 1000. -/
def poolCalldata : Span Felt := ⟨compileCalldata 5 3 clientSpan, by decide⟩

/-- The transaction that carries the call, as the proxy is sent it. -/
def proveTxn : ProveTxn := ⟨(poolCall 1000 7 poolCalldata).map fun felt => Hex.writeText felt.val⟩

/-- The policies of the pool, by the text of an address. -/
def getPolicy (text : String) : Option OpenNoteScreeningPolicy :=
  (Hex.readText text).map fun n => governed.pool.screeningPolicies (Fin.ofNat (2 ^ 251) n)

theorem provesCompile : ProvesCompile proveTxn 1000 (addressHex 1000) 5 3 (clientActions 1) where
  pool := Hex.spells_writeText _
  calldata := ⟨7, poolCalldata, clientSpan, rfl, rfl, List.forall₂_map_left_iff.mpr
    (List.forall₂_same.mpr fun felt _ => Hex.spells_writeText felt.val)⟩

theorem getPolicy_addressHex (contract : ContractAddress) : getPolicy (addressHex contract) =
    some (governed.pool.screeningPolicies contract) := by
  have hback : Fin.ofNat (2 ^ 251) (ContractAddress.toFelt contract).val = contract :=
    Fin.ext (Nat.mod_eq_of_lt contract.isLt)
  rw [getPolicy, addressHex, Hex.readText_writeText, Option.map_some, hback]

/-- The only contract that the sample drives is the anonymizer. -/
theorem interacting_target {input : InvokeInput}
    (hmem : .invokeWithComputation input ∈ (interacting 1).actions.1) :
    input.contractAddress = 8 := by
  obtain ⟨client, _, hfrom⟩ := mem_serverActions_of_main runs_one.compiled hmem
  have hclient : .computeAndInvoke client ∈ clientActions 1 := hfrom.mem
  have htarget : client.contractAddress = 8 := by
    simp only [clientActions, List.mem_cons, reduceCtorEq, List.not_mem_nil, false_or,
      or_false, ClientAction.computeAndInvoke.injEq] at hclient
    rw [hclient]
  exact hfrom.target.symm.trans htarget

end ShadowSample

open ShadowSample in
/-- The sample interaction is screened for the shadow account that it acts through. -/
theorem screened_address_agrees_sample :
    getScreenedAddress starknet deployed decoder proveTxn (addressHex 1000) getPolicy =
      .one (addressHex 612) := by
  obtain ⟨tokens, state, h, -⟩ := applyActions_eq_ok_iff_collect.mp runs_one.applied
  have hpredicts := screened_address_agrees keeps deploysAt decoder_reads governed_run
    runs_one.compiled runs_one.hosted h provesCompile getPolicy_addressHex
    (fun input hmem _ => interacting_target hmem)
  have hfee : collectFee starknet governed.enter tx = .ok governed.enter := by
    unfold collectFee
    rw [if_neg (by decide +kernel)]
    rfl
  have htokens : { governed.enter with tokens } = governed.enter :=
    Except.ok.inj (h.fee.symm.trans hfee)
  have hcollected := h.collected
  rw [htokens] at hcollected
  have hsubjects : (valueOr ⟨governed, 0, []⟩ ((interacting 1).actions.1.foldlM
      (collectAction invocation) ⟨governed.enter, 0, []⟩)).subjects = [612] := by decide +kernel
  refine (hpredicts.one 612).mpr ?_
  change (interacting 1).actions.1.foldlM (collectAction invocation) _ = _ at hcollected
  rw [hcollected] at hsubjects
  rw [show state.subjects = [612] from hsubjects]
  rfl

end PrivacyPool
