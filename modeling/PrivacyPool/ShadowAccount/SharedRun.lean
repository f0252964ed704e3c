import PrivacyPool.Refinement.Invariant
import PrivacyPool.ShadowAccount.Accounts

/-!
# Runs of the pool and the anonymizer

The pool and the anonymizer run side by side: the external contract that an invoke
reaches at the anonymizer's address is the anonymizer, at any other address it is
arbitrary, and only the pool may drive an interaction. The list that an invoke comes
from was compiled with an anonymizer that derived its identity commitment.

## Main definitions

* `Submission.Hosted` — a submission that meets the anonymizer at its address
* `sharedSystem`, `SharedRun` — the runs of both contracts

## Main results

* `mem_serverActions_of_main` — where a compiled compute-invoke comes from
* `sharedRun_accounts` — the map of shadow accounts over a run
-/

namespace PrivacyPool

open Fallible

/-! ### The system -/

section System

variable {sn : Starknet} (D : Domain) (platform : AnonymizerPlatform sn)

/-- The external contracts of a transaction: what succeeds at the anonymizer's address is
an interaction, since it has no entry point `privacy_invoke`, and contracts elsewhere
cannot write its map. -/
structure Invocation.Hosts (invocation : Invocation sn) : Prop where
  interaction : ∀ {world calldata result},
    invocation world platform.contractAddress invokeWithComputationSelector calldata =
      .ok result →
    privacyInvokeEntryPoint platform sn.contractAddress calldata world.tokens = .ok result
  noPlainInvoke : ∀ world calldata,
    (invocation world platform.contractAddress invokeSelector calldata).isOk = false
  others : ∀ {world contract selector calldata tokens returnData},
    contract ≠ platform.contractAddress →
    invocation world contract selector calldata = .ok (tokens, returnData) →
      platform.shadowAccounts tokens = platform.shadowAccounts world.tokens

/-- The spans that are hashed on the way from a user to an identity commitment. -/
def identitySpans (sn : Starknet) (userAddr : ContractAddress) (userPrivateKey : Felt)
    (anonymizer : ContractAddress) (dappName nonce : Felt) : List (List Felt) :=
  let identityKey := sn.computeIdentityKey userAddr userPrivateKey anonymizer
  [identityKeySpan userAddr userPrivateKey anonymizer, [identityKey, dappName],
    [partialCommitment sn identityKey dappName, nonce]]

/-- The contracts that a submission calls, while it is compiled and while it is applied,
are the anonymizer at its address and others elsewhere; the hash inputs of its identity
are in play. -/
structure Submission.Hosted (sub : Submission sn) : Prop where
  compute : ∀ calldata, sub.call platform.contractAddress privacyComputeSelector calldata =
    privacyComputeEntryPoint sn calldata
  invocation : sub.invocation.Hosts platform
  identity : ∀ input dappName nonce, .computeAndInvoke input ∈ sub.clientActions →
    input.contractAddress = platform.contractAddress →
    input.computeAdditionalData.1 = [dappName, nonce] →
    ∀ span ∈ identitySpans sn sub.userAddr sub.userPrivateKey platform.contractAddress dappName
      nonce, span ∈ D.spans

/-- What a step of the pool promises the anonymizer. -/
def Label.Hosted (world world' : World sn) : Label sn → Prop
  | .apply sub => sub.Hosted D platform
  | .admin _ _ => True
  | .environment =>
    platform.shadowAccounts world'.tokens = platform.shadowAccounts world.tokens

/-- The pool and the anonymizer as one system, which starts without shadow accounts. -/
def sharedSystem : System (World sn) (Label sn) where
  init world := Deployed world ∧ platform.shadowAccounts world.tokens = fun _ => none
  step visited label world world' :=
    PoolStep sn D visited label world world' ∧ label.Hosted D platform world world'

/-- A run of both contracts. -/
abbrev SharedRun := (sharedSystem D platform).Run

end System

variable {sn : Starknet} {D : Domain} {platform : AnonymizerPlatform sn}
  {address : AddressFormula} {invocation : Invocation sn} {visited : List (World sn)}
  {labels : List (Label sn)} {world world' : World sn}

/-- A run of both contracts is a run of the pool. -/
theorem SharedRun.poolRun (run : SharedRun D platform visited labels world) :
    PoolRun sn D visited labels world := by
  induction run with
  | start h => exact .start h.1
  | step _ h ih => exact .step ih h.1

/-! ### Where a compute-invoke comes from -/

/-- The server action of a compute-invoke of a client: the target's `privacy_compute`
answered the identity key and the client's data, and the rest is the client's. -/
structure ComputedFrom (sn : Starknet) (call : CallContract) (userAddr : ContractAddress)
    (userPrivateKey : Felt) (clientActions : List ClientAction) (input : InvokeInput)
    (client : ComputeAndInvokeInput) (computeResult : Span Felt) : Prop where
  mem : .computeAndInvoke client ∈ clientActions
  target : client.contractAddress = input.contractAddress
  computed : call input.contractAddress privacyComputeSelector
    (sn.computeIdentityKey userAddr userPrivateKey input.contractAddress ::
      client.computeAdditionalData.1) = .ok computeResult
  calldata : input.calldata.1 = computeResult.1 ++ client.invokeAdditionalData.1

theorem computeAndInvoke_eq_ok {call : CallContract} {userAddr : ContractAddress}
    {userPrivateKey : Felt} {client : ComputeAndInvokeInput} {actions : List ServerAction}
    (h : computeAndInvoke sn call userAddr userPrivateKey client = .ok actions) :
    ∃ computeResult calldata, client.contractAddress ≠ 0 ∧
      actions = [.invokeWithComputation ⟨client.contractAddress, calldata⟩] ∧
      call client.contractAddress privacyComputeSelector
        (sn.computeIdentityKey userAddr userPrivateKey client.contractAddress ::
          client.computeAdditionalData.1) = .ok computeResult ∧
      calldata.1 = computeResult.1 ++ client.invokeAdditionalData.1 := by
  simp only [computeAndInvoke, ComputeAndInvokeInput.assertValid, bind_eq_ok, require_eq_ok,
    mapError_eq_ok, pure_eq_ok] at h
  obtain ⟨-, hne, computeResult, hcall, -, -, calldata, hcalldata, rfl⟩ := h
  refine ⟨computeResult, calldata, hne, rfl, hcall, ?_⟩
  unfold appendSpan at hcalldata
  split_ifs at hcalldata
  exact (congrArg Subtype.val (Except.ok.inj hcalldata)).symm

/-- A compute-invoke among the compiled actions comes from one of the client. -/
theorem compileAction_computed {call : CallContract} {pool : Pool} {userAddr : ContractAddress}
    {userPrivateKey : Felt} {balances balances' : TokenBalances} {action : ClientAction}
    {actions : List ServerAction} {input : InvokeInput}
    (h : compileAction sn pool call userAddr userPrivateKey balances action =
      .ok (actions, balances')) (hmem : .invokeWithComputation input ∈ actions) :
    ∃ client computeResult,
      ComputedFrom sn call userAddr userPrivateKey [action] input client computeResult := by
  cases action with
  | computeAndInvoke client =>
    obtain ⟨compiled, hcompiled, hresult⟩ := bind_eq_ok.mp h
    obtain ⟨rfl, -⟩ := Prod.mk.inj (pure_eq_ok.mp hresult)
    obtain ⟨computeResult, calldata, -, rfl, hcall, hcalldata⟩ := computeAndInvoke_eq_ok hcompiled
    obtain rfl := ServerAction.invokeWithComputation.inj (List.mem_singleton.mp hmem)
    exact ⟨client, computeResult, List.mem_singleton_self _, rfl, hcall, hcalldata⟩
  | setViewingKey _ | openChannel _ | openSubchannel _ | invokeExternal _ | createOpenNote _ =>
    simp only [compileAction, setViewingKey, openChannel, openSubchannel, invokeExternal,
      createOpenNote, toWriteOnceAction, bind_eq_ok, pure_eq_ok, Prod.mk.injEq] at h
    grind
  | deposit _ | withdraw _ | useNote _ | createEncNote _ =>
    simp only [compileAction, deposit, withdraw, useNote, createEncNote, toWriteOnceAction,
      bind_eq_ok, pure_eq_ok, Prod.mk.injEq] at h
    grind

theorem ComputedFrom.mono {call : CallContract} {userAddr : ContractAddress}
    {userPrivateKey : Felt} {clientActions clientActions' : List ClientAction}
    {input : InvokeInput} {client : ComputeAndInvokeInput} {computeResult : Span Felt}
    (h : ComputedFrom sn call userAddr userPrivateKey clientActions input client computeResult)
    (hsub : clientActions ⊆ clientActions') :
    ComputedFrom sn call userAddr userPrivateKey clientActions' input client computeResult :=
  ⟨hsub h.mem, h.target, h.computed, h.calldata⟩

/-- A compute-invoke among the actions that `main` outputs comes from one of the client's. -/
theorem mem_serverActions_of_main {call : CallContract} {pool simulated : Pool}
    {userAddr : ContractAddress} {userPrivateKey : Felt} {clientActions : List ClientAction}
    {actions : List ServerAction} {input : InvokeInput}
    (h : main sn call pool userAddr userPrivateKey clientActions = .ok (actions, simulated))
    (hmem : .invokeWithComputation input ∈ actions) :
    ∃ client computeResult,
      ComputedFrom sn call userAddr userPrivateKey clientActions input client computeResult := by
  obtain ⟨-, -, -, state, hloop, -, -, rfl, -⟩ := main_eq_ok h
  refine foldlM_invariant (fun s : CompileState => .invokeWithComputation input ∈ s.serverActions →
    ∃ client computeResult,
      ComputedFrom sn call userAddr userPrivateKey clientActions input client computeResult)
    (fun action haction before after hbefore hstep hafter => ?_)
    (fun hstart => absurd hstart List.not_mem_nil) hloop hmem
  simp only [compileStep, bind_eq_ok, pure_eq_ok] at hstep
  obtain ⟨_, -, ⟨compiled, balances⟩, hcompiled, _, -, rfl⟩ := hstep
  rcases List.mem_append.mp hafter with hearlier | hhere
  · exact hbefore hearlier
  · obtain ⟨client, computeResult, hfrom⟩ := compileAction_computed hcompiled hhere
    exact ⟨client, computeResult,
      hfrom.mono (by simpa using haction)⟩

/-! ### The map over a run -/

/-- The map stays derived, and its accounts stay. -/
structure AccountsGrow (platform : AnonymizerPlatform sn) (address : AddressFormula)
    (state state' : sn.Tokens) : Prop where
  derived : Derived platform address state'
  kept : AccountsKept platform state state'

theorem AccountsGrow.of_eq {state state' : sn.Tokens} (hderived : Derived platform address state)
    (hsame : platform.shadowAccounts state' = platform.shadowAccounts state) :
    AccountsGrow platform address state state' :=
  ⟨hderived.congr hsame, AccountsKept.of_eq hsame⟩

/-- Deposits to open notes leave the map alone. -/
theorem deposits_accounts (hkeeps : platform.Keeps) {depositor : ContractAddress}
    {deposits : List OpenNoteDeposit}
    (h : deposits.foldlM (depositToOpenNote sn depositor) world = .ok world') :
    platform.shadowAccounts world'.tokens = platform.shadowAccounts world.tokens :=
  foldlM_invariant
    (fun w : World sn => platform.shadowAccounts w.tokens = platform.shadowAccounts world.tokens)
    (fun _ _ _ _ hsame hstep =>
      (hkeeps.transferFrom (depositToOpenNote_eq_ok hstep).pulled).trans hsame) rfl h

/-- An external call of the pool lets the map grow. -/
theorem Invocation.Hosts.grow (hkeeps : platform.Keeps) (hdeploys : platform.DeploysAt address)
    (hhosts : invocation.Hosts platform) (hderived : Derived platform address world.tokens)
    {contract : ContractAddress} {selector : Felt} {calldata : Span Felt} {tokens : sn.Tokens}
    {returnData : List Felt} (hselector : selector = invokeSelector ∨
      selector = invokeWithComputationSelector)
    (h : invocation world contract selector calldata = .ok (tokens, returnData)) :
    AccountsGrow platform address world.tokens tokens := by
  by_cases hcontract : contract = platform.contractAddress
  · subst hcontract
    rcases hselector with rfl | rfl
    · have hnone := hhosts.noPlainInvoke world calldata
      rw [h] at hnone
      cases hnone
    · obtain ⟨_, _, -, haddress, hne, hkept, hmap⟩ :=
        privacyInvokeEntryPoint_accounts hkeeps hdeploys hderived (hhosts.interaction h)
      exact ⟨hderived.update hne haddress hmap, hkept⟩
  · exact .of_eq hderived (hhosts.others hcontract h)

/-- Applying an action lets the map grow. -/
theorem applyAction_accounts (hkeeps : platform.Keeps) (hdeploys : platform.DeploysAt address)
    (hhosts : invocation.Hosts platform) {action : ServerAction} {st st' : ApplyState sn}
    (hderived : Derived platform address st.world.tokens)
    (h : applyAction sn invocation st action = .ok st') :
    AccountsGrow platform address st.world.tokens st'.world.tokens := by
  -- Only the call itself can touch the map; the deposits move tokens.
  have hinvoke : ∀ input selector,
      selector = invokeSelector ∨ selector = invokeWithComputationSelector →
      applyInvokeAndDeposits sn invocation st input selector = .ok st' →
      AccountsGrow platform address st.world.tokens st'.world.tokens := by
    intro input selector hselector happly
    obtain ⟨tokens, deposits, hinvoked⟩ := applyInvokeAndDeposits_eq_ok happly
    obtain ⟨returnData, addresses, hcalled, -⟩ := hinvoked.called
    have hcall := hhosts.grow hkeeps hdeploys hderived hselector hcalled
    have hsame := deposits_accounts hkeeps hinvoked.deposited
    exact ⟨hcall.derived.congr hsame, hcall.kept.trans (.of_eq hsame)⟩
  cases action with
  | invoke input => exact hinvoke input _ (Or.inl rfl) h
  | invokeWithComputation input => exact hinvoke input _ (Or.inr rfl) h
  | writeOnce input =>
    obtain ⟨pool, -, h⟩ := bind_eq_ok.mp h
    obtain rfl := pure_eq_ok.mp h
    exact .of_eq hderived rfl
  | transferFrom input =>
    simp only [applyAction, applyTransferFrom, bind_eq_ok, pure_eq_ok, transferred_eq_ok] at h
    obtain ⟨_, -, _, ⟨tokens, hpaid, rfl⟩, rfl⟩ := h
    exact .of_eq hderived (hkeeps.transferFrom hpaid)
  | transferTo input =>
    simp only [applyAction, applyTransferTo, bind_eq_ok, pure_eq_ok, transferred_eq_ok] at h
    obtain ⟨_, ⟨tokens, hpaid, rfl⟩, rfl⟩ := h
    exact .of_eq hderived (hkeeps.transfer hpaid)
  | emitOpenNoteCreated event =>
    obtain ⟨counter, -, h⟩ := bind_eq_ok.mp h
    obtain rfl := pure_eq_ok.mp h
    exact .of_eq hderived rfl
  | append _ | emitViewingKeySet _ | emitWithdrawal _ | emitDeposit _ | emitEncNoteCreated _
  | emitNoteUsed _ =>
    obtain rfl := pure_eq_ok.mp h
    exact .of_eq hderived rfl

/-- Applying a list of actions lets the map grow. -/
theorem foldlM_applyAction_accounts (hkeeps : platform.Keeps)
    (hdeploys : platform.DeploysAt address) (hhosts : invocation.Hosts platform)
    {actions : List ServerAction} {st st' : ApplyState sn}
    (hderived : Derived platform address st.world.tokens)
    (h : actions.foldlM (applyAction sn invocation) st = .ok st') :
    AccountsGrow platform address st.world.tokens st'.world.tokens :=
  foldlM_invariant
    (fun s : ApplyState sn => AccountsGrow platform address st.world.tokens s.world.tokens)
    (fun _ _ _ _ hgrown hstep =>
      have hmore := applyAction_accounts hkeeps hdeploys hhosts hgrown.derived hstep
      ⟨hmore.derived, hgrown.kept.trans hmore.kept⟩)
    ⟨hderived, .refl _⟩ h

/-- Paying the fee leaves the map alone. -/
theorem collectFee_accounts (hkeeps : platform.Keeps) {tx : TxInfo}
    (h : collectFee sn world tx = .ok world') :
    platform.shadowAccounts world'.tokens = platform.shadowAccounts world.tokens := by
  unfold collectFee at h
  split_ifs at h
  · obtain ⟨tokens, hpaid, h⟩ := bind_eq_ok.mp h
    obtain rfl := pure_eq_ok.mp h
    exact hkeeps.transferFrom (transferred_eq_ok.mp hpaid)
  · obtain rfl := pure_eq_ok.mp h
    rfl

/-- Administration leaves what lies outside the pool alone. -/
theorem applyAdmin_tokens {caller : ContractAddress} {call : AdminCall}
    (h : applyAdmin sn world caller call = .ok world') : world'.tokens = world.tokens := by
  obtain ⟨_, -, h⟩ := bind_eq_ok.mp h
  cases call with
  | setAuditorPublicKey _ | setScreenerPublicKey _ =>
    simp only [setAuditorPublicKey, setScreenerPublicKey, bind_eq_ok, pure_eq_ok] at h
    obtain ⟨-, -, -, -, rfl⟩ := h
    rfl
  | setProofValidityBlocks _ | setFeeAmount _ | setFeeCollector _
  | setOpenNoteScreeningPolicy _ _ =>
    obtain ⟨_, -, h⟩ := bind_eq_ok.mp h
    obtain rfl := pure_eq_ok.mp h
    rfl
  | pause | unpause =>
    obtain rfl := pure_eq_ok.mp h
    rfl

/-- One step of the run lets the map grow. -/
theorem sharedStep_accounts (hkeeps : platform.Keeps) (hdeploys : platform.DeploysAt address)
    {label : Label sn} (hderived : Derived platform address world.tokens)
    (h : (sharedSystem D platform).step visited label world world') :
    AccountsGrow platform address world.tokens world'.tokens := by
  obtain ⟨hstep, hhosted⟩ := h
  cases label with
  | admin caller call => exact .of_eq hderived (by rw [applyAdmin_tokens hstep])
  | environment => exact .of_eq hderived hhosted
  | apply sub =>
    obtain ⟨-, -, -, happlies⟩ := hstep
    obtain ⟨tokens, st, haccepted⟩ := applyActions_iff.mp happlies
    have hfee : platform.shadowAccounts tokens = platform.shadowAccounts world.tokens :=
      collectFee_accounts hkeeps haccepted.fee
    have hgrown := foldlM_applyAction_accounts hkeeps hdeploys hhosted.invocation
      (hderived.congr hfee) haccepted.applied
    rw [haccepted.result]
    exact ⟨hgrown.derived, (AccountsKept.of_eq hfee).trans hgrown.kept⟩

/-- In every state of a run every account is at its derived address, and every account of
an earlier state is still bound to its commitment. -/
theorem sharedRun_accounts (hkeeps : platform.Keeps) (hdeploys : platform.DeploysAt address)
    (run : SharedRun D platform visited labels world) :
    ∀ p ∈ visited, Derived platform address p.tokens ∧
      AccountsKept platform p.tokens world.tokens := by
  refine run.ordered (fun w => Derived platform address w.tokens)
    (fun w w' => AccountsKept platform w.tokens w'.tokens) (fun w => AccountsKept.refl w.tokens)
    AccountsKept.trans (fun w hinit => ?_) (fun _ _ w w' hvisited hcurrent hstep => ?_)
  · intro commitment account hstored
    rw [hinit.2] at hstored
    cases hstored
  · have hgrown := sharedStep_accounts hkeeps hdeploys (hvisited _ hcurrent).1 hstep
    exact ⟨hgrown.derived, hgrown.kept⟩

end PrivacyPool
