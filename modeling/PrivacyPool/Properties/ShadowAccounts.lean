import PrivacyPool.ShadowAccount.SharedRun

/-!
# Shadow accounts are isolated

The identity commitment reaches the anonymizer as the head of a flat calldata span, most
of which the user chooses. It is nevertheless the commitment of the user and key that the
list was compiled for: the anonymizer is called with a computation only after the pool
asked that same contract to compute, and it answers one felt. So two identities never act
through one account, and an account stays bound to its identity.

## Main definitions

* `Identity` — who acts through a shadow account
* `Submission.Interacts` — an interaction within a transaction
* `Submission.RunsThrough` — whose interaction it is, and through which account

## Main results

* `Submission.Interacts.identity` — every interaction runs through the account of an identity
* `shadow_accounts_isolated` — accounts are equal exactly when the identities are
* `shadow_accounts_listed` — what the views show in every state of a run
-/

namespace PrivacyPool

open Fallible

variable {sn : Starknet} {D : Domain} {platform : AnonymizerPlatform sn}
  {address : AddressFormula} {visited visited' : List (World sn)}
  {labels labels' : List (Label sn)} {world world' next next' : World sn}
  {sub sub' : Submission sn} {identityCommitment identityCommitment' : Felt}
  {shadowAccount shadowAccount' : ContractAddress}

/-! ### Identities -/

/-- Who acts through a shadow account: a user with a private key, for a dapp, under a
nonce. -/
structure Identity where
  userAddr : ContractAddress
  userPrivateKey : Felt
  dappName : Felt
  nonce : Felt
  deriving DecidableEq, Repr

/-- The commitment of an identity. -/
def Identity.commitment (sn : Starknet) (anonymizer : ContractAddress) (i : Identity) : Felt :=
  privacyCompute sn (sn.computeIdentityKey i.userAddr i.userPrivateKey anonymizer) i.dappName
    i.nonce

/-- The submission was compiled for the user and key of the identity, and asks the
anonymizer to compute for its dapp and nonce. -/
structure Submission.ActsAs (platform : AnonymizerPlatform sn) (sub : Submission sn)
    (i : Identity) : Prop where
  user : i.userAddr = sub.userAddr
  key : i.userPrivateKey = sub.userPrivateKey
  asked : ∃ client, .computeAndInvoke client ∈ sub.clientActions ∧
    client.contractAddress = platform.contractAddress ∧
    client.computeAdditionalData.1 = [i.dappName, i.nonce]

/-- Applied from a world, the submission reaches an interaction that acts through a shadow
account for a commitment. -/
def Submission.Interacts (platform : AnonymizerPlatform sn) (sub : Submission sn)
    (world : World sn) (identityCommitment : Felt) (shadowAccount : ContractAddress) : Prop :=
  ∃ earlier input later st started,
    sub.actions.1 = earlier ++ .invokeWithComputation input :: later ∧
    input.contractAddress = platform.contractAddress ∧
    sub.Reaches world earlier st ∧ [identityCommitment] <+: input.calldata.1 ∧
    getOrDeployShadowAccount platform identityCommitment st.world.tokens = .ok (shadowAccount, started)

/-- The head of the calldata of a compute-invoke of the anonymizer is the commitment of an
identity of the submission. -/
theorem Submission.Hosted.actsAs (hcompiled : sub.Compiled) (hhosted : sub.Hosted D platform)
    {input : InvokeInput} (hmem : .invokeWithComputation input ∈ sub.actions.1)
    (htarget : input.contractAddress = platform.contractAddress) :
    ∃ i, sub.ActsAs platform i ∧
      [i.commitment sn platform.contractAddress] <+: input.calldata.1 := by
  obtain ⟨client, computeResult, hfrom⟩ := mem_serverActions_of_main hcompiled hmem
  have hcomputed := hfrom.computed
  rw [htarget, hhosted.compute] at hcomputed
  obtain ⟨identityKey, dappName, nonce, harguments, hresult⟩ :=
    privacyComputeEntryPoint_eq_ok hcomputed
  obtain ⟨rfl, hdata⟩ := List.cons.inj harguments
  refine ⟨⟨sub.userAddr, sub.userPrivateKey, dappName, nonce⟩,
    ⟨rfl, rfl, client, hfrom.mem, hfrom.target.trans htarget, hdata⟩, ?_⟩
  rw [hfrom.calldata, hresult]
  exact ⟨_, rfl⟩

/-- Identities in play have distinct commitments. -/
theorem Identity.commitment_inj (hD : NoCollision sn D) {anonymizer : ContractAddress}
    {i i' : Identity}
    (hi : ∀ span ∈ identitySpans sn i.userAddr i.userPrivateKey anonymizer i.dappName i.nonce,
      span ∈ D.spans)
    (hi' : ∀ span ∈ identitySpans sn i'.userAddr i'.userPrivateKey anonymizer i'.dappName i'.nonce,
      span ∈ D.spans)
    (h : i.commitment sn anonymizer = i'.commitment sn anonymizer) : i = i' := by
  obtain ⟨userAddr, userPrivateKey, dappName, nonce⟩ := i
  obtain ⟨userAddr', userPrivateKey', dappName', nonce'⟩ := i'
  simp only [identitySpans, List.forall_mem_cons, List.not_mem_nil, false_implies, implies_true,
    and_true] at hi hi'
  obtain ⟨hkey, hdapp, hcommitment⟩ := hi
  obtain ⟨hkey', hdapp', hcommitment'⟩ := hi'
  -- The three hashes are undone one after the other, the last one first.
  have hlast := hD.hash_injOn hcommitment hcommitment' h
  obtain ⟨hpartials, hnonces⟩ := List.cons.inj hlast
  have hmiddle := hD.hash_injOn hdapp hdapp' hpartials
  obtain ⟨hkeys, hdapps⟩ := List.cons.inj hmiddle
  have hfirst := hD.hash_injOn hkey hkey' hkeys
  obtain rfl := (List.cons.inj hnonces).1
  obtain rfl := (List.cons.inj hdapps).1
  simp only [identityKeySpan, List.cons.injEq, ContractAddress.toFelt_inj, and_true,
    true_and] at hfirst
  obtain ⟨rfl, rfl⟩ := hfirst
  rfl

/-- The span that a commitment is the hash of is in play. -/
theorem Submission.ActsAs.spans (hhosted : sub.Hosted D platform) {i : Identity}
    (h : sub.ActsAs platform i) :
    ∀ span ∈ identitySpans sn i.userAddr i.userPrivateKey platform.contractAddress i.dappName
      i.nonce, span ∈ D.spans := by
  obtain ⟨client, hmem, htarget, hdata⟩ := h.asked
  rw [h.user, h.key]
  exact hhosted.identity client i.dappName i.nonce hmem htarget hdata

/-! ### Interactions -/

/-- An interaction is that of an identity of the submission's own user and key, through the
account at the address derived from its commitment, which is bound to it afterwards. -/
structure Submission.RunsThrough (platform : AnonymizerPlatform sn) (address : AddressFormula)
    (sub : Submission sn) (next : World sn) (identityCommitment : Felt)
    (shadowAccount : ContractAddress) (i : Identity) : Prop where
  acts : sub.ActsAs platform i
  commitment : identityCommitment = i.commitment sn platform.contractAddress
  account : shadowAccount = shadowAccountAddress address
    (i.commitment sn platform.contractAddress) platform.contractAddress
  bound : platform.shadowAccounts next.tokens identityCommitment = some shadowAccount

/-- Every interaction of a run runs through the account of an identity. -/
theorem Submission.Interacts.identity (hkeeps : platform.Keeps)
    (hdeploys : platform.DeploysAt address) (run : SharedRun D platform visited labels world)
    (h : (sharedSystem D platform).step visited (.apply sub) world next)
    (hinteracts : sub.Interacts platform world identityCommitment shadowAccount) :
    ∃ i, sub.RunsThrough platform address next identityCommitment shadowAccount i := by
  obtain ⟨⟨-, hcompiled, -, happlies⟩, hhosted⟩ := h
  have hhosted : sub.Hosted D platform := hhosted
  obtain ⟨earlier, input, later, st, started, hactions, htarget, ⟨paid, hfee, hreached⟩, hhead,
    hshadow⟩ := hinteracts
  -- The accounts are at their derived addresses up to the interaction.
  have hderived := (sharedRun_accounts hkeeps hdeploys run _ run.mem_visited).1
  have hpaid : platform.shadowAccounts paid = platform.shadowAccounts world.tokens :=
    collectFee_accounts hkeeps hfee
  have hst := foldlM_applyAction_accounts hkeeps hdeploys hhosted.invocation
    (hderived.congr hpaid) hreached
  obtain ⟨haddress, -, -, -⟩ :=
    getOrDeployShadowAccount_spec hkeeps hdeploys hst.derived hshadow
  have hmem : .invokeWithComputation input ∈ sub.actions.1 := by
    rw [hactions]
    exact List.mem_append_right _ List.mem_cons_self
  -- Its commitment is the one that the call computed for the identity.
  obtain ⟨i, hacts, hcommitment⟩ := hhosted.actsAs hcompiled hmem htarget
  have hsame : identityCommitment = i.commitment sn platform.contractAddress := by
    obtain ⟨rest, hrest⟩ := hhead
    obtain ⟨rest', hrest'⟩ := hcommitment
    exact (List.cons.inj (hrest.trans hrest'.symm)).1
  refine ⟨i, hacts, hsame, hsame ▸ haddress, ?_⟩
  -- The interaction itself binds the account, and the rest of the list keeps it.
  obtain ⟨tokens, last, haccepted⟩ := applyActions_iff.mp happlies
  have happlied := haccepted.applied
  obtain rfl : tokens = paid := congrArg World.tokens (Except.ok.inj (haccepted.fee.symm.trans hfee))
  rw [hactions] at happlied
  obtain ⟨st', hearlier, hmore⟩ := foldlM_append_eq_ok.mp happlied
  obtain rfl : st' = st := Except.ok.inj (hearlier.symm.trans hreached)
  obtain ⟨st'', hstep, hlater⟩ := foldlM_cons_eq_ok.mp hmore
  obtain ⟨called, deposits, hinvoked⟩ := applyInvokeAndDeposits_eq_ok hstep
  obtain ⟨returnData, addresses, hcalled, -⟩ := hinvoked.called
  rw [htarget] at hcalled
  obtain ⟨reached, account, hhead', haccount, hne, hkept, hmap⟩ :=
    privacyInvokeEntryPoint_accounts hkeeps hdeploys hst.derived
      (hhosted.invocation.interaction hcalled)
  obtain rfl : identityCommitment = reached := by
    obtain ⟨rest, hrest⟩ := hhead
    obtain ⟨rest', hrest'⟩ := hhead'
    exact (List.cons.inj (hrest.trans hrest'.symm)).1
  have hafter : platform.shadowAccounts st''.world.tokens identityCommitment = some shadowAccount := by
    rw [deposits_accounts hkeeps hinvoked.deposited]
    change platform.shadowAccounts called identityCommitment = _
    rw [hmap, Function.update_self, haccount, haddress]
  have hgrown := foldlM_applyAction_accounts hkeeps hdeploys hhosted.invocation
    (applyAction_accounts hkeeps hdeploys hhosted.invocation hst.derived hstep).derived hlater
  rw [haccepted.result]
  exact hgrown.kept _ _ hafter

/-- The commitments in play: the hashes of the spans that are. -/
def commitmentsInPlay (sn : Starknet) (D : Domain) : Set Felt :=
  {commitment | ∃ span ∈ D.spans, sn.poseidonHashSpan span = commitment}

/-- **Isolation.** Two interactions, of any two transactions of any runs, act for
identities of the users and keys that their lists were compiled for, each through the account
at the address derived from its commitment, and they act through the same shadow account
exactly when the identities are the same. -/
theorem shadow_accounts_isolated (hD : NoCollision sn D) (hkeeps : platform.Keeps)
    (hdeploys : platform.DeploysAt address)
    (haddress : Set.InjOn
      (fun commitment => shadowAccountAddress address commitment platform.contractAddress)
      (commitmentsInPlay sn D))
    (run : SharedRun D platform visited labels world)
    (h : (sharedSystem D platform).step visited (.apply sub) world next)
    (hinteracts : sub.Interacts platform world identityCommitment shadowAccount)
    (run' : SharedRun D platform visited' labels' world')
    (h' : (sharedSystem D platform).step visited' (.apply sub') world' next')
    (hinteracts' : sub'.Interacts platform world' identityCommitment' shadowAccount') :
    ∃ i i', sub.RunsThrough platform address next identityCommitment shadowAccount i ∧
      sub'.RunsThrough platform address next' identityCommitment' shadowAccount' i' ∧
      (shadowAccount = shadowAccount' ↔ i = i') := by
  obtain ⟨i, hruns⟩ := hinteracts.identity hkeeps hdeploys run h
  obtain ⟨i', hruns'⟩ := hinteracts'.identity hkeeps hdeploys run' h'
  refine ⟨i, i', hruns, hruns', fun hsame => ?_, ?_⟩
  -- The derivation tells commitments in play apart, and these tell the identities apart.
  · have hspans := hruns.acts.spans h.2
    have hspans' := hruns'.acts.spans h'.2
    have hplay : i.commitment sn platform.contractAddress ∈ commitmentsInPlay sn D :=
      ⟨_, hspans _ (List.getLast_mem (List.cons_ne_nil _ _)), rfl⟩
    have hplay' : i'.commitment sn platform.contractAddress ∈ commitmentsInPlay sn D :=
      ⟨_, hspans' _ (List.getLast_mem (List.cons_ne_nil _ _)), rfl⟩
    have hequal : i.commitment sn platform.contractAddress =
        i'.commitment sn platform.contractAddress :=
      haddress hplay hplay' (hruns.account.symm.trans (hsame.trans hruns'.account))
    exact Identity.commitment_inj hD hspans hspans' hequal
  · rintro rfl
    rw [hruns.account, hruns'.account]

/-- The views of the map in every state of a run, and how they change: every nonce of a
range of at most `MAX_SCAN_RANGE` is listed at the address derived from its commitment,
whether or not its account is deployed, up to the first undeployed one if so asked, and an
account that an earlier state shows as deployed is shown so by every later one. -/
theorem shadow_accounts_listed (hkeeps : platform.Keeps) (hdeploys : platform.DeploysAt address)
    (run : SharedRun D platform visited labels world) (partialCommitment : Felt)
    (startNonce endNonce : U64) (untilUndeployed : Bool) :
    ∀ p ∈ visited,
      ((startNonce ≤ endNonce ∧ endNonce.val - startNonce.val ≤ maxScanRange →
        getShadowAccounts platform address p.tokens partialCommitment startNonce endNonce
            untilUndeployed =
          .ok (((nonceRange startNonce endNonce).map
            (accountInfo platform address p.tokens partialCommitment)).takeWhile
              fun info => !untilUndeployed || info.isDeployed)) ∧
        (¬(startNonce ≤ endNonce ∧ endNonce.val - startNonce.val ≤ maxScanRange) →
          (getShadowAccounts platform address p.tokens partialCommitment startNonce endNonce
            untilUndeployed).isOk = false)) ∧
      ∀ nonce, (accountInfo platform address p.tokens partialCommitment nonce).isDeployed = true →
        accountInfo platform address world.tokens partialCommitment nonce =
          accountInfo platform address p.tokens partialCommitment nonce := by
  intro p hp
  obtain ⟨hderived, hkept⟩ := sharedRun_accounts hkeeps hdeploys run p hp
  refine ⟨⟨fun hrange => ?_, fun hrange => ?_⟩, fun nonce hdeployed => ?_⟩
  · unfold getShadowAccounts
    simp only [bind_eq_ok, require_eq_ok, pure_eq_ok, exists_const]
    exact ⟨hrange.1, hrange.2, resolveNonces_eq hderived _ _ _⟩
  · rw [Bool.eq_false_iff]
    intro hok
    have hlisted := eq_ok_valueOr [] hok
    simp only [getShadowAccounts, bind_eq_ok, require_eq_ok, exists_const] at hlisted
    exact hrange ⟨hlisted.1, hlisted.2.1⟩
  · obtain ⟨account, haccount⟩ := Option.isSome_iff_exists.mp hdeployed
    have hlater := hkept _ _ haccount
    simp only [accountInfo, haccount, hlater]

/-! ### A sample interaction -/

namespace ShadowSample

/-- The spans of the sample platform, and those of the identity of user 5 with key 3 at the
anonymizer 8 for dapp 70, under two nonces. -/
def table : List (List Felt) :=
  sampleSpans ++ [identityKeySpan 5 3 8, [10, 70], [11, 1], [11, 2]]

/-- The sample platform with that table and the map of shadow accounts beside the tokens. -/
def starknet : Starknet :=
  { Starknet.sample with
    poseidonHashSpan := fun span => Fin.ofNat feltPrime (table.idxOf span + 1)
    starknetDomainHash := fun name version => Fin.ofNat feltPrime
      (table.idxOf [starknetDomainTypeHash, name, version, 1, 1] + 1)
    Tokens := (ContractAddress → ContractAddress → ℕ) × (Felt → Option ContractAddress)
    balanceOf := fun state token account => state.1 token account
    checkedTransferFrom := fun state token sender recipient amount =>
      if sender ≠ 1000 ∧ amount ≤ state.1 token sender then
        some (moveTokens state.1 token sender recipient amount, state.2)
      else none
    checkedTransfer := fun state token recipient amount =>
      if recipient ≠ 0 ∧ amount ≤ state.1 token 1000 then
        some (moveTokens state.1 token 1000 recipient amount, state.2)
      else none }

/-- The spans of the table and the keys of 64 bits. -/
def domain : Domain := ⟨{span | span ∈ table}, {key | key.val < 2 ^ 64}⟩

instance : DecidablePred (· ∈ domain.spans) :=
  fun span => inferInstanceAs (Decidable (span ∈ table))

instance : DecidablePred (· ∈ domain.keys) :=
  fun key => inferInstanceAs (Decidable (key.val < 2 ^ 64))

theorem noCollision : NoCollision starknet domain :=
  noCollision_of_table (by decide) (fun _ => rfl) rfl

/-- Contracts are deployed one after the other from 600. -/
def deployed : AddressFormula := fun salt _ _ _ => Fin.ofNat (2 ^ 251) (600 + salt.val)

/-- The arguments of a transfer. -/
def transferArguments : List Felt → Option (ContractAddress × ℕ)
  | [recipient, low, high] =>
    (narrow (2 ^ 251) recipient).map fun recipient => (recipient, high.val * 2 ^ 128 + low.val)
  | _ => none

/-- A call by an account other than the pool, of a token, which knows transfers only. -/
def callToken (state : starknet.Tokens) (caller : ContractAddress) (call : Call) :
    Except (List Felt) starknet.Tokens := do
  let transfer ← expect (transferArguments call.calldata.1) []
  require (caller ≠ 1000 ∧ transfer.2 ≤ state.1 call.toAddr caller) []
  return (moveTokens state.1 call.toAddr caller transfer.1 transfer.2, state.2)

/-- The anonymizer at address 8. -/
def anonymizer : AnonymizerPlatform starknet where
  contractAddress := 8
  privacyContract := 1000
  shadowAccountClassHash := 3
  shadowAccounts state := state.2
  writeShadowAccount state commitment account :=
    (state.1, Function.update state.2 commitment (some account))
  deploy state classHash salt := .ok (deployed salt classHash [] 8, state)
  setClassHash state _ _ := .ok state
  initializeAccount state _ := .ok state
  approve state _ _ _ := .ok state
  callContract := callToken

theorem callToken_eq_ok {state state' : starknet.Tokens} {caller : ContractAddress} (call : Call)
    (h : callToken state caller call = .ok state') : ∃ recipient amount,
      caller ≠ 1000 ∧ state' = (moveTokens state.1 call.toAddr caller recipient amount, state.2) := by
  obtain ⟨transfer, -, h⟩ := bind_eq_ok.mp h
  obtain ⟨_, hcaller, h⟩ := bind_eq_ok.mp h
  exact ⟨transfer.1, transfer.2, (require_eq_ok.mp hcaller).1, (pure_eq_ok.mp h).symm⟩

theorem keeps : anonymizer.Keeps where
  write _ _ _ := rfl
  deploy h := congrArg Prod.snd (Prod.mk.inj (Except.ok.inj h)).2.symm
  setClassHash h := congrArg Prod.snd (Except.ok.inj h).symm
  initializeAccount h := congrArg Prod.snd (Except.ok.inj h).symm
  approve h := congrArg Prod.snd (Except.ok.inj h).symm
  callContract := by
    intro state account call state' h
    obtain ⟨recipient, amount, -, rfl⟩ := callToken_eq_ok call h
    rfl
  transferFrom := by
    intro state token sender recipient amount state' h
    obtain ⟨-, h⟩ := Option.ite_none_right_eq_some.mp h
    obtain rfl := Option.some.inj h
    rfl
  transfer := by
    intro state token recipient amount state' h
    obtain ⟨-, h⟩ := Option.ite_none_right_eq_some.mp h
    obtain rfl := Option.some.inj h
    rfl

theorem deploysAt : anonymizer.DeploysAt deployed :=
  fun h => (Prod.mk.inj (Except.ok.inj h)).1.symm

theorem deployed_injOn : Set.InjOn
    (fun commitment => shadowAccountAddress deployed commitment anonymizer.contractAddress)
    (commitmentsInPlay starknet domain) := by
  have hsmall : ∀ span, (starknet.poseidonHashSpan span).val < 15 := by
    intro span
    have hindex : table.idxOf span ≤ 13 := List.idxOf_le_length
    have hval : (starknet.poseidonHashSpan span).val ≤ table.idxOf span + 1 := Nat.mod_le _ _
    omega
  rintro _ ⟨span, -, rfl⟩ _ ⟨span', -, rfl⟩ h
  have hlt := hsmall span
  have hlt' := hsmall span'
  have hvals : (600 + (starknet.poseidonHashSpan span).val) % 2 ^ 251 =
      (600 + (starknet.poseidonHashSpan span').val) % 2 ^ 251 := congrArg Fin.val h
  rw [Nat.mod_eq_of_lt (by omega), Nat.mod_eq_of_lt (by omega)] at hvals
  exact Fin.ext (Nat.add_left_cancel hvals)

/-- The notes that the returned deposits name are small. -/
def smallNotes (returnData : List Felt) : Bool :=
  match deserializeInvokeReturnData returnData with
  | .ok (deposits, _) => deposits.1.all fun deposit => deposit.noteId.val < 2 ^ 64
  | .error _ => true

/-- The anonymizer is the only external contract. -/
def invocation : Invocation starknet := fun world contract selector calldata =>
  if contract = 8 ∧ selector = invokeWithComputationSelector then do
    let result ← privacyInvokeEntryPoint anonymizer 1000 calldata world.tokens
    require (smallNotes result.2 = true) []
    return result
  else .error []

theorem hosts : invocation.Hosts anonymizer where
  interaction := by
    intro world calldata result h
    rw [invocation, if_pos ⟨rfl, rfl⟩] at h
    simp only [bind_eq_ok, require_eq_ok, pure_eq_ok, exists_const] at h
    obtain ⟨result, hentry, -, rfl⟩ := h
    exact hentry
  noPlainInvoke world calldata := by
    rw [invocation, if_neg (by decide)]
    rfl
  others := by
    intro world contract selector calldata tokens returnData hcontract h
    rw [invocation, if_neg fun hboth => hcontract hboth.1] at h
    cases h

/-- A call of an account moves tokens of that account only. -/
theorem execute_balance {account : ContractAddress} {calls : List Call}
    {s s' : starknet.Tokens} (hcalls : execute anonymizer account calls s = .ok s')
    (t : ContractAddress) : s.1 t 1000 ≤ s'.1 t 1000 := by
  refine foldlM_invariant (fun u : starknet.Tokens => s.1 t 1000 ≤ u.1 t 1000)
    (fun call _ before after hbefore hstep => ?_) le_rfl hcalls
  obtain ⟨recipient, amount, hcaller, rfl⟩ := callToken_eq_ok call hstep
  have hmoved : moveTokens before.1 call.toAddr account recipient amount t 1000 = _ :=
    moveTokens_of_ne_sender hcaller t
  exact hbefore.trans (le_of_le_of_eq (Nat.le_add_right _ _) hmoved.symm)

/-- Deploying an account moves no tokens. -/
theorem getOrDeployShadowAccount_balances {identityCommitment : Felt} {account : ContractAddress}
    {state started : starknet.Tokens}
    (h : getOrDeployShadowAccount anonymizer identityCommitment state = .ok (account, started)) :
    started.1 = state.1 := by
  unfold getOrDeployShadowAccount at h
  split at h
  · obtain ⟨-, rfl⟩ := Prod.mk.inj (pure_eq_ok.mp h)
    rfl
  · simp only [anonymizer, bind_eq_ok, require_eq_ok, pure_eq_ok, exists_const] at h
    obtain ⟨_, hdeploy, -, _, hclass, _, hinit, hresult⟩ := h
    obtain ⟨-, rfl⟩ := Prod.mk.inj hresult
    obtain rfl := Except.ok.inj hdeploy
    obtain rfl := Except.ok.inj hclass
    obtain rfl := Except.ok.inj hinit
    rfl

/-- No interaction takes tokens from the pool. -/
theorem entryPoint_balance {state state' : starknet.Tokens} {calldata : Span Felt}
    {returnData : List Felt}
    (h : privacyInvokeEntryPoint anonymizer 1000 calldata state = .ok (state', returnData))
    (t : ContractAddress) : state.1 t 1000 ≤ state'.1 t 1000 := by
  obtain ⟨commitment, calls, openNotes, results, -, hinteraction, -⟩ :=
    privacyInvokeEntryPoint_eq_ok h
  simp only [privacyInvokeWithComputation, bind_eq_ok, require_eq_ok, pure_eq_ok,
    exists_const] at hinteraction
  obtain ⟨-, ⟨account, started⟩, hshadow, called, hexecuted, ⟨deposits, last⟩, hcollect,
    _, -, _, -, hresult⟩ := hinteraction
  obtain ⟨-, rfl⟩ := Prod.mk.inj hresult
  have hstarted := getOrDeployShadowAccount_balances hshadow
  simp only [collectOpenNotes, bind_eq_ok, pure_eq_ok] at hcollect
  obtain ⟨loop, hloop, _, htransfers, hresult⟩ := hcollect
  obtain ⟨-, rfl⟩ := Prod.mk.inj hresult
  -- The loop approves the pool, which moves no tokens either.
  have happroved : loop.state = called := by
    refine foldlM_invariant (fun l : CollectLoop starknet => l.state = called)
      (fun _ _ before after hbefore hstep => ?_) rfl hloop
    simp only [collectOpenNote, anonymizer, bind_eq_ok, pure_eq_ok] at hstep
    obtain ⟨_, -, -, -, _, happrove, _, -, rfl⟩ := hstep
    exact (Except.ok.inj happrove).symm.trans hbefore
  rw [← hstarted]
  exact (execute_balance hexecuted t).trans (happroved ▸ execute_balance htransfers t)

theorem confined : invocation.Confined domain where
  balance := by
    intro world contract selector calldata tokens returnData h t
    unfold invocation at h
    split_ifs at h
    simp only [bind_eq_ok, require_eq_ok, pure_eq_ok, exists_const] at h
    obtain ⟨result, hentry, -, rfl⟩ := h
    exact entryPoint_balance hentry t
  noteIds := by
    intro world contract selector calldata tokens returnData deposits addresses h hreturn
    unfold invocation at h
    split_ifs at h
    simp only [bind_eq_ok, require_eq_ok, pure_eq_ok, exists_const] at h
    obtain ⟨result, -, hsmall, rfl⟩ := h
    dsimp only at hsmall
    rw [smallNotes, hreturn] at hsmall
    intro deposit hdeposit
    exact of_decide_eq_true (List.all_eq_true.mp hsmall deposit hdeposit)

/-- The accounts for the nonces 1 and 2 would hold 40 of token 77. -/
def before : World starknet where
  pool := Pool.blank fun _ _ => true
  tokens := (fun token account => if token = 77 ∧ (account = 612 ∨ account = 613) then 40 else 0,
    fun _ => none)
  events := []
  blockNumber := 10
  blockTimestamp := 1000

/-- The pool is deployed. -/
def started : World starknet := valueOr before (constructor starknet before 2 4 100)

/-- The pool after the governor has made the anonymizer answer for its depositors. -/
def governed : World starknet :=
  valueOr before (applyAdmin starknet started 1 (.setOpenNoteScreeningPolicy 8 .delegated))

/-- The calls of the interaction: 10 of token 77 to user 5. -/
def calls : Span Call := ⟨[buildTransferCall 77 5 10], one_lt_usize⟩

/-- The open note that collects the rest. -/
def openNotes : Span OpenNote := ⟨[⟨6, 77, .all⟩], by decide⟩

/-- User 5 registers, opens a channel to itself with an open note, and interacts with a dapp
under a nonce. -/
def clientActions (nonce : Felt) : List ClientAction :=
  [.setViewingKey ⟨9⟩, .openChannel ⟨5, 0, 9, 9⟩, .openSubchannel ⟨5, 3, 1, 0, 77, 9⟩,
    .createOpenNote ⟨5, 3, 77, 0, 9⟩,
    .computeAndInvoke ⟨8, ⟨[70, nonce], show 2 < 2 ^ 32 by decide⟩,
      ⟨serialize calls ++ serialize openNotes, by decide⟩⟩]

/-- The transaction that carries the lists. -/
def tx : TxInfo := ⟨5, [1, virtualSnos, 3, virtualSnos0, 5, 6, 7, 1, 14]⟩

/-- The anonymizer is the contract at address 8. -/
def call : CallContract := fun contract selector calldata =>
  if contract = 8 ∧ selector = privacyComputeSelector then
    privacyComputeEntryPoint starknet calldata
  else .error []

/-- User 5 interacts through its account for a nonce. -/
def interacting (nonce : Felt) : Submission starknet :=
  .ofMain governed call 5 3 (clientActions nonce) invocation tx (some Sample.attestation)

/-- The state after that. -/
def interacted (nonce : Felt) : World starknet :=
  valueOr governed (applyActions starknet invocation tx governed (interacting nonce).actions
    (interacting nonce).screening)

theorem governed_run : SharedRun domain anonymizer [governed, started]
    [.admin 1 (.setOpenNoteScreeningPolicy 8 .delegated)] governed := by
  have hstarted : (constructor starknet before 2 4 100).isOk = true := by decide +kernel
  have hgoverned : (applyAdmin starknet started 1
    (.setOpenNoteScreeningPolicy 8 .delegated)).isOk = true := by decide +kernel
  refine .step (.start ⟨⟨before, _, 2, 4, 100, rfl, eq_ok_valueOr before hstarted⟩, rfl⟩)
    ⟨eq_ok_valueOr before hgoverned, trivial⟩

/-- What is asked of a submission of the sample. -/
structure Runs (nonce : Felt) : Prop where
  nonce_mem : [11, nonce] ∈ table
  compiled : (interacting nonce).Compiled
  covered : CompileCovered starknet domain call 5 3 (CompileState.start governed.pool)
    (clientActions nonce)
  applied : (interacting nonce).Applies governed (interacted nonce)

theorem runs_one : Runs 1 :=
  ⟨by decide +kernel, Submission.ofMain_compiled (by decide +kernel) (by decide +kernel),
    by decide +kernel, eq_ok_valueOr governed (by decide +kernel)⟩

theorem runs_two : Runs 2 :=
  ⟨by decide +kernel, Submission.ofMain_compiled (by decide +kernel) (by decide +kernel),
    by decide +kernel, eq_ok_valueOr governed (by decide +kernel)⟩

theorem Runs.hosted {nonce : Felt} (h : Runs nonce) :
    (interacting nonce).Hosted domain anonymizer where
  compute _ := by
    change call 8 privacyComputeSelector _ = _
    rw [call, if_pos ⟨rfl, rfl⟩]
  invocation := hosts
  identity := by
    intro input dappName nonce' hmem _ hdata
    have hinput : input = ⟨8, ⟨[70, nonce], show 2 < 2 ^ 32 by decide⟩,
        ⟨serialize calls ++ serialize openNotes, by decide⟩⟩ := by
      have hmem : .computeAndInvoke input ∈ clientActions nonce := hmem
      simpa [clientActions] using hmem
    subst hinput
    obtain ⟨rfl, rfl⟩ : 70 = dappName ∧ nonce = nonce' := by simpa using hdata
    intro span hspan
    rcases List.mem_cons.mp hspan with rfl | hspan
    · exact (by decide +kernel : identityKeySpan 5 3 8 ∈ table)
    rcases List.mem_cons.mp hspan with rfl | hspan
    · exact (by decide +kernel :
        [starknet.computeIdentityKey 5 3 8, 70] ∈ table)
    · obtain rfl := List.mem_singleton.mp hspan
      have hdapp : partialCommitment starknet (starknet.computeIdentityKey 5 3 8) 70 = 11 := by
        decide +kernel
      change [partialCommitment starknet (starknet.computeIdentityKey 5 3 8) 70, nonce] ∈ table
      rw [hdapp]
      exact h.nonce_mem

theorem Runs.step {nonce : Felt} (h : Runs nonce) : (sharedSystem domain anonymizer).step
    [governed, started] (.apply (interacting nonce)) governed (interacted nonce) :=
  ⟨⟨List.mem_cons_self, h.compiled, ⟨h.covered, confined⟩, h.applied⟩, h.hosted⟩

/-- The state in which the interaction of the sample is reached. -/
def reached (nonce : Felt) : ApplyState starknet :=
  valueOr ⟨governed, 0, none⟩ ((interacting nonce).actions.1.dropLast.foldlM
    (applyAction starknet invocation) ⟨governed.enter, 0, none⟩)

/-- The calldata of the interaction. -/
def calldata (nonce : Felt) : Span Felt :=
  ⟨(Identity.mk 5 3 70 nonce).commitment starknet 8 :: (serialize calls ++ serialize openNotes),
    show 12 < 2 ^ 32 by decide⟩

theorem interacts {nonce : Felt} {account : ContractAddress}
    (hactions : (interacting nonce).actions.1 = (interacting nonce).actions.1.dropLast ++
      [.invokeWithComputation ⟨8, calldata nonce⟩])
    (hreached : ((interacting nonce).actions.1.dropLast.foldlM
      (applyAction starknet invocation) ⟨governed.enter, 0, none⟩).isOk = true)
    (hnone : (reached nonce).world.tokens.2 ((Identity.mk 5 3 70 nonce).commitment starknet 8) =
      none)
    (haccount : deployed ((Identity.mk 5 3 70 nonce).commitment starknet 8) primerClassHash [] 8 =
      account) (hne : account ≠ 0) :
    (interacting nonce).Interacts anonymizer governed
      ((Identity.mk 5 3 70 nonce).commitment starknet 8) account := by
  have hfee : collectFee starknet governed.enter tx = .ok governed.enter := by
    unfold collectFee
    rw [if_neg (by decide +kernel)]
    rfl
  have hshadow : anonymizer.shadowAccounts (reached nonce).world.tokens
      ((Identity.mk 5 3 70 nonce).commitment starknet 8) = none := hnone
  obtain ⟨bound, hbound⟩ : ∃ bound, getOrDeployShadowAccount anonymizer
      ((Identity.mk 5 3 70 nonce).commitment starknet 8) (reached nonce).world.tokens =
        .ok (account, bound) := by
    subst haccount
    simp only [getOrDeployShadowAccount, hshadow, bind_eq_ok, require_eq_ok, exists_const]
    exact ⟨_, _, rfl, hne, _, rfl, _, rfl, rfl⟩
  exact ⟨_, ⟨8, calldata nonce⟩, [], reached nonce, bound, hactions, rfl,
    ⟨governed.tokens, hfee, eq_ok_valueOr _ hreached⟩, ⟨_, rfl⟩, hbound⟩

theorem interacts_one : (interacting 1).Interacts anonymizer governed 12 612 :=
  interacts (by decide +kernel) (by decide +kernel) (by decide +kernel) (by decide +kernel)
    (by decide)

/-- The pool after the interaction, paused. -/
def paused : World starknet :=
  valueOr (interacted 1) (applyAdmin starknet (interacted 1) 1 .pause)

theorem interacts_two : (interacting 2).Interacts anonymizer governed 13 613 :=
  interacts (by decide +kernel) (by decide +kernel) (by decide +kernel) (by decide +kernel)
    (by decide)

end ShadowSample

open ShadowSample in
/-- Two interactions of the sample user under different nonces, through two accounts. -/
theorem shadow_accounts_isolated_sample : ∃ i i',
    (interacting 1).RunsThrough anonymizer deployed (interacted 1) 12 612 i ∧
    (interacting 2).RunsThrough anonymizer deployed (interacted 2) 13 613 i' ∧ i ≠ i' := by
  obtain ⟨i, i', hruns, hruns', hsame⟩ := shadow_accounts_isolated noCollision keeps
    deploysAt deployed_injOn governed_run runs_one.step interacts_one governed_run runs_two.step
    interacts_two
  exact ⟨i, i', hruns, hruns', fun heq => absurd (hsame.mpr heq) (by decide)⟩

open ShadowSample in
/-- After the interaction of the sample its account is listed as deployed, and it still is after
the governor has paused the pool. -/
theorem shadow_accounts_listed_sample :
    getShadowAccounts anonymizer deployed (interacted 1).tokens 11 1 3 false =
      .ok (((nonceRange 1 3).map
        (accountInfo anonymizer deployed (interacted 1).tokens 11)).takeWhile
          fun info => !false || info.isDeployed) ∧
    (accountInfo anonymizer deployed (interacted 1).tokens 11 1).isDeployed = true ∧
    accountInfo anonymizer deployed paused.tokens 11 1 =
      accountInfo anonymizer deployed (interacted 1).tokens 11 1 := by
  have hpaused : (applyAdmin starknet (interacted 1) 1 .pause).isOk = true := by decide +kernel
  have hrun : SharedRun domain anonymizer [paused, interacted 1, governed, started]
      [.admin 1 .pause, .apply (interacting 1),
        .admin 1 (.setOpenNoteScreeningPolicy 8 .delegated)] paused :=
    .step (.step governed_run runs_one.step) ⟨eq_ok_valueOr (interacted 1) hpaused, trivial⟩
  have hdeployed : (accountInfo anonymizer deployed (interacted 1).tokens 11 1).isDeployed =
      true := by decide +kernel
  obtain ⟨⟨hlisted, -⟩, hkept⟩ := shadow_accounts_listed keeps deploysAt hrun 11 1 3 false
    (interacted 1) (List.mem_cons_of_mem _ List.mem_cons_self)
  exact ⟨hlisted (by decide), hdeployed, hkept 1 hdeployed⟩

end PrivacyPool
