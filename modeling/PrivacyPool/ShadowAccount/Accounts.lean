import PrivacyPool.Contract.Server
import PrivacyPool.ShadowAccount.Anonymizer

/-!
# The map of shadow accounts

The anonymizer binds every identity commitment to one shadow account, deployed on
first use with the commitment as its salt. The address depends on nothing but the
commitment, so that the views of the contract and the clients know it before the
account exists.

## Main definitions

* `AddressFormula` — the address of a deployed contract
* `shadowAccountAddress` — the address of the shadow account of a commitment
* `privacyComputeEntryPoint` — the entry point that derives a commitment
* `getShadowAccount`, `getShadowAccounts` — the views of the map
* `AnonymizerPlatform.Keeps` — nothing but a write changes the map
* `Derived` — every account of the map is at its derived address

## Main results

* `getOrDeployShadowAccount_spec` — the account of a commitment and the map after it
* `privacyInvokeEntryPoint_accounts` — what an interaction does to the map
* `resolveNonces_eq` — what the view lists
-/

namespace PrivacyPool

open Fallible

/-! ### Addresses and entry points -/

/-- `calculate_contract_address_from_deploy_syscall`: a salt, a class hash, the calldata
of the constructor and the deployer give an address. -/
abbrev AddressFormula := Felt → ClassHash → List Felt → ContractAddress → ContractAddress

/-- The address at which the anonymizer deploys the shadow account of a commitment. -/
def shadowAccountAddress (address : AddressFormula) (commitment : Felt)
    (anonymizer : ContractAddress) : ContractAddress :=
  address commitment primerClassHash [] anonymizer

/-- A single element fits a `usize`. -/
theorem one_lt_usize : 1 < 2 ^ 32 := by decide

/-- The entry point `privacy_compute`: arguments out of the calldata, the commitment as
the return data. -/
def privacyComputeEntryPoint (sn : Starknet) (calldata : List Felt) :
    Except (List Felt) (Span Felt) := do
  let (identityKey, rest) ← expect (deserialize (α := Felt) calldata)
    [AnonymizerError.failedToDeserialize 1]
  let (dappName, rest) ← expect (deserialize (α := Felt) rest)
    [AnonymizerError.failedToDeserialize 2]
  let (nonce, rest) ← expect (deserialize (α := Felt) rest)
    [AnonymizerError.failedToDeserialize 3]
  require (rest = []) [AnonymizerError.inputTooLong]
  return ⟨[privacyCompute sn identityKey dappName nonce], one_lt_usize⟩

/-- The entry point answers exactly the calldata of three felts. -/
theorem privacyComputeEntryPoint_eq_ok {sn : Starknet} {calldata : List Felt}
    {result : Span Felt} (h : privacyComputeEntryPoint sn calldata = .ok result) :
    ∃ identityKey dappName nonce, calldata = [identityKey, dappName, nonce] ∧
      result.1 = [privacyCompute sn identityKey dappName nonce] := by
  simp only [privacyComputeEntryPoint, bind_eq_ok, require_eq_ok, expect_eq_ok, pure_eq_ok,
    exists_const] at h
  obtain ⟨⟨identityKey, rest₁⟩, hkey, ⟨dappName, rest₂⟩, hdapp, ⟨nonce, rest₃⟩, hnonce, hrest,
    rfl⟩ := h
  dsimp only at hdapp hnonce hrest
  refine ⟨identityKey, dappName, nonce, ?_, rfl⟩
  rw [(Serde.codec (α := Felt)).encode_of_decode hkey,
    (Serde.codec (α := Felt)).encode_of_decode hdapp,
    (Serde.codec (α := Felt)).encode_of_decode hnonce, hrest]
  rfl

/-! ### Views -/

namespace AnonymizerError

/-- `'INVALID_RANGE'` -/
def invalidRange : Felt := 0x494e56414c49445f52414e4745

/-- `'RANGE_TOO_LARGE'` -/
def rangeTooLarge : Felt := 0x52414e47455f544f4f5f4c41524745

end AnonymizerError

/-- A shadow account resolved by `getShadowAccounts`. -/
structure ShadowAccountInfo where
  nonce : U64
  address : ContractAddress
  isDeployed : Bool
  deriving DecidableEq, Repr

/-- `MAX_SCAN_RANGE` -/
def maxScanRange : ℕ := 1024

section Views

variable {sn : Starknet} (platform : AnonymizerPlatform sn) (address : AddressFormula)
  (state : sn.Tokens)

/-- The account of a commitment, or zero. -/
def getShadowAccount (identityCommitment : Felt) : ContractAddress :=
  (platform.shadowAccounts state identityCommitment).getD 0

/-- The loop of `get_shadow_accounts`, which may stop at the first undeployed nonce. -/
def resolveNonces (partialCommitment : Felt) (untilUndeployed : Bool) :
    List U64 → List ShadowAccountInfo
  | [] => []
  | nonce :: nonces =>
    let commitment := commitmentFromPartial sn partialCommitment (U64.toFelt nonce)
    let stored := getShadowAccount platform state commitment
    let isDeployed := decide (stored ≠ 0)
    if untilUndeployed && !isDeployed then [] else
      -- An undeployed account resolves to the address it would be deployed at.
      let resolved := if isDeployed then stored
        else address commitment primerClassHash [] platform.contractAddress
      ⟨nonce, resolved, isDeployed⟩ :: resolveNonces partialCommitment untilUndeployed nonces

/-- The nonces from a first one up to an end. -/
def nonceRange (startNonce endNonce : U64) : List U64 :=
  (List.range' startNonce.val (endNonce.val - startNonce.val)).map (Fin.ofNat (2 ^ 64))

/-- The shadow accounts of a range of nonces. -/
def getShadowAccounts (partialCommitment : Felt) (startNonce endNonce : U64)
    (untilUndeployed : Bool) : Except (List Felt) (List ShadowAccountInfo) := do
  require (startNonce ≤ endNonce) [AnonymizerError.invalidRange]
  require (endNonce.val - startNonce.val ≤ maxScanRange) [AnonymizerError.rangeTooLarge]
  return resolveNonces platform address state partialCommitment untilUndeployed
    (nonceRange startNonce endNonce)

end Views

/-! ### The map -/

/-- The storage map of the anonymizer: a write changes one entry, and nothing else that
is called on the way changes any. -/
structure AnonymizerPlatform.Keeps {sn : Starknet} (platform : AnonymizerPlatform sn) :
    Prop where
  write : ∀ state commitment account,
    platform.shadowAccounts (platform.writeShadowAccount state commitment account) =
      Function.update (platform.shadowAccounts state) commitment (some account)
  deploy : ∀ {state classHash salt account state'},
    platform.deploy state classHash salt = .ok (account, state') →
      platform.shadowAccounts state' = platform.shadowAccounts state
  setClassHash : ∀ {state account classHash state'},
    platform.setClassHash state account classHash = .ok state' →
      platform.shadowAccounts state' = platform.shadowAccounts state
  initializeAccount : ∀ {state account state'},
    platform.initializeAccount state account = .ok state' →
      platform.shadowAccounts state' = platform.shadowAccounts state
  approve : ∀ {state token spender amount state'},
    platform.approve state token spender amount = .ok state' →
      platform.shadowAccounts state' = platform.shadowAccounts state
  callContract : ∀ {state account call state'},
    platform.callContract state account call = .ok state' →
      platform.shadowAccounts state' = platform.shadowAccounts state
  transferFrom : ∀ {state token sender recipient amount state'},
    sn.checkedTransferFrom state token sender recipient amount = some state' →
      platform.shadowAccounts state' = platform.shadowAccounts state
  transfer : ∀ {state token recipient amount state'},
    sn.checkedTransfer state token recipient amount = some state' →
      platform.shadowAccounts state' = platform.shadowAccounts state

/-- A deployed contract is at the address that the formula gives. -/
def AnonymizerPlatform.DeploysAt {sn : Starknet} (platform : AnonymizerPlatform sn)
    (address : AddressFormula) : Prop :=
  ∀ {state classHash salt account state'},
    platform.deploy state classHash salt = .ok (account, state') →
      account = address salt classHash [] platform.contractAddress

section Map

variable {sn : Starknet} (platform : AnonymizerPlatform sn) (address : AddressFormula)

/-- Every account of the map is at its derived address, which is not zero. -/
def Derived (state : sn.Tokens) : Prop :=
  ∀ commitment account, platform.shadowAccounts state commitment = some account →
    account = shadowAccountAddress address commitment platform.contractAddress ∧ account ≠ 0

/-- The accounts of the earlier state are those of the later one too. -/
def AccountsKept (state state' : sn.Tokens) : Prop :=
  ∀ commitment account, platform.shadowAccounts state commitment = some account →
    platform.shadowAccounts state' commitment = some account

variable {platform address} {state state' state'' : sn.Tokens} {identityCommitment : Felt}
  {shadowAccount : ContractAddress}

theorem AccountsKept.refl (state : sn.Tokens) : AccountsKept platform state state :=
  fun _ _ h => h

theorem AccountsKept.trans (h : AccountsKept platform state state')
    (h' : AccountsKept platform state' state'') : AccountsKept platform state state'' :=
  fun commitment account hstored => h' commitment account (h commitment account hstored)

theorem Derived.congr (h : Derived platform address state)
    (hsame : platform.shadowAccounts state' = platform.shadowAccounts state) :
    Derived platform address state' := by
  intro commitment account hstored
  rw [hsame] at hstored
  exact h commitment account hstored

theorem AccountsKept.of_eq
    (hsame : platform.shadowAccounts state' = platform.shadowAccounts state) :
    AccountsKept platform state state' := by
  intro commitment account hstored
  rw [hsame]
  exact hstored

/-- The account of a commitment is at its derived address, and it is in the map from
then on. No other entry changes. -/
theorem getOrDeployShadowAccount_spec (hkeeps : platform.Keeps)
    (hdeploys : platform.DeploysAt address) (hderived : Derived platform address state)
    (h : getOrDeployShadowAccount platform identityCommitment state =
      .ok (shadowAccount, state')) :
    shadowAccount = shadowAccountAddress address identityCommitment platform.contractAddress ∧
      shadowAccount ≠ 0 ∧ AccountsKept platform state state' ∧
      platform.shadowAccounts state' =
        Function.update (platform.shadowAccounts state) identityCommitment
          (some shadowAccount) := by
  unfold getOrDeployShadowAccount at h
  cases hstored : platform.shadowAccounts state identityCommitment with
  -- The account was deployed before, at its derived address.
  | some stored =>
    rw [hstored] at h
    obtain ⟨rfl, rfl⟩ := Prod.mk.inj (pure_eq_ok.mp h)
    obtain ⟨haddress, hne⟩ := hderived _ _ hstored
    refine ⟨haddress, hne, AccountsKept.refl _, ?_⟩
    rw [← hstored, Function.update_eq_self]
  | none =>
    rw [hstored] at h
    simp only [bind_eq_ok, require_eq_ok, pure_eq_ok, exists_const] at h
    obtain ⟨⟨account, deployed⟩, hdeploy, hne, classed, hclass, initialized, hinit, hresult⟩ := h
    obtain ⟨rfl, rfl⟩ := Prod.mk.inj hresult
    have hmap : platform.shadowAccounts
        (platform.writeShadowAccount initialized identityCommitment account) =
        Function.update (platform.shadowAccounts state) identityCommitment (some account) := by
      rw [hkeeps.write, hkeeps.initializeAccount hinit, hkeeps.setClassHash hclass,
        hkeeps.deploy hdeploy]
    refine ⟨hdeploys hdeploy, hne, fun commitment other hother => ?_, hmap⟩
    -- Another entry is kept; that of the commitment was empty.
    have hdiffer : commitment ≠ identityCommitment := by
      rintro rfl
      rw [hstored] at hother
      cases hother
    rw [hmap, Function.update_of_ne hdiffer]
    exact hother

/-- Calls of a shadow account leave the map alone. -/
theorem execute_accounts (hkeeps : platform.Keeps) {calls : List Call}
    (h : execute platform shadowAccount calls state = .ok state') :
    platform.shadowAccounts state' = platform.shadowAccounts state :=
  foldlM_invariant (fun s => platform.shadowAccounts s = platform.shadowAccounts state)
    (fun _ _ _ _ hsame hstep => (hkeeps.callContract hstep).trans hsame) rfl h

/-- Collecting open notes leaves the map alone. -/
theorem collectOpenNotes_accounts (hkeeps : platform.Keeps) {snapshots : List (OpenNote × ℕ)}
    {deposits : List OpenNoteDeposit}
    (h : collectOpenNotes platform shadowAccount snapshots state = .ok (deposits, state')) :
    platform.shadowAccounts state' = platform.shadowAccounts state := by
  simp only [collectOpenNotes, bind_eq_ok, pure_eq_ok] at h
  obtain ⟨loop, hloop, last, hexecuted, hresult⟩ := h
  obtain ⟨-, rfl⟩ := Prod.mk.inj hresult
  have hcollected : platform.shadowAccounts loop.state = platform.shadowAccounts state := by
    refine foldlM_invariant
      (fun l : CollectLoop sn => platform.shadowAccounts l.state = platform.shadowAccounts state)
      (fun snapshot _ before after hsame hstep => ?_) rfl hloop
    simp only [collectOpenNote, bind_eq_ok, pure_eq_ok] at hstep
    obtain ⟨_, -, -, -, approved, happrove, _, -, rfl⟩ := hstep
    exact (hkeeps.approve happrove).trans hsame
  exact (execute_accounts hkeeps hexecuted).trans hcollected

/-- An interaction acts through the account of the commitment that heads its calldata,
at its derived address, and binds that account to the commitment. -/
theorem privacyInvokeEntryPoint_accounts (hkeeps : platform.Keeps)
    (hdeploys : platform.DeploysAt address) (hderived : Derived platform address state)
    {caller : ContractAddress} {calldata : Span Felt} {returnData : List Felt}
    (h : privacyInvokeEntryPoint platform caller calldata state = .ok (state', returnData)) :
    ∃ identityCommitment shadowAccount, [identityCommitment] <+: calldata.1 ∧
      shadowAccount = shadowAccountAddress address identityCommitment platform.contractAddress ∧
      shadowAccount ≠ 0 ∧ AccountsKept platform state state' ∧
      platform.shadowAccounts state' =
        Function.update (platform.shadowAccounts state) identityCommitment
          (some shadowAccount) := by
  obtain ⟨identityCommitment, calls, openNotes, results, hcalldata, hinteraction, -⟩ :=
    privacyInvokeEntryPoint_eq_ok h
  simp only [privacyInvokeWithComputation, bind_eq_ok, require_eq_ok, pure_eq_ok,
    exists_const] at hinteraction
  obtain ⟨-, ⟨shadowAccount, started⟩, hshadow, called, hexecuted, ⟨deposits, last⟩, hcollect,
    _, -, _, -, hresult⟩ := hinteraction
  obtain ⟨-, rfl⟩ := Prod.mk.inj hresult
  obtain ⟨haddress, hne, hkept, hmap⟩ :=
    getOrDeployShadowAccount_spec hkeeps hdeploys hderived hshadow
  have hlast : platform.shadowAccounts last = platform.shadowAccounts started :=
    (collectOpenNotes_accounts hkeeps hcollect).trans (execute_accounts hkeeps hexecuted)
  refine ⟨identityCommitment, shadowAccount, ?_, haddress, hne,
    hkept.trans (AccountsKept.of_eq hlast), hlast.trans hmap⟩
  rw [hcalldata]
  exact ⟨_, rfl⟩

/-- A map that binds one more commitment to its derived address is derived. -/
theorem Derived.update (h : Derived platform address state) (hne : shadowAccount ≠ 0)
    (haddress : shadowAccount =
      shadowAccountAddress address identityCommitment platform.contractAddress)
    (hmap : platform.shadowAccounts state' =
      Function.update (platform.shadowAccounts state) identityCommitment (some shadowAccount)) :
    Derived platform address state' := by
  intro commitment account hstored
  rw [hmap] at hstored
  by_cases hsame : commitment = identityCommitment
  · subst hsame
    rw [Function.update_self] at hstored
    obtain rfl := Option.some.inj hstored
    exact ⟨haddress, hne⟩
  · rw [Function.update_of_ne hsame] at hstored
    exact h _ _ hstored

/-! ### What the view lists -/

/-- The entry of a nonce. -/
def accountInfo (platform : AnonymizerPlatform sn) (address : AddressFormula) (state : sn.Tokens)
    (partialCommitment : Felt) (nonce : U64) : ShadowAccountInfo :=
  let commitment := commitmentFromPartial sn partialCommitment (U64.toFelt nonce)
  ⟨nonce, shadowAccountAddress address commitment platform.contractAddress,
    (platform.shadowAccounts state commitment).isSome⟩

theorem getShadowAccount_ne_zero (hderived : Derived platform address state) {commitment : Felt} :
    getShadowAccount platform state commitment ≠ 0 ↔
      (platform.shadowAccounts state commitment).isSome = true := by
  unfold getShadowAccount
  cases hstored : platform.shadowAccounts state commitment with
  | none => simp
  | some account => simpa using (hderived _ _ hstored).2

/-- The loop lists every nonce at its derived address, up to the first undeployed one
where it is told to stop. -/
theorem resolveNonces_eq (hderived : Derived platform address state) (partialCommitment : Felt)
    (untilUndeployed : Bool) (nonces : List U64) :
    resolveNonces platform address state partialCommitment untilUndeployed nonces =
      (nonces.map (accountInfo platform address state partialCommitment)).takeWhile
        fun info => !untilUndeployed || info.isDeployed := by
  induction nonces with
  | nil => rfl
  | cons nonce nonces ih =>
    rw [List.map_cons, List.takeWhile_cons, ← ih]
    set commitment := commitmentFromPartial sn partialCommitment (U64.toFelt nonce) with hdef
    have hdeployed : decide (getShadowAccount platform state commitment ≠ 0) =
        (platform.shadowAccounts state commitment).isSome := by
      rw [Bool.eq_iff_iff, decide_eq_true_iff]
      exact getShadowAccount_ne_zero hderived
    have hinfo : accountInfo platform address state partialCommitment nonce =
        ⟨nonce, shadowAccountAddress address commitment platform.contractAddress,
          (platform.shadowAccounts state commitment).isSome⟩ := rfl
    -- A deployed account is at its derived address, an undeployed one is listed there.
    have hentry : (if (platform.shadowAccounts state commitment).isSome then
          getShadowAccount platform state commitment
        else address commitment primerClassHash [] platform.contractAddress) =
        shadowAccountAddress address commitment platform.contractAddress := by
      cases hstored : platform.shadowAccounts state commitment with
      | none => rfl
      | some account =>
        simp only [getShadowAccount, hstored, Option.isSome_some, if_true, Option.getD_some]
        exact (hderived _ _ hstored).1
    rw [resolveNonces, ← hdef, hdeployed, hinfo, hentry]
    cases untilUndeployed <;> cases (platform.shadowAccounts state commitment).isSome <;> simp

end Map

end PrivacyPool
