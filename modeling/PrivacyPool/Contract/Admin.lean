import PrivacyPool.Contract.Server

/-!
# Administration of the pool

The constructor and the administrative entry points of `privacy.cairo`. They
write the configuration variables and leave user data alone.

## Main results

* `applyAdmin_sameUserData` — administration leaves user data alone
* `constructor_eq_ok` — a deployed pool has blank user data and a valid auditor key
-/

namespace PrivacyPool

open Fallible

section Admin

variable (sn : Starknet)

/-! ### Setters -/

/-- `set_auditor_public_key`: the key is a coordinate of a point of the curve. -/
def setAuditorPublicKey (world : World sn) (auditorPublicKey : Felt) :
    Except Error (World sn) := do
  require (auditorPublicKey ≠ 0) .zeroAuditorPublicKey
  require ((sn.newFromX auditorPublicKey).isSome = true) .invalidAuditorPublicKey
  let world := { world with pool := { world.pool with auditorPublicKey } }
  return world.emit (.auditorPublicKeySet auditorPublicKey)

/-- `set_screener_public_key`: so is that of the screener. -/
def setScreenerPublicKey (world : World sn) (screenerPublicKey : Felt) :
    Except Error (World sn) := do
  require (screenerPublicKey ≠ 0) .invalidPublicKey
  require ((sn.newFromX screenerPublicKey).isSome = true) .invalidPublicKey
  let world := { world with pool := { world.pool with screenerPublicKey } }
  return world.emit (.screenerPublicKeySet screenerPublicKey)

/-- `set_fee_amount`: a fee needs a collector. -/
def setFeeAmount (world : World sn) (feeAmount : U128) : Except Error (World sn) := do
  require (feeAmount ≠ 0 → world.pool.feeCollector ≠ 0) .zeroFeeCollector
  let world := { world with pool := { world.pool with feeAmount } }
  return world.emit (.feeAmountSet feeAmount)

/-- `set_fee_collector`: while there is a fee, there is a collector. -/
def setFeeCollector (world : World sn) (feeCollector : ContractAddress) :
    Except Error (World sn) := do
  require (world.pool.feeAmount ≠ 0 → feeCollector ≠ 0) .zeroFeeCollector
  let world := { world with pool := { world.pool with feeCollector } }
  return world.emit (.feeCollectorSet feeCollector)

/-- `set_proof_validity_blocks` -/
def setProofValidityBlocks (world : World sn) (proofValidityBlocks : U64) :
    Except Error (World sn) := do
  require (proofValidityBlocks ≠ 0) .zeroProofValidityBlocks
  let world := { world with pool := { world.pool with proofValidityBlocks } }
  return world.emit (.proofValidityBlocksSet proofValidityBlocks)

/-- `set_open_note_screening_policy`: how the open notes that a contract fills are screened. -/
def setOpenNoteScreeningPolicy (world : World sn) (depositor : ContractAddress)
    (policy : OpenNoteScreeningPolicy) : Except Error (World sn) := do
  require (depositor ≠ 0) .zeroContractAddress
  let screeningPolicies := Function.update world.pool.screeningPolicies depositor policy
  let world := { world with pool := { world.pool with screeningPolicies } }
  return world.emit (.openNoteScreeningPolicySet depositor policy)

/-! ### Administrative calls -/

/-- The administrative entry points, those of the pausable component included. -/
inductive AdminCall
  | setAuditorPublicKey (auditorPublicKey : Felt)
  | setScreenerPublicKey (screenerPublicKey : Felt)
  | setFeeAmount (feeAmount : U128)
  | setFeeCollector (feeCollector : ContractAddress)
  | setProofValidityBlocks (proofValidityBlocks : U64)
  | setOpenNoteScreeningPolicy (depositor : ContractAddress) (policy : OpenNoteScreeningPolicy)
  | pause
  | unpause

/-- The role an administrative call asks of its caller. -/
def AdminCall.role : AdminCall → Role
  | setAuditorPublicKey _ => .securityGovernor
  | setScreenerPublicKey _ => .securityGovernor
  | setFeeAmount _ => .appGovernor
  | setFeeCollector _ => .appGovernor
  | setProofValidityBlocks _ => .appGovernor
  | setOpenNoteScreeningPolicy _ _ => .appGovernor
  | pause => .securityAgent
  | unpause => .securityAdmin

/-- Execute an administrative call. -/
def applyAdmin (world : World sn) (caller : ContractAddress) (call : AdminCall) :
    Except Error (World sn) := do
  require (world.pool.roles call.role caller = true) .missingRole
  match call with
  | .setAuditorPublicKey auditorPublicKey => setAuditorPublicKey sn world auditorPublicKey
  | .setScreenerPublicKey screenerPublicKey => setScreenerPublicKey sn world screenerPublicKey
  | .setFeeAmount feeAmount => setFeeAmount sn world feeAmount
  | .setFeeCollector feeCollector => setFeeCollector sn world feeCollector
  | .setProofValidityBlocks proofValidityBlocks =>
    setProofValidityBlocks sn world proofValidityBlocks
  | .setOpenNoteScreeningPolicy depositor policy =>
    setOpenNoteScreeningPolicy sn world depositor policy
  | .pause => return { world with pool := { world.pool with paused := true } }
  | .unpause => return { world with pool := { world.pool with paused := false } }

/-! ### Deployment -/

/-- Storage before the constructor runs. -/
def Pool.blank (roles : Role → ContractAddress → Bool) : Pool :=
  { words := fun _ => 0
    recipientChannels := fun _ => []
    screeningPolicies := fun _ => .required
    auditorPublicKey := 0
    screenerPublicKey := 0
    feeAmount := 0
    feeCollector := 0
    proofValidityBlocks := 0
    paused := false
    entered := false
    roles }

/-- The constructor, run on blank storage with the roles the access-control
component sets up. -/
def constructor (world : World sn) (auditorPublicKey screenerPublicKey : Felt)
    (proofValidityBlocks : U64) : Except Error (World sn) := do
  let world ← setAuditorPublicKey sn world auditorPublicKey
  let world ← setScreenerPublicKey sn world screenerPublicKey
  setProofValidityBlocks sn world proofValidityBlocks

end Admin

/-! ### What administration keeps -/

/-- The parts of the world that administration leaves alone are the same, and a
valid auditor key stays valid. -/
structure SameUserData {sn : Starknet} (world world' : World sn) : Prop where
  words : world'.pool.words = world.pool.words
  recipientChannels : world'.pool.recipientChannels = world.pool.recipientChannels
  entered : world'.pool.entered = world.pool.entered
  tokens : world'.tokens = world.tokens
  auditor : (sn.newFromX world.pool.auditorPublicKey).isSome →
    (sn.newFromX world'.pool.auditorPublicKey).isSome

variable {sn : Starknet} {world world' : World sn}

theorem setAuditorPublicKey_eq_ok {auditorPublicKey : Felt}
    (h : setAuditorPublicKey sn world auditorPublicKey = .ok world') :
    SameUserData world world' ∧ (sn.newFromX world'.pool.auditorPublicKey).isSome := by
  simp only [setAuditorPublicKey, bind_eq_ok, require_eq_ok, exists_and_left, exists_const,
    pure_eq_ok] at h
  obtain ⟨-, hvalid, rfl⟩ := h
  exact ⟨⟨rfl, rfl, rfl, rfl, fun _ => hvalid⟩, hvalid⟩

theorem setScreenerPublicKey_eq_ok {screenerPublicKey : Felt}
    (h : setScreenerPublicKey sn world screenerPublicKey = .ok world') :
    SameUserData world world' := by
  simp only [setScreenerPublicKey, bind_eq_ok, require_eq_ok, exists_and_left, exists_const,
    pure_eq_ok] at h
  obtain ⟨-, -, rfl⟩ := h
  exact ⟨rfl, rfl, rfl, rfl, id⟩

theorem setProofValidityBlocks_eq_ok {proofValidityBlocks : U64}
    (h : setProofValidityBlocks sn world proofValidityBlocks = .ok world') :
    SameUserData world world' := by
  simp only [setProofValidityBlocks, bind_eq_ok, require_eq_ok, exists_and_left, exists_const,
    pure_eq_ok] at h
  obtain ⟨-, rfl⟩ := h
  exact ⟨rfl, rfl, rfl, rfl, id⟩

/-- No administrative call touches user data. -/
theorem applyAdmin_sameUserData {caller : ContractAddress} {call : AdminCall}
    (h : applyAdmin sn world caller call = .ok world') : SameUserData world world' := by
  obtain ⟨_, -, h⟩ := bind_eq_ok.mp h
  cases call with
  | setAuditorPublicKey _ => exact (setAuditorPublicKey_eq_ok h).1
  | setScreenerPublicKey _ => exact setScreenerPublicKey_eq_ok h
  | setProofValidityBlocks _ => exact setProofValidityBlocks_eq_ok h
  | setFeeAmount _ | setFeeCollector _ | setOpenNoteScreeningPolicy _ _ =>
    obtain ⟨_, -, h⟩ := bind_eq_ok.mp h
    obtain rfl := pure_eq_ok.mp h
    exact ⟨rfl, rfl, rfl, rfl, id⟩
  | pause | unpause =>
    obtain rfl := pure_eq_ok.mp h
    exact ⟨rfl, rfl, rfl, rfl, id⟩

/-- A deployed pool has blank user data, no fee and a valid auditor key. -/
theorem constructor_eq_ok {roles : Role → ContractAddress → Bool}
    {auditorPublicKey screenerPublicKey : Felt} {proofValidityBlocks : U64}
    (hblank : world.pool = Pool.blank roles)
    (h : constructor sn world auditorPublicKey screenerPublicKey proofValidityBlocks =
      .ok world') :
    world'.pool.words = (fun _ => 0) ∧ world'.pool.recipientChannels = (fun _ => []) ∧
      world'.pool.entered = false ∧ (sn.newFromX world'.pool.auditorPublicKey).isSome := by
  obtain ⟨world₁, h₁, h⟩ := bind_eq_ok.mp h
  obtain ⟨world₂, h₂, h₃⟩ := bind_eq_ok.mp h
  obtain ⟨same₁, hvalid⟩ := setAuditorPublicKey_eq_ok h₁
  have same₂ := setScreenerPublicKey_eq_ok h₂
  have same₃ := setProofValidityBlocks_eq_ok h₃
  refine ⟨?_, ?_, ?_, same₃.auditor (same₂.auditor hvalid)⟩
  · rw [same₃.words, same₂.words, same₁.words, hblank]
    rfl
  · rw [same₃.recipientChannels, same₂.recipientChannels, same₁.recipientChannels, hblank]
    rfl
  · rw [same₃.entered, same₂.entered, same₁.entered, hblank]
    rfl

end PrivacyPool
