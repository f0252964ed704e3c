import PrivacyPool.Base.History
import PrivacyPool.Contract.Admin
import PrivacyPool.System.Assumptions
import PrivacyPool.System.Domain

/-!
# Runs of the pool

The pool as a transition system. A step is a successful `apply_actions`, an
administrative call, or anything the rest of the chain does. An applied list was
compiled by `main` on some earlier state of the same run, which need not be the
current one: other lists may have been applied since, and the same list may be
submitted again.

External contracts are confined: they cannot take the pool's tokens, and the notes
they name are in play.

## Main definitions

* `Invocation.Confined` — what an external contract cannot do
* `Submission` — a compiled list together with the transaction that submits it
* `poolSystem` — the transition system, and `PoolRun` its runs
-/

namespace PrivacyPool

open Fallible

/-- An external contract, when called, cannot take tokens out of the pool, and
the notes it names are in play. -/
structure Invocation.Confined {sn : Starknet} (invocation : Invocation sn) (D : Domain) :
    Prop where
  balance : ∀ {world contract selector calldata tokens returnData},
    invocation world contract selector calldata = .ok (tokens, returnData) → ∀ t,
      sn.balanceOf world.tokens t sn.contractAddress ≤ sn.balanceOf tokens t sn.contractAddress
  noteIds : ∀ {world contract selector calldata tokens returnData deposits addresses},
    invocation world contract selector calldata = .ok (tokens, returnData) →
    deserializeInvokeReturnData returnData = .ok (deposits, addresses) →
    ∀ deposit ∈ deposits.1, deposit.noteId ∈ D.keys

/-! ### Submissions -/

/-- A list of client actions with the state it was compiled on and what came out,
and the transaction that submits the result. -/
structure Submission (sn : Starknet) where
  base : World sn
  call : CallContract
  userAddr : ContractAddress
  userPrivateKey : Felt
  clientActions : List ClientAction
  actions : Span ServerAction
  simulated : Pool
  invocation : Invocation sn
  tx : TxInfo
  screening : Option ScreeningAttestation

namespace Submission

variable {sn : Starknet}

/-- The list was output by `main` on the base state. -/
def Compiled (sub : Submission sn) : Prop :=
  main sn sub.call sub.base.pool sub.userAddr sub.userPrivateKey sub.clientActions =
    .ok (sub.actions.1, sub.simulated)

/-- The hash inputs of the submission are in play, and the contract it invokes is
confined. -/
structure Covered (sub : Submission sn) (D : Domain) : Prop where
  compile : CompileCovered sn D sub.call sub.userAddr sub.userPrivateKey
    (CompileState.start sub.base.pool) sub.clientActions
  invocation : sub.invocation.Confined D

/-- The submission takes one world to the next. -/
def Applies (sub : Submission sn) (world world' : World sn) : Prop :=
  applyActions sn sub.invocation sub.tx world sub.actions sub.screening = .ok world'

end Submission

/-! ### The transition system -/

/-- The rest of the chain: blocks pass, roles are reassigned, tokens move. The
pool's storage and tokens are out of its reach. -/
structure EnvironmentStep {sn : Starknet} (world world' : World sn) : Prop where
  pool : world'.pool = { world.pool with roles := world'.pool.roles }
  events : world'.events = world.events
  balance : ∀ t, sn.balanceOf world.tokens t sn.contractAddress ≤
    sn.balanceOf world'.tokens t sn.contractAddress

/-- The kinds of steps. -/
inductive Label (sn : Starknet)
  | apply (sub : Submission sn)
  | admin (caller : ContractAddress) (call : AdminCall)
  | environment

/-- A freshly deployed pool. -/
def Deployed {sn : Starknet} (world : World sn) : Prop :=
  ∃ (before : World sn) (roles : Role → ContractAddress → Bool)
    (auditorPublicKey screenerPublicKey : Felt) (proofValidityBlocks : U64),
    before.pool = Pool.blank roles ∧
    constructor sn before auditorPublicKey screenerPublicKey proofValidityBlocks = .ok world

/-- One step of the pool, from the current world and the worlds visited so far. -/
def PoolStep (sn : Starknet) (D : Domain) (visited : List (World sn)) :
    Label sn → World sn → World sn → Prop
  | .apply sub, world, world' =>
    sub.base ∈ visited ∧ sub.Compiled ∧ sub.Covered D ∧ sub.Applies world world'
  | .admin caller call, world, world' => applyAdmin sn world caller call = .ok world'
  | .environment, world, world' => EnvironmentStep world world'

/-- The pool as a transition system. -/
def poolSystem (sn : Starknet) (D : Domain) : System (World sn) (Label sn) where
  init := Deployed
  step := PoolStep sn D

/-- `PoolRun sn D visited labels world`: a run of the pool through `visited`
(newest first), by the steps `labels`, that has arrived at `world`. -/
abbrev PoolRun (sn : Starknet) (D : Domain) := (poolSystem sn D).Run

/-! ### A small run

On the sample platform, user 5 registers, opens a channel to itself and deposits
100 of token 77 as an encrypted note. In a second list it uses the note, withdraws
the amount to account 9 and has contract 8 fill an open note with 40. -/

/-- The submission of what `main` compiles. -/
def Submission.ofMain {sn : Starknet} (base : World sn) (call : CallContract)
    (userAddr : ContractAddress) (userPrivateKey : Felt) (clientActions : List ClientAction)
    (invocation : Invocation sn) (tx : TxInfo) (screening : Option ScreeningAttestation) :
    Submission sn :=
  let compiled := valueOr ([], base.pool)
    (main sn call base.pool userAddr userPrivateKey clientActions)
  { base, call, userAddr, userPrivateKey, clientActions, invocation, tx, screening
    actions := if h : compiled.1.length < 2 ^ 32 then ⟨compiled.1, h⟩ else Span.empty
    simulated := compiled.2 }

theorem Submission.ofMain_compiled {sn : Starknet} {base : World sn} {call : CallContract}
    {userAddr : ContractAddress} {userPrivateKey : Felt} {clientActions : List ClientAction}
    {invocation : Invocation sn} {tx : TxInfo} {screening : Option ScreeningAttestation}
    (h : (main sn call base.pool userAddr userPrivateKey clientActions).isOk = true)
    (hlength : (valueOr ([], base.pool) (main sn call base.pool userAddr userPrivateKey
      clientActions)).1.length < 2 ^ 32) :
    (Submission.ofMain base call userAddr userPrivateKey clientActions invocation tx
      screening).Compiled := by
  refine (eq_ok_valueOr ([], base.pool) h).trans ?_
  simp only [Submission.ofMain, dif_pos hlength]

namespace Sample

/-- The transaction that carries the lists. -/
def tx : TxInfo := ⟨5, [1, virtualSnos, 3, virtualSnos0, 5, 6, 7, 1, 10]⟩

/-- An attestation of the time of the sample. -/
def attestation : ScreeningAttestation := ⟨1000, (4, 0)⟩

/-- A contract that gives 40 of token 77 to the note with id 8. -/
def invocation : Invocation Starknet.sample := fun world _ _ _ => .ok (world.tokens, [1, 8, 77, 40])

/-- The state before the pool is deployed. -/
def before : World Starknet.sample where
  pool := Pool.blank fun _ _ => false
  tokens token account :=
    if token = 77 then if account = 5 then 100 else if account = 8 then 40 else 0 else 0
  events := []
  blockNumber := 10
  blockTimestamp := 1000

/-- The pool is deployed. -/
def deployed : World Starknet.sample := valueOr before (constructor Starknet.sample before 2 4 100)

/-- User 5 registers, opens a channel to itself, and deposits 100 into a note. -/
def funding : Submission Starknet.sample :=
  .ofMain deployed (fun _ _ _ => .error []) 5 3
    [.setViewingKey ⟨9⟩, .openChannel ⟨5, 0, 9, 9⟩, .openSubchannel ⟨5, 3, 1, 0, 77, 9⟩,
      .deposit ⟨77, 100⟩, .createEncNote ⟨5, 3, 77, 100, 0, 2⟩]
    invocation tx (some attestation)

/-- The state after that. -/
def funded : World Starknet.sample :=
  valueOr deployed (applyActions Starknet.sample invocation tx deployed funding.actions
    funding.screening)

/-- User 5 uses the note, withdraws its 100 to account 9, and has an open note filled. -/
def spending : Submission Starknet.sample :=
  .ofMain funded (fun _ _ _ => .error []) 5 3
    [.useNote ⟨1, 77, 0⟩, .createOpenNote ⟨5, 3, 77, 1, 9⟩, .withdraw ⟨9, 77, 100, 9⟩,
      .invokeExternal ⟨8, Span.empty⟩]
    invocation tx (some attestation)

/-- The state after that. -/
def spent : World Starknet.sample :=
  valueOr funded (applyActions Starknet.sample invocation tx funded spending.actions
    spending.screening)

theorem deployed_ok : (constructor Starknet.sample before 2 4 100).isOk = true := by
  decide +kernel

theorem funding_compiled : funding.Compiled :=
  Submission.ofMain_compiled (by decide +kernel) (by decide +kernel)

theorem funding_applies : funding.Applies deployed funded :=
  eq_ok_valueOr deployed (by decide +kernel)

theorem spending_compiled : spending.Compiled :=
  Submission.ofMain_compiled (by decide +kernel) (by decide +kernel)

theorem spending_applies : spending.Applies funded spent :=
  eq_ok_valueOr funded (by decide +kernel)

/-- The contract takes nothing from the pool and names a note in play. -/
theorem invocation_confined : invocation.Confined Domain.sample where
  balance := by
    intro world contract selector calldata tokens returnData h t
    obtain ⟨rfl, -⟩ := Prod.mk.inj (Except.ok.inj h)
    exact le_rfl
  noteIds := by
    intro world contract selector calldata tokens returnData deposits addresses h hreturn
    obtain ⟨-, rfl⟩ := Prod.mk.inj (Except.ok.inj h)
    have hdeposits : deserializeInvokeReturnData [1, 8, 77, 40] =
        .ok (⟨[⟨8, 77, 40⟩], by decide⟩, none) := by decide +kernel
    obtain ⟨rfl, -⟩ := Prod.mk.inj (Except.ok.inj (hdeposits.symm.trans hreturn))
    intro deposit hdeposit
    obtain rfl := List.mem_singleton.mp hdeposit
    decide +kernel

theorem funding_covered : funding.Covered Domain.sample :=
  ⟨by decide +kernel, invocation_confined⟩

theorem spending_covered : spending.Covered Domain.sample :=
  ⟨by decide +kernel, invocation_confined⟩

theorem funding_run :
    PoolRun Starknet.sample Domain.sample [funded, deployed] [.apply funding] funded :=
  .step (.start ⟨before, _, 2, 4, 100, rfl, eq_ok_valueOr before deployed_ok⟩)
    ⟨List.mem_cons_self, funding_compiled, funding_covered, funding_applies⟩

theorem spending_step : PoolStep Starknet.sample Domain.sample [funded, deployed] (.apply spending)
    funded spent :=
  ⟨List.mem_cons_self, spending_compiled, spending_covered, spending_applies⟩

/-- The small run. -/
theorem run : PoolRun Starknet.sample Domain.sample [spent, funded, deployed]
    [.apply spending, .apply funding] spent :=
  .step funding_run spending_step

end Sample

end PrivacyPool
