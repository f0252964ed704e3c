import PrivacyPool.Contract.Panic
import PrivacyPool.System.Run

/-!
# Integrity of the panic channel

Compiled actions come back as panic data. This file shows that the channel carries
them unchanged, and that no error of `main` is ever read as compiled actions: a
panic of the pool or of the core library is too short, and the panic data of an
external contract stands behind a marker of its own, whatever it imitates.

## Main definitions

* `Error.OfCompile` — the errors that `main` can raise

## Main results

* `extractServerActionsFromPanic_eq_ok` — what is read as compiled actions
* `main_failsOnly` — which errors `main` raises
* `panic_channel_integrity` — `compile_actions` returns what `main` compiled, and
  nothing else
-/

namespace PrivacyPool

open Fallible

/-! ### Reading panic data -/

theorem popMarker_eq_some {marker : Felt} {data rest : List Felt} :
    extractServerActionsFromPanic.popMarker marker data = some rest ↔ data = marker :: rest := by
  cases data with
  | nil => simp [extractServerActionsFromPanic.popMarker]
  | cons felt tail => simp [extractServerActionsFromPanic.popMarker]

/-- What is read as compiled actions: the actions between two markers and the
framework's suffix. -/
theorem extractServerActionsFromPanic_eq_ok {data : List Felt} {actions : Span ServerAction} :
    extractServerActionsFromPanic (.error data) = .ok actions ↔
      data = panicWithServerActions actions ++ [entrypointFailed] := by
  simp only [extractServerActionsFromPanic, bind_eq_ok, expect_eq_ok, require_eq_ok, pure_eq_ok,
    popMarker_eq_some, exists_and_left, exists_const]
  constructor
  · rintro ⟨_, rfl, ⟨_, _⟩, hread, _, rfl, _, rfl, rfl, rfl⟩
    rw [Serde.codec.encode_of_decode hread]
    simp [panicWithServerActions, serialize]
  · rintro rfl
    refine ⟨_, rfl, (actions, [okWrapper, entrypointFailed]), ?_, _, rfl, _, rfl, rfl, rfl⟩
    exact (congrArg deserialize (List.append_assoc (serialize actions) _ _)).trans
      (deserialize_serialize actions _)

/-- The errors that `main` can raise: none of the components, the tokens or the
contracts that are invoked. -/
def Error.OfCompile (e : Error) : Prop :=
  e ∉ [invalidStoredAddress, reentrantCall, contractPaused, missingRole, tokenTransferFailed] ∧
    ∀ data, e ≠ callFailed data

/-- The panic data of such an error is one felt, or starts with the marker of
external panics. -/
theorem Error.OfCompile.panicsWith {e : Error} (h : e.OfCompile) {data : List Felt}
    (hdata : e.PanicsWith data) :
    (∃ felt, data = [felt]) ∨ ∃ rest, data = errWrapper :: rest := by
  cases hdata with
  | text | addOverflow | arrayTooLong => exact Or.inl ⟨_, rfl⟩
  | propagated data => exact Or.inr ⟨_, rfl⟩
  | called data => exact absurd rfl (h.2 data)
  | foreign data hforeign => exact absurd hforeign h.1

theorem errWrapper_ne_okWrapper : errWrapper ≠ okWrapper := by decide +kernel

/-- Panic data of an error of `main` is not read as compiled actions. -/
theorem Error.OfCompile.not_extracted {e : Error} (h : e.OfCompile) {data : List Felt}
    (hdata : e.PanicsWith data) (actions : Span ServerAction) :
    extractServerActionsFromPanic (.error (data ++ [entrypointFailed])) ≠ .ok actions := by
  intro hread
  have hdata' := List.append_cancel_right (extractServerActionsFromPanic_eq_ok.mp hread)
  obtain ⟨felt, rfl⟩ | ⟨rest, rfl⟩ := h.panicsWith hdata
  · -- One felt cannot hold two markers.
    have hlength := congrArg List.length hdata'
    simp [panicWithServerActions] at hlength
  · exact errWrapper_ne_okWrapper (List.cons.inj hdata').1

/-! ### The errors of `main` -/

@[simp] theorem checkedAdd_failsOnly {n : ℕ} {a b : Fin n} :
    FailsOnly Error.OfCompile (checkedAdd a b) := by
  intro e h
  unfold checkedAdd at h
  split_ifs at h
  rw [← Except.error.inj h]
  simp [Error.OfCompile]

@[simp] theorem appendSpan_failsOnly {α : Type} {a b : Span α} :
    FailsOnly Error.OfCompile (appendSpan a b) := by
  intro e h
  unfold appendSpan at h
  split_ifs at h
  rw [← Except.error.inj h]
  simp [Error.OfCompile]

section Client

variable {sn : Starknet} {pool : Pool} {userAddr : ContractAddress} {userPrivateKey : Felt}
  {balances : TokenBalances}

@[simp] theorem computeSharedX_failsOnly {ephemeralSecret publicKey : Felt} :
    FailsOnly Error.OfCompile (sn.computeSharedX ephemeralSecret publicKey) := by
  simp [Starknet.computeSharedX, Error.OfCompile]

@[simp] theorem derivePublicKey_failsOnly :
    FailsOnly Error.OfCompile (sn.derivePublicKey userPrivateKey) := by
  simp [Starknet.derivePublicKey, Error.OfCompile]

@[simp] theorem encryptUserAddr_failsOnly {ephemeralSecret auditorPublicKey : Felt} :
    FailsOnly Error.OfCompile
      (sn.encryptUserAddr ephemeralSecret auditorPublicKey userAddr) := by
  simp [Starknet.encryptUserAddr]

@[simp] theorem addBalance_failsOnly {token : ContractAddress} {amount : U128} :
    FailsOnly Error.OfCompile (balances.addBalance token amount) := by
  simp [TokenBalances.addBalance]

@[simp] theorem subtractBalance_failsOnly {token : ContractAddress} {amount : U128} :
    FailsOnly Error.OfCompile (balances.subtractBalance token amount) := by
  simp [TokenBalances.subtractBalance, Error.OfCompile]

@[simp] theorem prepareNoteCreation_failsOnly {recipientAddr token : ContractAddress}
    {recipientPublicKey : Felt} {index : Usize} :
    FailsOnly Error.OfCompile (prepareNoteCreation sn pool userAddr userPrivateKey recipientAddr
      recipientPublicKey token index) := by
  simp [prepareNoteCreation, Error.OfCompile]

@[simp] theorem setViewingKey_failsOnly {input : SetViewingKeyInput} :
    FailsOnly Error.OfCompile (setViewingKey sn pool userAddr userPrivateKey input) := by
  simp [setViewingKey, SetViewingKeyInput.assertValid, Starknet.encryptPrivateKey, Error.OfCompile]

@[simp] theorem openChannel_failsOnly {input : OpenChannelInput} :
    FailsOnly Error.OfCompile (openChannel sn pool userAddr userPrivateKey input) := by
  simp [openChannel, OpenChannelInput.assertValid, Starknet.encryptChannelInfo, Error.OfCompile]

@[simp] theorem openSubchannel_failsOnly {input : OpenSubchannelInput} :
    FailsOnly Error.OfCompile (openSubchannel sn pool userAddr input) := by
  simp [openSubchannel, OpenSubchannelInput.assertValid, Error.OfCompile]

@[simp] theorem deposit_failsOnly {input : DepositInput} :
    FailsOnly Error.OfCompile (deposit userAddr input balances) := by
  simp [deposit, DepositInput.assertValid, Error.OfCompile]

@[simp] theorem withdraw_failsOnly {input : WithdrawInput} :
    FailsOnly Error.OfCompile (withdraw sn pool userAddr input balances) := by
  simp [withdraw, WithdrawInput.assertValid, Error.OfCompile]

@[simp] theorem useNote_failsOnly {input : UseNoteInput} :
    FailsOnly Error.OfCompile (useNote sn pool userAddr userPrivateKey input balances) := by
  simp [useNote, UseNoteInput.assertValid, Starknet.decodeNoteAmount, unpack, Error.OfCompile]

@[simp] theorem createEncNote_failsOnly {input : CreateEncNoteInput} :
    FailsOnly Error.OfCompile (createEncNote sn pool userAddr userPrivateKey input balances) := by
  simp [createEncNote, CreateEncNoteInput.assertValid, Starknet.encNotePackedValue, pack,
    Error.OfCompile]

@[simp] theorem createOpenNote_failsOnly {input : CreateOpenNoteInput} :
    FailsOnly Error.OfCompile (createOpenNote sn pool userAddr userPrivateKey input) := by
  simp [createOpenNote, CreateOpenNoteInput.assertValid, Error.OfCompile]

@[simp] theorem invokeExternal_failsOnly {input : InvokeExternalInput} :
    FailsOnly Error.OfCompile (invokeExternal input) := by
  simp [invokeExternal, InvokeExternalInput.assertValid, Error.OfCompile]

/-- Whatever the external contract panics with is propagated between markers. -/
@[simp] theorem computeAndInvoke_failsOnly {call : CallContract} {input : ComputeAndInvokeInput} :
    FailsOnly Error.OfCompile (computeAndInvoke sn call userAddr userPrivateKey input) := by
  simp [computeAndInvoke, ComputeAndInvokeInput.assertValid, Error.OfCompile]

theorem compileAction_failsOnly {call : CallContract} {action : ClientAction} :
    FailsOnly Error.OfCompile
      (compileAction sn pool call userAddr userPrivateKey balances action) := by
  cases action <;> simp [compileAction]

theorem writeWords_failsOnly {base offset : ℕ} {value : List Felt} {words : ℕ → Felt} :
    FailsOnly Error.OfCompile (writeWords base offset value words) := by
  induction value generalizing offset words with
  | nil => exact failsOnly_pure words
  | cons felt rest ih => simp [writeWords, ih, Error.OfCompile]

theorem clientApplyAction_failsOnly {state : Pool × Bool} {action : ServerAction} :
    FailsOnly Error.OfCompile (clientApplyAction state action) := by
  cases action with
  | writeOnce input =>
    simp [clientApplyAction, Pool.applyWriteOnce, writeWords_failsOnly, Error.OfCompile]
  | _ => exact failsOnly_pure _

theorem compileStep_failsOnly (call : CallContract) (state : CompileState)
    (action : ClientAction) :
    FailsOnly Error.OfCompile (compileStep sn call userAddr userPrivateKey state action) := by
  have happly : ∀ pool replay actions,
      FailsOnly Error.OfCompile (clientApplyActions pool replay actions) := fun _ _ actions =>
    failsOnly_foldlM (fun _ _ => clientApplyAction_failsOnly) actions _
  simp [compileStep, ClientAction.assertAndAdvancePhase, compileAction_failsOnly, happly,
    Error.OfCompile]

/-- The errors that `main` raises. -/
theorem main_failsOnly {call : CallContract} {clientActions : List ClientAction} :
    FailsOnly Error.OfCompile (main sn call pool userAddr userPrivateKey clientActions) := by
  have hloop : FailsOnly Error.OfCompile (clientActions.foldlM
      (compileStep sn call userAddr userPrivateKey) (CompileState.start pool)) :=
    failsOnly_foldlM (compileStep_failsOnly call) clientActions _
  have hvalid : ∀ balances : TokenBalances, FailsOnly Error.OfCompile balances.assertValid :=
    fun balances => failsOnly_forM (fun _ => by simp [Error.OfCompile]) balances.entries
  simp [main, hloop, hvalid, Error.OfCompile]

end Client

/-! ### The channel -/

/-- **The panic channel.** Compiled actions are read back from their panic data as
they are. No panic data of an error of `main` is read as compiled actions, whatever
contracts it calls and whatever these panic with. So `compile_actions` returns a
list of actions exactly when `main` compiled that list. -/
theorem panic_channel_integrity (sn : Starknet) :
    (∀ actions, extractServerActionsFromPanic
      (.error (panicWithServerActions actions ++ [entrypointFailed])) = .ok actions) ∧
    ∀ (call : CallContract) (pool : Pool) (userAddr : ContractAddress) (userPrivateKey : Felt)
      (clientActions : List ClientAction),
      (∀ e data actions, main sn call pool userAddr userPrivateKey clientActions = .error e →
        e.PanicsWith data →
        extractServerActionsFromPanic (.error (data ++ [entrypointFailed])) ≠ .ok actions) ∧
      ∀ actions, CompileActions sn call pool userAddr userPrivateKey clientActions (.ok actions) ↔
        ∃ simulated, main sn call pool userAddr userPrivateKey clientActions =
          .ok (actions.1, simulated) := by
  have hread : ∀ actions, extractServerActionsFromPanic
      (.error (panicWithServerActions actions ++ [entrypointFailed])) = .ok actions :=
    fun actions => extractServerActionsFromPanic_eq_ok.mpr rfl
  refine ⟨hread, fun call pool userAddr userPrivateKey clientActions =>
    ⟨fun e data actions hmain hdata => ?_, fun actions => ⟨?_, ?_⟩⟩⟩
  · exact (main_failsOnly e hmain).not_extracted hdata actions
  · rintro ⟨data, hpanic, hextract⟩
    cases hpanic with
    | compiled hmain =>
      obtain rfl := Except.ok.inj ((hread _).symm.trans hextract)
      exact ⟨_, hmain⟩
    | failed hmain hdata => exact absurd hextract ((main_failsOnly _ hmain).not_extracted hdata _)
  · rintro ⟨simulated, hmain⟩
    exact ⟨_, .compiled hmain, hread actions⟩

/-- A contract that panics with what looks like compiled actions gets nowhere. -/
theorem panic_channel_integrity_sample : ∀ actions : Span ServerAction,
    extractServerActionsFromPanic (.error (propagateExternalPanic
      (panicWithServerActions Sample.funding.actions ++ [entrypointFailed]) ++
        [entrypointFailed])) ≠ .ok actions := by
  intro actions
  have hpanics : main Starknet.sample (fun _ _ _ => .error
      (panicWithServerActions Sample.funding.actions ++ [entrypointFailed])) Sample.funded.pool 5 3
      [.computeAndInvoke ⟨8, Span.empty, Span.empty⟩] = .error (.propagatedPanic
        (panicWithServerActions Sample.funding.actions ++ [entrypointFailed])) := by
    rfl
  exact ((panic_channel_integrity Starknet.sample).2 _ _ _ _ _).1 _ _ _ hpanics (.propagated _)

end PrivacyPool
