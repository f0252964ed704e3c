import PrivacyPool.Properties.ShadowAccounts
import PrivacyPool.Refinement.Invariant

/-!
# Governance of the pool

The configuration of the pool is written by its constructor and its governors only, and each
write is recorded by an event. Reading the event log therefore replays the configuration
between any two states of a run, whatever lists of actions were applied in between.

## Main definitions

* `Configuration` — the configured variables, with `Configuration.record` for what an event
  says about them
* `Configuration.Valid` — what the setters keep
* `Governed` — the later configuration is the earlier one with the events in between

## Main results

* `configuration_audited` — the configuration of every state of a run is valid and replayed
  by the event log, in which each entry is a call of a governor
-/

namespace PrivacyPool

open Fallible

/-! ### The configuration and its log -/

/-- The variables that the governors configure. -/
structure Configuration where
  screeningPolicies : ContractAddress → OpenNoteScreeningPolicy
  auditorPublicKey : Felt
  screenerPublicKey : Felt
  feeAmount : U128
  feeCollector : ContractAddress
  proofValidityBlocks : U64

/-- The configuration that a pool has. -/
def Pool.config (pool : Pool) : Configuration where
  screeningPolicies := pool.screeningPolicies
  auditorPublicKey := pool.auditorPublicKey
  screenerPublicKey := pool.screenerPublicKey
  feeAmount := pool.feeAmount
  feeCollector := pool.feeCollector
  proofValidityBlocks := pool.proofValidityBlocks

/-- The configuration after an event. -/
def Configuration.record (config : Configuration) : Event → Configuration
  | .auditorPublicKeySet auditorPublicKey => { config with auditorPublicKey }
  | .screenerPublicKeySet screenerPublicKey => { config with screenerPublicKey }
  | .feeAmountSet feeAmount => { config with feeAmount }
  | .feeCollectorSet feeCollector => { config with feeCollector }
  | .proofValidityBlocksSet proofValidityBlocks => { config with proofValidityBlocks }
  | .openNoteScreeningPolicySet depositor policy =>
    { config with
      screeningPolicies := Function.update config.screeningPolicies depositor policy }
  | _ => config

/-- Whether an event is about the configuration. -/
def Event.configures : Event → Bool
  | .auditorPublicKeySet _ | .screenerPublicKeySet _ | .feeAmountSet _ | .feeCollectorSet _
  | .proofValidityBlocksSet _ | .openNoteScreeningPolicySet _ _ => true
  | _ => false

/-- The event of an administrative call, if the pool emits one. -/
def AdminCall.event? : AdminCall → Option Event
  | .setAuditorPublicKey auditorPublicKey => some (.auditorPublicKeySet auditorPublicKey)
  | .setScreenerPublicKey screenerPublicKey => some (.screenerPublicKeySet screenerPublicKey)
  | .setFeeAmount feeAmount => some (.feeAmountSet feeAmount)
  | .setFeeCollector feeCollector => some (.feeCollectorSet feeCollector)
  | .setProofValidityBlocks proofValidityBlocks =>
    some (.proofValidityBlocksSet proofValidityBlocks)
  | .setOpenNoteScreeningPolicy depositor policy =>
    some (.openNoteScreeningPolicySet depositor policy)
  | .pause | .unpause => none

/-- The event that a step records about the configuration. -/
def Label.configEvent? {sn : Starknet} : Label sn → Option Event
  | .admin _ call => call.event?
  | _ => none

/-- What the setters keep: the keys are points of the curve, a fee has a collector, proofs
stay valid for a while and the zero address has no policy of its own. -/
structure Configuration.Valid (sn : Starknet) (config : Configuration) : Prop where
  auditor : config.auditorPublicKey ≠ 0 ∧ (sn.newFromX config.auditorPublicKey).isSome = true
  screener : config.screenerPublicKey ≠ 0 ∧ (sn.newFromX config.screenerPublicKey).isSome = true
  fee : config.feeAmount ≠ 0 → config.feeCollector ≠ 0
  proofs : config.proofValidityBlocks ≠ 0
  zeroAddress : config.screeningPolicies 0 = .required

variable {sn : Starknet} {world world' : World sn}

theorem Configuration.foldl_record_of_not_configures {emitted : List Event} {config : Configuration}
    (h : ∀ event ∈ emitted, event.configures = false) :
    emitted.foldl Configuration.record config = config := by
  induction emitted with
  | nil => rfl
  | cons event rest ih =>
    rw [List.forall_mem_cons] at h
    have hsame : config.record event = config := by
      cases event <;> first | rfl | cases h.1
    rw [List.foldl_cons, hsame, ih h.2]

/-- Between two states events are emitted, and the later configuration is the earlier one
with these events. Those about the configuration are the ones given. -/
structure Governed (configured : List Event) (world world' : World sn) : Prop where
  replayed : ∃ emitted, world'.events = world.events ++ emitted ∧
    world'.pool.config = emitted.foldl Configuration.record world.pool.config ∧
    emitted.filter Event.configures = configured

theorem Governed.refl (world : World sn) : Governed [] world world :=
  ⟨⟨[], (List.append_nil _).symm, rfl, rfl⟩⟩

theorem Governed.trans {configured configured' : List Event} {world'' : World sn}
    (h : Governed configured world world') (h' : Governed configured' world' world'') :
    Governed (configured ++ configured') world world'' := by
  obtain ⟨emitted, hevents, hconfig, hconfigured⟩ := h.replayed
  obtain ⟨emitted', hevents', hconfig', hconfigured'⟩ := h'.replayed
  refine ⟨⟨emitted ++ emitted', ?_, ?_, ?_⟩⟩
  · rw [hevents', hevents, List.append_assoc]
  · rw [hconfig', hconfig, List.foldl_append]
  · rw [List.filter_append, hconfigured, hconfigured']

/-- Events that say nothing about the configuration leave it as it is. -/
theorem Governed.of_same {emitted : List Event} (hevents : world'.events = world.events ++ emitted)
    (hsilent : ∀ event ∈ emitted, event.configures = false)
    (hconfig : world'.pool.config = world.pool.config) : Governed [] world world' := by
  refine ⟨⟨emitted, hevents, ?_, ?_⟩⟩
  · rw [Configuration.foldl_record_of_not_configures hsilent, hconfig]
  · exact List.filter_eq_nil_iff.mpr fun event hmem => by simp [hsilent event hmem]

theorem Governed.of_unlogged (hevents : world'.events = world.events)
    (hconfig : world'.pool.config = world.pool.config) : Governed [] world world' :=
  .of_same (hevents.trans (List.append_nil _).symm) (List.forall_mem_nil _) hconfig

/-! ### Applying actions -/

section Apply

variable {invocation : Invocation sn} {st st' : ApplyState sn}

/-- Deposits to open notes leave the configuration alone. -/
theorem deposits_governed {depositor : ContractAddress} {deposits : List OpenNoteDeposit}
    (h : deposits.foldlM (depositToOpenNote sn depositor) world = .ok world') :
    Governed [] world world' :=
  foldlM_invariant (fun w => Governed [] world w)
    (fun _ _ before after hgoverned hstep => by
      have hdeposited := depositToOpenNote_eq_ok hstep
      have hconfig : after.pool.config = before.pool.config := by
        rw [hdeposited.frame]
        rfl
      exact hgoverned.trans (.of_same hdeposited.events (by simp [Event.configures]) hconfig))
    (.refl world) h

/-- An invoke leaves the configuration alone. -/
theorem applyInvokeAndDeposits_governed {input : InvokeInput} {selector : Felt}
    (h : applyInvokeAndDeposits sn invocation st input selector = .ok st') :
    Governed [] st.world st'.world := by
  obtain ⟨tokens, deposits, hinvoked⟩ := applyInvokeAndDeposits_eq_ok h
  -- The call itself, and after it the deposits that it asks for.
  have hcall : Governed [] st.world (({ st.world with tokens } : World sn).emit
      (.externalContractInvoked ⟨input.contractAddress, selector⟩)) :=
    .of_same rfl (by simp [Event.configures]) rfl
  exact hcall.trans (deposits_governed hinvoked.deposited)

/-- Applying an action leaves the configuration alone. -/
theorem applyAction_governed {action : ServerAction}
    (h : applyAction sn invocation st action = .ok st') : Governed [] st.world st'.world := by
  cases action with
  | invoke input => exact applyInvokeAndDeposits_governed h
  | invokeWithComputation input => exact applyInvokeAndDeposits_governed h
  | writeOnce input =>
    obtain ⟨pool, hwrite, h⟩ := bind_eq_ok.mp h
    obtain rfl := pure_eq_ok.mp h
    obtain ⟨-, -, -, rfl⟩ := applyWriteOnce_eq_ok.mp hwrite
    exact .of_unlogged rfl rfl
  | append input =>
    obtain rfl := pure_eq_ok.mp h
    exact .of_unlogged rfl rfl
  | transferFrom input =>
    simp only [applyAction, applyTransferFrom, bind_eq_ok, pure_eq_ok, transferred_eq_ok] at h
    obtain ⟨_, -, _, ⟨tokens, -, rfl⟩, rfl⟩ := h
    exact .of_unlogged rfl rfl
  | transferTo input =>
    simp only [applyAction, applyTransferTo, bind_eq_ok, pure_eq_ok, transferred_eq_ok] at h
    obtain ⟨_, ⟨tokens, -, rfl⟩, rfl⟩ := h
    exact .of_unlogged rfl rfl
  | emitOpenNoteCreated event =>
    obtain ⟨counter, -, h⟩ := bind_eq_ok.mp h
    obtain rfl := pure_eq_ok.mp h
    exact .of_same rfl (by simp [Event.configures]) rfl
  | emitViewingKeySet _ | emitWithdrawal _ | emitDeposit _ | emitEncNoteCreated _
  | emitNoteUsed _ =>
    obtain rfl := pure_eq_ok.mp h
    exact .of_same rfl (by simp [Event.configures]) rfl

/-- An applied list leaves the configuration alone, whatever contracts it calls. -/
theorem applyActions_governed {tx : TxInfo} {actions : Span ServerAction}
    {screening : Option ScreeningAttestation}
    (h : applyActions sn invocation tx world actions screening = .ok world') :
    Governed [] world world' := by
  obtain ⟨tokens, st, haccepted⟩ := applyActions_iff.mp h
  -- The guard and the fee are not logged.
  have hentered : Governed [] world { world.enter with tokens } :=
    .of_unlogged rfl rfl
  have happlied : Governed [] { world.enter with tokens } st.world :=
    foldlM_invariant (fun s : ApplyState sn => Governed [] { world.enter with tokens } s.world)
      (fun _ _ _ _ hgoverned hstep => hgoverned.trans (applyAction_governed hstep))
      (.refl _) haccepted.applied
  have hleft : Governed [] st.world (guardEnd sn st.world) :=
    .of_unlogged rfl rfl
  rw [haccepted.result]
  exact (hentered.trans happlied).trans hleft

end Apply

/-! ### Administration -/

/-- One event is emitted and says what the configuration becomes. -/
theorem Governed.of_emit {event : Event} (hconfigures : event.configures = true)
    (hevents : world'.events = world.events ++ [event])
    (hconfig : world'.pool.config = world.pool.config.record event) :
    Governed [event] world world' :=
  ⟨⟨[event], hevents, hconfig, by simp [hconfigures]⟩⟩

/-- An administrative call keeps the configuration valid, and its event says what it
changes. -/
theorem applyAdmin_governed {caller : ContractAddress} {call : AdminCall}
    (hvalid : world.pool.config.Valid sn) (h : applyAdmin sn world caller call = .ok world') :
    world'.pool.config.Valid sn ∧ Governed call.event?.toList world world' := by
  obtain ⟨_, -, h⟩ := bind_eq_ok.mp h
  -- Each setter checks the one condition that its change could break.
  cases call with
  | setAuditorPublicKey auditorPublicKey =>
    simp only [setAuditorPublicKey, bind_eq_ok, require_eq_ok, exists_and_left, exists_const,
      pure_eq_ok] at h
    obtain ⟨hnonzero, hcurve, rfl⟩ := h
    exact ⟨{ hvalid with auditor := ⟨hnonzero, hcurve⟩ }, .of_emit rfl rfl rfl⟩
  | setScreenerPublicKey screenerPublicKey =>
    simp only [setScreenerPublicKey, bind_eq_ok, require_eq_ok, exists_and_left, exists_const,
      pure_eq_ok] at h
    obtain ⟨hnonzero, hcurve, rfl⟩ := h
    exact ⟨{ hvalid with screener := ⟨hnonzero, hcurve⟩ }, .of_emit rfl rfl rfl⟩
  | setFeeAmount feeAmount =>
    simp only [setFeeAmount, bind_eq_ok, require_eq_ok, exists_and_left, exists_const,
      pure_eq_ok] at h
    obtain ⟨hcollector, rfl⟩ := h
    exact ⟨{ hvalid with fee := hcollector }, .of_emit rfl rfl rfl⟩
  | setFeeCollector feeCollector =>
    simp only [setFeeCollector, bind_eq_ok, require_eq_ok, exists_and_left, exists_const,
      pure_eq_ok] at h
    obtain ⟨hcollector, rfl⟩ := h
    exact ⟨{ hvalid with fee := hcollector }, .of_emit rfl rfl rfl⟩
  | setProofValidityBlocks proofValidityBlocks =>
    simp only [setProofValidityBlocks, bind_eq_ok, require_eq_ok, exists_and_left, exists_const,
      pure_eq_ok] at h
    obtain ⟨hnonzero, rfl⟩ := h
    exact ⟨{ hvalid with proofs := hnonzero }, .of_emit rfl rfl rfl⟩
  | setOpenNoteScreeningPolicy depositor policy =>
    simp only [setOpenNoteScreeningPolicy, bind_eq_ok, require_eq_ok, exists_and_left,
      exists_const, pure_eq_ok] at h
    obtain ⟨hnonzero, rfl⟩ := h
    -- The zero address is the one depositor that the setter refuses.
    have hzero : Function.update world.pool.screeningPolicies depositor policy 0 = .required := by
      rw [Function.update_of_ne (Ne.symm hnonzero)]
      exact hvalid.zeroAddress
    exact ⟨{ hvalid with zeroAddress := hzero }, .of_emit rfl rfl rfl⟩
  | pause | unpause =>
    obtain rfl := pure_eq_ok.mp h
    exact ⟨hvalid, .of_unlogged rfl rfl⟩

/-- A deployed pool has a valid configuration. -/
theorem Deployed.config_valid (h : Deployed world) : world.pool.config.Valid sn := by
  obtain ⟨before, roles, auditorPublicKey, screenerPublicKey, blocks, hblank, hrun⟩ := h
  simp only [constructor, setAuditorPublicKey, setScreenerPublicKey, setProofValidityBlocks,
    bind_eq_ok, require_eq_ok, exists_and_left, exists_const, pure_eq_ok] at hrun
  obtain ⟨_, ⟨hauditor, hauditorCurve, rfl⟩, _, ⟨hscreener, hscreenerCurve, rfl⟩, hblocks, rfl⟩ :=
    hrun
  refine ⟨⟨hauditor, hauditorCurve⟩, ⟨hscreener, hscreenerCurve⟩, fun hfee => ?_, hblocks, ?_⟩
  · -- The constructor sets no fee.
    have hblankFee : before.pool.feeAmount = 0 := by rw [hblank]; rfl
    exact absurd hblankFee hfee
  · change before.pool.screeningPolicies 0 = .required
    rw [hblank]
    rfl

/-! ### Runs -/

variable {D : Domain} {visited : List (World sn)} {labels : List (Label sn)} {label : Label sn}

/-- One step of the pool. -/
theorem poolStep_governed (hvalid : world.pool.config.Valid sn)
    (h : PoolStep sn D visited label world world') :
    world'.pool.config.Valid sn ∧ Governed label.configEvent?.toList world world' := by
  cases label with
  | apply sub =>
    obtain ⟨-, -, -, happlies⟩ := h
    -- No event of the list is about the configuration, so that it stays valid.
    have hgoverned := applyActions_governed happlies
    obtain ⟨emitted, -, hconfig, hnone⟩ := hgoverned.replayed
    have hsilent : ∀ event ∈ emitted, event.configures = false := fun event hmem =>
      Bool.eq_false_iff.mpr (List.filter_eq_nil_iff.mp hnone event hmem)
    rw [Configuration.foldl_record_of_not_configures hsilent] at hconfig
    exact ⟨hconfig ▸ hvalid, hgoverned⟩
  | admin caller call => exact applyAdmin_governed hvalid h
  | environment =>
    have hconfig : world'.pool.config = world.pool.config := by
      rw [h.pool]
      rfl
    exact ⟨hconfig ▸ hvalid, .of_unlogged h.events hconfig⟩

/-- From every state that a run has visited to the current one, the configuration changes as
the event log says, and the log says what the governors did since. -/
theorem poolRun_governed (run : PoolRun sn D visited labels world) :
    world.pool.config.Valid sn ∧ ∀ earlier ∈ visited, ∃ recent before visited',
      labels = recent ++ before ∧ PoolRun sn D visited' before earlier ∧
      Governed (recent.reverse.filterMap Label.configEvent?) earlier world := by
  induction run with
  | start h =>
    refine ⟨h.config_valid, fun earlier hmem => ?_⟩
    obtain rfl := List.mem_singleton.mp hmem
    exact ⟨[], [], _, rfl, .start h, .refl _⟩
  | step run h ih =>
    rename_i visited labels label world world'
    obtain ⟨hvalid', hstep⟩ := poolStep_governed ih.1 h
    refine ⟨hvalid', fun earlier hmem => ?_⟩
    rcases List.mem_cons.mp hmem with rfl | hvisited
    · exact ⟨[], label :: labels, _, rfl, .step run h, .refl _⟩
    · obtain ⟨recent, before, visited', rfl, hearlier, hgoverned⟩ := ih.2 earlier hvisited
      refine ⟨label :: recent, before, visited', rfl, hearlier, ?_⟩
      -- Labels are listed with the last one first, events with the first one first.
      have hlog : (label :: recent).reverse.filterMap Label.configEvent? =
          recent.reverse.filterMap Label.configEvent? ++ label.configEvent?.toList := by
        rw [List.reverse_cons, List.filterMap_append]
        cases hevent : label.configEvent? <;> simp [hevent]
      rw [hlog]
      exact hgoverned.trans hstep

/-- Each administrative call of a run was made by a holder of its role, in the state that the
run had reached before the call. -/
theorem poolRun_admin (run : PoolRun sn D visited labels world) {recent before : List (Label sn)}
    {caller : ContractAddress} {call : AdminCall}
    (hlabels : labels = recent ++ .admin caller call :: before) :
    ∃ visited' earlier, earlier :: visited' <:+ visited ∧
      PoolRun sn D (earlier :: visited') before earlier ∧
      earlier.pool.roles call.role caller = true := by
  induction run generalizing recent with
  | start _ => cases recent <;> cases hlabels
  | step run h ih =>
    cases recent with
    | nil =>
      obtain ⟨rfl, rfl⟩ := List.cons.inj hlabels
      obtain ⟨_, hrole, -⟩ := bind_eq_ok.mp h
      obtain ⟨visited', rfl⟩ := run.visited_eq_cons
      exact ⟨visited', _, List.suffix_cons _ _, run, require_eq_ok.mp hrole⟩
    | cons _ recent =>
      obtain ⟨visited', earlier, hsuffix, hearlier⟩ := ih (List.cons.inj hlabels).2
      exact ⟨visited', earlier, hsuffix.trans (List.suffix_cons _ _), hearlier⟩

/-- **Audited configuration.** In every state of a run the configuration is valid, it is the
configuration of any earlier state with the events emitted since, of which those about the
configuration are the calls of the governors in their order, and each of these held the role
for its call in the state that the run had reached before it. -/
theorem configuration_audited (run : PoolRun sn D visited labels world) :
    world.pool.config.Valid sn ∧
    (∀ earlier ∈ visited, ∃ recent before visited', labels = recent ++ before ∧
      PoolRun sn D visited' before earlier ∧
      Governed (recent.reverse.filterMap Label.configEvent?) earlier world) ∧
    ∀ recent before caller call, labels = recent ++ .admin caller call :: before →
      ∃ visited' earlier, earlier :: visited' <:+ visited ∧
        PoolRun sn D (earlier :: visited') before earlier ∧
        earlier.pool.roles call.role caller = true :=
  ⟨(poolRun_governed run).1, (poolRun_governed run).2,
    fun _ _ _ _ hlabels => poolRun_admin run hlabels⟩

open ShadowSample in
/-- The governor of the sample held its role when it delegated the screening of contract 8,
and the log of the pool says so. -/
theorem configuration_audited_sample : governed.pool.config.Valid starknet ∧
    (∃ configured, Governed configured started governed) ∧
    ∃ earlier ∈ [governed, started], PoolRun starknet domain [earlier] [] earlier ∧
      earlier.pool.roles .appGovernor 1 = true := by
  obtain ⟨hvalid, hreplayed, hroles⟩ := configuration_audited governed_run.poolRun
  obtain ⟨recent, before, -, -, -, hgoverned⟩ := hreplayed started (by simp)
  obtain ⟨visited, earlier, hsuffix, run, hrole⟩ := hroles [] [] 1 _ rfl
  have hmem : earlier ∈ [governed, started] := hsuffix.subset List.mem_cons_self
  cases run with
  | start h => exact ⟨hvalid, ⟨_, hgoverned⟩, earlier, hmem, .start h, hrole⟩

end PrivacyPool
