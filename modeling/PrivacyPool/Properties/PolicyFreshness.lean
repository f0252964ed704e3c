import PrivacyPool.Interceptor.ScreeningPolicy
import PrivacyPool.Properties.Governance
import PrivacyPool.Properties.ShadowAccounts

/-!
# Freshness of screening policies

The policy client beside a run of the pool: whatever callers ask, whenever the node answers
and however the calls interleave, a policy that is served was the pool's at most a window and
a time to live ago. A policy that is served and is no longer the pool's was changed by its
governors in that time, and the pool's log shows it.

## Main results

* `screening_policies_fresh` — what the client serves, in every run
-/

namespace PrivacyPool

open Fallible Interceptor

/-- What the node sees of a pool with the entry point. -/
def poolView {sn : Starknet} (world : World sn) : PolicyView := some world.pool.screeningPolicies

variable {sn : Starknet} {D : Domain} {lru : LruCache String OpenNoteScreeningPolicy}
  {decoder : PolicyDecoder} {ttlMs window : ℕ} {visited : List (Watched (World sn) lru)}
  {labels : List (ℕ × PolicyEvent (Label sn))} {s : Watched (World sn) lru}

variable (D lru decoder ttlMs) in
/-- A run of the client beside the pool. -/
abbrev PolicyRun :=
  (policySystem (poolSystem sn D) poolView decoder ttlMs lru).Run

/-- A policy that the log does not mention stays. -/
theorem Configuration.screeningPolicies_foldl_record (emitted : List Event) (config : Configuration)
    (contract : ContractAddress) :
    (emitted.foldl Configuration.record config).screeningPolicies contract =
        config.screeningPolicies contract ∨
      ∃ changed, .openNoteScreeningPolicySet contract changed ∈ emitted := by
  induction emitted generalizing config with
  | nil => exact Or.inl rfl
  | cons event rest ih =>
    rw [List.foldl_cons]
    rcases ih (config.record event) with hsame | ⟨changed, hmem⟩
    · -- The rest does not mention the contract: the first event decides.
      by_cases hevent : ∃ changed, event = .openNoteScreeningPolicySet contract changed
      · obtain ⟨changed, rfl⟩ := hevent
        exact Or.inr ⟨changed, List.mem_cons_self⟩
      · left
        rw [hsame]
        cases event with
        | openNoteScreeningPolicySet depositor changed =>
          have hne : contract ≠ depositor := fun heq => hevent ⟨changed, by rw [heq]⟩
          exact Function.update_of_ne hne _ _
        | _ => rfl
    · exact Or.inr ⟨changed, List.mem_cons_of_mem _ hmem⟩

/-- Beside the client the pool is governed as ever, and time does not go back. -/
theorem policyRun_governed (run : PolicyRun D lru decoder ttlMs visited labels s) :
    s.pool.pool.config.Valid sn ∧ ∀ moment ∈ visited, moment.now ≤ s.now ∧
      ∃ configured, Governed configured moment.pool s.pool := by
  induction run with
  | start h =>
    refine ⟨Deployed.config_valid h.1, fun moment hmem => ?_⟩
    obtain rfl := List.mem_singleton.mp hmem
    exact ⟨le_rfl, [], .refl _⟩
  | step run h ih =>
    rename_i visited labels label s s'
    -- What a step does to the pool and to the clock.
    have hstep : s'.pool.pool.config.Valid sn ∧ s.now ≤ s'.now ∧
        ∃ configured, Governed configured s.pool s'.pool := by
      cases h with
      | pool hpool =>
        obtain ⟨hvalid, hgoverned⟩ := poolStep_governed ih.1 hpool
        exact ⟨hvalid, le_rfl, _, hgoverned⟩
      | tick hlater => exact ⟨ih.1, hlater, [], .refl _⟩
      | asked _ | evaluated _ _ _ | settled _ _ | resumed _ => exact ⟨ih.1, le_rfl, [], .refl _⟩
    obtain ⟨hvalid, hnow, configured', hgoverned'⟩ := hstep
    refine ⟨hvalid, fun moment hmem => ?_⟩
    rcases List.mem_cons.mp hmem with rfl | hvisited
    · exact ⟨le_rfl, [], .refl _⟩
    · obtain ⟨hbefore, configured, hgoverned⟩ := ih.2 moment hvisited
      exact ⟨hbefore.trans hnow, _, hgoverned.trans hgoverned'⟩

/-- **Fresh policies.** In every run in which callers go on within a window from when their
read began: each caller is answered once, for the address it asked for, or still waits; no
address is read twice at a time; and a policy that is served last was the pool's at a moment
at most the window and the time to live ago, so that it is the pool's policy now or the pool
logged a change of it since that moment. -/
theorem screening_policies_fresh (hlawful : lru.Lawful) (hreads : decoder.Reads)
    (run : PolicyRun D lru decoder ttlMs visited labels s)
    (hprompt : ∀ label ∈ labels, Prompt window label) :
    (labels.flatMap (fun label => label.2.answering) ++ s.client.waiting).Perm
        (labels.flatMap fun label => label.2.asking) ∧
      (s.client.pendingReads.map Prod.fst).Nodup ∧
      ∀ label older, labels = label :: older → ∀ address policy,
        label.2.served = some (address, policy) → ∀ contract : ContractAddress,
        Hex.Spells address contract.val →
        ∃ moment ∈ visited, moment.now ≤ s.now ∧ s.now ≤ moment.now + window + ttlMs ∧
          moment.pool.pool.screeningPolicies contract = policy ∧
          ∃ emitted, s.pool.events = moment.pool.events ++ emitted ∧
            (s.pool.pool.screeningPolicies contract = policy ∨
              ∃ changed, .openNoteScreeningPolicySet contract changed ∈ emitted) := by
  have hinvariant := policyRun_invariant hlawful hreads run hprompt
  refine ⟨hinvariant.accounted, hinvariant.single, ?_⟩
  rintro label older rfl address policy hserved contract hspells
  have hgoverned := (policyRun_governed run).2
  -- Only the last step can serve it, and the invariant of the run before says since when it was
  -- shown.
  cases run with
  | step run hstep =>
    have hbefore := policyRun_invariant hlawful hreads run fun l hl =>
      hprompt l (List.mem_cons_of_mem _ hl)
    obtain ⟨hfresh, -⟩ := policyStep_invariant hlawful hreads run.mem_visited hbefore
      (hprompt label List.mem_cons_self) hstep
    obtain ⟨since, hage, moment, hmoment, hsince, hshown⟩ := hfresh address policy hserved
    -- The steps that serve a policy carry their time, and do not move the clock.
    have hnow : label.1 = s.now := by
      cases hstep with
      | asked _ => rfl
      | resumed _ => rfl
      | pool _ | tick _ | evaluated _ _ _ | settled _ _ => cases hserved
    have hpolicy : moment.pool.pool.screeningPolicies contract = policy := hshown contract hspells
    obtain ⟨hle, _, hlog⟩ := hgoverned moment (List.mem_cons_of_mem _ hmoment)
    obtain ⟨emitted, hevents, hconfig, -⟩ := hlog.replayed
    refine ⟨moment, List.mem_cons_of_mem _ hmoment, hle, by omega, hpolicy, emitted, hevents, ?_⟩
    -- The policy of now is that of the moment with the events in between.
    have hnowPolicy := congrFun (congrArg Configuration.screeningPolicies hconfig) contract
    have hlogged :=
      Configuration.screeningPolicies_foldl_record emitted moment.pool.pool.config contract
    rcases hlogged with hsame | hchanged
    · exact Or.inl (hnowPolicy.trans (hsame.trans hpolicy))
    · exact Or.inr hchanged

/-! ### A stale policy

A caller asks for contract 8 and is answered after a while. Then the governor delegates the
screening of that contract, and a second caller still gets what was cached. -/

namespace PolicySample

open ShadowSample

/-- A coder that reads the number which a text spells. -/
def policyDecoder : PolicyDecoder := fun felts =>
  (Hex.readText (felts.headD "")).bind fun n => policyVariants[n]?

theorem policyDecoder_reads : policyDecoder.Reads := fun text n hspells => by
  simp [policyDecoder, hspells.readText]

/-- The cache of the sample. -/
abbrev policyLru : LruCache String OpenNoteScreeningPolicy :=
  .recency String OpenNoteScreeningPolicy

/-- A client with the cache of the sample. -/
abbrev WatchedSample := Watched (World starknet) policyLru

/-- The client after the first caller has asked, and after the answer has come. -/
def askedOnce : PolicyClient policyLru := ((PolicyClient.start 100).getPolicy 0 1 "0x8").2

/-- The answer is there. -/
def received : PolicyClient policyLru := askedOnce.receive (normalizeFelt "0x8") (.felts ["0x0"])

/-- The read that the first caller waits for. -/
def read : PendingRead := ⟨0, [1], some (.felts ["0x0"])⟩

/-- The answer is stored. -/
def settled : PolicyClient policyLru :=
  received.settle policyDecoder (normalizeFelt "0x8") read (.felts ["0x0"])

/-- The first caller, about to go on. -/
def firstCaller : Resuming := ⟨1, normalizeFelt "0x8", 0, some .required⟩

/-- The first caller has its policy. -/
def resumed : PolicyClient policyLru := settled.resume 5 firstCaller []

/-- Another caller asks for the same contract under another spelling. -/
def askedTwice : PolicyClient policyLru := (resumed.getPolicy 5 2 "0x08").2

/-- The steps of the sample, the last one first. -/
def policyLabels : List (ℕ × PolicyEvent (Label starknet)) :=
  [(5, .asked 2 "0x08" (some .required)),
    (5, .pool (.admin 1 (.setOpenNoteScreeningPolicy 8 .delegated))),
    (5, .resumed firstCaller), (5, .settled (normalizeFelt "0x8")), (0, .tick),
    (0, .evaluated (normalizeFelt "0x8") (.felts ["0x0"])), (0, .asked 1 "0x8" none)]

theorem policyRun : ∃ visited, PolicyRun domain policyLru policyDecoder 100 visited policyLabels
    (⟨governed, 5, askedTwice⟩ : WatchedSample) := by
  have hstarted : (constructor starknet before 2 4 100).isOk = true := by decide +kernel
  have hgoverned : (applyAdmin starknet started 1
    (.setOpenNoteScreeningPolicy 8 .delegated)).isOk = true := by decide +kernel
  have hmissed :
      ((PolicyClient.start 100 : PolicyClient policyLru).getPolicy 0 1 "0x8").1 = none := by
    decide +kernel
  have hhit : (resumed.getPolicy 5 2 "0x08").1 = some .required := by decide +kernel
  -- The node answers that the pool screens deposits of the contract itself.
  have hanswers : NodeAnswers (normalizeFelt "0x8") (poolView started) (.felts ["0x0"]) := by
    have haddress : Hex.Spells (normalizeFelt "0x8") (8 : ContractAddress).val :=
      ⟨['8'], Or.inl (by decide +kernel), by simp, by decide⟩
    have hindex : policyIndex (started.pool.screeningPolicies 8) = 0 := by decide +kernel
    exact .felts haddress (hindex ▸ ⟨['0'], Or.inl rfl, by simp, by decide⟩)
  have hstart : PolicyRun domain policyLru policyDecoder 100 [⟨started, 0, .start 100⟩] []
      (⟨started, 0, .start 100⟩ : WatchedSample) :=
    .start ⟨⟨before, _, 2, 4, 100, rfl, eq_ok_valueOr before hstarted⟩, rfl⟩
  have hasked : PolicyRun domain policyLru policyDecoder 100 _ [(0, .asked 1 "0x8" none)]
      (⟨started, 0, askedOnce⟩ : WatchedSample) := hstart.step (.asked (Prod.ext hmissed rfl))
  have hevaluated : PolicyRun domain policyLru policyDecoder 100 _ (_ :: _)
      (⟨started, 0, received⟩ : WatchedSample) :=
    hasked.step (.evaluated List.mem_cons_self rfl hanswers)
  have hticked : PolicyRun domain policyLru policyDecoder 100 _ (_ :: _)
      (⟨started, 5, received⟩ : WatchedSample) := hevaluated.step (.tick (Nat.zero_le 5))
  have hsettled : PolicyRun domain policyLru policyDecoder 100 _ (_ :: _)
      (⟨started, 5, settled⟩ : WatchedSample) :=
    hticked.step (.settled (show (normalizeFelt "0x8", read) ∈ received.pendingReads from
      List.mem_cons_self) rfl)
  have hresumed : PolicyRun domain policyLru policyDecoder 100 _ (_ :: _)
      (⟨started, 5, resumed⟩ : WatchedSample) :=
    hsettled.step (.resumed (show settled.resuming = [] ++ firstCaller :: [] from rfl))
  -- The policy changes after the read; the second caller still gets the cached one.
  have hpool : PolicyRun domain policyLru policyDecoder 100 _
      ((5, .pool (.admin 1 (.setOpenNoteScreeningPolicy 8 .delegated))) :: _)
      (⟨governed, 5, resumed⟩ : WatchedSample) :=
    hresumed.step (.pool (eq_ok_valueOr before hgoverned))
  exact ⟨_, hpool.step (.asked (Prod.ext hhit rfl))⟩

theorem policyPrompt (label : ℕ × PolicyEvent (Label starknet)) (h : label ∈ policyLabels) :
    Prompt 10 label := by
  simp only [policyLabels, List.mem_cons, List.not_mem_nil, or_false] at h
  rcases h with rfl | rfl | rfl | rfl | rfl | rfl | rfl
  · trivial
  · trivial
  · exact show 5 ≤ 0 + 10 by decide
  · trivial
  · trivial
  · trivial
  · trivial

end PolicySample

open ShadowSample PolicySample in
/-- The second caller of the sample is served the policy before the change, which the log
shows. -/
theorem screening_policies_fresh_sample : governed.pool.screeningPolicies 8 = .delegated ∧
    ∃ moment : WatchedSample, 5 ≤ moment.now + 10 + 100 ∧
      moment.pool.pool.screeningPolicies 8 = .required ∧
      ∃ emitted, governed.events = moment.pool.events ++ emitted ∧
        ∃ changed, .openNoteScreeningPolicySet 8 changed ∈ emitted := by
  obtain ⟨visited, run⟩ := policyRun
  obtain ⟨-, -, hserved⟩ := screening_policies_fresh LruCache.recency_lawful policyDecoder_reads run
    policyPrompt
  have hnow : governed.pool.screeningPolicies 8 = .delegated := by decide +kernel
  have hspells : Hex.Spells "0x08" (8 : ContractAddress).val :=
    ⟨['0', '8'], Or.inl rfl, by simp, by decide⟩
  have haddress : Hex.Spells (normalizeFelt "0x08") (8 : ContractAddress).val := by
    rw [normalizeFelt_of_spells hspells]
    exact Hex.spells_writeText _
  obtain ⟨moment, -, -, hage, hpolicy, emitted, hevents, hchanged⟩ :=
    hserved _ _ rfl _ _ rfl 8 haddress
  refine ⟨hnow, moment, hage, hpolicy, emitted, hevents, hchanged.resolve_left ?_⟩
  rw [hnow]
  decide

end PrivacyPool
