import PrivacyPool.Interceptor.Order

/-!
# No block is lost

However the promises of the interceptors are settled, the run allows just when all of them allow,
and otherwise it blocks with the verdict of one of them.

## Main definitions

* `Interception.Racing`, `Interception.Calling` — runs after and while the interceptors are called

## Main results

* `runInterceptors_correct` — the result of a run
-/

namespace PrivacyPool.ProofInterceptor

open Promises

variable {outcomes : List Outcome} {s t : Interception} {key : Key} {value : Value} {i : ℕ}

namespace Interception

/-! ### After the calls -/

/-- All interceptors were called. -/
structure Racing (outcomes : List Outcome) (s : Interception) : Prop where
  typed : s.Typed outcomes
  live : s.Live outcomes
  sequenced : s.Sequenced outcomes
  blocksFirst : s.BlocksFirst outcomes

theorem Racing.tick (h : s.Racing outcomes) {reaction : Reaction} {jobs : List (Reaction × Value)}
    (hjobs : s.agent.jobs = (reaction, value) :: jobs) :
    ({ s with agent.jobs := jobs }.perform reaction value).Racing outcomes := by
  obtain ⟨htyped, hlive, -⟩ := h.live.perform h.typed hjobs
  exact ⟨htyped, hlive, h.sequenced.perform h.typed hjobs,
    h.blocksFirst.perform h.typed h.sequenced hjobs⟩

/-- The promise of an interceptor is settled. -/
theorem Racing.settle (h : s.Racing outcomes) {outcome : Outcome}
    (houtcome : outcomes[i]? = some outcome)
    (hpending : s.agent.promises (.intercepted i) = .pending [.record i]) :
    (s.settle (.intercepted i) (.outcome outcome)).Racing outcomes := by
  rw [settle_of_pending hpending]
  have hsettled : ∀ key', key' ≠ .intercepted i →
      ((s.fulfil (.intercepted i) (.outcome outcome)).IsSettled key' ↔ s.IsSettled key') := by
    intro key' hne
    unfold IsSettled
    rw [fulfil_promises, if_neg hne]
  have hold : ∀ reaction, s.HasJob reaction →
      (s.fulfil (.intercepted i) (.outcome outcome)).HasJob reaction :=
    fun _ ⟨value', hmem⟩ => ⟨value', List.mem_append_left _ hmem⟩
  -- The only new job records the verdict.
  have hnew : ∀ reaction, (∀ j, reaction ≠ .record j) →
      (s.fulfil (.intercepted i) (.outcome outcome)).HasJob reaction → s.HasJob reaction := by
    rintro reaction hne ⟨value', hmem⟩
    rcases List.mem_append.mp hmem with hbefore | hrecord
    · exact ⟨value', hbefore⟩
    · exact absurd (congrArg Prod.fst (List.mem_singleton.mp hrecord)) (hne i)
  refine ⟨h.typed.fulfil ⟨outcome, houtcome, rfl⟩, ?_, ?_, ?_⟩
  · refine ⟨fun j hj => ?_, fun j hj hdone => ?_, fun hall hne => ?_, fun hdone => ?_, fun hdone => ?_⟩
    · by_cases heq : j = i
      · subst heq
        exact .inr (.inl ⟨_, List.mem_append_right _ List.mem_cons_self⟩)
      · rw [fulfil_promises, if_neg fun h => heq (Key.intercepted.inj h),
          hsettled (.promises j) nofun]
        exact (h.live.awaited j hj).imp_right (Or.imp_left (hold _))
    · exact (h.live.received j hj ((hsettled (.promises j) nofun).mp hdone)).imp_left (hold _)
    · exact (h.live.picked hall hne).imp (hold _) (hsettled .allAllow nofun).mpr
    · exact (h.live.raced ((hsettled .allAllow nofun).mp hdone)).imp (hold _)
        (hsettled .race nofun).mpr
    · exact h.live.all ((hsettled .all nofun).mp hdone)
  · refine ⟨fun j hj hopen => ?_, fun j hreceived hjob => ?_, ?_⟩
    · obtain ⟨hblock, helement, hreceived⟩ :=
        h.sequenced.waiting j hj fun hdone => hopen ((hsettled (.promises j) nofun).mpr hdone)
      exact ⟨fun hjob => hblock (hnew (.blockOnly j) nofun hjob),
        fun hjob => helement (hnew (.element j) nofun hjob),
        hreceived⟩
    · exact h.sequenced.gone j hreceived (hnew (.blockOnly j) nofun hjob)
    · refine List.pairwise_append.mpr ⟨h.sequenced.order, List.pairwise_singleton _ _,
        fun job _ job' hjob' => ?_⟩
      obtain rfl := List.mem_singleton.mp hjob'
      exact fun _ _ => nofun
  · have hrace : s.RaceBlocked → (s.fulfil (.intercepted i) (.outcome outcome)).RaceBlocked := by
      rintro ⟨verdict, hverdict, hblock⟩
      exact ⟨verdict, by rw [fulfil_promises, if_neg nofun, hverdict], hblock⟩
    have halarm : s.Alarm → (s.fulfil (.intercepted i) (.outcome outcome)).Alarm :=
      Or.imp hrace fun ⟨job, hjob, halarm⟩ => ⟨job, List.mem_append_left _ hjob, halarm⟩
    refine ⟨fun j outcome' houtcome' hblock hdone => ?_, fun j hdone => ?_, fun hsome => ?_⟩
    · exact (h.blocksFirst.alarm j outcome' houtcome' hblock
        ((hsettled (.promises j) nofun).mp hdone)).imp (hold _) halarm
    · exact halarm (h.blocksFirst.warned j ((hsettled (.blockPromises j) nofun).mp hdone))
    · refine (h.blocksFirst.first hsome).imp hrace fun ⟨hopen, hfirst⟩ =>
        ⟨fun hdone => hopen ((hsettled .race nofun).mp hdone), blockFirst_append hfirst (.inr ?_)⟩
      intro job hjob
      obtain rfl := List.mem_singleton.mp hjob
      simp [IsLate]

/-! ### While they are called -/

/-- Nothing is wired yet: the interceptors that were called are awaited, or have thrown. -/
structure Calling (outcomes : List Outcome) (s : Interception) : Prop where
  values_eq : s.values = List.replicate outcomes.length none
  idle : ∀ key, (∀ i, key ≠ .intercepted i) → (∀ i, key ≠ .promises i) →
    s.agent.promises key = .pending []
  promises : ∀ i, s.agent.promises (.promises i) = .pending [] ∨
    ∃ value, s.agent.promises (.promises i) = .settled value ∧ Fits outcomes (.promises i) value
  intercepted : ∀ i, s.agent.promises (.intercepted i) = .pending [] ∨
    s.agent.promises (.intercepted i) = .pending [.record i] ∨
      ∃ value, s.agent.promises (.intercepted i) = .settled value ∧
        Fits outcomes (.intercepted i) value
  fresh : ∀ i, s.called ≤ i → s.agent.promises (.intercepted i) = .pending [] ∧
    s.agent.promises (.promises i) = .pending []
  awaited : ∀ i < s.called, s.agent.promises (.intercepted i) = .pending [.record i] ∨
    s.HasJob (.record i) ∨ s.IsSettled (.promises i)
  jobs : ∀ job ∈ s.agent.jobs, ∃ i, job.1 = .record i ∧ Fits outcomes (.intercepted i) job.2

theorem calling_start : (start outcomes.length).Calling outcomes where
  values_eq := rfl
  idle _ _ _ := rfl
  promises _ := .inl rfl
  intercepted _ := .inl rfl
  fresh _ _ := ⟨rfl, rfl⟩
  awaited _ hi := absurd hi (Nat.not_lt_zero _)
  jobs _ hjob := nomatch hjob

/-- The promise of an interceptor is settled while others are called. -/
theorem Calling.settle (h : s.Calling outcomes) {outcome : Outcome}
    (houtcome : outcomes[i]? = some outcome)
    (hpending : s.agent.promises (.intercepted i) = .pending [.record i]) :
    (s.settle (.intercepted i) (.outcome outcome)).Calling outcomes := by
  rw [settle_of_pending hpending]
  refine ⟨h.values_eq, fun key hne hne' => ?_, fun j => ?_, fun j => ?_, fun j hj => ?_,
    fun j hj => ?_, fun job hjob => ?_⟩
  · rw [fulfil_promises, if_neg (hne i)]
    exact h.idle key hne hne'
  · rw [fulfil_promises, if_neg nofun]
    exact h.promises j
  · rw [fulfil_promises]
    split_ifs with heq
    -- The promise that settles has the outcome of its interceptor.
    · rw [Key.intercepted.inj heq]
      exact .inr (.inr ⟨_, rfl, outcome, houtcome, rfl⟩)
    · exact h.intercepted j
  · rw [fulfil_promises, if_neg, fulfil_promises, if_neg nofun]
    · exact h.fresh j hj
    · rintro heq
      rw [← Key.intercepted.inj heq, (h.fresh j hj).1] at hpending
      cases hpending
  · by_cases heq : j = i
    · subst heq
      exact .inr (.inl ⟨_, List.mem_append_right _ List.mem_cons_self⟩)
    · unfold IsSettled
      rw [fulfil_promises, if_neg fun h => heq (Key.intercepted.inj h), fulfil_promises,
        if_neg nofun]
      exact (h.awaited j hj).imp_right
        (Or.imp_left fun ⟨value, hmem⟩ => ⟨value, List.mem_append_left _ hmem⟩)
  · rcases List.mem_append.mp hjob with hold | hnew
    · exact h.jobs job hold
    · obtain rfl := List.mem_singleton.mp hnew
      exact ⟨i, rfl, outcome, houtcome, rfl⟩

/-- The next interceptor returns a promise, which is awaited. -/
theorem Calling.await (h : s.Calling outcomes) {outcome : Outcome}
    (houtcome : outcomes[s.called]? = some outcome) {agent : Agent Key Reaction Value}
    (hother : ∀ key, key ≠ .intercepted s.called → agent.promises key = s.agent.promises key)
    {new : List (Reaction × Value)} (hjobs : agent.jobs = s.agent.jobs ++ new)
    (hnew : ∀ job ∈ new, job = (.record s.called, .outcome outcome))
    (hself : agent.promises (.intercepted s.called) = .pending [.record s.called] ∨
      agent.promises (.intercepted s.called) = .settled (.outcome outcome) ∧
        (.record s.called, .outcome outcome) ∈ agent.jobs) :
    ({ s with agent, called := s.called + 1 } : Interception).Calling outcomes := by
  have hne : ∀ {j}, j ≠ s.called → Key.intercepted j ≠ .intercepted s.called :=
    fun hj heq => hj (Key.intercepted.inj heq)
  -- Only the promise of this interceptor is new.
  refine ⟨h.values_eq, fun key hkey hkey' => ?_, fun j => ?_, fun j => ?_, fun j hj => ?_,
    fun j hj => ?_, fun job hjob => ?_⟩
  · exact (hother key (hkey _)).trans (h.idle key hkey hkey')
  · dsimp only
    rw [hother (.promises j) nofun]
    exact h.promises j
  · by_cases heq : j = s.called
    · subst heq
      rcases hself with hpending | ⟨hsettled, -⟩
      · exact .inr (.inl hpending)
      · exact .inr (.inr ⟨_, hsettled, outcome, houtcome, rfl⟩)
    · dsimp only
      rw [hother _ (hne heq)]
      exact h.intercepted j
  · dsimp only at hj ⊢
    rw [hother _ (hne (by omega)), hother (.promises j) nofun]
    exact h.fresh j (Nat.le_of_succ_le hj)
  · by_cases heq : j = s.called
    · subst heq
      rcases hself with hpending | ⟨-, hmem⟩
      · exact .inl hpending
      · exact .inr (.inl ⟨_, hmem⟩)
    · unfold IsSettled HasJob
      dsimp only at hj ⊢
      rw [hother _ (hne heq), hother (.promises j) nofun, hjobs]
      exact (h.awaited j (by omega)).imp_right
        (Or.imp_left fun ⟨value, hmem⟩ => ⟨value, List.mem_append_left _ hmem⟩)
  · dsimp only at hjob
    rw [hjobs] at hjob
    rcases List.mem_append.mp hjob with hold | hadded
    · exact h.jobs job hold
    · rw [hnew job hadded]
      exact ⟨s.called, rfl, outcome, houtcome, rfl⟩

theorem update_intercepted (promises : Key → PromiseState Reaction Value) (i j : ℕ)
    (state : PromiseState Reaction Value) :
    Function.update promises (.promises i) state (.intercepted j) = promises (.intercepted j) := by
  refine Function.update_of_ne ?_ _ _
  exact nofun

/-- The next interceptor throws, and its verdict is settled at once. -/
theorem Calling.throw (h : s.Calling outcomes) {outcome : Outcome}
    (houtcome : outcomes[s.called]? = some outcome) :
    ({ s with
      agent := ⟨Function.update s.agent.promises (.promises s.called)
        (.settled (.verdict outcome.verdict)), s.agent.jobs⟩
      called := s.called + 1 } : Interception).Calling outcomes where
  values_eq := h.values_eq
  idle key hne hne' := (Function.update_of_ne (hne' _) _ _).trans (h.idle key hne hne')
  promises j := by
    by_cases heq : j = s.called
    · subst heq
      exact .inr ⟨_, Function.update_self _ _ _, outcome, houtcome, rfl⟩
    · dsimp only
      rw [Function.update_of_ne fun h => heq (Key.promises.inj h)]
      exact h.promises j
  intercepted j := by
    dsimp only
    rw [update_intercepted]
    exact h.intercepted j
  fresh j hj := by
    have hlater : j ≠ s.called := Nat.ne_of_gt hj
    dsimp only
    rw [update_intercepted, Function.update_of_ne fun h => hlater (Key.promises.inj h)]
    exact h.fresh j (Nat.le_of_succ_le hj)
  awaited j hj := by
    unfold IsSettled
    dsimp only
    rw [update_intercepted]
    by_cases heq : j = s.called
    · subst heq
      exact .inr (.inr ⟨_, Function.update_self _ _ _⟩)
    · rw [Function.update_of_ne fun h => heq (Key.promises.inj h)]
      exact h.awaited j (Nat.lt_of_le_of_ne (Nat.le_of_lt_succ hj) heq)
  jobs := h.jobs

/-- The next interceptor is called. -/
theorem Calling.call (h : s.Calling outcomes) {outcome : Outcome} {call : Call}
    {agent : Agent Key Reaction Value} (houtcome : outcomes[s.called]? = some outcome)
    (hagent : intercept s.called outcome call s.agent = some agent) :
    ({ s with agent, called := s.called + 1 } : Interception).Calling outcomes := by
  obtain ⟨hfresh, hfresh'⟩ := h.fresh s.called (Nat.le_refl _)
  cases call with
  | throws =>
    obtain ⟨-, heq⟩ := Option.ite_none_right_eq_some.mp hagent
    obtain rfl := Option.some.inj heq
    rw [Agent.settle_of_pending hfresh', List.map_nil, List.append_nil]
    exact h.throw houtcome
  | pending =>
    obtain rfl := Option.some.inj hagent
    have hjobs : (s.agent.react (.intercepted s.called) (.record s.called)).jobs =
        s.agent.jobs ++ [] := by
      rw [Agent.react_jobs, hfresh]
      rfl
    refine h.await houtcome (fun key hne => ?_) hjobs nofun (.inl ?_)
    · rw [Agent.react_promises, if_neg hne, PromiseState.add_nil]
    · rw [Agent.react_promises, if_pos rfl, hfresh]
      rfl
  | settled =>
    obtain rfl := Option.some.inj hagent
    rw [Agent.settle_of_pending hfresh, List.map_nil, List.append_nil]
    have hjobs : (Agent.react (.intercepted s.called) (.record s.called)
        (⟨Function.update s.agent.promises (.intercepted s.called) (.settled (.outcome outcome)),
          s.agent.jobs⟩ : Agent Key Reaction Value)).jobs =
        s.agent.jobs ++ [(.record s.called, .outcome outcome)] := by
      rw [Agent.react_jobs]
      dsimp only
      rw [Function.update_self]
      rfl
    refine h.await houtcome (fun key hne => ?_) hjobs (fun job => List.mem_singleton.mp)
      (.inr ⟨?_, ?_⟩)
    · rw [Agent.react_promises, if_neg hne, PromiseState.add_nil]
      exact Function.update_of_ne hne _ _
    · rw [Agent.react_promises]
      dsimp only
      rw [Function.update_self]
      rfl
    · rw [hjobs]
      exact List.mem_append_right _ List.mem_cons_self

theorem filter_range_eq (i n : ℕ) :
    (List.range n).filter (fun j => i = j) = if i < n then [i] else [] := by
  induction n with
  | zero => rfl
  | succ n ih =>
    rw [List.range_succ, List.filter_append, ih]
    rcases Nat.lt_trichotomy i n with hlt | rfl | hgt
    · simp [hlt, Nat.lt_succ_of_lt hlt, Nat.ne_of_lt hlt]
    · simp
    · simp [Nat.not_lt_of_gt hgt, Nat.ne_of_gt hgt, Nat.not_lt_of_le (Nat.succ_le_of_lt hgt)]

/-- The reactions that are registered to a promise. -/
theorem wiring_filter (n : ℕ) (hown : Own n key) :
    ((wiring n).filter fun reaction => key = reaction.1).map Prod.snd = reactionsOf key := by
  unfold wiring
  cases key with
  | intercepted i => exact hown.elim
  | promises i =>
    have hi : i < n := hown
    simp [List.filter_map, Function.comp_def, filter_range_eq, hi, reactionsOf]
  | blockPromises i =>
    have hi : i < n := hown
    simp [List.filter_map, Function.comp_def, filter_range_eq, hi, reactionsOf]
  | all => simp [List.filter_map, Function.comp_def, reactionsOf]
  | allAllow => simp [List.filter_map, Function.comp_def, reactionsOf]
  | race => simp [List.filter_map, Function.comp_def, reactionsOf]

/-- The jobs for verdicts that are there before the reactions are registered. -/
def wiredJobs (n : ℕ) (promises : Key → PromiseState Reaction Value) : List (Reaction × Value) :=
  (wiring n).filterMap fun reaction =>
    (promises reaction.1).value.map fun value => (reaction.2, value)

theorem mem_wiredJobs {n : ℕ} {promises : Key → PromiseState Reaction Value}
    {job : Reaction × Value} : job ∈ wiredJobs n promises ↔
      ∃ key, (key, job.1) ∈ wiring n ∧ promises key = .settled job.2 := by
  unfold wiredJobs
  rw [List.mem_filterMap]
  constructor
  · rintro ⟨reaction, hmem, hjob⟩
    obtain ⟨value, hvalue, rfl⟩ := Option.map_eq_some_iff.mp hjob
    exact ⟨reaction.1, hmem, PromiseState.value_eq_some.mp hvalue⟩
  · rintro ⟨key, hmem, hsettled⟩
    exact ⟨(key, job.1), hmem, by rw [hsettled]; rfl⟩

theorem mem_wiring {n : ℕ} {key : Key} {reaction : Reaction} (h : (key, reaction) ∈ wiring n) :
    (∀ i, key ≠ .intercepted i) ∧ ∀ i, key = .promises i →
      i < n ∧ (reaction = .blockOnly i ∨ reaction = .element i) := by
  simp only [wiring, List.mem_append, List.mem_map, List.mem_range, List.mem_singleton,
    Prod.mk.injEq] at h
  rcases h with (((⟨j, hj, rfl, rfl⟩ | ⟨j, hj, rfl, rfl⟩) | ⟨rfl, rfl⟩) | ⟨j, hj, rfl, rfl⟩) |
    ⟨rfl, rfl⟩
  · exact ⟨nofun, fun i heq => by rw [← Key.promises.inj heq]; exact ⟨hj, .inl rfl⟩⟩
  · exact ⟨nofun, fun i heq => by rw [← Key.promises.inj heq]; exact ⟨hj, .inr rfl⟩⟩
  · exact ⟨nofun, nofun⟩
  · exact ⟨nofun, nofun⟩
  · exact ⟨nofun, nofun⟩

/-- They are for the verdicts of interceptors that have thrown. -/
theorem Calling.wiredJobs_cases (h : s.Calling outcomes) {job : Reaction × Value}
    (hjob : job ∈ wiredJobs outcomes.length s.agent.promises) :
    ∃ i < outcomes.length, (job.1 = .blockOnly i ∨ job.1 = .element i) ∧
      s.agent.promises (.promises i) = .settled job.2 := by
  obtain ⟨key, hmem, hsettled⟩ := mem_wiredJobs.mp hjob
  obtain ⟨hkey, hpromises⟩ := mem_wiring hmem
  by_cases hverdict : ∃ i, key = .promises i
  · obtain ⟨i, rfl⟩ := hverdict
    obtain ⟨hi, hreaction⟩ := hpromises i rfl
    exact ⟨i, hi, hreaction, hsettled⟩
  · have hidle := h.idle key hkey fun i heq => hverdict ⟨i, heq⟩
    rw [hidle] at hsettled
    cases hsettled

/-- Among them, blocks go first. -/
theorem wiredJobs_order (n : ℕ) (promises : Key → PromiseState Reaction Value) :
    (wiredJobs n promises).Pairwise fun job job' =>
      ∀ i, job.1 = .element i → job'.1 ≠ .blockOnly i := by
  unfold wiredJobs wiring
  rw [List.append_assoc, List.append_assoc, List.append_assoc, List.filterMap_append]
  refine List.pairwise_append.mpr ⟨?_, ?_, ?_⟩
  · refine List.pairwise_of_forall_mem_list fun job hjob job' _ i hfirst => ?_
    obtain ⟨reaction, hmem, hvalue⟩ := List.mem_filterMap.mp hjob
    obtain ⟨j, -, rfl⟩ := List.mem_map.mp hmem
    obtain ⟨value, -, rfl⟩ := Option.map_eq_some_iff.mp hvalue
    cases hfirst
  · refine List.pairwise_of_forall_mem_list fun job _ job' hjob' i _ hsecond => ?_
    obtain ⟨reaction, hmem, hvalue⟩ := List.mem_filterMap.mp hjob'
    obtain ⟨value, -, rfl⟩ := Option.map_eq_some_iff.mp hvalue
    simp only [List.mem_append, List.mem_map, List.mem_singleton] at hmem
    rcases hmem with ⟨j, -, rfl⟩ | rfl | ⟨j, -, rfl⟩ | rfl <;> cases hsecond
  · intro job hjob job' _ i hfirst
    obtain ⟨reaction, hmem, hvalue⟩ := List.mem_filterMap.mp hjob
    obtain ⟨j, -, rfl⟩ := List.mem_map.mp hmem
    obtain ⟨value, -, rfl⟩ := Option.map_eq_some_iff.mp hvalue
    cases hfirst

/-- The agent after the reactions are registered. -/
theorem wire_settled {n : ℕ} :
    (s.agent.wire (wiring n)).promises key = .settled value ↔
      s.agent.promises key = .settled value := by
  rw [Agent.wire_promises]
  cases s.agent.promises key with
  | pending reactions => exact iff_of_false nofun nofun
  | settled value' => exact Iff.rfl

theorem Calling.wire_own (h : s.Calling outcomes) {n : ℕ} (hown : Own n key) :
    (s.agent.wire (wiring n)).promises key = .pending (reactionsOf key) ∨
      ∃ value, (s.agent.wire (wiring n)).promises key = .settled value := by
  have hpending : s.agent.promises key = .pending [] →
      (s.agent.wire (wiring n)).promises key = .pending (reactionsOf key) := by
    intro hbefore
    rw [Agent.wire_promises, hbefore, wiring_filter n hown]
    rfl
  by_cases hverdict : ∃ i, key = .promises i
  · obtain ⟨i, rfl⟩ := hverdict
    rcases h.promises i with hbefore | ⟨value, hsettled, -⟩
    · exact .inl (hpending hbefore)
    · exact .inr ⟨value, wire_settled.mpr hsettled⟩
  · refine .inl (hpending (h.idle key (fun i heq => ?_) fun i heq => hverdict ⟨i, heq⟩))
    rw [heq] at hown
    exact hown

theorem wire_intercepted (s : Interception) (n : ℕ) (i : ℕ) :
    (s.agent.wire (wiring n)).promises (.intercepted i) = s.agent.promises (.intercepted i) := by
  have hnone : (wiring n).filter (fun reaction => Key.intercepted i = reaction.1) = [] := by
    refine List.filter_eq_nil_iff.mpr fun reaction hmem heq => ?_
    exact (mem_wiring hmem).1 i (of_decide_eq_true heq).symm
  rw [Agent.wire_promises, hnone, List.map_nil, PromiseState.add_nil]

theorem wire_jobs (s : Interception) (n : ℕ) :
    (s.agent.wire (wiring n)).jobs = s.agent.jobs ++ wiredJobs n s.agent.promises :=
  Agent.wire_jobs _

theorem Calling.wire_fits (h : s.Calling outcomes)
    (hsettled : s.agent.promises key = .settled value) : Fits outcomes key value := by
  by_cases hintercepted : ∃ i, key = .intercepted i
  · obtain ⟨i, rfl⟩ := hintercepted
    rcases h.intercepted i with hbefore | hbefore | ⟨value', hbefore, hfits⟩
    · rw [hbefore] at hsettled
      cases hsettled
    · rw [hbefore] at hsettled
      cases hsettled
    · rw [hbefore] at hsettled
      exact PromiseState.settled.inj hsettled ▸ hfits
  · by_cases hverdict : ∃ i, key = .promises i
    · obtain ⟨i, rfl⟩ := hverdict
      rcases h.promises i with hbefore | ⟨value', hbefore, hfits⟩
      · rw [hbefore] at hsettled
        cases hsettled
      · rw [hbefore] at hsettled
        exact PromiseState.settled.inj hsettled ▸ hfits
    · rw [h.idle key (fun i heq => hintercepted ⟨i, heq⟩) fun i heq => hverdict ⟨i, heq⟩]
        at hsettled
      cases hsettled

theorem Calling.not_received (h : s.Calling outcomes) (i : ℕ) : ¬s.Received i := by
  rintro ⟨verdict, hvalue⟩
  rw [h.values_eq, List.getElem?_replicate] at hvalue
  split_ifs at hvalue
  cases hvalue

/-- The reactions to the verdicts are registered. -/
abbrev wired (s : Interception) (n : ℕ) : Interception := { s with agent := s.agent.wire (wiring n) }

/-- Only interceptors and their verdicts are settled so early. -/
theorem Calling.not_isSettled_wired (h : s.Calling outcomes) {n : ℕ}
    (hkey : ∀ i, key ≠ .intercepted i) (hkey' : ∀ i, key ≠ .promises i) :
    ¬(s.wired n).IsSettled key := by
  rintro ⟨value, hsettled⟩
  rw [wire_settled, h.idle key hkey hkey'] at hsettled
  cases hsettled

/-- The reactions to a verdict that is there are queued. -/
theorem hasJob_wired {n : ℕ} (hi : i < n) {reaction : Reaction}
    (hreaction : reaction ∈ reactionsOf (.promises i)) (hsettled : (s.wired n).IsSettled (.promises i)) :
    (s.wired n).HasJob reaction := by
  obtain ⟨value, hsettled⟩ := hsettled
  rw [wire_settled] at hsettled
  refine ⟨value, ?_⟩
  rw [wire_jobs]
  refine List.mem_append_right _ (mem_wiredJobs.mpr ⟨.promises i, ?_, hsettled⟩)
  rcases List.mem_pair.mp hreaction with rfl | rfl
  · simp [wiring, hi]
  · simp [wiring, hi]

/-- And those to a verdict that is not there are not. -/
theorem Calling.isSettled_of_hasJob_wired (h : s.Calling outcomes) {reaction : Reaction}
    (hreaction : reaction = .blockOnly i ∨ reaction = .element i)
    (hjob : (s.wired outcomes.length).HasJob reaction) :
    (s.wired outcomes.length).IsSettled (.promises i) := by
  obtain ⟨value, hmem⟩ := hjob
  rw [wire_jobs] at hmem
  rcases List.mem_append.mp hmem with hold | hnew
  · obtain ⟨j, hrecord, -⟩ := h.jobs _ hold
    rcases hreaction with rfl | rfl <;> cases hrecord
  · obtain ⟨j, -, hjob, hsettled⟩ := h.wiredJobs_cases hnew
    obtain rfl : i = j := by
      rcases hreaction with rfl | rfl <;> rcases hjob with heq | heq <;> cases heq <;> rfl
    exact ⟨value, wire_settled.mpr hsettled⟩

theorem Calling.typed_wired (h : s.Calling outcomes) (hcalled : s.called = outcomes.length) :
    (s.wired outcomes.length).Typed outcomes where
  called := hcalled
  fits key value hsettled := h.wire_fits (wire_settled.mp hsettled)
  suits job hjob := by
    rw [wire_jobs] at hjob
    rcases List.mem_append.mp hjob with hold | hnew
    · obtain ⟨i, hrecord, hfits⟩ := h.jobs job hold
      rw [hrecord]
      exact hfits
    · obtain ⟨i, -, hreaction, hsettled⟩ := h.wiredJobs_cases hnew
      rcases hreaction with heq | heq
      · rw [heq]
        exact h.wire_fits hsettled
      · rw [heq]
        exact h.wire_fits hsettled
  own key hown := h.wire_own hown
  intercepted i := by
    dsimp only
    rw [wire_intercepted]
    exact (h.intercepted i).imp_right (Or.imp_right fun ⟨value, hsettled, _⟩ => ⟨value, hsettled⟩)
  length := by
    dsimp only
    rw [h.values_eq, List.length_replicate]
  values_eq i verdict hvalue := absurd ⟨verdict, hvalue⟩ (h.not_received i)

theorem Calling.live_wired (h : s.Calling outcomes) (hcalled : s.called = outcomes.length)
    (hsome : outcomes ≠ []) : (s.wired outcomes.length).Live outcomes where
  awaited i hi := by
    dsimp only
    rw [wire_intercepted]
    refine (h.awaited i (hcalled ▸ hi)).imp_right (Or.imp (fun ⟨value, hmem⟩ => ⟨value, ?_⟩)
      fun ⟨value, hsettled⟩ => ⟨value, wire_settled.mpr hsettled⟩)
    rw [wire_jobs]
    exact List.mem_append_left _ hmem
  received i hi hsettled :=
    .inl (hasJob_wired hi (List.mem_cons_of_mem _ List.mem_cons_self) hsettled)
  picked hall _ := absurd (hall 0 (List.length_pos_of_ne_nil hsome)) (h.not_received 0)
  raced hsettled := absurd hsettled (h.not_isSettled_wired nofun nofun)
  all hsettled := absurd hsettled (h.not_isSettled_wired nofun nofun)

theorem Calling.sequenced_wired (h : s.Calling outcomes) :
    (s.wired outcomes.length).Sequenced outcomes where
  waiting i _ hopen := ⟨fun hjob => hopen (h.isSettled_of_hasJob_wired (.inl rfl) hjob),
    fun hjob => hopen (h.isSettled_of_hasJob_wired (.inr rfl) hjob), h.not_received i⟩
  gone i hreceived := absurd hreceived (h.not_received i)
  order := by
    rw [wire_jobs]
    -- What was queued before only records.
    have hrecord : ∀ job ∈ s.agent.jobs, ∀ i, job.1 ≠ .element i := by
      intro job hjob i heq
      obtain ⟨j, hrecord, -⟩ := h.jobs job hjob
      rw [heq] at hrecord
      cases hrecord
    refine List.pairwise_append.mpr ⟨?_, wiredJobs_order _ _, ?_⟩
    · exact List.pairwise_of_forall_mem_list fun job hjob _ _ i hfirst =>
        absurd hfirst (hrecord job hjob i)
    · exact fun job hjob _ _ i hfirst => absurd hfirst (hrecord job hjob i)

/-- No job is for the race yet. -/
theorem Calling.not_isLate_wired (h : s.Calling outcomes) {job : Reaction × Value}
    (hjob : job ∈ (s.wired outcomes.length).agent.jobs) : ¬IsLate job := by
  rw [wire_jobs] at hjob
  rcases List.mem_append.mp hjob with hold | hnew
  · obtain ⟨i, hrecord, -⟩ := h.jobs job hold
    simp [IsLate, hrecord]
  · obtain ⟨i, -, hreaction, -⟩ := h.wiredJobs_cases hnew
    rcases hreaction with heq | heq <;> simp [IsLate, heq]

theorem Calling.blocksFirst_wired (h : s.Calling outcomes) :
    (s.wired outcomes.length).BlocksFirst outcomes where
  alarm i _ houtcome _ hsettled :=
    .inl (hasJob_wired (lt_of_getElem? houtcome) List.mem_cons_self hsettled)
  warned i hsettled := absurd hsettled (h.not_isSettled_wired nofun nofun)
  first _ := by
    refine .inr ⟨h.not_isSettled_wired nofun nofun, ?_⟩
    have hnil : BlockFirst [] := trivial
    exact blockFirst_append hnil (.inr fun job hjob => h.not_isLate_wired hjob)

/-- The last interceptor was called, and the verdicts race. -/
theorem Calling.wire (h : s.Calling outcomes) (hcalled : s.called = outcomes.length)
    (hsome : outcomes ≠ []) : (s.wired outcomes.length).Racing outcomes where
  typed := h.typed_wired hcalled
  live := h.live_wired hcalled hsome
  sequenced := h.sequenced_wired
  blocksFirst := h.blocksFirst_wired

/-- In every run the interceptors are being called, or their verdicts race. -/
theorem calling_or_racing (hsome : outcomes ≠ []) {events : List Event}
    (trace : Trace (fun event s t => s.step outcomes event = some t) (start outcomes.length)
      events s) :
    s.called < outcomes.length ∧ s.Calling outcomes ∨ s.Racing outcomes := by
  refine trace.invariant
    (fun s => s.called < outcomes.length ∧ s.Calling outcomes ∨ s.Racing outcomes)
    (fun event s t hs hstep => ?_) (.inl ⟨List.length_pos_of_ne_nil hsome, calling_start⟩)
  cases event with
  | call call =>
    obtain ⟨outcome, houtcome, hrest⟩ := Option.bind_eq_some_iff.mp hstep
    obtain ⟨agent, hagent, heq⟩ := Option.bind_eq_some_iff.mp hrest
    obtain rfl := Option.some.inj heq
    have hlt := lt_of_getElem? houtcome
    rcases hs with ⟨-, hcalling⟩ | hracing
    · have hcalled := hcalling.call houtcome hagent
      dsimp only
      -- With the last call the reactions to all verdicts are registered.
      split_ifs with hlast
      · exact .inr (hcalled.wire hlast hsome)
      · exact .inl ⟨Nat.lt_of_le_of_ne hlt hlast, hcalled⟩
    · rw [hracing.typed.called] at hlt
      exact absurd hlt (Nat.lt_irrefl _)
  | settle i =>
    unfold step at hstep
    dsimp only at hstep
    split at hstep
    · rename_i outcome reaction reactions houtcome hpending
      obtain rfl := Option.some.inj hstep
      -- Nothing but the recording waits for the promise of an interceptor.
      have hrecord : ∀ {state : PromiseState Reaction Value}, state = .pending [] ∨
          state = .pending [.record i] ∨ (∃ value, state = .settled value) →
          state = .pending (reaction :: reactions) → state = .pending [.record i] := by
        rintro state (rfl | rfl | ⟨value, rfl⟩) heq
        · cases heq
        · rfl
        · cases heq
      rcases hs with ⟨hlt, hcalling⟩ | hracing
      · refine .inl ⟨hlt, hcalling.settle houtcome (hrecord ?_ hpending)⟩
        exact (hcalling.intercepted i).imp_right
          (Or.imp_right fun ⟨value, hsettled, _⟩ => ⟨value, hsettled⟩)
      · exact .inr (hracing.settle houtcome (hrecord (hracing.typed.intercepted i) hpending))
    · cases hstep
  | tick =>
    unfold step at hstep
    dsimp only at hstep
    split_ifs at hstep with hcalled
    split at hstep
    · cases hstep
    · rename_i reaction value jobs hjobs
      obtain rfl := Option.some.inj hstep
      rcases hs with ⟨hlt, -⟩ | hracing
      · omega
      · exact .inr (hracing.tick hjobs)

/-- When nothing is queued, the verdicts of the interceptors that have ended are there. -/
theorem Racing.no_jobs (h : s.Racing outcomes) (hidle : s.Idle outcomes) (reaction : Reaction) :
    ¬s.HasJob reaction := by
  rintro ⟨value, hmem⟩
  have htick := hidle .tick nofun
  unfold step at htick
  dsimp only at htick
  rw [if_pos h.typed.called] at htick
  split at htick
  · rename_i hjobs
    rw [hjobs] at hmem
    cases hmem
  · cases htick

theorem Racing.isSettled_of_ended (h : s.Racing outcomes) (hidle : s.Idle outcomes)
    (hended : s.Ended outcomes i) : s.IsSettled (.promises i) := by
  obtain ⟨hlt, hsettle⟩ := hended
  rw [h.typed.called] at hlt
  rcases h.live.awaited i hlt with hpending | hjob | hsettled
  · unfold step at hsettle
    dsimp only at hsettle
    rw [List.getElem?_eq_getElem hlt, hpending] at hsettle
    cases hsettle
  · exact absurd hjob (h.no_jobs hidle _)
  · exact hsettled

/-- When all have ended the race is over. -/
theorem Racing.race_of_all (h : s.Racing outcomes) (hsome : outcomes ≠ [])
    (hidle : s.Idle outcomes) (hended : ∀ i < outcomes.length, s.Ended outcomes i) :
    s.IsSettled .race := by
  have hnone := h.no_jobs hidle
  have hreceived : ∀ i < outcomes.length, s.Received i := fun i hi =>
    (h.live.received i hi (h.isSettled_of_ended hidle (hended i hi))).resolve_left (hnone _)
  have hall := (h.live.picked hreceived hsome).resolve_left (hnone _)
  exact (h.live.raced hall).resolve_left (hnone _)

/-- When one has blocked the race is over. -/
theorem Racing.race_of_block (h : s.Racing outcomes) (hidle : s.Idle outcomes) {outcome : Outcome}
    (houtcome : outcomes[i]? = some outcome) (hblock : outcome.verdict.isBlock = true)
    (hended : s.Ended outcomes i) : s.IsSettled .race := by
  have hnone := h.no_jobs hidle
  rcases h.blocksFirst.alarm i outcome houtcome hblock (h.isSettled_of_ended hidle hended) with
    hjob | ⟨verdict, hrace, -⟩ | ⟨job, hjob, -⟩
  · exact absurd hjob (hnone _)
  · exact ⟨_, hrace⟩
  · exact absurd ⟨job.2, hjob⟩ (hnone job.1)

end Interception

open Interception

/-! ### The result -/

/-- The result of a run is right: it allows just when all interceptors do, and with a signature
just when one of them has attached one; otherwise it is the verdict of one that blocks. -/
structure Correct (outcomes : List Outcome) (verdict : Verdict) : Prop where
  allows_iff : verdict.isBlock = false ↔
    ∀ outcome ∈ outcomes, outcome.verdict.isBlock = false
  blocks : (∃ outcome ∈ outcomes, outcome.verdict.isBlock = true) →
    verdict.isBlock = true ∧ ∃ outcome ∈ outcomes, verdict = outcome.verdict
  signed_iff : ∀ signature, verdict = .allow signature →
    (signature.isSome = true ↔ ∃ outcome ∈ outcomes, outcome.verdict.isSigned = true)

theorem Candidate.correct {verdict : Verdict} (h : Candidate outcomes verdict)
    (hblock : SomeBlock outcomes → verdict.isBlock = true) : Correct outcomes verdict := by
  obtain ⟨signature, hpick, hsigned⟩ := pickVerdict_eq (outcomes.map Outcome.verdict)
  rcases h with ⟨outcome, hmem, hisBlock, rfl⟩ | rfl
  · refine ⟨?_, fun _ => ⟨hisBlock, outcome, hmem, rfl⟩, fun signature heq => ?_⟩
    · rw [hisBlock]
      exact iff_of_false nofun fun hall => absurd (hall outcome hmem) (by rw [hisBlock]; nofun)
    · rw [heq] at hisBlock
      cases hisBlock
  · rw [hpick] at hblock ⊢
    have hnone : ¬SomeBlock outcomes := fun hsome => Bool.false_ne_true (hblock hsome)
    refine ⟨iff_of_true rfl fun outcome hmem => ?_, fun hsome => absurd hsome hnone,
      fun signature' heq => ?_⟩
    · exact Bool.eq_false_iff.mpr fun hisBlock => hnone ⟨outcome, hmem, hisBlock⟩
    · obtain rfl := Verdict.allow.inj heq
      refine hsigned.trans ⟨fun ⟨verdict, hmem, hverdict⟩ => ?_, fun ⟨outcome, hmem, hverdict⟩ => ?_⟩
      · obtain ⟨outcome, houtcome, rfl⟩ := List.mem_map.mp hmem
        exact ⟨outcome, houtcome, hverdict⟩
      · exact ⟨_, List.mem_map_of_mem hmem, hverdict⟩

/-- **No block is lost.** Whatever the interceptors do and in whatever order their promises are
settled, `runInterceptors` is resolved with nothing but the right verdict; and once no microtask is
left it is resolved when all interceptors have ended, or one of them with a block. -/
theorem runInterceptors_correct {events : List Event}
    (trace : Trace (fun event s t => s.step outcomes event = some t) (start outcomes.length)
      events s) :
    (∀ verdict, s.result outcomes = some verdict → Correct outcomes verdict) ∧
      (s.Idle outcomes → (∀ i < outcomes.length, s.Ended outcomes i) ∨
        (∃ i outcome, outcomes[i]? = some outcome ∧ outcome.verdict.isBlock = true ∧
          s.Ended outcomes i) → ∃ verdict, s.result outcomes = some verdict) := by
  -- Without interceptors the result is there at once.
  by_cases hsome : outcomes = []
  · subst hsome
    refine ⟨fun verdict hresult => ?_, fun _ _ => ⟨_, rfl⟩⟩
    obtain rfl := Option.some.inj hresult
    refine ⟨iff_of_true rfl nofun, fun ⟨_, hmem, _⟩ => (nomatch hmem), fun signature heq => ?_⟩
    obtain rfl := Verdict.allow.inj heq
    exact iff_of_false nofun fun ⟨_, hmem, _⟩ => (nomatch hmem)
  have hlength : outcomes.length ≠ 0 := fun hzero => hsome (List.length_eq_zero_iff.mp hzero)
  unfold Interception.result
  rw [if_neg hlength]
  rcases calling_or_racing hsome trace with ⟨hlt, hcalling⟩ | hracing
  · have hrace := hcalling.idle .race nofun nofun
    rw [hrace]
    refine ⟨nofun, fun hidle _ => ?_⟩
    -- Some interceptor is still to be called.
    have hcall := hidle (.call .pending) nofun
    unfold step at hcall
    dsimp only at hcall
    rw [List.getElem?_eq_getElem hlt] at hcall
    cases hcall
  · refine ⟨fun verdict hresult => ?_, fun hidle hended => ?_⟩
    · split at hresult
      · rename_i verdict' hrace
        obtain rfl := Option.some.inj hresult
        obtain ⟨verdict, heq, hcandidate⟩ := hracing.typed.fits .race _ hrace
        obtain rfl := Value.verdict.inj heq
        refine hcandidate.correct fun hblock => ?_
        rcases hracing.blocksFirst.first hblock with ⟨verdict'', hrace', hisBlock⟩ | ⟨hopen, -⟩
        · rw [hrace] at hrace'
          cases hrace'
          exact hisBlock
        · exact absurd ⟨_, hrace⟩ hopen
      · cases hresult
    -- With no microtask left, whatever is on its way has arrived.
    · have hsettled : s.IsSettled .race := by
        rcases hended with hall | ⟨i, outcome, houtcome, hblock, hended⟩
        · exact hracing.race_of_all hsome hidle hall
        · exact hracing.race_of_block hidle houtcome hblock hended
      obtain ⟨value, hrace⟩ := hsettled
      obtain ⟨verdict, rfl, -⟩ := hracing.typed.fits .race value hrace
      rw [hrace]
      exact ⟨verdict, rfl⟩

/-! ### A run -/

/-- The events of a run, as far as they can happen. -/
def follow (outcomes : List Outcome) : List Event → Interception → Option Interception
  | [], s => some s
  | event :: events, s => (s.step outcomes event).bind (follow outcomes events)

theorem trace_of_follow {events : List Event} (h : follow outcomes events s = some t) :
    Trace (fun event s t => s.step outcomes event = some t) s events t := by
  induction events generalizing s with
  | nil =>
    obtain rfl := Option.some.inj h
    exact .nil s
  | cons event events ih =>
    obtain ⟨next, hstep, hrest⟩ := Option.bind_eq_some_iff.mp h
    exact .cons hstep (ih hrest)

/-- Two interceptors, of which the second throws when it is called and the first allows later. -/
def sampleOutcomes : List Outcome := [.returned (.allow none), .thrown]

/-- Both are called, the first settles, and the queue is emptied. -/
def sampleEvents : List Event :=
  [.call .pending, .call .throws, .tick, .settle 0, .tick, .tick, .tick, .tick, .tick, .tick, .tick,
    .tick]

/-- The state at the end. -/
def sampleRun : Interception :=
  (follow sampleOutcomes sampleEvents (start 2)).get (by decide +kernel)

theorem runInterceptors_correct_sample :
    Correct sampleOutcomes (.block "interceptor_error") :=
  (runInterceptors_correct (trace_of_follow (s := start 2) (t := sampleRun)
    (Option.some_get _).symm)).1 _ (by decide +kernel)

end PrivacyPool.ProofInterceptor
