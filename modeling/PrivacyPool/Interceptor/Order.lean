import PrivacyPool.Interceptor.Live

/-!
# Blocks come first

The two chains of promises behind a verdict are queued at the same moment, the one for blocks
first. So a block is in the race, or queued for it, before `Promise.all` has its last verdict.

## Main definitions

* `Interception.Sequenced` — `blockPromises` go on before `Promise.all` does
* `Interception.BlocksFirst` — blocks are on their way before the allow is

## Main results

* `Interception.Sequenced.perform`, `Interception.BlocksFirst.perform` — a microtask keeps both
-/

namespace PrivacyPool.ProofInterceptor

open Promises

variable {outcomes : List Outcome} {s t : Interception} {key : Key} {value : Value} {i : ℕ}
  {reaction : Reaction} {jobs : List (Reaction × Value)}

namespace Interception

/-! ### The order of the jobs -/

theorem Typed.hasJob_of_settle (h : s.Typed outcomes) (hown : Own outcomes.length key)
    (hjob : (s.settle key value).HasJob reaction) :
    s.HasJob reaction ∨ reaction ∈ reactionsOf key ∧ ¬s.IsSettled key := by
  rcases h.own key hown with hpending | ⟨value', hsettled⟩
  · rw [settle_of_pending hpending] at hjob
    obtain ⟨value', hmem⟩ := hjob
    rcases List.mem_append.mp hmem with hold | hnew
    · exact .inl ⟨value', hold⟩
    · obtain ⟨reaction', hreaction, heq⟩ := List.mem_map.mp hnew
      obtain rfl : reaction' = reaction := congrArg Prod.fst heq
      refine .inr ⟨hreaction, fun ⟨value'', hsettled⟩ => ?_⟩
      rw [hpending] at hsettled
      cases hsettled
  · rw [settle_of_settled hsettled] at hjob
    exact .inl hjob

/-- An element of `blockPromises` goes on before `Promise.all` receives its verdict. -/
structure Sequenced (outcomes : List Outcome) (s : Interception) : Prop where
  waiting : ∀ i < outcomes.length, ¬s.IsSettled (.promises i) →
    ¬s.HasJob (.blockOnly i) ∧ ¬s.HasJob (.element i) ∧ ¬s.Received i
  gone : ∀ i, s.Received i → ¬s.HasJob (.blockOnly i)
  order : s.agent.jobs.Pairwise fun job job' =>
    ∀ i, job.1 = .element i → job'.1 ≠ .blockOnly i

theorem Sequenced.pop (h : s.Sequenced outcomes) (hjobs : s.agent.jobs = (reaction, value) :: jobs) :
    { s with agent.jobs := jobs }.Sequenced outcomes := by
  have hless : ∀ reaction', HasJob { s with agent.jobs := jobs } reaction' → s.HasJob reaction' :=
    fun _ ⟨value', hmem⟩ => ⟨value', hjobs ▸ List.mem_cons_of_mem _ hmem⟩
  refine ⟨fun i hi hopen => ?_, fun i hreceived hjob => h.gone i hreceived (hless _ hjob), ?_⟩
  · obtain ⟨hblock, helement, hreceived⟩ := h.waiting i hi hopen
    exact ⟨fun hjob => hblock (hless _ hjob), fun hjob => helement (hless _ hjob), hreceived⟩
  · have horder := h.order
    rw [hjobs] at horder
    exact (List.pairwise_cons.mp horder).2

theorem Sequenced.push (h : s.Sequenced outcomes) : (s.push value).Sequenced outcomes := by
  have hsame : ∀ reaction', reaction' ≠ .forever → (s.push value).HasJob reaction' →
      s.HasJob reaction' := by
    rintro reaction' hne ⟨value', hmem⟩
    rcases List.mem_append.mp hmem with hold | hnew
    · exact ⟨value', hold⟩
    · exact absurd (congrArg Prod.fst (List.mem_singleton.mp hnew)) hne
  refine ⟨fun i hi hopen => ?_, fun i hreceived hjob => h.gone i hreceived (hsame _ nofun hjob), ?_⟩
  · obtain ⟨hblock, helement, hreceived⟩ := h.waiting i hi hopen
    exact ⟨fun hjob => hblock (hsame _ nofun hjob), fun hjob => helement (hsame _ nofun hjob),
      hreceived⟩
  · refine List.pairwise_append.mpr ⟨h.order, List.pairwise_singleton _ _, fun job _ job' hjob' => ?_⟩
    obtain rfl := List.mem_singleton.mp hjob'
    exact fun _ _ => nofun

theorem Sequenced.receive (h : s.Sequenced outcomes) (hsettled : s.IsSettled (.promises i))
    (hblock : ¬s.HasJob (.blockOnly i)) (verdict : Verdict) :
    (s.receive i verdict).Sequenced outcomes := by
  have hcases : ∀ j, (s.receive i verdict).Received j → j = i ∨ s.Received j := by
    rintro j ⟨verdict', hvalue⟩
    by_cases heq : j = i
    · exact .inl heq
    · exact .inr ⟨verdict', (List.getElem?_set_ne (Ne.symm heq)).symm.trans hvalue⟩
  refine ⟨fun j hj hopen => ?_, fun j hreceived hjob => ?_, h.order⟩
  · obtain ⟨hblock', helement, hreceived⟩ := h.waiting j hj hopen
    refine ⟨hblock', helement, fun hreceived' => ?_⟩
    rcases hcases j hreceived' with rfl | hbefore
    · exact hopen hsettled
    · exact hreceived hbefore
  · rcases hcases j hreceived with rfl | hbefore
    · exact hblock hjob
    · exact h.gone j hbefore hjob

theorem Sequenced.settle (h : s.Sequenced outcomes) (htyped : s.Typed outcomes)
    (hown : Own outcomes.length key) : (s.settle key value).Sequenced outcomes := by
  -- Only the settlement of a verdict queues what is ordered here, for the first time.
  have hnew : ∀ j, Reaction.blockOnly j ∈ reactionsOf key ∨ Reaction.element j ∈ reactionsOf key →
      key = .promises j := by
    intro j hmem
    cases key <;> simp_all [reactionsOf]
  refine ⟨fun j hj hopen => ?_, fun j hreceived hjob => ?_, ?_⟩
  · have hbefore : ¬s.IsSettled (.promises j) := by
      rintro ⟨value', hvalue⟩
      rcases htyped.own key hown with hpending | ⟨value'', hsettled⟩
      · rw [settle_of_pending hpending] at hopen
        refine hopen ?_
        unfold IsSettled
        rw [fulfil_promises]
        split_ifs
        · exact ⟨value, rfl⟩
        · exact ⟨value', hvalue⟩
      · rw [settle_of_settled hsettled] at hopen
        exact hopen ⟨value', hvalue⟩
    obtain ⟨hblock, helement, hreceived⟩ := h.waiting j hj hbefore
    -- A job that is there after the settlement was there before, for a verdict that is still open.
    have hdone : ∀ {reaction}, (s.settle key value).HasJob reaction →
        (reaction ∈ reactionsOf key → key = .promises j) → s.HasJob reaction := by
      intro reaction hjob hkey
      rcases htyped.hasJob_of_settle hown hjob with hold | ⟨hreaction, -⟩
      · exact hold
      · refine absurd ?_ hopen
        rw [← hkey hreaction]
        exact htyped.isSettled_settle hown
    exact ⟨fun hjob => hblock (hdone hjob fun hmem => hnew j (.inl hmem)),
      fun hjob => helement (hdone hjob fun hmem => hnew j (.inr hmem)), hreceived⟩
  · rcases htyped.hasJob_of_settle hown hjob with hold | ⟨hreaction, hopen⟩
    · exact h.gone j hreceived hold
    · have hkey := hnew j (.inl hreaction)
      subst hkey
      exact (h.waiting j hown hopen).2.2 hreceived
  -- New jobs come behind those that are queued, and their verdict has no element job yet.
  · rcases htyped.own key hown with hpending | ⟨value', hsettled⟩
    · have hopen : ¬s.IsSettled key := by
        rintro ⟨value', hvalue⟩
        rw [hpending] at hvalue
        cases hvalue
      rw [settle_of_pending hpending]
      refine List.pairwise_append.mpr ⟨h.order, ?_, fun job hjob job' hjob' j hfirst hsecond => ?_⟩
      · cases key <;> simp [reactionsOf]
      · obtain ⟨reaction', hreaction, rfl⟩ := List.mem_map.mp hjob'
        dsimp only at hsecond
        subst hsecond
        have hkey := hnew j (.inl hreaction)
        subst hkey
        exact (h.waiting j hown hopen).2.1 ⟨job.2, hfirst ▸ hjob⟩
    · rw [settle_of_settled hsettled]
      exact h.order

theorem Sequenced.element (h : s.Sequenced outcomes)
    (hjobs : s.agent.jobs = (.element i, value) :: jobs) {outcome : Outcome}
    (houtcome : outcomes[i]? = some outcome) :
    (({ s with agent.jobs := jobs } : Interception).receive i outcome.verdict).Sequenced
      outcomes := by
  have hsettled : s.IsSettled (.promises i) := by
    by_contra hopen
    refine (h.waiting i (lt_of_getElem? houtcome) hopen).2.1 ⟨value, ?_⟩
    rw [hjobs]
    exact List.mem_cons_self
  have horder := h.order
  rw [hjobs] at horder
  exact (h.pop hjobs).receive hsettled
    (fun ⟨value', hmem⟩ => (List.pairwise_cons.mp horder).1 _ hmem i rfl rfl) outcome.verdict

/-- A microtask keeps the order. -/
theorem Sequenced.perform (htyped : s.Typed outcomes) (h : s.Sequenced outcomes)
    (hjobs : s.agent.jobs = (reaction, value) :: jobs) :
    ({ s with agent.jobs := jobs }.perform reaction value).Sequenced outcomes := by
  have hpop := htyped.pop hjobs
  have hseq := h.pop hjobs
  have hsuits := htyped.suits (reaction, value) (hjobs ▸ List.mem_cons_self)
  cases reaction with
  | record i =>
    obtain ⟨outcome, houtcome, rfl⟩ := hsuits
    have hown : Own outcomes.length (.promises i) := lt_of_getElem? houtcome
    exact hseq.settle hpop hown
  | blockOnly i =>
    obtain ⟨outcome, houtcome, rfl⟩ := hsuits
    have hown : Own outcomes.length (.blockPromises i) := lt_of_getElem? houtcome
    unfold Interception.perform
    dsimp only
    split_ifs
    · exact hseq.settle hpop hown
    · exact hseq.push
  | element i =>
    obtain ⟨outcome, houtcome, rfl⟩ := hsuits
    have hreceive := h.element hjobs houtcome
    rw [perform_element]
    split_ifs
    · have hown : Own outcomes.length .all := trivial
      exact hreceive.settle (hpop.receive houtcome) hown
    · exact hreceive
  | pick =>
    obtain rfl := hsuits
    have hown : Own outcomes.length .allAllow := trivial
    exact hseq.settle hpop hown
  | settleRace =>
    have hown : Own outcomes.length .race := trivial
    exact hseq.settle hpop hown
  | forever => exact hseq

/-! ### Blocks come first -/

/-- The job carries a block into the race. -/
def IsAlarm (job : Reaction × Value) : Prop :=
  job.1 = .settleRace ∧ ∃ verdict, job.2 = .verdict verdict ∧ verdict.isBlock = true

/-- The job carries an allow into the race, or is on the way to it. -/
def IsLate (job : Reaction × Value) : Prop :=
  job.1 = .pick ∨ job.1 = .settleRace ∧ ∃ verdict, job.2 = .verdict verdict ∧ verdict.isBlock = false

/-- No allow is queued before a block. -/
def BlockFirst : List (Reaction × Value) → Prop
  | [] => True
  | job :: jobs => IsAlarm job ∨ ¬IsLate job ∧ BlockFirst jobs

/-- The race is settled with a block. -/
def RaceBlocked (s : Interception) : Prop :=
  ∃ verdict, s.agent.promises .race = .settled (.verdict verdict) ∧ verdict.isBlock = true

/-- A block has won the race or is queued for it. -/
def Alarm (s : Interception) : Prop :=
  s.RaceBlocked ∨ ∃ job ∈ s.agent.jobs, IsAlarm job

theorem blockFirst_append (h : BlockFirst jobs) {new : List (Reaction × Value)}
    (hnew : (∃ job ∈ jobs, IsAlarm job) ∨ ∀ job ∈ new, ¬IsLate job) :
    BlockFirst (jobs ++ new) := by
  induction jobs with
  | nil =>
    rcases hnew with ⟨job, hjob, -⟩ | hnew
    · cases hjob
    · clear h
      induction new with
      | nil => trivial
      | cons job new ih =>
        obtain ⟨hjob, hrest⟩ := List.forall_mem_cons.mp hnew
        exact .inr ⟨hjob, ih hrest⟩
  | cons job jobs ih =>
    rcases h with halarm | ⟨hlate, hrest⟩
    · exact .inl halarm
    · by_cases halarm : IsAlarm job
      · exact .inl halarm
      · refine .inr ⟨hlate, ih hrest ?_⟩
        rcases hnew with ⟨job', hjob', halarm'⟩ | hnew
        · rcases List.mem_cons.mp hjob' with rfl | hmem
          · exact absurd halarm' halarm
          · exact .inl ⟨job', hmem, halarm'⟩
        · exact .inr hnew

/-- Only in the race a job carries an alarm. -/
theorem not_isAlarm (h : reaction ≠ .settleRace) : ¬IsAlarm (reaction, value) := fun halarm => h halarm.1

theorem RaceBlocked.settle (h : s.RaceBlocked) (htyped : s.Typed outcomes)
    (hown : Own outcomes.length key) : (s.settle key value).RaceBlocked := by
  obtain ⟨verdict, hrace, hblock⟩ := h
  rcases htyped.own key hown with hpending | ⟨value', hsettled⟩
  · refine ⟨verdict, ?_, hblock⟩
    rw [settle_of_pending hpending, fulfil_promises, if_neg, hrace]
    rintro rfl
    rw [hrace] at hpending
    cases hpending
  · rw [settle_of_settled hsettled]
    exact ⟨verdict, hrace, hblock⟩

theorem Alarm.settle (h : s.Alarm) (htyped : s.Typed outcomes)
    (hown : Own outcomes.length key) : (s.settle key value).Alarm := by
  rcases h with hrace | ⟨job, hjob, halarm⟩
  · exact .inl (hrace.settle htyped hown)
  · refine .inr ⟨job, ?_, halarm⟩
    rcases htyped.own key hown with hpending | ⟨value', hsettled⟩
    · rw [settle_of_pending hpending]
      exact List.mem_append_left _ hjob
    · rw [settle_of_settled hsettled]
      exact hjob

theorem Alarm.pop (h : s.Alarm) (hjobs : s.agent.jobs = (reaction, value) :: jobs)
    (hreaction : reaction ≠ .settleRace) : Alarm { s with agent.jobs := jobs } := by
  rcases h with hrace | ⟨job, hjob, halarm⟩
  · exact .inl hrace
  · rw [hjobs] at hjob
    rcases List.mem_cons.mp hjob with rfl | hrest
    · exact absurd halarm (not_isAlarm hreaction)
    · exact .inr ⟨job, hrest, halarm⟩

/-- Some interceptor blocks. -/
def SomeBlock (outcomes : List Outcome) : Prop :=
  ∃ outcome ∈ outcomes, outcome.verdict.isBlock = true

/-- Blocks are on their way before the allow is. -/
structure BlocksFirst (outcomes : List Outcome) (s : Interception) : Prop where
  alarm : ∀ i outcome, outcomes[i]? = some outcome → outcome.verdict.isBlock = true →
    s.IsSettled (.promises i) → s.HasJob (.blockOnly i) ∨ s.Alarm
  warned : ∀ i, s.IsSettled (.blockPromises i) → s.Alarm
  first : SomeBlock outcomes → s.RaceBlocked ∨ ¬s.IsSettled .race ∧ BlockFirst s.agent.jobs

/-- What a microtask has to see to. -/
theorem BlocksFirst.passed (h : s.BlocksFirst outcomes) (hpassed : Passed reaction s t)
    (halarm : s.Alarm → t.Alarm)
    (hheard : ∀ i outcome, reaction = .blockOnly i → outcomes[i]? = some outcome →
      outcome.verdict.isBlock = true → t.Alarm)
    (hnew : ∀ i, t.IsSettled (.promises i) → ¬s.IsSettled (.promises i) → t.HasJob (.blockOnly i))
    (hwarned : ∀ i, t.IsSettled (.blockPromises i) → ¬s.IsSettled (.blockPromises i) → t.Alarm)
    (hfirst : SomeBlock outcomes → t.RaceBlocked ∨ ¬t.IsSettled .race ∧ BlockFirst t.agent.jobs) :
    t.BlocksFirst outcomes where
  alarm i outcome houtcome hblock hsettled := by
    by_cases hbefore : s.IsSettled (.promises i)
    · rcases h.alarm i outcome houtcome hblock hbefore with hjob | hs
      · by_cases heq : reaction = .blockOnly i
        · exact .inr (hheard i outcome heq houtcome hblock)
        · exact .inl (hpassed.jobs _ (Ne.symm heq) hjob)
      · exact .inr (halarm hs)
    · exact .inl (hnew i hsettled hbefore)
  warned i hsettled := by
    by_cases hbefore : s.IsSettled (.blockPromises i)
    · exact halarm (h.warned i hbefore)
    · exact hwarned i hsettled hbefore
  first := hfirst

/-- The race and the rest of the queue, after a job that is not for the race. -/
theorem BlocksFirst.first_pop (h : s.BlocksFirst outcomes)
    (hjobs : s.agent.jobs = (reaction, value) :: jobs) (hreaction : reaction ≠ .settleRace)
    (hblock : SomeBlock outcomes) :
    s.RaceBlocked ∨ ¬s.IsSettled .race ∧ ¬IsLate (reaction, value) ∧ BlockFirst jobs := by
  rcases h.first hblock with hrace | ⟨hopen, hfirst⟩
  · exact .inl hrace
  · rw [hjobs] at hfirst
    rcases hfirst with halarm | hrest
    · exact absurd halarm (not_isAlarm hreaction)
    · exact .inr ⟨hopen, hrest⟩

/-- The settlement of a promise whose reactions are not late. -/
theorem BlocksFirst.first_settle (h : s.BlocksFirst outcomes) (htyped : s.Typed outcomes)
    (hjobs : s.agent.jobs = (reaction, value) :: jobs) (hreaction : reaction ≠ .settleRace)
    {value' : Value} (hown : Own outcomes.length key) (hrace : key ≠ .race)
    (hlate : ∀ reaction' ∈ reactionsOf key, ¬IsLate (reaction', value'))
    (hblock : SomeBlock outcomes) :
    ({ s with agent.jobs := jobs }.settle key value').RaceBlocked ∨
      ¬({ s with agent.jobs := jobs }.settle key value').IsSettled .race ∧
        BlockFirst ({ s with agent.jobs := jobs }.settle key value').agent.jobs := by
  have hpop := htyped.pop hjobs
  rcases h.first_pop hjobs hreaction hblock with hblocked | ⟨hopen, -, hfirst⟩
  · exact .inl (RaceBlocked.settle (s := { s with agent.jobs := jobs }) hblocked hpop hown)
  · refine .inr ⟨fun hsettled => hopen (hpop.isSettled_of_settle hown (Ne.symm hrace) hsettled), ?_⟩
    rcases hpop.own key hown with hpending | ⟨value'', hsettled⟩
    · rw [settle_of_pending hpending]
      exact blockFirst_append hfirst (.inr (List.forall_mem_map.mpr hlate))
    · rw [settle_of_settled hsettled]
      exact hfirst

/-- A microtask that settles a promise for which none waits behind the race. -/
theorem BlocksFirst.settle (h : s.BlocksFirst outcomes) (htyped : s.Typed outcomes)
    (hjobs : s.agent.jobs = (reaction, value) :: jobs) (hreaction : reaction ≠ .settleRace)
    {value' : Value} (hown : Own outcomes.length key)
    (hheard : ∀ i outcome, reaction = .blockOnly i → outcomes[i]? = some outcome →
      outcome.verdict.isBlock = true → ({ s with agent.jobs := jobs }.settle key value').Alarm)
    (hwarned : ∀ i, key = .blockPromises i →
      ({ s with agent.jobs := jobs }.settle key value').Alarm)
    (hfirst : SomeBlock outcomes → ({ s with agent.jobs := jobs }.settle key value').RaceBlocked ∨
      ¬({ s with agent.jobs := jobs }.settle key value').IsSettled .race ∧
        BlockFirst ({ s with agent.jobs := jobs }.settle key value').agent.jobs) :
    ({ s with agent.jobs := jobs }.settle key value').BlocksFirst outcomes := by
  have hpop := htyped.pop hjobs
  have hnew : ∀ key', ({ s with agent.jobs := jobs }.settle key value').IsSettled key' →
      ¬s.IsSettled key' → key' = key := by
    intro key' hsettled hopen
    by_contra hne
    exact hopen (hpop.isSettled_of_settle hown hne hsettled)
  refine h.passed ((passed_pop hjobs).settle hpop hown)
    (fun halarm => (halarm.pop hjobs hreaction).settle hpop hown) hheard ?_ ?_ hfirst
  · intro i hsettled hopen
    have hkey := hnew _ hsettled hopen
    subst hkey
    exact hpop.hasJob_settle hown hopen List.mem_cons_self
  · intro i hsettled hopen
    exact hwarned i (hnew _ hsettled hopen).symm

theorem BlocksFirst.record (h : s.BlocksFirst outcomes) (htyped : s.Typed outcomes)
    (hjobs : s.agent.jobs = (.record i, value) :: jobs) {value' : Value}
    (hi : i < outcomes.length) :
    ({ s with agent.jobs := jobs }.settle (.promises i) value').BlocksFirst outcomes := by
  have hown : Own outcomes.length (.promises i) := hi
  refine h.settle htyped hjobs nofun hown nofun nofun ?_
  refine h.first_settle htyped hjobs nofun hown nofun fun reaction hreaction => ?_
  rcases List.mem_pair.mp hreaction with rfl | rfl <;> simp [IsLate]

theorem BlocksFirst.blockOnly (h : s.BlocksFirst outcomes) (htyped : s.Typed outcomes)
    {verdict : Verdict} (hjobs : s.agent.jobs = (.blockOnly i, .verdict verdict) :: jobs)
    (hi : i < outcomes.length) (hblock : verdict.isBlock = true) :
    ({ s with agent.jobs := jobs }.settle (.blockPromises i) (.verdict verdict)).BlocksFirst
      outcomes := by
  have hpop := htyped.pop hjobs
  have hown : Own outcomes.length (.blockPromises i) := hi
  have halarm : ({ s with agent.jobs := jobs }.settle (.blockPromises i) (.verdict verdict)).Alarm := by
    by_cases hopen : s.IsSettled (.blockPromises i)
    · exact ((h.warned i hopen).pop hjobs nofun).settle hpop hown
    · rw [settle_of_pending ((hpop.own _ hown).resolve_right hopen)]
      exact .inr ⟨(.settleRace, .verdict verdict),
        List.mem_append_right _ List.mem_cons_self, rfl, verdict, rfl, hblock⟩
  refine h.settle htyped hjobs nofun hown (fun _ _ _ _ _ => halarm) (fun _ _ => halarm) ?_
  refine h.first_settle htyped hjobs nofun hown nofun fun reaction hreaction => ?_
  obtain rfl := List.mem_singleton.mp hreaction
  rintro (hpick | ⟨-, verdict', heq, hallow⟩)
  · cases hpick
  · rw [← Value.verdict.inj heq, hblock] at hallow
    cases hallow

/-- With a block, the callback behind `Promise.all` runs when the race is over. -/
theorem BlocksFirst.pick (h : s.BlocksFirst outcomes) (htyped : s.Typed outcomes)
    (hjobs : s.agent.jobs = (.pick, value) :: jobs) {value' : Value} :
    ({ s with agent.jobs := jobs }.settle .allAllow value').BlocksFirst outcomes := by
  have hpop := htyped.pop hjobs
  have hown : Own outcomes.length .allAllow := trivial
  refine h.settle htyped hjobs nofun hown nofun nofun fun hblock => ?_
  rcases h.first_pop hjobs nofun hblock with hblocked | ⟨-, hlate, -⟩
  · exact .inl (RaceBlocked.settle (s := { s with agent.jobs := jobs }) hblocked hpop hown)
  · exact absurd (.inl rfl) hlate

/-- A value reaches the race: with a block the first one is a block. -/
theorem BlocksFirst.settleRace (h : s.BlocksFirst outcomes) (htyped : s.Typed outcomes)
    {verdict : Verdict} (hjobs : s.agent.jobs = (.settleRace, .verdict verdict) :: jobs)
    (hblock : verdict.isBlock = true → SomeBlock outcomes) :
    ({ s with agent.jobs := jobs }.settle .race (.verdict verdict)).BlocksFirst outcomes := by
  have hpop := htyped.pop hjobs
  have hown : Own outcomes.length .race := trivial
  have hnew : ∀ key', ({ s with agent.jobs := jobs }.settle .race (.verdict verdict)).IsSettled
      key' → key' ≠ .race → s.IsSettled key' :=
    fun key' hsettled hne => hpop.isSettled_of_settle hown hne hsettled
  -- The first value of the race is its result.
  have hwins : ¬s.IsSettled .race → verdict.isBlock = true →
      ({ s with agent.jobs := jobs }.settle .race (.verdict verdict)).RaceBlocked := by
    intro hopen hisBlock
    refine ⟨verdict, ?_, hisBlock⟩
    rw [settle_of_pending ((hpop.own _ hown).resolve_right hopen), fulfil_promises, if_pos rfl]
  have hkept : s.RaceBlocked →
      ({ s with agent.jobs := jobs }.settle .race (.verdict verdict)).RaceBlocked :=
    fun hblocked => RaceBlocked.settle (s := { s with agent.jobs := jobs }) hblocked hpop hown
  refine h.passed ((passed_pop hjobs).settle hpop hown) ?_ nofun
    (fun i hsettled hopen => absurd (hnew _ hsettled nofun) hopen)
    (fun i hsettled hopen => absurd (hnew _ hsettled nofun) hopen) fun hsome => ?_
  · rintro (hblocked | ⟨job, hjob, halarm⟩)
    · exact .inl (hkept hblocked)
    · rw [hjobs] at hjob
      rcases List.mem_cons.mp hjob with rfl | hrest
      · obtain ⟨-, verdict', heq, hisBlock⟩ := halarm
        rw [← Value.verdict.inj heq] at hisBlock
        rcases h.first (hblock hisBlock) with hblocked | ⟨hopen, -⟩
        · exact .inl (hkept hblocked)
        · exact .inl (hwins hopen hisBlock)
      · have hrest : Alarm { s with agent.jobs := jobs } := .inr ⟨job, hrest, halarm⟩
        exact hrest.settle hpop hown
  · rcases h.first hsome with hblocked | ⟨hopen, hfirst⟩
    · exact .inl (hkept hblocked)
    · cases hisBlock : verdict.isBlock with
      | true => exact .inl (hwins hopen hisBlock)
      -- An allow at the head of the queue would come before a block.
      | false =>
        rw [hjobs] at hfirst
        rcases hfirst with ⟨-, verdict', heq, hisBlock'⟩ | ⟨hlate, -⟩
        · rw [← Value.verdict.inj heq, hisBlock] at hisBlock'
          cases hisBlock'
        · exact absurd (.inr ⟨rfl, verdict, rfl, hisBlock⟩) hlate

/-- A microtask that settles nothing. -/
theorem BlocksFirst.idle (h : s.BlocksFirst outcomes)
    (hjobs : s.agent.jobs = (reaction, value) :: jobs) (hreaction : reaction ≠ .settleRace)
    (hpassed : Passed reaction s t) (hpromises : t.agent.promises = s.agent.promises)
    {new : List (Reaction × Value)} (hagent : t.agent.jobs = jobs ++ new)
    (hheard : ∀ i outcome, reaction = .blockOnly i → outcomes[i]? = some outcome →
      outcome.verdict.isBlock = true → t.Alarm)
    (hlate : SomeBlock outcomes → s.RaceBlocked ∨ (∃ job ∈ jobs, IsAlarm job) ∨
      ∀ job ∈ new, ¬IsLate job) : t.BlocksFirst outcomes := by
  have hsame : ∀ key, t.IsSettled key ↔ s.IsSettled key := fun key => by
    unfold IsSettled
    rw [hpromises]
  have hblocked : s.RaceBlocked → t.RaceBlocked := fun hblocked => by
    unfold RaceBlocked
    rw [hpromises]
    exact hblocked
  refine h.passed hpassed (fun halarm => ?_) hheard
    (fun i hsettled hopen => absurd ((hsame _).mp hsettled) hopen)
    (fun i hsettled hopen => absurd ((hsame _).mp hsettled) hopen) fun hsome => ?_
  · rcases halarm.pop hjobs hreaction with hrace | ⟨job, hjob, halarm⟩
    · exact .inl (hblocked hrace)
    · exact .inr ⟨job, hagent ▸ List.mem_append_left _ hjob, halarm⟩
  · rcases h.first_pop hjobs hreaction hsome with hrace | ⟨hopen, -, hfirst⟩
    · exact .inl (hblocked hrace)
    · rcases hlate hsome with hrace | hnew
      · exact .inl (hblocked hrace)
      · exact .inr ⟨fun hsettled => hopen ((hsame _).mp hsettled),
          hagent ▸ blockFirst_append hfirst hnew⟩

theorem Passed.refl (reaction : Reaction) (s : Interception) : Passed reaction s s :=
  ⟨fun _ _ h => h, fun _ h => h, fun _ h => h, fun _ => rfl⟩

/-- When `Promise.all` has the last verdict, a block is in the race or queued for it. -/
theorem BlocksFirst.settleAll (h : s.BlocksFirst outcomes) (hseq : s.Sequenced outcomes)
    (htyped : s.Typed outcomes) (hall : ∀ i < outcomes.length, s.Received i) :
    (s.settle .all value).BlocksFirst outcomes := by
  have hown : Own outcomes.length .all := trivial
  have hnew : ∀ key', (s.settle .all value).IsSettled key' → key' ≠ .all → s.IsSettled key' :=
    fun key' hsettled hne => htyped.isSettled_of_settle hown hne hsettled
  refine h.passed ((Passed.refl .forever s).settle htyped hown)
    (fun halarm => halarm.settle htyped hown) nofun
    (fun i hsettled hopen => absurd (hnew _ hsettled nofun) hopen)
    (fun i hsettled hopen => absurd (hnew _ hsettled nofun) hopen) fun hsome => ?_
  rcases h.first hsome with hblocked | ⟨hopen, hfirst⟩
  · exact .inl (hblocked.settle htyped hown)
  · refine .inr ⟨fun hsettled => hopen (hnew _ hsettled nofun), ?_⟩
    rcases htyped.own _ hown with hpending | ⟨value', hsettled⟩
    -- The block has been received, so that its own promise was settled before: it is in the race,
    -- or queued.
    · rw [settle_of_pending hpending]
      obtain ⟨outcome, hmem, hblock⟩ := hsome
      obtain ⟨i, houtcome⟩ := List.getElem?_of_mem hmem
      have hi := lt_of_getElem? houtcome
      have hreceived := hall i hi
      have hdone : s.IsSettled (.promises i) := by
        by_contra hwaiting
        exact (hseq.waiting i hi hwaiting).2.2 hreceived
      rcases h.alarm i outcome houtcome hblock hdone with hjob | ⟨verdict, hrace, -⟩ | hqueued
      · exact absurd hjob (hseq.gone i hreceived)
      · exact absurd ⟨_, hrace⟩ hopen
      · exact blockFirst_append hfirst (.inl hqueued)
    · rw [settle_of_settled hsettled]
      exact hfirst

/-- A microtask keeps blocks ahead. -/
theorem BlocksFirst.perform (htyped : s.Typed outcomes) (hseq : s.Sequenced outcomes)
    (h : s.BlocksFirst outcomes) (hjobs : s.agent.jobs = (reaction, value) :: jobs) :
    ({ s with agent.jobs := jobs }.perform reaction value).BlocksFirst outcomes := by
  have hpop := htyped.pop hjobs
  have hpassed := passed_pop hjobs
  have hsuits := htyped.suits (reaction, value) (hjobs ▸ List.mem_cons_self)
  cases reaction with
  | record i =>
    obtain ⟨outcome, houtcome, rfl⟩ := hsuits
    exact h.record htyped hjobs (lt_of_getElem? houtcome)
  | blockOnly i =>
    obtain ⟨outcome, houtcome, rfl⟩ := hsuits
    unfold Interception.perform
    dsimp only
    split_ifs with hblock
    · exact h.blockOnly htyped hjobs (lt_of_getElem? houtcome) hblock
    -- An allow is not passed on to the race.
    · refine h.idle hjobs nofun hpassed.push rfl rfl ?_ fun _ => .inr (.inr fun job hjob => ?_)
      · intro j outcome' heq houtcome' hblock'
        rw [← Reaction.blockOnly.inj heq, houtcome] at houtcome'
        exact absurd (Option.some.inj houtcome' ▸ hblock') hblock
      · obtain rfl := List.mem_singleton.mp hjob
        simp [IsLate]
  | element i =>
    obtain ⟨outcome, houtcome, rfl⟩ := hsuits
    have hreceive := hpop.receive houtcome
    have hidle : (({ s with agent.jobs := jobs } : Interception).receive i
        outcome.verdict).BlocksFirst outcomes :=
      h.idle hjobs nofun hpassed.receive rfl (List.append_nil _).symm nofun
        fun _ => .inr (.inr nofun)
    have hkept := hseq.element hjobs houtcome
    rw [perform_element]
    split_ifs with hall
    · exact hidle.settleAll hkept hreceive (hreceive.all_isSome.mp hall)
    · exact hidle
  | pick =>
    obtain rfl := hsuits
    exact h.pick htyped hjobs
  | settleRace =>
    obtain ⟨verdict, rfl, hcandidate⟩ := hsuits
    refine h.settleRace htyped hjobs fun hblock => ?_
    -- The race gets the block of an interceptor, or the verdict that is picked when all allow.
    rcases hcandidate with ⟨outcome, hmem, hisBlock, rfl⟩ | rfl
    · exact ⟨outcome, hmem, hisBlock⟩
    · obtain ⟨signature, heq, -⟩ := pickVerdict_eq (outcomes.map Outcome.verdict)
      rw [heq] at hblock
      cases hblock
  | forever =>
    exact h.idle hjobs nofun hpassed rfl (List.append_nil _).symm nofun
      fun _ => .inr (.inr nofun)

end Interception

end PrivacyPool.ProofInterceptor
