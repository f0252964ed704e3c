import PrivacyPool.Interceptor.Typed

/-!
# No verdict is lost

Each verdict of a run is somewhere on its way to the result: its promise is awaited, one of its
reactions is queued, or `Promise.all` has received it.

## Main definitions

* `Interception.Passed` — what a microtask leaves as it was
* `Interception.Live` — no verdict is lost between the promises

## Main results

* `Interception.Live.perform` — a microtask loses no verdict
-/

namespace PrivacyPool.ProofInterceptor

open Promises

variable {outcomes : List Outcome} {s t : Interception} {key : Key} {value : Value} {i : ℕ}
  {reaction : Reaction} {jobs : List (Reaction × Value)}

namespace Interception

/-! ### What a microtask leaves -/

/-- A promise is settled. -/
def IsSettled (s : Interception) (key : Key) : Prop :=
  ∃ value, s.agent.promises key = .settled value

/-- The reaction is queued. -/
def HasJob (s : Interception) (reaction : Reaction) : Prop :=
  ∃ value, (reaction, value) ∈ s.agent.jobs

/-- `Promise.all` has received the verdict. -/
def Received (s : Interception) (i : ℕ) : Prop := ∃ verdict, s.values[i]? = some (some verdict)

/-- Between two states all but one job is still queued, and what was settled or received is. -/
structure Passed (reaction : Reaction) (s t : Interception) : Prop where
  jobs : ∀ reaction', reaction' ≠ reaction → s.HasJob reaction' → t.HasJob reaction'
  settled : ∀ key, s.IsSettled key → t.IsSettled key
  received : ∀ i, s.Received i → t.Received i
  intercepted : ∀ i, t.agent.promises (.intercepted i) = s.agent.promises (.intercepted i)

theorem passed_pop (hjobs : s.agent.jobs = (reaction, value) :: jobs) :
    Passed reaction s { s with agent.jobs := jobs } := by
  refine ⟨fun reaction' hne ⟨value', hmem⟩ => ⟨value', ?_⟩, fun _ h => h, fun _ h => h, fun _ => rfl⟩
  rw [hjobs] at hmem
  rcases List.mem_cons.mp hmem with heq | hrest
  · exact absurd (congrArg Prod.fst heq) hne
  · exact hrest

theorem Passed.fulfil (h : Passed reaction s t) (hkey : ∀ i, key ≠ .intercepted i) :
    Passed reaction s (t.fulfil key value) where
  jobs reaction' hne hjob := by
    obtain ⟨value', hmem⟩ := h.jobs reaction' hne hjob
    exact ⟨value', List.mem_append_left _ hmem⟩
  settled key' hkey' := by
    obtain ⟨value', hvalue⟩ := h.settled key' hkey'
    unfold IsSettled
    rw [fulfil_promises]
    split_ifs
    · exact ⟨value, rfl⟩
    · exact ⟨value', hvalue⟩
  received := h.received
  intercepted i := by
    rw [fulfil_promises, if_neg (Ne.symm (hkey i))]
    exact h.intercepted i

theorem Passed.settle (h : Passed reaction s t) (htyped : t.Typed outcomes)
    (hown : Own outcomes.length key) : Passed reaction s (t.settle key value) := by
  rcases htyped.own key hown with hpending | ⟨value', hsettled⟩
  · rw [settle_of_pending hpending]
    refine h.fulfil fun i heq => ?_
    rw [heq] at hown
    exact hown
  · rw [settle_of_settled hsettled]
    exact h

/-- After the settlement of a promise it is settled. -/
theorem Typed.isSettled_settle (h : s.Typed outcomes) (hown : Own outcomes.length key) :
    (s.settle key value).IsSettled key := by
  unfold IsSettled
  rcases h.own key hown with hpending | ⟨value', hsettled⟩
  · rw [settle_of_pending hpending, fulfil_promises, if_pos rfl]
    exact ⟨value, rfl⟩
  · rw [settle_of_settled hsettled]
    exact ⟨value', hsettled⟩

/-- No other promise is settled with it. -/
theorem Typed.isSettled_of_settle (h : s.Typed outcomes) (hown : Own outcomes.length key)
    {key' : Key} (hne : key' ≠ key) (hsettled : (s.settle key value).IsSettled key') :
    s.IsSettled key' := by
  rcases h.own key hown with hpending | ⟨value', hsettled'⟩
  · unfold IsSettled at hsettled
    rw [settle_of_pending hpending, fulfil_promises, if_neg hne] at hsettled
    exact hsettled
  · rw [settle_of_settled hsettled'] at hsettled
    exact hsettled

/-- When a promise is settled for the first time its reactions are queued. -/
theorem Typed.hasJob_settle (h : s.Typed outcomes) (hown : Own outcomes.length key)
    (hopen : ¬s.IsSettled key) (hreaction : reaction ∈ reactionsOf key) :
    (s.settle key value).HasJob reaction := by
  have hpending := (h.own key hown).resolve_right hopen
  rw [settle_of_pending hpending]
  exact ⟨value, List.mem_append_right _ (List.mem_map_of_mem hreaction)⟩

/-! ### No verdict is lost -/

/-- Each verdict is somewhere on its way to the result. -/
structure Live (outcomes : List Outcome) (s : Interception) : Prop where
  awaited : ∀ i < outcomes.length, s.agent.promises (.intercepted i) = .pending [.record i] ∨
    s.HasJob (.record i) ∨ s.IsSettled (.promises i)
  received : ∀ i < outcomes.length, s.IsSettled (.promises i) →
    s.HasJob (.element i) ∨ s.Received i
  picked : (∀ i < outcomes.length, s.Received i) → outcomes ≠ [] →
    s.HasJob .pick ∨ s.IsSettled .allAllow
  raced : s.IsSettled .allAllow → s.HasJob .settleRace ∨ s.IsSettled .race
  all : s.IsSettled .all → ∀ i < outcomes.length, s.Received i

/-- What a microtask has to see to. -/
theorem Live.passed (h : s.Live outcomes) (hpassed : Passed reaction s t)
    (hrecord : ∀ i, reaction = .record i → t.IsSettled (.promises i))
    (helement : ∀ i, reaction = .element i → t.Received i)
    (hpick : reaction = .pick → t.IsSettled .allAllow)
    (hrace : reaction = .settleRace → t.IsSettled .race)
    (hreceived : ∀ i < outcomes.length, t.IsSettled (.promises i) → ¬s.IsSettled (.promises i) →
      t.HasJob (.element i))
    (hpicked : (∀ i < outcomes.length, t.Received i) → ¬(∀ i < outcomes.length, s.Received i) →
      t.HasJob .pick)
    (hraced : t.IsSettled .allAllow → ¬s.IsSettled .allAllow → t.HasJob .settleRace)
    (hall : t.IsSettled .all → ¬s.IsSettled .all → ∀ i < outcomes.length, t.Received i) :
    t.Live outcomes where
  -- What held before holds still, unless this job was to take it on; what is new comes with the job
  -- that takes it on.
  awaited i hi := by
    rcases h.awaited i hi with hpending | hjob | hsettled
    · exact .inl ((hpassed.intercepted i).trans hpending)
    · by_cases heq : reaction = .record i
      · exact .inr (.inr (hrecord i heq))
      · exact .inr (.inl (hpassed.jobs _ (Ne.symm heq) hjob))
    · exact .inr (.inr (hpassed.settled _ hsettled))
  received i hi hsettled := by
    by_cases hbefore : s.IsSettled (.promises i)
    · rcases h.received i hi hbefore with hjob | hvalue
      · by_cases heq : reaction = .element i
        · exact .inr (helement i heq)
        · exact .inl (hpassed.jobs _ (Ne.symm heq) hjob)
      · exact .inr (hpassed.received i hvalue)
    · exact .inl (hreceived i hi hsettled hbefore)
  picked hreceived' hne := by
    by_cases hbefore : ∀ i < outcomes.length, s.Received i
    · rcases h.picked hbefore hne with hjob | hsettled
      · by_cases heq : reaction = .pick
        · exact .inr (hpick heq)
        · exact .inl (hpassed.jobs _ (Ne.symm heq) hjob)
      · exact .inr (hpassed.settled _ hsettled)
    · exact .inl (hpicked hreceived' hbefore)
  raced hsettled := by
    by_cases hbefore : s.IsSettled .allAllow
    · rcases h.raced hbefore with hjob | hrace'
      · by_cases heq : reaction = .settleRace
        · exact .inr (hrace heq)
        · exact .inl (hpassed.jobs _ (Ne.symm heq) hjob)
      · exact .inr (hpassed.settled _ hrace')
    · exact .inl (hraced hsettled hbefore)
  all hsettled := by
    by_cases hbefore : s.IsSettled .all
    · exact fun i hi => hpassed.received i (h.all hbefore i hi)
    · exact hall hsettled hbefore

/-- The index of a verdict is that of an interceptor. -/
theorem lt_of_getElem? {outcome : Outcome} (h : outcomes[i]? = some outcome) :
    i < outcomes.length := (List.getElem?_eq_some_iff.mp h).1

theorem receive_received {verdict : Verdict} (hi : i < s.values.length) :
    (s.receive i verdict).Received i :=
  ⟨verdict, List.getElem?_set_self hi⟩

theorem received_receive {verdict : Verdict} {j : ℕ} (hj : s.Received j) :
    (s.receive i verdict).Received j := by
  obtain ⟨verdict', hvalue⟩ := hj
  by_cases heq : i = j
  · subst heq
    exact receive_received (List.getElem?_eq_some_iff.mp hvalue).1
  · exact ⟨verdict', (List.getElem?_set_ne heq).trans hvalue⟩

theorem Passed.receive {verdict : Verdict} (h : Passed reaction s t) :
    Passed reaction s (t.receive i verdict) :=
  { h with received := fun j hj => received_receive (h.received j hj) }

/-- All verdicts are there just when each of them is. -/
theorem Typed.all_isSome (h : s.Typed outcomes) :
    s.values.all Option.isSome = true ↔ ∀ i < outcomes.length, s.Received i := by
  rw [List.all_eq_true]
  constructor
  · intro hall i hi
    have hget := List.getElem?_eq_getElem (h.length ▸ hi)
    obtain ⟨verdict, hverdict⟩ :=
      Option.isSome_iff_exists.mp (hall _ (List.mem_of_getElem? hget))
    exact ⟨verdict, hverdict ▸ hget⟩
  · intro hall value hvalue
    obtain ⟨i, hi⟩ := List.getElem?_of_mem hvalue
    obtain ⟨verdict, hverdict⟩ := hall i (h.length ▸ (List.getElem?_eq_some_iff.mp hi).1)
    rw [hverdict] at hi
    rw [← Option.some.inj hi]
    rfl

theorem Passed.push (h : Passed reaction s t) : Passed reaction s (t.push value) := by
  refine { h with jobs := fun reaction' hne hjob => ?_ }
  obtain ⟨value', hmem⟩ := h.jobs reaction' hne hjob
  exact ⟨value', List.mem_append_left _ hmem⟩

/-- A microtask that settles a promise. -/
theorem Live.settle (h : s.Live outcomes) (htyped : t.Typed outcomes)
    (hpassed : Passed reaction s t) (hpromises : t.agent.promises = s.agent.promises)
    (hvalues : t.values = s.values) (hown : Own outcomes.length key) (hall : key ≠ .all)
    (hrecord : ∀ i, reaction = .record i → key = .promises i)
    (helement : ∀ i, reaction ≠ .element i) (hpick : reaction = .pick → key = .allAllow)
    (hrace : reaction = .settleRace → key = .race) : (t.settle key value).Live outcomes := by
  have hdone : (t.settle key value).IsSettled key := htyped.isSettled_settle hown
  -- A promise that is settled now and was not before is this one, and its reactions are queued.
  have hnew : ∀ key' reaction', (t.settle key value).IsSettled key' → ¬s.IsSettled key' →
      key' = key ∧ (reaction' ∈ reactionsOf key' → (t.settle key value).HasJob reaction') := by
    intro key' reaction' hsettled hopen
    unfold IsSettled at hopen
    rw [← hpromises] at hopen
    have heq : key' = key := by
      by_contra hne
      exact hopen (htyped.isSettled_of_settle hown hne hsettled)
    subst heq
    exact ⟨rfl, htyped.hasJob_settle hown hopen⟩
  refine h.passed (hpassed.settle htyped hown) (fun i heq => hrecord i heq ▸ hdone)
    (fun i heq => absurd heq (helement i)) (fun heq => hpick heq ▸ hdone)
    (fun heq => hrace heq ▸ hdone) (fun i _ hsettled hopen => ?_) (fun hreceived hbefore => ?_)
    (fun hsettled hopen => ?_) fun hsettled hopen => ?_
  · exact (hnew _ _ hsettled hopen).2 (List.mem_cons_of_mem _ List.mem_cons_self)
  · refine absurd (fun i hi => ?_) hbefore
    unfold Received
    rw [← hvalues]
    exact hreceived i hi
  · exact (hnew _ _ hsettled hopen).2 List.mem_cons_self
  · exact absurd (hnew _ .forever hsettled hopen).1.symm hall

/-- A microtask that settles nothing. -/
theorem Live.idle (h : s.Live outcomes) (hpassed : Passed reaction s t)
    (hpromises : t.agent.promises = s.agent.promises) (hvalues : t.values = s.values)
    (hreaction : reaction = .forever ∨ ∃ i, reaction = .blockOnly i) : t.Live outcomes := by
  have hsame : ∀ key, t.IsSettled key → ¬s.IsSettled key → False := by
    intro key hsettled hopen
    unfold IsSettled at hsettled
    rw [hpromises] at hsettled
    exact hopen hsettled
  refine h.passed hpassed ?_ ?_ ?_ ?_ (fun i _ hsettled hopen => (hsame _ hsettled hopen).elim)
    (fun hreceived hbefore => absurd (fun i hi => ?_) hbefore)
    (fun hsettled hopen => (hsame _ hsettled hopen).elim)
    fun hsettled hopen => (hsame _ hsettled hopen).elim
  · rcases hreaction with rfl | ⟨i, rfl⟩ <;> exact nofun
  · rcases hreaction with rfl | ⟨i, rfl⟩ <;> exact nofun
  · rcases hreaction with rfl | ⟨i, rfl⟩ <;> exact nofun
  · rcases hreaction with rfl | ⟨i, rfl⟩ <;> exact nofun
  · unfold Received
    rw [← hvalues]
    exact hreceived i hi

/-- A microtask in which `Promise.all` receives a verdict: after the last one it is settled. -/
theorem perform_element (i : ℕ) (verdict : Verdict) :
    t.perform (.element i) (.verdict verdict) =
      if (t.receive i verdict).values.all Option.isSome = true then
        (t.receive i verdict).settle .all (.verdicts ((t.receive i verdict).values.filterMap id))
      else t.receive i verdict := rfl

theorem Live.element (h : s.Live outcomes) (htyped : t.Typed outcomes)
    (hpassed : Passed (.element i) s t) (hpromises : t.agent.promises = s.agent.promises)
    {outcome : Outcome} (houtcome : outcomes[i]? = some outcome) :
    (t.perform (.element i) (.verdict outcome.verdict)).Typed outcomes ∧
      (t.perform (.element i) (.verdict outcome.verdict)).Live outcomes ∧
        Passed (.element i) s (t.perform (.element i) (.verdict outcome.verdict)) := by
  have hreceive := htyped.receive houtcome
  have hdone : (t.receive i outcome.verdict).Received i :=
    receive_received (htyped.length ▸ lt_of_getElem? houtcome)
  have hpassed' : Passed (.element i) s (t.receive i outcome.verdict) := hpassed.receive
  -- Receiving a verdict settles nothing.
  have hsame : ∀ key, (t.receive i outcome.verdict).IsSettled key → ¬s.IsSettled key → False := by
    intro key hsettled hopen
    change t.IsSettled key at hsettled
    unfold IsSettled at hsettled
    rw [hpromises] at hsettled
    exact hopen hsettled
  have hall := hreceive.all_isSome
  have hown : Own outcomes.length .all := trivial
  rw [perform_element]
  generalize t.receive i outcome.verdict = u at *
  split_ifs with hfull
  -- The last verdict settles `Promise.all`, whose reaction is queued.
  · refine ⟨hreceive.settle hown ?_, ?_, hpassed'.settle hreceive hown⟩
    · rw [hreceive.values_of_all hfull]
      rfl
    · refine h.passed (hpassed'.settle hreceive hown) nofun
        (fun j heq => Reaction.element.inj heq ▸ hdone) nofun nofun (fun j _ hsettled hopen => ?_)
        (fun _ hbefore => ?_) (fun hsettled hopen => ?_) fun _ _ => hall.mp hfull
      · have hne : Key.promises j ≠ .all := nofun
        exact (hsame _ (hreceive.isSettled_of_settle hown hne hsettled) hopen).elim
      · refine hreceive.hasJob_settle hown (fun hsettled => ?_) List.mem_cons_self
        exact hsame _ hsettled fun hsettled' => hbefore (h.all hsettled')
      · have hne : Key.allAllow ≠ .all := nofun
        exact (hsame _ (hreceive.isSettled_of_settle hown hne hsettled) hopen).elim
  · refine ⟨hreceive, h.passed hpassed' nofun (fun j heq => Reaction.element.inj heq ▸ hdone) nofun
      nofun (fun j _ hsettled hopen => (hsame _ hsettled hopen).elim)
      (fun hreceived _ => absurd (hall.mpr hreceived) hfull)
      (fun hsettled hopen => (hsame _ hsettled hopen).elim)
      fun hsettled hopen => (hsame _ hsettled hopen).elim, hpassed'⟩

/-- A microtask keeps the kinds and loses no verdict. -/
theorem Live.perform (htyped : s.Typed outcomes) (h : s.Live outcomes)
    (hjobs : s.agent.jobs = (reaction, value) :: jobs) :
    ({ s with agent.jobs := jobs }.perform reaction value).Typed outcomes ∧
      ({ s with agent.jobs := jobs }.perform reaction value).Live outcomes ∧
        Passed reaction s ({ s with agent.jobs := jobs }.perform reaction value) := by
  have hpop := htyped.pop hjobs
  have hpassed := passed_pop hjobs
  have hsuits := htyped.suits (reaction, value) (hjobs ▸ List.mem_cons_self)
  cases reaction with
  | record i =>
    obtain ⟨outcome, houtcome, rfl⟩ := hsuits
    have hown : Own outcomes.length (.promises i) := lt_of_getElem? houtcome
    exact ⟨hpop.settle hown ⟨outcome, houtcome, rfl⟩, h.settle hpop hpassed rfl rfl hown nofun
      (fun j heq => by rw [Reaction.record.inj heq]) nofun nofun nofun, hpassed.settle hpop hown⟩
  | blockOnly i =>
    obtain ⟨outcome, houtcome, rfl⟩ := hsuits
    have hown : Own outcomes.length (.blockPromises i) := lt_of_getElem? houtcome
    unfold Interception.perform
    dsimp only
    split_ifs with hblock
    · exact ⟨hpop.settle hown ⟨outcome, houtcome, hblock, rfl⟩, h.settle hpop hpassed rfl rfl hown
        nofun nofun nofun nofun nofun, hpassed.settle hpop hown⟩
    -- A verdict that allows leaves a promise that never settles.
    · exact ⟨hpop.push, h.idle hpassed.push rfl rfl (.inr ⟨i, rfl⟩), hpassed.push⟩
  | element i =>
    obtain ⟨outcome, houtcome, rfl⟩ := hsuits
    exact h.element hpop hpassed rfl houtcome
  | pick =>
    obtain rfl := hsuits
    have hown : Own outcomes.length .allAllow := trivial
    exact ⟨hpop.settle hown rfl, h.settle hpop hpassed rfl rfl hown nofun nofun nofun
      (fun _ => rfl) nofun, hpassed.settle hpop hown⟩
  | settleRace =>
    have hown : Own outcomes.length .race := trivial
    exact ⟨hpop.settle hown hsuits, h.settle hpop hpassed rfl rfl hown nofun nofun nofun nofun
      fun _ => rfl, hpassed.settle hpop hown⟩
  | forever => exact ⟨hpop, h.idle hpassed rfl rfl (.inl rfl), hpassed⟩

end Interception

end PrivacyPool.ProofInterceptor
