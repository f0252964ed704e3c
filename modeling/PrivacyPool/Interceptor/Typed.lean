import Mathlib.Data.List.Basic
import PrivacyPool.Interceptor.RunInterceptors

/-!
# What the promises of a run hold

After all interceptors were called, each promise of the run is pending with the reactions that
were registered to it, or settled with the value that belongs to it.

## Main definitions

* `Fits`, `Suits` — the values of promises, and those that reactions receive
* `Interception.Typed` — promises, jobs and received verdicts are of this kind

## Main results

* `Interception.Typed.settle` — settling a promise with its value keeps it so
-/

namespace PrivacyPool.ProofInterceptor

open Promises

variable {outcomes : List Outcome} {s : Interception} {key : Key} {value : Value} {i : ℕ}

/-! ### Values -/

/-- The verdict is that of a block, or the one that is picked when all verdicts are there. -/
def Candidate (outcomes : List Outcome) (verdict : Verdict) : Prop :=
  (∃ outcome ∈ outcomes, outcome.verdict.isBlock = true ∧ verdict = outcome.verdict) ∨
    verdict = pickVerdict (outcomes.map Outcome.verdict)

/-- The value belongs to the promise. -/
def Fits (outcomes : List Outcome) : Key → Value → Prop
  | .intercepted i, value => ∃ outcome, outcomes[i]? = some outcome ∧ value = .outcome outcome
  | .promises i, value => ∃ outcome, outcomes[i]? = some outcome ∧ value = .verdict outcome.verdict
  | .blockPromises i, value => ∃ outcome, outcomes[i]? = some outcome ∧
      outcome.verdict.isBlock = true ∧ value = .verdict outcome.verdict
  | .all, value => value = .verdicts (outcomes.map Outcome.verdict)
  | .allAllow, value => value = .verdict (pickVerdict (outcomes.map Outcome.verdict))
  | .race, value => ∃ verdict, value = .verdict verdict ∧ Candidate outcomes verdict

/-- The value is one that the reaction receives. -/
def Suits (outcomes : List Outcome) : Reaction → Value → Prop
  | .record i, value => Fits outcomes (.intercepted i) value
  | .blockOnly i, value => Fits outcomes (.promises i) value
  | .element i, value => Fits outcomes (.promises i) value
  | .pick, value => Fits outcomes .all value
  | .settleRace, value => Fits outcomes .race value
  | .forever, _ => True

/-- The reactions to a promise, once all interceptors were called. -/
def reactionsOf : Key → List Reaction
  | .intercepted i => [.record i]
  | .promises i => [.blockOnly i, .element i]
  | .blockPromises _ => [.settleRace]
  | .all => [.pick]
  | .allAllow => [.settleRace]
  | .race => []

/-- A reaction to a promise receives what suits it. -/
theorem Fits.suits (h : Fits outcomes key value) {reaction : Reaction}
    (hreaction : reaction ∈ reactionsOf key) : Suits outcomes reaction value := by
  cases key with
  | intercepted i =>
    obtain rfl := List.mem_singleton.mp hreaction
    exact h
  | promises i =>
    rcases List.mem_pair.mp hreaction with rfl | rfl
    · exact h
    · exact h
  | blockPromises i =>
    obtain rfl := List.mem_singleton.mp hreaction
    obtain ⟨outcome, houtcome, hblock, rfl⟩ := h
    exact ⟨_, rfl, .inl ⟨outcome, List.mem_of_getElem? houtcome, hblock, rfl⟩⟩
  | all =>
    obtain rfl := List.mem_singleton.mp hreaction
    exact h
  | allAllow =>
    obtain rfl := List.mem_singleton.mp hreaction
    exact ⟨_, h, .inr rfl⟩
  | race => cases hreaction

/-- What is picked is an allow, signed when one of the verdicts is. -/
theorem pickVerdict_eq (verdicts : List Verdict) : ∃ signature,
    pickVerdict verdicts = .allow signature ∧
      (signature.isSome = true ↔ ∃ verdict ∈ verdicts, verdict.isSigned = true) := by
  unfold pickVerdict
  cases hfound : verdicts.find? Verdict.isSigned with
  | none =>
    rw [List.find?_eq_none] at hfound
    exact ⟨none, rfl, iff_of_false Bool.false_ne_true fun ⟨v, hv, hsigned⟩ => hfound v hv hsigned⟩
  | some verdict =>
    have hsigned := List.find?_some hfound
    cases verdict with
    | allow signature =>
      exact ⟨signature, rfl, iff_of_true hsigned ⟨_, List.mem_of_find?_eq_some hfound, hsigned⟩⟩
    | block reason => cases hsigned

/-! ### Runs -/

/-- The promises that the program makes for itself. -/
def Own (n : ℕ) : Key → Prop
  | .intercepted _ => False
  | .promises i => i < n
  | .blockPromises i => i < n
  | .all | .allAllow | .race => True

namespace Interception

/-- Promises, jobs and received verdicts are what they should be. -/
structure Typed (outcomes : List Outcome) (s : Interception) : Prop where
  called : s.called = outcomes.length
  fits : ∀ key value, s.agent.promises key = .settled value → Fits outcomes key value
  suits : ∀ job ∈ s.agent.jobs, Suits outcomes job.1 job.2
  own : ∀ key, Own outcomes.length key → s.agent.promises key = .pending (reactionsOf key) ∨
    ∃ value, s.agent.promises key = .settled value
  /-- An interceptor that throws when it is called returns no promise. -/
  intercepted : ∀ i, s.agent.promises (.intercepted i) = .pending [] ∨
    s.agent.promises (.intercepted i) = .pending [.record i] ∨
      ∃ value, s.agent.promises (.intercepted i) = .settled value
  length : s.values.length = outcomes.length
  values_eq : ∀ (i : ℕ) (verdict : Verdict), s.values[i]? = some (some verdict) →
    ∃ outcome : Outcome, outcomes[i]? = some outcome ∧ verdict = outcome.verdict

theorem Typed.pop {job : Reaction × Value} {jobs : List (Reaction × Value)} (h : s.Typed outcomes)
    (hjobs : s.agent.jobs = job :: jobs) : { s with agent.jobs := jobs }.Typed outcomes :=
  { h with suits := fun job' hjob' => h.suits job' (hjobs ▸ List.mem_cons_of_mem _ hjob') }

/-- A job without effect is queued. -/
def push (value : Value) (s : Interception) : Interception :=
  { s with agent.jobs := s.agent.jobs ++ [(.forever, value)] }

theorem Typed.push (h : s.Typed outcomes) : (s.push value).Typed outcomes := by
  refine { h with suits := fun job hjob => ?_ }
  rcases List.mem_append.mp hjob with hold | hnew
  · exact h.suits job hold
  · obtain rfl := List.mem_singleton.mp hnew
    trivial

/-- A promise with all its reactions is settled. -/
def fulfil (key : Key) (value : Value) (s : Interception) : Interception :=
  { s with
    agent.promises := Function.update s.agent.promises key (.settled value)
    agent.jobs := s.agent.jobs ++ (reactionsOf key).map fun reaction => (reaction, value) }

theorem fulfil_promises (key' : Key) : (s.fulfil key value).agent.promises key' =
    if key' = key then .settled value else s.agent.promises key' :=
  Function.update_apply _ _ _ _

@[simp] theorem fulfil_jobs : (s.fulfil key value).agent.jobs =
    s.agent.jobs ++ (reactionsOf key).map fun reaction => (reaction, value) := rfl

@[simp] theorem fulfil_called : (s.fulfil key value).called = s.called := rfl

@[simp] theorem fulfil_values : (s.fulfil key value).values = s.values := rfl

theorem settle_of_pending (h : s.agent.promises key = .pending (reactionsOf key)) :
    s.settle key value = s.fulfil key value :=
  congrArg (fun agent => { s with agent }) (Agent.settle_of_pending h)

theorem settle_of_settled {value' : Value} (h : s.agent.promises key = .settled value') :
    s.settle key value = s :=
  congrArg (fun agent => { s with agent }) (Agent.settle_of_settled h)

theorem Typed.fulfil (h : s.Typed outcomes) (hfits : Fits outcomes key value) :
    (s.fulfil key value).Typed outcomes where
  called := h.called
  length := h.length
  values_eq := h.values_eq
  fits key' value' hkey' := by
    rw [fulfil_promises] at hkey'
    split_ifs at hkey' with hsame
    · subst hsame
      exact PromiseState.settled.inj hkey' ▸ hfits
    · exact h.fits key' value' hkey'
  suits job hjob := by
    rcases List.mem_append.mp hjob with hold | hnew
    · exact h.suits job hold
    · obtain ⟨reaction, hreaction, rfl⟩ := List.mem_map.mp hnew
      exact hfits.suits hreaction
  own key' hown := by
    rw [fulfil_promises]
    split_ifs
    · exact .inr ⟨value, rfl⟩
    · exact h.own key' hown
  intercepted i := by
    rw [fulfil_promises]
    split_ifs
    · exact .inr (.inr ⟨value, rfl⟩)
    · exact h.intercepted i

/-- Settling a promise with its value keeps the kinds. -/
theorem Typed.settle (h : s.Typed outcomes) (hown : Own outcomes.length key)
    (hfits : Fits outcomes key value) : (s.settle key value).Typed outcomes := by
  rcases h.own key hown with hpending | ⟨value', hsettled⟩
  · rw [settle_of_pending hpending]
    exact h.fulfil hfits
  · rw [settle_of_settled hsettled]
    exact h

/-- `Promise.all` receives a verdict. -/
def receive (i : ℕ) (verdict : Verdict) (s : Interception) : Interception :=
  { s with values := s.values.set i (some verdict) }

theorem Typed.receive (h : s.Typed outcomes) {outcome : Outcome}
    (houtcome : outcomes[i]? = some outcome) :
    (s.receive i outcome.verdict).Typed outcomes := by
  refine { h with length := List.length_set.trans h.length, values_eq := fun j verdict hj => ?_ }
  rw [Interception.receive, List.getElem?_set] at hj
  split_ifs at hj with hsame hlt
  · subst hsame
    exact ⟨outcome, houtcome, (Option.some.inj (Option.some.inj hj)).symm⟩
  · exact h.values_eq j verdict hj

/-- When all verdicts have been received, they are those of the interceptors. -/
theorem Typed.values_of_all (h : s.Typed outcomes) (hall : s.values.all Option.isSome = true) :
    s.values.filterMap id = outcomes.map Outcome.verdict := by
  have hvalues : s.values = outcomes.map fun outcome => some outcome.verdict := by
    refine List.ext_getElem? fun i => ?_
    rw [List.getElem?_map]
    cases hvalue : s.values[i]? with
    | none =>
      have hle := List.getElem?_eq_none_iff.mp hvalue
      rw [List.getElem?_eq_none (h.length ▸ hle), Option.map_none]
    | some value =>
      obtain ⟨verdict, rfl⟩ :=
        Option.isSome_iff_exists.mp (List.all_eq_true.mp hall value (List.mem_of_getElem? hvalue))
      obtain ⟨outcome, houtcome, rfl⟩ := h.values_eq i verdict hvalue
      rw [houtcome, Option.map_some]
  rw [hvalues, List.filterMap_map]
  exact congrFun (List.filterMap_eq_map (f := Outcome.verdict)) outcomes

end Interception

end PrivacyPool.ProofInterceptor
