import Mathlib.Logic.Function.Basic
import Mathlib.Tactic.SplitIfs

/-!
# Promises and their jobs

Promises of one agent with its queue of jobs. A pending promise keeps its reactions in the order
in which they were registered; when it is settled they are queued as jobs, with its value. A
reaction to a settled promise is queued at once. Only the first settlement of a promise counts.
What a reaction does when its job runs is up to the program.

## Main definitions

* `Agent`, `Agent.react`, `Agent.settle` — promises and jobs, and the two operations on them
* `Agent.wire` — several reactions, one after the other

## Main results

* `Agent.wire_promises`, `Agent.wire_jobs` — what a list of reactions does to them
-/

namespace Promises

variable {κ ρ ν : Type}

/-- The state of a promise. -/
inductive PromiseState (ρ ν : Type)
  /-- Not settled, with the reactions in the order of their registration. -/
  | pending (reactions : List ρ)
  | settled (value : ν)
  deriving DecidableEq, Repr

namespace PromiseState

/-- The value of a settled promise. -/
def value : PromiseState ρ ν → Option ν
  | pending _ => none
  | settled value => some value

/-- With further reactions, while it is pending. -/
def add (reactions : List ρ) : PromiseState ρ ν → PromiseState ρ ν
  | pending before => pending (before ++ reactions)
  | settled value => settled value

@[simp] theorem value_add (reactions : List ρ) (state : PromiseState ρ ν) :
    (state.add reactions).value = state.value := by
  cases state <;> rfl

@[simp] theorem add_nil (state : PromiseState ρ ν) : state.add [] = state := by
  cases state with
  | pending before => exact congrArg pending (List.append_nil before)
  | settled value => rfl

theorem add_add (reactions reactions' : List ρ) (state : PromiseState ρ ν) :
    (state.add reactions).add reactions' = state.add (reactions ++ reactions') := by
  cases state with
  | pending before => exact congrArg pending (List.append_assoc _ _ _)
  | settled value => rfl

theorem value_eq_some {value : ν} {state : PromiseState ρ ν} :
    state.value = some value ↔ state = settled value := by
  cases state with
  | pending before => exact iff_of_false nofun nofun
  | settled value' =>
    exact ⟨fun h => congrArg settled (Option.some.inj h), fun h => congrArg some (settled.inj h)⟩

end PromiseState

open PromiseState

/-- The promises of an agent, and the jobs that are to run. -/
structure Agent (κ ρ ν : Type) where
  promises : κ → PromiseState ρ ν
  jobs : List (ρ × ν)

namespace Agent

variable [DecidableEq κ]

/-- Register a reaction to a promise. -/
def react (key : κ) (reaction : ρ) (agent : Agent κ ρ ν) : Agent κ ρ ν :=
  match agent.promises key with
  | pending reactions =>
    { agent with
      promises := Function.update agent.promises key (pending (reactions ++ [reaction])) }
  | settled value => { agent with jobs := agent.jobs ++ [(reaction, value)] }

/-- Settle a promise, unless it is settled. -/
def settle (key : κ) (value : ν) (agent : Agent κ ρ ν) : Agent κ ρ ν :=
  match agent.promises key with
  | pending reactions =>
    { promises := Function.update agent.promises key (settled value)
      jobs := agent.jobs ++ reactions.map fun reaction => (reaction, value) }
  | settled _ => agent

/-- Register reactions one after the other. -/
def wire (reactions : List (κ × ρ)) (agent : Agent κ ρ ν) : Agent κ ρ ν :=
  reactions.foldl (fun agent reaction => agent.react reaction.1 reaction.2) agent

variable {agent : Agent κ ρ ν} {key key' : κ} {reaction : ρ} {value : ν}

theorem react_promises :
    (agent.react key reaction).promises key' =
      (agent.promises key').add (if key' = key then [reaction] else []) := by
  unfold react
  split_ifs with heq
  · subst heq
    cases hstate : agent.promises key' with
    | pending reactions => exact Function.update_self _ _ _
    | settled value => exact hstate
  · rw [add_nil]
    cases hstate : agent.promises key with
    | pending reactions => exact Function.update_of_ne heq _ _
    | settled value => rfl

theorem react_jobs :
    (agent.react key reaction).jobs =
      agent.jobs ++ ((agent.promises key).value.map fun value => (reaction, value)).toList := by
  unfold react
  cases agent.promises key with
  | pending reactions => exact (List.append_nil _).symm
  | settled value => rfl

theorem settle_of_pending {reactions : List ρ} (h : agent.promises key = pending reactions) :
    agent.settle key value =
      ⟨Function.update agent.promises key (settled value),
        agent.jobs ++ reactions.map fun reaction => (reaction, value)⟩ := by
  unfold settle
  rw [h]

theorem settle_of_settled {value' : ν} (h : agent.promises key = settled value') :
    agent.settle key value = agent := by
  unfold settle
  rw [h]

/-- After several reactions a pending promise has those that are for it. -/
theorem wire_promises (reactions : List (κ × ρ)) :
    (agent.wire reactions).promises key = (agent.promises key).add
      ((reactions.filter fun reaction => key = reaction.1).map Prod.snd) := by
  induction reactions generalizing agent with
  | nil => exact (add_nil _).symm
  | cons reaction reactions ih =>
    have hrest := @ih (agent.react reaction.1 reaction.2)
    rw [react_promises, add_add] at hrest
    refine hrest.trans (congrArg (PromiseState.add · _) ?_)
    by_cases heq : key = reaction.1
    · rw [if_pos heq, List.filter_cons_of_pos (by simpa using heq)]
      rfl
    · rw [if_neg heq, List.filter_cons_of_neg (by simpa using heq)]
      rfl

/-- Those for settled promises are queued in their order. -/
theorem wire_jobs (reactions : List (κ × ρ)) :
    (agent.wire reactions).jobs = agent.jobs ++ reactions.filterMap fun reaction =>
      (agent.promises reaction.1).value.map fun value => (reaction.2, value) := by
  induction reactions generalizing agent with
  | nil => exact (List.append_nil _).symm
  | cons reaction reactions ih =>
    have hrest := @ih (agent.react reaction.1 reaction.2)
    simp only [react_promises, value_add] at hrest
    refine hrest.trans ?_
    rw [react_jobs, List.append_assoc, List.filterMap_cons]
    cases (agent.promises reaction.1).value <;> rfl

end Agent

end Promises
