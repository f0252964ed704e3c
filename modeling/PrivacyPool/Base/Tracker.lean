import Mathlib.Algebra.BigOperators.Group.Multiset.Basic
import Mathlib.Algebra.GroupWithZero.Nat
import Mathlib.Algebra.Order.Group.Multiset
import Mathlib.Logic.Relation

/-!
# Tasks in flight

Requests of one agent are in flight in any number, and are answered in any order. The
answer to one changes the state of the agent and puts further requests in flight. What
is put out by then and what the tasks in flight will put out add up to the same total
throughout; when nothing is in flight the total is out.

## Main definitions

* `Tracker.Step`, `Tracker.Run` — an answer, and answers one after another
* `Tracker.Conserves` — each answer keeps an invariant and the total
* `Tracker.Shrinks` — the tasks that an answer starts cost less than the one it ends
* `Tracker.settle` — the answers in the order of the tasks

## Main results

* `Conserves.run` — so do answers in any order
* `acc_of_shrinks` — answers come to an end
* `exists_settled` — the tasks can all be answered
* `run_of_settle` — for instance the oldest task first
-/

namespace Tracker

universe u v w

variable {σ : Type u} {τ : Type v} {M : Type w}

/-- One of the tasks in flight is answered. -/
inductive Step (resume : τ → σ → σ × List τ) : σ × Multiset τ → σ × Multiset τ → Prop
  | answer (s : σ) (task : τ) (pending : Multiset τ) :
      Step resume (s, task ::ₘ pending) ((resume task s).1, pending + (resume task s).2)

/-- Tasks are answered one after another, in any order. -/
abbrev Run (resume : τ → σ → σ × List τ) : σ × Multiset τ → σ × Multiset τ → Prop :=
  Relation.ReflTransGen (Step resume)

variable {resume : τ → σ → σ × List τ} {inv : σ → Prop} {valid : σ → τ → Prop}

/-- The answer to a valid task keeps the invariant and leaves every task valid. -/
structure Keeps (resume : τ → σ → σ × List τ) (inv : σ → Prop) (valid : σ → τ → Prop) (s : σ)
    (task : τ) : Prop where
  inv : inv (resume task s).1
  others : ∀ other, valid s other → valid (resume task s).1 other
  started : ∀ other ∈ (resume task s).2, valid (resume task s).1 other

/-- Each answer keeps the invariant, and the total of what is out and what is to come. The
task that is answered is part of the total. -/
def Conserves [AddCommMonoid M] (resume : τ → σ → σ × List τ) (inv : σ → Prop)
    (valid : σ → τ → Prop) (out : σ → M) (weight : τ → M) (total : M) : Prop :=
  ∀ s task, inv s → valid s task → (∃ rest, out s + weight task + rest = total) →
    Keeps resume inv valid s task ∧
      out (resume task s).1 + ((resume task s).2.map weight).sum = out s + weight task

/-- Answers in any order keep the invariant and the total. -/
theorem Conserves.run [AddCommMonoid M] {out : σ → M} {weight : τ → M} {total : M}
    (h : Conserves resume inv valid out weight total) {s s' : σ} {pending pending' : Multiset τ}
    (hrun : Run resume (s, pending) (s', pending')) (hinv : inv s)
    (hvalid : ∀ task ∈ pending, valid s task) (htotal : out s + (pending.map weight).sum = total) :
    inv s' ∧ (∀ task ∈ pending', valid s' task) ∧
      out s' + (pending'.map weight).sum = total := by
  generalize hfinal : (s', pending') = final at hrun
  induction hrun generalizing s' pending' with
  | refl =>
    cases hfinal
    exact ⟨hinv, hvalid, htotal⟩
  | tail _ hstep ih =>
    cases hstep with
    | answer s₁ task rest =>
      cases hfinal
      obtain ⟨hinv₁, hvalid₁, htotal₁⟩ := ih rfl
      rw [Multiset.map_cons, Multiset.sum_cons, ← add_assoc] at htotal₁
      obtain ⟨hkeeps, hout⟩ :=
        h s₁ task hinv₁ (hvalid₁ task (Multiset.mem_cons_self task rest)) ⟨_, htotal₁⟩
      refine ⟨hkeeps.inv, fun other hother => ?_, ?_⟩
      · rcases Multiset.mem_add.mp hother with hold | hnew
        · exact hkeeps.others other (hvalid₁ other (Multiset.mem_cons_of_mem hold))
        · exact hkeeps.started other (Multiset.mem_coe.mp hnew)
      · rw [Multiset.map_add, Multiset.sum_add, Multiset.map_coe, Multiset.sum_coe,
          add_left_comm, ← htotal₁, ← hout, add_comm, add_right_comm, add_right_comm]

/-- The tasks that an answer starts cost less than the one it ends. -/
def Shrinks (resume : τ → σ → σ × List τ) (inv : σ → Prop) (valid : σ → τ → Prop)
    (cost : τ → ℕ) : Prop :=
  ∀ s task, inv s → valid s task → ((resume task s).2.map cost).sum < cost task

/-- Answers to tasks with a cost come to an end, in whatever order they come. -/
theorem acc_of_shrinks {cost : τ → ℕ} (hkeeps : ∀ s task, inv s → valid s task →
      Keeps resume inv valid s task) (hshrinks : Shrinks resume inv valid cost) {s : σ}
    {pending : Multiset τ} (hinv : inv s) (hvalid : ∀ task ∈ pending, valid s task) :
    Acc (fun next config => Step resume config next) (s, pending) := by
  induction hcost : (pending.map cost).sum using Nat.strong_induction_on generalizing s pending with
  | _ n ih =>
    refine Acc.intro _ fun next hstep => ?_
    generalize hconfig : (s, pending) = config at hstep
    cases hstep with
    | answer s₁ task rest =>
      cases hconfig
      have htask := hvalid task (Multiset.mem_cons_self task rest)
      have hkept := hkeeps s task hinv htask
      refine ih _ ?_ hkept.inv (fun other hother => ?_) rfl
      · have hless := hshrinks s task hinv htask
        rw [← hcost, Multiset.map_add, Multiset.sum_add, Multiset.map_coe, Multiset.sum_coe,
          Multiset.map_cons, Multiset.sum_cons, add_comm]
        exact Nat.add_lt_add_right hless _
      · rcases Multiset.mem_add.mp hother with hold | hnew
        · exact hkept.others other (hvalid other (Multiset.mem_cons_of_mem hold))
        · exact hkept.started other (Multiset.mem_coe.mp hnew)

/-- Tasks with a cost can all be answered, in whatever order the first of them are. -/
theorem exists_settled [AddCommMonoid M] {out : σ → M} {weight : τ → M} {total : M}
    {cost : τ → ℕ} (h : Conserves resume inv valid out weight total)
    (hshrinks : Shrinks resume inv valid cost) {s : σ} {pending : Multiset τ} (hinv : inv s)
    (hvalid : ∀ task ∈ pending, valid s task) (htotal : out s + (pending.map weight).sum = total) :
    ∃ s', Run resume (s, pending) (s', 0) := by
  induction hcost : (pending.map cost).sum using Nat.strong_induction_on generalizing s pending with
  | _ n ih =>
    rcases pending.empty_or_exists_mem with rfl | ⟨task, htask⟩
    · exact ⟨s, .refl⟩
    · obtain ⟨rest, rfl⟩ := Multiset.exists_cons_of_mem htask
      have hstep : Step resume (s, task ::ₘ rest) _ := .answer s task rest
      obtain ⟨hinv', hvalid', htotal'⟩ := h.run (.single hstep) hinv hvalid htotal
      have hless := hshrinks s task hinv (hvalid task htask)
      have hlower : ((rest + ((resume task s).2 : Multiset τ)).map cost).sum < n := by
        rw [← hcost, Multiset.map_add, Multiset.sum_add, Multiset.map_coe, Multiset.sum_coe,
          Multiset.map_cons, Multiset.sum_cons, add_comm]
        exact Nat.add_lt_add_right hless _
      obtain ⟨s', hrun⟩ := ih _ hlower hinv' hvalid' htotal' rfl
      exact ⟨s', .head hstep hrun⟩

/-- Answer the oldest task first, as long as the fuel lasts. -/
def settle (resume : τ → σ → σ × List τ) : ℕ → σ → List τ → Option σ
  | _, s, [] => some s
  | 0, _, _ :: _ => none
  | fuel + 1, s, task :: tasks => settle resume fuel (resume task s).1 (tasks ++ (resume task s).2)

theorem run_of_settle {fuel : ℕ} {s s' : σ} {tasks : List τ}
    (h : settle resume fuel s tasks = some s') : Run resume (s, tasks) (s', 0) := by
  induction fuel generalizing s tasks with
  | zero =>
    cases tasks with
    | nil =>
      cases h
      exact .refl
    | cons task tasks => cases h
  | succ fuel ih =>
    cases tasks with
    | nil =>
      cases h
      exact .refl
    | cons task tasks =>
      have hrest := ih h
      rw [← Multiset.coe_add] at hrest
      exact .head (.answer s task tasks) hrest

end Tracker
