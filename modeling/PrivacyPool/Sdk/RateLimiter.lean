import Mathlib.Data.List.Count
import PrivacyPool.Base.Trace

/-!
# The limiter of the RPC calls

`rate-limiter.ts`: a call of `run` that finds the limiter at capacity waits for its turn. When an
operation ends the counter is lowered and the first waiting task is woken; the counter is raised
again when this task goes on, in a later microtask. Calls of `run` may come at any moment: from
the operations themselves, from other microtasks, or between them.

## Main definitions

* `Limiter`, `Limiter.step` — the limiter, with what is in progress and what is to run
* `Limiter.Counted` — what the counter and the queue say about them

## Main results

* `Limiter.Counted.step` — every step keeps the counts
-/

namespace PrivacyPool.Sdk

variable {τ : Type}

/-- A job of the microtask queue. -/
inductive Microtask (τ : Type)
  /-- A task goes on after its operation: the `finally` block. -/
  | ended (task : τ)
  /-- A task goes on after it was woken. -/
  | woken (task : τ)
  /-- A job of other code. -/
  | other
  deriving DecidableEq, Repr

namespace Microtask

/-- A task goes on after its operation. -/
def isEnded : Microtask τ → Bool
  | ended _ => true
  | _ => false

/-- A task goes on after it was woken. -/
def isWoken : Microtask τ → Bool
  | woken _ => true
  | _ => false

end Microtask

/-- The state of `createLimiter`, with what its tasks are doing. -/
structure Limiter (τ : Type) where
  active : ℕ := 0
  /-- The tasks that wait, in the order of their calls. -/
  queue : List τ := []
  /-- The tasks whose operation has started and has not settled. -/
  inProgress : List τ := []
  microtasks : List (Microtask τ) := []
  deriving DecidableEq, Repr

/-- What can happen next. -/
inductive LimiterEvent (τ : Type)
  /-- `run` is called with a new task. -/
  | run (task : τ)
  /-- The promise of an operation is fulfilled or rejected. -/
  | settle (task : τ)
  /-- An operation throws before it returns a promise. -/
  | throws (task : τ)
  /-- Other code queues a microtask. -/
  | schedule
  /-- The next microtask runs. -/
  | tick
  deriving DecidableEq, Repr

namespace Limiter

/-- Queue a microtask. -/
def schedule (job : Microtask τ) (s : Limiter τ) : Limiter τ :=
  { s with microtasks := s.microtasks ++ [job] }

/-- `active++`, and the call of the operation. -/
def start (task : τ) (s : Limiter τ) : Limiter τ :=
  { s with active := s.active + 1, inProgress := task :: s.inProgress }

/-- Up to the first `await`: wait at capacity, or start. -/
def run (concurrency : ℕ) (task : τ) (s : Limiter τ) : Limiter τ :=
  if concurrency ≤ s.active then { s with queue := s.queue ++ [task] } else s.start task

/-- The `finally` block: `active--`, and wake the next waiting task. -/
def finish (s : Limiter τ) : Limiter τ :=
  match s.queue with
  | [] => { s with active := s.active - 1 }
  | task :: queue => { s with active := s.active - 1, queue }.schedule (.woken task)

/-- One step, when it can happen. -/
def step [DecidableEq τ] (concurrency : ℕ) (event : LimiterEvent τ) (s : Limiter τ) : Option (Limiter τ) :=
  match event with
  | .run task => some (s.run concurrency task)
  -- A task that settles gives its slot back in a later microtask; one that throws does so at once.
  | .settle task =>
    if task ∈ s.inProgress then
      some ({ s with inProgress := s.inProgress.erase task }.schedule (.ended task))
    else none
  | .throws task =>
    if task ∈ s.inProgress then some { s with inProgress := s.inProgress.erase task }.finish
    else none
  | .schedule => some (s.schedule .other)
  | .tick =>
    match s.microtasks with
    | [] => none
    | .ended _ :: microtasks => some { s with microtasks }.finish
    | .woken task :: microtasks => some ({ s with microtasks }.start task)
    | .other :: microtasks => some { s with microtasks }

/-- The operations that have settled, and whose task has not gone on. -/
def endings (s : Limiter τ) : ℕ := s.microtasks.countP Microtask.isEnded

/-- The tasks that were woken and have not gone on. -/
def wakings (s : Limiter τ) : ℕ := s.microtasks.countP Microtask.isWoken

/-! ### Counts -/

section Counts

variable (job : Microtask τ) (task : τ) (s : Limiter τ)

@[simp] theorem schedule_endings :
    (s.schedule job).endings = s.endings + if job.isEnded then 1 else 0 := by
  unfold schedule endings
  rw [List.countP_append, List.countP_singleton]

@[simp] theorem schedule_wakings :
    (s.schedule job).wakings = s.wakings + if job.isWoken then 1 else 0 := by
  unfold schedule wakings
  rw [List.countP_append, List.countP_singleton]

@[simp] theorem start_active : (s.start task).active = s.active + 1 := rfl

@[simp] theorem start_queue : (s.start task).queue = s.queue := rfl

@[simp] theorem start_length : (s.start task).inProgress.length = s.inProgress.length + 1 := rfl

@[simp] theorem start_endings : (s.start task).endings = s.endings := rfl

@[simp] theorem start_wakings : (s.start task).wakings = s.wakings := rfl

@[simp] theorem finish_active : s.finish.active = s.active - 1 := by
  unfold finish
  split <;> rfl

@[simp] theorem finish_inProgress : s.finish.inProgress = s.inProgress := by
  unfold finish
  split <;> rfl

@[simp] theorem finish_endings : s.finish.endings = s.endings := by
  unfold finish
  split
  · rfl
  · rw [schedule_endings]
    rfl

/-- The end of an operation wakes a task when one waits. -/
theorem finish_wakings :
    s.finish.queue = [] ∧ s.finish.wakings = s.wakings ∨
      s.queue ≠ [] ∧ s.finish.wakings = s.wakings + 1 := by
  unfold finish
  cases hqueue : s.queue with
  | nil => exact .inl ⟨rfl, rfl⟩
  | cons task queue =>
    refine .inr ⟨List.cons_ne_nil _ _, ?_⟩
    dsimp only
    rw [schedule_wakings]
    rfl

end Counts

/-- The counter counts the operations that are in progress or have just settled. While tasks
wait, it is at capacity together with the tasks that were woken. -/
structure Counted (concurrency : ℕ) (s : Limiter τ) : Prop where
  active_eq : s.active = s.inProgress.length + s.endings
  full : s.queue ≠ [] → concurrency ≤ s.active + s.wakings

section Counted

variable {concurrency : ℕ} {task : τ} {s t : Limiter τ}

theorem counted_init : (({} : Limiter τ)).Counted concurrency :=
  ⟨rfl, fun h => absurd rfl h⟩

theorem Counted.run (h : s.Counted concurrency) : (s.run concurrency task).Counted concurrency := by
  unfold Limiter.run
  split_ifs with hfull
  · exact ⟨h.active_eq, fun _ => Nat.le_add_right_of_le hfull⟩
  · refine ⟨?_, fun hqueue => ?_⟩
    · have hactive := h.active_eq
      rw [start_active, start_length, start_endings]
      omega
    · have hwait := h.full hqueue
      rw [start_active, start_wakings]
      omega

/-- A state in which an operation has settled, up to its `finally` block. -/
theorem Counted.finish (hactive : s.active = s.inProgress.length + s.endings + 1)
    (hfull : s.queue ≠ [] → concurrency ≤ s.active + s.wakings) : s.finish.Counted concurrency := by
  refine ⟨?_, fun hqueue => ?_⟩
  · rw [finish_active, finish_inProgress, finish_endings]
    omega
  · rw [finish_active]
    rcases s.finish_wakings with ⟨hnone, -⟩ | ⟨hsome, hwoken⟩
    · exact absurd hnone hqueue
    · have hwait := hfull hsome
      omega

/-- Every step keeps the counts. -/
theorem Counted.step [DecidableEq τ] {event : LimiterEvent τ} (h : s.Counted concurrency)
    (hstep : s.step concurrency event = some t) : t.Counted concurrency := by
  have hactive := h.active_eq
  have hfull := h.full
  cases event with
  | run task =>
    obtain rfl := Option.some.inj hstep
    exact h.run
  -- The task ends, and its slot is given back by the microtask that this schedules.
  | settle task =>
    obtain ⟨hmem, heq⟩ := Option.ite_none_right_eq_some.mp hstep
    obtain rfl := Option.some.inj heq
    have hlength := List.length_erase_of_mem hmem
    have hpos := List.length_pos_of_mem hmem
    refine ⟨?_, fun hqueue => ?_⟩
    · rw [schedule_endings]
      change s.active = (s.inProgress.erase task).length + (s.endings + 1)
      omega
    · rw [schedule_wakings]
      exact hfull hqueue
  | throws task =>
    obtain ⟨hmem, heq⟩ := Option.ite_none_right_eq_some.mp hstep
    obtain rfl := Option.some.inj heq
    have hlength := List.length_erase_of_mem hmem
    have hpos := List.length_pos_of_mem hmem
    refine Counted.finish ?_ hfull
    change s.active = (s.inProgress.erase task).length + s.endings + 1
    omega
  | schedule =>
    obtain rfl := Option.some.inj hstep
    refine ⟨?_, fun hqueue => ?_⟩
    · rw [schedule_endings]
      exact hactive
    · rw [schedule_wakings]
      exact hfull hqueue
  | tick =>
    unfold Limiter.step at hstep
    dsimp only at hstep
    unfold endings at hactive
    unfold wakings at hfull
    split at hstep
    · cases hstep
    -- A task that has ended gives its slot back.
    · rename_i task microtasks hjobs
      obtain rfl := Option.some.inj hstep
      rw [hjobs, List.countP_cons_of_pos rfl] at hactive
      rw [hjobs, List.countP_cons_of_neg Bool.false_ne_true] at hfull
      exact Counted.finish hactive hfull
    -- A woken task takes its slot.
    · rename_i task microtasks hjobs
      obtain rfl := Option.some.inj hstep
      rw [hjobs, List.countP_cons_of_neg Bool.false_ne_true] at hactive
      rw [hjobs, List.countP_cons_of_pos rfl] at hfull
      refine ⟨?_, fun hqueue => ?_⟩
      · rw [start_active, start_length, start_endings, Nat.add_right_comm]
        exact congrArg Nat.succ hactive
      · rw [start_active, start_wakings, Nat.add_right_comm]
        exact hfull hqueue
    · rename_i microtasks hjobs
      obtain rfl := Option.some.inj hstep
      rw [hjobs, List.countP_cons_of_neg Bool.false_ne_true] at hactive hfull
      exact ⟨hactive, hfull⟩

end Counted

end Limiter

end PrivacyPool.Sdk
