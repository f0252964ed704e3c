import PrivacyPool.Sdk.RateLimiter

/-!
# How many calls are in progress

A woken task takes its place one microtask after the counter was lowered. A call of `run` in
between finds the place free and takes it as well. As long as no call falls into this gap, no more
operations are in progress than the limiter was made for; and in every run a task waits only
while they are that many, or another one is about to be woken.

## Main definitions

* `Limiter.Sound` — the bound is kept, and no task waits without need
* `Limiter.InGap` — places are promised to woken tasks and still look free

## Main results

* `limiter_sound` — a run without calls in the gap is sound
-/

namespace PrivacyPool.Sdk

variable {τ : Type} {concurrency : ℕ} {s t : Limiter τ}

namespace Limiter

/-- No more operations are in progress than allowed; and when a task waits while fewer are, one
is about to be woken. -/
structure Sound (concurrency : ℕ) (s : Limiter τ) : Prop where
  inProgress_le : s.inProgress.length ≤ concurrency
  not_stalled : s.queue ≠ [] → s.inProgress.length < concurrency → 0 < s.endings + s.wakings

/-- The counter is below capacity, but not together with the tasks that were woken. -/
def InGap (concurrency : ℕ) (s : Limiter τ) : Prop :=
  s.active < concurrency ∧ concurrency ≤ s.active + s.wakings

/-- A step in which `run` is not called in the gap. -/
def CalmStep [DecidableEq τ] (concurrency : ℕ) (event : LimiterEvent τ) (s t : Limiter τ) : Prop :=
  s.step concurrency event = some t ∧ ∀ task, event = .run task → ¬s.InGap concurrency

/-- In every run a task waits only when it has to. -/
theorem Counted.not_stalled (h : s.Counted concurrency) (hqueue : s.queue ≠ [])
    (hfew : s.inProgress.length < concurrency) : 0 < s.endings + s.wakings := by
  have hactive := h.active_eq
  have hfull := h.full hqueue
  omega

/-- The end of an operation hands its place on. -/
theorem finish_active_add_wakings_le (hactive : 0 < s.active) :
    s.finish.active + s.finish.wakings ≤ s.active + s.wakings := by
  rw [finish_active]
  rcases s.finish_wakings with ⟨-, hsame⟩ | ⟨-, hwoken⟩
  · omega
  · omega

/-- A step outside the gap keeps the places that are taken or promised within the bound. -/
theorem CalmStep.active_add_wakings_le [DecidableEq τ] {event : LimiterEvent τ} (hcounted : s.Counted concurrency)
    (hbound : s.active + s.wakings ≤ concurrency) (h : CalmStep concurrency event s t) :
    t.active + t.wakings ≤ concurrency := by
  obtain ⟨hstep, hcalm⟩ := h
  have hactive := hcounted.active_eq
  cases event with
  | run task =>
    obtain rfl := Option.some.inj hstep
    unfold Limiter.run
    split_ifs with hfull
    · exact hbound
    · rw [start_active, start_wakings]
      -- Outside the gap no waking is on its way when a task starts at once.
      have hgap := hcalm task rfl
      unfold InGap at hgap
      omega
  | settle task =>
    obtain ⟨-, heq⟩ := Option.ite_none_right_eq_some.mp hstep
    obtain rfl := Option.some.inj heq
    rw [schedule_wakings]
    exact hbound
  | throws task =>
    obtain ⟨hmem, heq⟩ := Option.ite_none_right_eq_some.mp hstep
    obtain rfl := Option.some.inj heq
    have hpos := List.length_pos_of_mem hmem
    refine Nat.le_trans (finish_active_add_wakings_le ?_) hbound
    change 0 < s.active
    omega
  | schedule =>
    obtain rfl := Option.some.inj hstep
    rw [schedule_wakings]
    exact hbound
  | tick =>
    unfold Limiter.step at hstep
    dsimp only at hstep
    unfold endings at hactive
    unfold wakings at hbound
    split at hstep
    · cases hstep
    · rename_i task microtasks hjobs
      obtain rfl := Option.some.inj hstep
      rw [hjobs, List.countP_cons_of_pos rfl] at hactive
      rw [hjobs, List.countP_cons_of_neg Bool.false_ne_true] at hbound
      refine Nat.le_trans (finish_active_add_wakings_le ?_) hbound
      change 0 < s.active
      omega
    -- A waking takes the place that it was promised.
    · rename_i task microtasks hjobs
      obtain rfl := Option.some.inj hstep
      rw [hjobs, List.countP_cons_of_pos rfl] at hbound
      rw [start_active, start_wakings, Nat.add_right_comm]
      exact hbound
    · rename_i microtasks hjobs
      obtain rfl := Option.some.inj hstep
      rw [hjobs, List.countP_cons_of_neg Bool.false_ne_true] at hbound
      exact hbound

end Limiter

open Limiter

/-- **The limiter.** In a run in which `run` is not called in the gap, every state is sound. -/
theorem limiter_sound [DecidableEq τ] {events : List (LimiterEvent τ)}
    (trace : Trace (CalmStep concurrency) {} events s) : s.Sound concurrency := by
  obtain ⟨hcounted, hbound⟩ := trace.invariant
    (fun s => s.Counted concurrency ∧ s.active + s.wakings ≤ concurrency)
    (fun event s t ⟨hcounted, hbound⟩ hstep =>
      ⟨hcounted.step hstep.1, hstep.active_add_wakings_le hcounted hbound⟩)
    ⟨counted_init, Nat.zero_le concurrency⟩
  have hactive := hcounted.active_eq
  exact ⟨by omega, hcounted.not_stalled⟩

/-- Of two tasks under a bound of one, the second starts when the first has ended. -/
theorem limiter_sound_sample : (⟨1, [], [2], []⟩ : Limiter ℕ).Sound 1 := by
  have hcalm : ∀ {task : ℕ} {event : LimiterEvent ℕ} {s : Limiter ℕ}, s.wakings = 0 →
      event = .run task → ¬s.InGap 1 := by
    intro task event s hnone _ ⟨hfree, hfull⟩
    omega
  have htrace : Trace (CalmStep 1) {} [.run 1, .run 2, .settle 1, .tick, .tick]
      (⟨1, [], [2], []⟩ : Limiter ℕ) := by
    refine .cons ⟨rfl, fun _ => hcalm rfl⟩ (.cons ⟨rfl, fun _ => hcalm rfl⟩ ?_)
    exact .cons ⟨rfl, nofun⟩ (.cons ⟨rfl, nofun⟩ (.cons ⟨rfl, nofun⟩ (.nil _)))
  exact limiter_sound htrace

/-- Other code that waits for the first operation as well runs between the end of its task and
the second task, and calls `run`: then two operations are in progress under a bound of one. -/
theorem limiter_exceeds : ¬∀ (events : List (LimiterEvent ℕ)) (s : Limiter ℕ),
    Trace (fun event s t => s.step 1 event = some t) {} events s → s.Sound 1 := by
  intro h
  have hrun : Trace (fun event (s t : Limiter ℕ) => s.step 1 event = some t) {}
      [.run 1, .run 2, .settle 1, .schedule, .tick, .tick, .run 3, .tick] ⟨2, [], [2, 3], []⟩ :=
    .cons rfl (.cons rfl (.cons rfl (.cons rfl (.cons rfl (.cons rfl (.cons rfl
      (.cons rfl (.nil _))))))))
  exact absurd (h _ _ hrun).inProgress_le (by decide)

end PrivacyPool.Sdk
