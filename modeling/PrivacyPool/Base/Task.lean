import PrivacyPool.Base.Budget

/-!
# Fallible tasks over a shared budget

A task is a program over a shared budget that may fail. Tasks run side by side
fail when one of them does. A specification of a task says what its results and
its errors satisfy for every answer to its draws, so it holds in every
interleaving and for every budget.

## Main definitions

* `Task`, `Task.parallel` — tasks, and several of them side by side
* `Task.Within` — a condition on the results and one on the errors
* `Task.Leads` — a condition on the results once the first draw sees a fresh budget

## Main results

* `Task.within_bind`, `Task.within_parallel` — the rules of the specifications
* `Task.Within.run` — a specification holds of every run
* `Task.leads_parallel` — one of several tasks gets the first draw
-/

namespace Budget

/-- A program over a shared budget that may fail. -/
abbrev Task (ε α : Type) := ExceptT ε Prog α

namespace Task

variable {ε α β τ : Type}

/-- `consume`: take the cost, and say whether there was enough. -/
def consume (cost : ℕ) : Task ε Bool := ExceptT.lift (Prog.draw cost)

/-- `consume_up_to`: how many items are paid for, and whether the budget ran out. -/
def consumeUpTo (maxItems cost : ℕ) : Task ε (ℕ × Bool) :=
  if maxItems = 0 then return (0, false) else do
    let items ← ExceptT.lift (Prog.drawUpTo maxItems cost)
    return (items, decide (items < maxItems))

/-- `reclaim`: return units to the budget. -/
def reclaim (count : ℕ) : Task ε Unit :=
  if 0 < count then ExceptT.lift (Prog.putBack count) else return ()

/-- Read slots. -/
def read (count : ℕ) : Task ε Unit := ExceptT.lift (Prog.readSlots count)

/-- Run tasks side by side, in the order of the turns. -/
def parallel (turns : List ℕ) (tasks : List (Task ε α)) : Task ε (List α) :=
  ExceptT.mk do
    let results ← interleave turns (tasks.map ExceptT.run)
    return results.mapM id

/-- The outcome of a task on a budget. -/
def outcome (task : Task ε α) (budget : ℕ) : Except ε α := (Prog.run task.run budget).1

/-- The outcome of a task on a budget, and what is left of it. -/
def runOn (task : Task ε α) (budget : ℕ) : Except ε α × ℕ := Prog.run task.run budget

@[simp] theorem runOn_pure (a : α) (budget : ℕ) :
    (pure a : Task ε α).runOn budget = (.ok a, budget) := rfl

theorem runOn_bind (task : Task ε α) (f : α → Task ε β) (budget : ℕ) :
    (task >>= f).runOn budget = match task.runOn budget with
      | (.ok a, left) => (f a).runOn left
      | (.error e, left) => (.error e, left) := by
  refine (Prog.run_bind budget).trans ?_
  unfold runOn ExceptT.run
  rcases Prog.run task budget with ⟨_ | a, left⟩
  · rfl
  · rfl

theorem runOn_ofExcept (x : Except ε α) (budget : ℕ) :
    (liftM x : Task ε α).runOn budget = (x, budget) := by
  cases x <;> rfl

theorem runOn_consume_of_le {cost budget : ℕ} (h : cost ≤ budget) :
    (consume cost : Task ε Bool).runOn budget = (.ok true, budget - cost) :=
  if_pos h

theorem runOn_consume_of_lt {cost budget : ℕ} (h : budget < cost) :
    (consume cost : Task ε Bool).runOn budget = (.ok false, budget) :=
  if_neg (Nat.not_le.mpr h)

theorem runOn_consumeUpTo (maxItems cost budget : ℕ) :
    (consumeUpTo maxItems cost : Task ε (ℕ × Bool)).runOn budget =
      (.ok (min (budget / cost) maxItems, decide (min (budget / cost) maxItems < maxItems)),
        budget - min (budget / cost) maxItems * cost) := by
  unfold consumeUpTo
  split_ifs with hzero
  · rw [hzero, Nat.min_zero, Nat.zero_mul]
    rfl
  · rfl

theorem runOn_reclaim (count budget : ℕ) :
    (reclaim count : Task ε Unit).runOn budget = (.ok (), budget + count) := by
  unfold reclaim
  split_ifs with hpos
  · rfl
  · rw [Nat.eq_zero_of_not_pos hpos]
    rfl

theorem runOn_read_bind (count : ℕ) (f : Unit → Task ε β) (budget : ℕ) :
    (read count >>= f).runOn budget = (f ()).runOn budget := rfl

/-! ### Specifications -/

/-- The outcome satisfies the condition on results or the one on errors. -/
def Outcome (E : ε → Prop) (Q : α → Prop) : Except ε α → Prop
  | .ok a => Q a
  | .error e => E e

/-- Whatever its draws are answered, the task ends with a result that satisfies
`Q` or an error that satisfies `E`; when the budget is said to be full, the answers
grant everything. -/
def Within (full : Prop) (E : ε → Prop) (Q : α → Prop) (task : Task ε α) : Prop :=
  Prog.Always full (Outcome E Q) task.run

variable {full : Prop} {E E' : ε → Prop} {Q Q' : α → Prop} {task : Task ε α}

theorem Outcome.mono {x : Except ε α} (h : Outcome E Q x) (hE : ∀ e, E e → E' e)
    (hQ : ∀ a, Q a → Q' a) : Outcome E' Q' x := by
  cases x with
  | ok a => exact hQ a h
  | error e => exact hE e h

theorem Within.mono (h : task.Within full E Q) (hQ : ∀ a, Q a → Q' a) : task.Within full E Q' :=
  Prog.Always.mono h fun _ hx => hx.mono (fun _ he => he) hQ

theorem Within.weaken (h : task.Within full E Q) (hE : ∀ e, E e → E' e) : task.Within full E' Q :=
  Prog.Always.mono h fun _ hx => hx.mono hE fun _ ha => ha

theorem within_true : task.Within full (fun _ => True) fun _ => True := by
  refine Prog.Always.mono (Prog.always_true _) fun x _ => ?_
  cases x with
  | ok a => trivial
  | error e => trivial

theorem within_pure {a : α} (h : Q a) : (pure a : Task ε α).Within full E Q := h

/-- A computation without draws. -/
theorem within_ofExcept {x : Except ε α} (h : Outcome E Q x) :
    (liftM x : Task ε α).Within full E Q := by
  cases x with
  | ok a => exact h
  | error e => exact h

theorem within_bind {f : α → Task ε β} {Q : β → Prop}
    (h : task.Within full E fun a => (f a).Within full E Q) : (task >>= f).Within full E Q := by
  refine Prog.always_bind.mpr (Prog.Always.mono h fun x hx => ?_)
  cases x with
  | ok a => exact hx
  | error e => exact hx

theorem within_consume {cost : ℕ} {Q : Bool → Prop} (h : ∀ ok, (full → ok = true) → Q ok) :
    (consume cost : Task ε Bool).Within full E Q :=
  fun ok hok => h ok hok

theorem within_consumeUpTo {maxItems cost : ℕ} {Q : ℕ × Bool → Prop}
    (h : ∀ items ≤ maxItems, (full → 0 < cost → items = maxItems) →
      Q (items, decide (items < maxItems))) :
    (consumeUpTo maxItems cost : Task ε (ℕ × Bool)).Within full E Q := by
  unfold consumeUpTo
  split_ifs with hzero
  · have hnone := h 0 (Nat.zero_le _) fun _ _ => hzero.symm
    rw [hzero] at hnone
    exact hnone
  · exact fun items hitems hall => h items hitems hall

theorem within_reclaim {count : ℕ} {Q : Unit → Prop} (h : Q ()) :
    (reclaim count : Task ε Unit).Within full E Q := by
  unfold reclaim
  split_ifs <;> exact h

theorem within_read {count : ℕ} {Q : Unit → Prop} (h : Q ()) :
    (read count : Task ε Unit).Within full E Q := h

theorem mapM_id_outcome {R : τ → α → Prop} {ts : List τ} {results : List (Except ε α)}
    (h : List.Forall₂ (fun t => Outcome E (R t)) ts results) :
    Outcome E (List.Forall₂ R ts) (results.mapM id) := by
  induction h with
  | nil => exact .nil
  | @cons t x ts results hx _ ih =>
    rw [List.mapM_cons]
    cases x with
    | error e => exact hx
    | ok a =>
      cases hrest : results.mapM id with
      | error e =>
        rw [hrest] at ih
        exact ih
      | ok as =>
        rw [hrest] at ih
        exact .cons hx ih

/-- Results are collected in their order. -/
theorem getElem?_of_mapM_id {results : List (Except ε α)} {as : List α}
    (h : results.mapM id = .ok as) {i : ℕ} {x : Except ε α} (hx : results[i]? = some x) :
    ∃ a, x = .ok a ∧ as[i]? = some a := by
  induction results generalizing as i with
  | nil => simp at hx
  | cons y results ih =>
    rw [List.mapM_cons] at h
    cases y with
    | error e => cases h
    | ok b =>
      cases hrest : results.mapM id with
      | error e =>
        rw [hrest] at h
        cases h
      | ok bs =>
        rw [hrest] at h
        obtain rfl : b :: bs = as := Except.ok.inj h
        cases i with
        | zero => exact ⟨b, (Option.some.inj hx).symm, rfl⟩
        | succ i => exact ih hrest hx

/-- Tasks side by side each keep their specification. -/
theorem within_parallel {turns : List ℕ} {ts : List τ} {f : τ → Task ε α} {R : τ → α → Prop}
    (h : ∀ t ∈ ts, (f t).Within full E (R t)) :
    (parallel turns (ts.map f)).Within full E (List.Forall₂ R ts) := by
  refine Prog.always_bind.mpr ?_
  rw [List.map_map]
  refine (Prog.always_interleave_map (R := fun t => Outcome E (R t)) h).mono fun results hall => ?_
  exact mapM_id_outcome hall

theorem parallel_nil (turns : List ℕ) : parallel turns ([] : List (Task ε α)) = pure [] := by
  have hinterleave : ∀ turns, interleave turns ([] : List (Prog (Except ε α))) = .done [] := by
    intro turns
    induction turns with
    | nil => rfl
    | cons turn turns ih => exact ih
  unfold parallel
  rw [List.map_nil, hinterleave]
  rfl

/-- A specification holds of every run. -/
theorem Within.run (h : task.Within False E Q) (budget : ℕ) : Outcome E Q (task.outcome budget) :=
  Prog.Always.run h budget

theorem Within.of_ok {budget : ℕ} {a : α} (h : task.Within False E Q)
    (hok : task.outcome budget = .ok a) : Q a := by
  have houtcome := h.run budget
  rw [hok] at houtcome
  exact houtcome

/-- What holds when everything is granted holds of every run on a large budget. -/
theorem Within.run_of_le (h : task.Within True E Q) :
    ∃ enough, ∀ budget, enough ≤ budget → Outcome E Q (task.outcome budget) :=
  Prog.Always.run_of_le h

/-! ### The first draw -/

/-- The results satisfy the condition once the first draw is answered from the given
budget, whatever the answers to the others are. -/
def Leads (budget : ℕ) (Q : α → Prop) (task : Task ε α) : Prop :=
  Prog.Leads budget (Outcome (fun _ => True) Q) task.run

variable {budget : ℕ}

theorem Leads.mono (h : task.Leads budget Q) (hQ : ∀ a, Q a → Q' a) : task.Leads budget Q' :=
  Prog.Leads.mono h fun _ hx => hx.mono (fun _ he => he) hQ

theorem Leads.of_ok (h : task.Leads budget Q) {a : α} (hok : task.outcome budget = .ok a) :
    Q a := by
  have houtcome := Prog.Leads.run h
  unfold outcome at hok
  rw [hok] at houtcome
  exact houtcome

theorem Leads.and (h : task.Leads budget Q) (h' : task.Within False E Q') :
    task.Leads budget fun a => Q a ∧ Q' a := by
  refine Prog.Leads.mono (Prog.Leads.and h h') fun x hx => ?_
  cases x with
  | ok a => exact hx
  | error e => trivial

theorem leads_pure {a : α} (h : Q a) : (pure a : Task ε α).Leads budget Q := h

/-- After a task that leads, any answers will do. -/
theorem leads_bind {f : α → Task ε β} {Q : β → Prop}
    (h : task.Leads budget fun a => (f a).Within False (fun _ => True) Q) :
    (task >>= f).Leads budget Q := by
  refine Prog.Leads.bind (Prog.Leads.mono h fun x hx => ?_)
  cases x with
  | ok a => exact hx
  | error e => trivial

theorem leads_pure_bind {f : α → Task ε β} {a : α} {Q : β → Prop} (h : (f a).Leads budget Q) :
    (pure a >>= f).Leads budget Q := h

theorem leads_read_bind {count : ℕ} {f : Unit → Task ε β} {Q : β → Prop}
    (h : (f ()).Leads budget Q) : (read count >>= f).Leads budget Q := h

theorem leads_consume {cost : ℕ} {Q : Bool → Prop} (hcost : cost ≤ budget) (h : Q true) :
    (consume cost : Task ε Bool).Leads budget Q := by
  change Q (decide (cost ≤ budget))
  rw [decide_eq_true hcost]
  exact h

theorem leads_consumeUpTo {maxItems cost : ℕ} {Q : ℕ × Bool → Prop} (hpos : 0 < cost)
    (hcost : cost ≤ budget)
    (h : ∀ items ≤ maxItems, (0 < maxItems → 0 < items) → Q (items, decide (items < maxItems))) :
    (consumeUpTo maxItems cost : Task ε (ℕ × Bool)).Leads budget Q := by
  unfold consumeUpTo
  split_ifs with hzero
  · have hnone := h 0 (Nat.zero_le _) fun hmax => absurd hzero (by omega)
    rw [hzero] at hnone
    exact hnone
  · refine h _ (min_le_right _ _) fun hmax => ?_
    have := Nat.div_pos hcost hpos
    omega

/-- Of several tasks one gets the first draw, whatever the turns. -/
theorem leads_parallel {turns : List ℕ} {ts : List τ} {f : τ → Task ε α} {R : τ → α → Prop}
    (hone : ts ≠ []) (h : ∀ t ∈ ts, (f t).Leads budget (R t)) :
    (parallel turns (ts.map f)).Leads budget fun results =>
      ∃ (i : ℕ) (t : τ) (a : α), ts[i]? = some t ∧ results[i]? = some a ∧ R t a := by
  refine Prog.Leads.bind ((Prog.leads_interleave (P := fun i x =>
    ∃ t, ts[i]? = some t ∧ Outcome (fun _ => True) (R t) x) ?_ ?_).mono ?_)
  · intro i p hp
    rw [List.map_map, List.getElem?_map] at hp
    obtain ⟨t, ht, rfl⟩ := Option.map_eq_some_iff.mp hp
    exact Prog.Leads.mono (h t (List.mem_of_getElem? ht)) fun x hx => ⟨t, ht, hx⟩
  · simpa using hone
  · rintro results ⟨i, x, hx, t, ht, houtcome⟩
    change Outcome _ _ (results.mapM id)
    cases hall : results.mapM id with
    | error e => trivial
    | ok as =>
      obtain ⟨a, rfl, ha⟩ := getElem?_of_mapM_id hall hx
      exact ⟨i, t, a, ht, ha, houtcome⟩

/-! ### One task first -/

/-- On every budget below the limit the task succeeds, and leaves no more than there was. -/
def Thrifty (limit : ℕ) (task : Task ε α) : Prop :=
  ∀ b < limit, ∃ a left, left ≤ b ∧ task.runOn b = (.ok a, left)

/-- For some cost the task has one result, whatever is left then. -/
def Affordable (task : Task ε α) : Prop :=
  ∃ cost a, ∀ left, task.runOn (cost + left) = (.ok a, left)

section Runs

variable {limit : ℕ} {ts : List (Task ε α)} {t : Task ε α} {a : α}

theorem thrifty_pure : (pure a : Task ε α).Thrifty limit := fun b _ => ⟨a, b, le_rfl, rfl⟩

theorem thrifty_bind {f : α → Task ε β} (h : t.Thrifty limit) (hf : ∀ a, (f a).Thrifty limit) :
    (t >>= f).Thrifty limit := by
  intro b hb
  obtain ⟨a, left, hle, hrun⟩ := h b hb
  obtain ⟨a', left', hle', hrun'⟩ := hf a left (hle.trans_lt hb)
  refine ⟨a', left', hle'.trans hle, ?_⟩
  rw [runOn_bind, hrun]
  exact hrun'

theorem thrifty_consume {cost : ℕ} : (consume cost : Task ε Bool).Thrifty limit := by
  intro b _
  by_cases hcost : cost ≤ b
  · exact ⟨true, b - cost, Nat.sub_le _ _, runOn_consume_of_le hcost⟩
  · exact ⟨false, b, le_rfl, runOn_consume_of_lt (Nat.lt_of_not_le hcost)⟩

theorem thrifty_read {count : ℕ} : (read count : Task ε Unit).Thrifty limit :=
  fun b _ => ⟨(), b, le_rfl, rfl⟩

theorem affordable_pure : (pure a : Task ε α).Affordable :=
  ⟨0, a, fun left => by rw [Nat.zero_add]; rfl⟩

theorem Affordable.bind {f : α → Task ε β} (h : t.Affordable) (hf : ∀ a, (f a).Affordable) :
    (t >>= f).Affordable := by
  obtain ⟨cost, a, hrun⟩ := h
  obtain ⟨cost', b, hrun'⟩ := hf a
  refine ⟨cost + cost', b, fun left => ?_⟩
  rw [runOn_bind, Nat.add_assoc, hrun (cost' + left)]
  exact hrun' left

theorem affordable_read {count : ℕ} : (read count : Task ε Unit).Affordable :=
  ⟨0, (), fun left => by rw [Nat.zero_add]; rfl⟩

/-- A draw that is paid for. -/
theorem affordable_consume_bind {cost : ℕ} {f : Bool → Task ε β} (hf : (f true).Affordable) :
    (consume cost >>= f).Affordable := by
  obtain ⟨cost', b, hrun⟩ := hf
  refine ⟨cost + cost', b, fun left => ?_⟩
  rw [runOn_bind, Nat.add_assoc, runOn_consume_of_le (Nat.le_add_right _ _),
    Nat.add_sub_cancel_left]
  exact hrun left

/-- One of several programs takes as many turns as it needs, before all others. -/
theorem run_interleave_first {p : Prog α} {ps : List (Prog α)} {i : ℕ} (hp : ps[i]? = some p)
    (budget : ℕ) : ∃ turns, Prog.run (interleave (List.replicate turns i) ps) budget =
      Prog.run (collect (ps.set i (.done (p.run budget).1))) (p.run budget).2 := by
  have hset : ∀ q : Prog α, (ps.set i q)[i]? = some q := fun q =>
    List.getElem?_set_self (List.getElem?_eq_some_iff.mp hp).1
  -- One turn for each operation of the program.
  induction p generalizing ps budget with
  | done a =>
    refine ⟨0, ?_⟩
    obtain ⟨hlt, hget⟩ := List.getElem?_eq_some_iff.mp hp
    have hsame : ps.set i (.done a) = ps := by rw [← hget, List.set_getElem_self]
    simp only [Prog.run]
    rw [hsame]
    rfl
  | consume cost next ih =>
    by_cases hcost : cost ≤ budget
    · obtain ⟨turns, hturns⟩ := ih true (hset (next true)) (budget - cost)
        (fun q => by rw [List.set_set]; exact hset q)
      refine ⟨turns + 1, ?_⟩
      rw [List.replicate_succ, interleave, hp]
      simp only [Prog.run, if_pos hcost]
      rw [hturns, List.set_set]
    · obtain ⟨turns, hturns⟩ := ih false (hset (next false)) budget
        (fun q => by rw [List.set_set]; exact hset q)
      refine ⟨turns + 1, ?_⟩
      rw [List.replicate_succ, interleave, hp]
      simp only [Prog.run, if_neg hcost]
      rw [hturns, List.set_set]
  | consumeUpTo maxItems cost next ih =>
    obtain ⟨turns, hturns⟩ := ih _ (hset (next (min (budget / cost) maxItems)))
      (budget - min (budget / cost) maxItems * cost) (fun q => by rw [List.set_set]; exact hset q)
    refine ⟨turns + 1, ?_⟩
    rw [List.replicate_succ, interleave, hp]
    simp only [Prog.run]
    rw [hturns, List.set_set]
  | reclaim count next ih =>
    obtain ⟨turns, hturns⟩ := ih (hset next) (budget + count)
      (fun q => by rw [List.set_set]; exact hset q)
    refine ⟨turns + 1, ?_⟩
    rw [List.replicate_succ, interleave, hp]
    simp only [Prog.run]
    rw [hturns, List.set_set]
  | read count next ih =>
    obtain ⟨turns, hturns⟩ := ih (hset next) budget (fun q => by rw [List.set_set]; exact hset q)
    refine ⟨turns + 1, ?_⟩
    rw [List.replicate_succ, interleave, hp]
    simp only [Prog.run]
    rw [hturns, List.set_set]

/-- Programs one after the other succeed when each does. -/
theorem run_collect_thrifty {ps : List (Prog (Except ε α))}
    (h : ∀ p ∈ ps, Thrifty limit (ExceptT.mk p)) {budget : ℕ} (hbudget : budget < limit) :
    ∃ (as : List α) (left : ℕ), left ≤ budget ∧ (collect ps).run budget = (as.map .ok, left) := by
  induction ps generalizing budget with
  | nil => exact ⟨[], budget, le_rfl, rfl⟩
  | cons p ps ih =>
    obtain ⟨hp, hps⟩ := List.forall_mem_cons.mp h
    obtain ⟨a, left, hle, hrun⟩ := hp budget hbudget
    obtain ⟨as, left', hle', hrun'⟩ := ih hps (hle.trans_lt hbudget)
    have hrun : p.run budget = (.ok a, left) := hrun
    refine ⟨a :: as, left', hle'.trans hle, ?_⟩
    rw [collect, Prog.run_bind, hrun, Prog.run_bind, hrun']
    rfl

theorem mapM_id_map_ok (as : List α) :
    (as.map (Except.ok : α → Except ε α)).mapM id = .ok as := by
  induction as with
  | nil => rfl
  | cons a as ih =>
    rw [List.map_cons, List.mapM_cons, ih]
    rfl

/-- The results of tasks that run side by side, once their programs succeed. -/
theorem runOn_parallel {turns : List ℕ} {budget left : ℕ} {as : List α}
    (h : Prog.run (interleave turns (ts.map ExceptT.run)) budget = (as.map .ok, left)) :
    (parallel turns ts).runOn budget = (.ok as, left) := by
  refine (Prog.run_bind budget).trans ?_
  rw [h]
  exact congrArg (·, left) (mapM_id_map_ok as)

theorem thrifty_parallel (h : ∀ t ∈ ts, t.Thrifty limit) : (parallel [] ts).Thrifty limit := by
  intro budget hbudget
  have hall : ∀ p ∈ ts.map ExceptT.run, Thrifty limit (ExceptT.mk p) :=
    List.forall_mem_map.mpr h
  obtain ⟨as, left, hle, hrun⟩ := run_collect_thrifty hall hbudget
  exact ⟨as, left, hle, runOn_parallel hrun⟩

/-- One of several tasks runs before all others, which make do with what it leaves. -/
theorem runOn_parallel_first {i budget left : ℕ} (ht : ts[i]? = some t)
    (hrun : t.runOn budget = (.ok a, left)) (hleft : left < limit)
    (hothers : ∀ j u, j ≠ i → ts[j]? = some u → u.Thrifty limit) :
    ∃ turns as left', left' ≤ left ∧ (parallel turns ts).runOn budget = (.ok as, left') ∧
      as[i]? = some a := by
  have hi : (ts.map ExceptT.run)[i]? = some t.run := by rw [List.getElem?_map, ht]; rfl
  have hrun : t.run.run budget = (.ok a, left) := hrun
  obtain ⟨turns, hturns⟩ := run_interleave_first hi budget
  rw [hrun] at hturns
  have hall : ∀ p ∈ (ts.map ExceptT.run).set i (.done (.ok a)), Thrifty limit (ExceptT.mk p) := by
    intro p hp
    obtain ⟨j, hj⟩ := List.getElem?_of_mem hp
    rw [List.getElem?_set] at hj
    split_ifs at hj with heq hlt
    · obtain rfl := Option.some.inj hj
      exact fun b _ => ⟨a, b, le_rfl, rfl⟩
    · rw [List.getElem?_map] at hj
      obtain ⟨u, hu, rfl⟩ := Option.map_eq_some_iff.mp hj
      exact hothers j u (Ne.symm heq) hu
  obtain ⟨as, left', hle, hcollect⟩ := run_collect_thrifty hall hleft
  refine ⟨.replicate turns i, as, left', hle, runOn_parallel (hturns.trans hcollect), ?_⟩
  -- The result of the first task is its own.
  have hnone : List.Forall₂ (fun p Q => Prog.Always False Q p) (ts.map ExceptT.run)
      ((ts.map ExceptT.run).map fun _ _ => True) := by
    rw [List.forall₂_map_right_iff]
    exact List.forall₂_same.mpr fun p _ => Prog.always_true p
  have hdone : Prog.Always False (· = .ok a) (Prog.done (.ok a : Except ε α)) := rfl
  have hresults := (Prog.always_collect (Prog.forall₂_set_set (i := i) hnone hdone)).run left
  rw [hcollect] at hresults
  have hlt := (List.getElem?_eq_some_iff.mp hi).1
  obtain ⟨x, hx, rfl⟩ := Prog.forall₂_getElem? hresults.flip
    (List.getElem?_set_self (by rwa [List.length_map]))
  obtain ⟨b, hb, heq⟩ := Option.map_eq_some_iff.mp (List.getElem?_map ▸ hx)
  rw [hb, Except.ok.inj heq]

end Runs

end Task

end Budget
