import Mathlib.Algebra.GroupWithZero.Nat
import PrivacyPool.Base.Task

/-!
# Programs that pay for what they read

A program draws on a shared budget and reads slots. Whatever its draws are answered, it is to
read no more than what it has taken from the budget and not put back. This is a condition on the
program alone, it adds up when programs run side by side, and in a run it bounds the reads and
the counter at every moment.

## Main definitions

* `Meter` — what a run has done so far
* `Prog.meterRun`, `Prog.moments` — a run with its meter, and every moment of it
* `Prog.Pays` — a condition on the result and on what is charged but not read
* `Task.Covered` — a task pays for what it reads

## Main results

* `Prog.pays_interleave` — what programs side by side are charged adds up
* `Prog.Pays.meterRun`, `Prog.Pays.moments` — at every moment of a run the reads are paid
* `Task.runOn_eq_meterOn` — the meter of a run goes with its result and what it leaves
-/

namespace Budget

universe u

/-- What a run has done so far: the counter, all that it has taken from it and put back, and the
slots that it has read. -/
structure Meter where
  left : ℕ
  taken : ℕ
  returned : ℕ
  reads : ℕ
  deriving DecidableEq, Repr

namespace Meter

/-- The meter at the start of a run. -/
def new (budget : ℕ) : Meter := ⟨budget, 0, 0, 0⟩

/-- Take from the counter. -/
def take (meter : Meter) (count : ℕ) : Meter :=
  { meter with left := meter.left - count, taken := meter.taken + count }

/-- Put back into the counter. -/
def giveBack (meter : Meter) (count : ℕ) : Meter :=
  { meter with left := meter.left + count, returned := meter.returned + count }

/-- Read slots. -/
def countReads (meter : Meter) (count : ℕ) : Meter :=
  { meter with reads := meter.reads + count }

/-- Nothing is taken that was not left, and of what is taken a surplus is neither read nor put
back. -/
structure Paid (budget surplus : ℕ) (meter : Meter) : Prop where
  left_eq : meter.left + meter.taken = budget + meter.returned
  taken_eq : meter.taken = meter.returned + meter.reads + surplus

/-- Nothing is taken that was not left, and what is read or put back has been taken. -/
structure Solvent (budget : ℕ) (meter : Meter) : Prop where
  left_eq : meter.left + meter.taken = budget + meter.returned
  covered : meter.returned + meter.reads ≤ meter.taken

/-- Some of the reads are not paid for, all others are. -/
def Owes (budget unpaid : ℕ) (meter : Meter) : Prop :=
  ∃ reads, meter.reads = reads + unpaid ∧ ({ meter with reads } : Meter).Solvent budget

variable {meter : Meter} {budget surplus count : ℕ}

theorem Solvent.countReads_owes (h : meter.Solvent budget) (count : ℕ) :
    (meter.countReads count).Owes budget count :=
  ⟨meter.reads, rfl, h⟩

theorem Paid.solvent (h : meter.Paid budget surplus) : meter.Solvent budget :=
  ⟨h.left_eq, h.taken_eq ▸ Nat.le_add_right _ _⟩

theorem paid_new (budget : ℕ) : (new budget).Paid budget 0 := ⟨rfl, rfl⟩

theorem Paid.take (h : meter.Paid budget surplus) (hcount : count ≤ meter.left) :
    (meter.take count).Paid budget (surplus + count) := by
  obtain ⟨hleft, htaken⟩ := h
  exact ⟨by simp only [Meter.take]; omega, by simp only [Meter.take]; omega⟩

theorem Paid.giveBack (h : meter.Paid budget surplus) (hcount : count ≤ surplus) :
    (meter.giveBack count).Paid budget (surplus - count) := by
  obtain ⟨hleft, htaken⟩ := h
  exact ⟨by simp only [Meter.giveBack]; omega, by simp only [Meter.giveBack]; omega⟩

theorem Paid.countReads (h : meter.Paid budget surplus) (hcount : count ≤ surplus) :
    (meter.countReads count).Paid budget (surplus - count) := by
  obtain ⟨hleft, htaken⟩ := h
  exact ⟨hleft, by simp only [Meter.countReads]; omega⟩

end Meter

namespace Prog

variable {α β : Type u}

theorem bind_bind {γ : Type u} (p : Prog α) (f : α → Prog β) (g : β → Prog γ) :
    (p.bind f).bind g = p.bind fun a => (f a).bind g := by
  induction p with
  | done a => rfl
  | consume cost next ih => exact congrArg (consume cost) (funext ih)
  | consumeUpTo maxItems cost next ih => exact congrArg (consumeUpTo maxItems cost) (funext ih)
  | reclaim count next ih => exact congrArg (reclaim count) ih
  | read count next ih => exact congrArg (read count) ih

/-! ### Runs -/

/-- Run a program: its result, and what the run has done. -/
def meterRun : Prog α → Meter → α × Meter
  | done a, meter => (a, meter)
  | consume cost next, meter =>
    if cost ≤ meter.left then (next true).meterRun (meter.take cost)
    else (next false).meterRun meter
  | consumeUpTo maxItems cost next, meter =>
    let got := min (meter.left / cost) maxItems
    (next got).meterRun (meter.take (got * cost))
  | reclaim count next, meter => next.meterRun (meter.giveBack count)
  | read count next, meter => next.meterRun (meter.countReads count)

/-- What a run has done after each of its operations. -/
def moments : Prog α → Meter → List Meter
  | done _, _ => []
  | consume cost next, meter =>
    if cost ≤ meter.left then meter.take cost :: (next true).moments (meter.take cost)
    else meter :: (next false).moments meter
  | consumeUpTo maxItems cost next, meter =>
    let got := min (meter.left / cost) maxItems
    meter.take (got * cost) :: (next got).moments (meter.take (got * cost))
  | reclaim count next, meter => meter.giveBack count :: next.moments (meter.giveBack count)
  | read count next, meter => meter.countReads count :: next.moments (meter.countReads count)

/-- A run leaves what its meter says. -/
theorem run_eq_meterRun (p : Prog α) (meter : Meter) :
    p.run meter.left = ((p.meterRun meter).1, (p.meterRun meter).2.left) := by
  induction p generalizing meter with
  | done a => rfl
  | consume cost next ih =>
    simp only [run, meterRun]
    split_ifs
    · exact ih true (meter.take cost)
    · exact ih false meter
  | consumeUpTo maxItems cost next ih => exact ih _ (meter.take _)
  | reclaim count next ih => exact ih (meter.giveBack count)
  | read count next ih => exact ih (meter.countReads count)

theorem meterRun_bind {p : Prog α} {f : α → Prog β} (meter : Meter) :
    (p.bind f).meterRun meter = (f (p.meterRun meter).1).meterRun (p.meterRun meter).2 := by
  induction p generalizing meter with
  | done a => rfl
  | consume cost next ih =>
    simp only [bind, meterRun]
    split_ifs
    · exact ih true _
    · exact ih false _
  | consumeUpTo maxItems cost next ih => exact ih _ _
  | reclaim count next ih | read count next ih => exact ih _

theorem moments_bind {p : Prog α} {f : α → Prog β} (meter : Meter) :
    (p.bind f).moments meter =
      p.moments meter ++ (f (p.meterRun meter).1).moments (p.meterRun meter).2 := by
  induction p generalizing meter with
  | done a => rfl
  | consume cost next ih =>
    simp only [bind, meterRun, moments]
    split_ifs
    · exact congrArg _ (ih true _)
    · exact congrArg _ (ih false _)
  | consumeUpTo maxItems cost next ih => exact congrArg _ (ih _ _)
  | reclaim count next ih | read count next ih => exact congrArg _ (ih _)

/-! ### Charges -/

/-- From a surplus of what is charged over what is read on, and whatever its draws are answered,
the program reads and puts back no more than it has been charged, and ends with a result and a
surplus that satisfy `Q`. -/
def Pays (Q : α → ℕ → Prop) : ℕ → Prog α → Prop
  | surplus, done a => Q a surplus
  | surplus, consume cost next => Pays Q (surplus + cost) (next true) ∧ Pays Q surplus (next false)
  | surplus, consumeUpTo maxItems cost next =>
    ∀ got ≤ maxItems, Pays Q (surplus + got * cost) (next got)
  | surplus, reclaim count next => count ≤ surplus ∧ Pays Q (surplus - count) next
  | surplus, read count next => count ≤ surplus ∧ Pays Q (surplus - count) next

variable {p : Prog α} {Q Q' : α → ℕ → Prop} {surplus : ℕ}

theorem Pays.mono (h : p.Pays Q surplus) (hQ : ∀ a surplus, Q a surplus → Q' a surplus) :
    p.Pays Q' surplus := by
  induction p generalizing surplus with
  | done a => exact hQ a surplus h
  | consume cost next ih => exact ⟨ih true h.1, ih false h.2⟩
  | consumeUpTo maxItems cost next ih => exact fun got hgot => ih got (h got hgot)
  | reclaim count next ih | read count next ih => exact ⟨h.1, ih h.2⟩

theorem pays_bind {f : α → Prog β} {Q : β → ℕ → Prop} :
    (p.bind f).Pays Q surplus ↔ p.Pays (fun a surplus => (f a).Pays Q surplus) surplus := by
  induction p generalizing surplus with
  | done a => exact Iff.rfl
  | consume cost next ih => exact and_congr (ih true) (ih false)
  | consumeUpTo maxItems cost next ih => exact forall₂_congr fun got _ => ih got
  | reclaim count next ih | read count next ih => exact and_congr_right fun _ => ih

/-- A surplus from before is kept to the end. -/
theorem Pays.frame (h : p.Pays Q surplus) (extra : ℕ) :
    p.Pays (fun a total => ∃ surplus, Q a surplus ∧ total = surplus + extra) (surplus + extra) := by
  induction p generalizing surplus with
  | done a => exact ⟨surplus, h, rfl⟩
  | consume cost next ih =>
    refine ⟨?_, ih false h.2⟩
    rw [Nat.add_right_comm]
    exact ih true h.1
  | consumeUpTo maxItems cost next ih =>
    intro got hgot
    rw [Nat.add_right_comm]
    exact ih got (h got hgot)
  | reclaim count next ih | read count next ih =>
    refine ⟨h.1.trans (Nat.le_add_right _ _), ?_⟩
    rw [Nat.sub_add_comm h.1]
    exact ih h.2

/-! ### Charges side by side -/

theorem sum_set {l : List ℕ} {i n : ℕ} (h : l[i]? = some n) (m : ℕ) :
    (l.set i m).sum = m + (l.set i 0).sum := by
  induction l generalizing i with
  | nil => simp at h
  | cons first l ih =>
    cases i with
    | zero => rw [List.set_cons_zero, List.set_cons_zero, List.sum_cons, List.sum_cons, Nat.zero_add]
    | succ i =>
      rw [List.set_cons_succ, List.set_cons_succ, List.sum_cons, List.sum_cons, ih h]
      exact Nat.add_left_comm _ _ _

theorem sum_eq_add {l : List ℕ} {i n : ℕ} (h : l[i]? = some n) : l.sum = n + (l.set i 0).sum := by
  obtain ⟨hlt, rfl⟩ := List.getElem?_eq_some_iff.mp h
  have hsum := sum_set h l[i]
  rwa [List.set_getElem_self] at hsum

/-- All programs end as they say, and the surplus is the sum of theirs. -/
def All (Q : α → ℕ → Prop) (as : List α) (total : ℕ) : Prop :=
  ∃ surpluses, List.Forall₂ (fun surplus a => Q a surplus) surpluses as ∧ total = surpluses.sum

/-- The charges of programs one after the other add up. -/
theorem pays_collect {ps : List (Prog α)} {surpluses : List ℕ}
    (h : List.Forall₂ (Pays Q) surpluses ps) : (collect ps).Pays (All Q) surpluses.sum := by
  induction h with
  | nil => exact ⟨[], .nil, rfl⟩
  | @cons surplus p surpluses ps hp _ ih =>
    rw [List.sum_cons]
    unfold collect
    rw [pays_bind]
    refine (hp.frame surpluses.sum).mono ?_
    rintro a _ ⟨surplus', hQ, rfl⟩
    rw [pays_bind, Nat.add_comm]
    refine (ih.frame surplus').mono ?_
    rintro as _ ⟨_, ⟨surpluses', hall, rfl⟩, rfl⟩
    exact ⟨surplus' :: surpluses', .cons hQ hall, by rw [List.sum_cons, Nat.add_comm]⟩

/-- The charges of programs by turns add up. -/
theorem pays_interleave {turns : List ℕ} {ps : List (Prog α)} {surpluses : List ℕ}
    (h : List.Forall₂ (Pays Q) surpluses ps) :
    (interleave turns ps).Pays (All Q) surpluses.sum := by
  induction turns generalizing ps surpluses with
  | nil => exact pays_collect h
  | cons turn turns ih =>
    -- What the programs of the other turns are charged stays.
    have hset : ∀ {p : Prog α}, ps[turn]? = some p → ∃ surplus others,
        surpluses.sum = surplus + others ∧ p.Pays Q surplus ∧
        ∀ (next : Prog α) surplus', next.Pays Q surplus' →
          (interleave turns (ps.set turn next)).Pays (All Q) (surplus' + others) := by
      intro p hturn
      obtain ⟨surplus, hsurplus, hp⟩ := forall₂_getElem? h.flip hturn
      refine ⟨surplus, _, sum_eq_add hsurplus, hp, fun next surplus' hnext => ?_⟩
      rw [← sum_set hsurplus]
      exact ih (forall₂_set_set h hnext)
    -- Each operation of the program that has the turn moves a part of its own surplus.
    unfold interleave
    split
    · rename_i cost next hturn
      obtain ⟨surplus, others, hsum, hp, hnext⟩ := hset hturn
      rw [hsum]
      refine ⟨?_, hnext _ _ hp.2⟩
      rw [Nat.add_right_comm]
      exact hnext _ _ hp.1
    · rename_i maxItems cost next hturn
      obtain ⟨surplus, others, hsum, hp, hnext⟩ := hset hturn
      rw [hsum]
      intro got hgot
      rw [Nat.add_right_comm]
      exact hnext _ _ (hp got hgot)
    · rename_i count next hturn
      obtain ⟨surplus, others, hsum, hp, hnext⟩ := hset hturn
      rw [hsum]
      refine ⟨hp.1.trans (Nat.le_add_right _ _), ?_⟩
      rw [Nat.sub_add_comm hp.1]
      exact hnext _ _ hp.2
    · rename_i count next hturn
      obtain ⟨surplus, others, hsum, hp, hnext⟩ := hset hturn
      rw [hsum]
      refine ⟨hp.1.trans (Nat.le_add_right _ _), ?_⟩
      rw [Nat.sub_add_comm hp.1]
      exact hnext _ _ hp.2
    -- A turn of a program that is over, or that does not exist, is skipped.
    · exact ih h
    · exact ih h

/-! ### Runs of what is charged -/

/-- The items that are handed out are paid for. -/
theorem items_mul_le (left cost maxItems : ℕ) : min (left / cost) maxItems * cost ≤ left :=
  (Nat.mul_le_mul_right cost (min_le_left _ _)).trans (Nat.div_mul_le_self left cost)

/-- At the end of a run the reads are paid. -/
theorem Pays.meterRun (h : p.Pays Q surplus) {budget : ℕ} {meter : Meter}
    (hmeter : meter.Paid budget surplus) :
    ∃ surplus, Q (p.meterRun meter).1 surplus ∧ (p.meterRun meter).2.Paid budget surplus := by
  induction p generalizing surplus meter with
  | done a => exact ⟨surplus, h, hmeter⟩
  | consume cost next ih =>
    unfold Prog.meterRun
    split_ifs with hcost
    · exact ih true h.1 (hmeter.take hcost)
    · exact ih false h.2 hmeter
  | consumeUpTo maxItems cost next ih =>
    exact ih _ (h _ (min_le_right _ _)) (hmeter.take (items_mul_le _ _ _))
  | reclaim count next ih => exact ih h.2 (hmeter.giveBack h.1)
  | read count next ih => exact ih h.2 (hmeter.countReads h.1)

/-- At every moment of a run the reads are paid. -/
theorem Pays.moments (h : p.Pays Q surplus) {budget : ℕ} {meter : Meter}
    (hmeter : meter.Paid budget surplus) :
    ∀ moment ∈ p.moments meter, ∃ surplus, moment.Paid budget surplus := by
  induction p generalizing surplus meter with
  | done a => exact fun moment hmoment => absurd hmoment List.not_mem_nil
  | consume cost next ih =>
    unfold Prog.moments
    split_ifs with hcost
    · have htaken := hmeter.take hcost
      exact List.forall_mem_cons.mpr ⟨⟨_, htaken⟩, ih true h.1 htaken⟩
    · exact List.forall_mem_cons.mpr ⟨⟨_, hmeter⟩, ih false h.2 hmeter⟩
  | consumeUpTo maxItems cost next ih =>
    have htaken := hmeter.take (items_mul_le meter.left cost maxItems)
    exact List.forall_mem_cons.mpr ⟨⟨_, htaken⟩, ih _ (h _ (min_le_right _ _)) htaken⟩
  | reclaim count next ih =>
    have hgiven := hmeter.giveBack h.1
    exact List.forall_mem_cons.mpr ⟨⟨_, hgiven⟩, ih h.2 hgiven⟩
  | read count next ih =>
    have hread := hmeter.countReads h.1
    exact List.forall_mem_cons.mpr ⟨⟨_, hread⟩, ih h.2 hread⟩

end Prog

/-! ### Tasks -/

namespace Task

variable {ε α β τ : Type}

protected theorem bind_bind {γ : Type} (task : Task ε α) (f : α → Task ε β) (g : β → Task ε γ) :
    (task >>= f) >>= g = task >>= fun a => f a >>= g := by
  refine (Prog.bind_bind task.run _ _).trans ?_
  refine congrArg (Prog.bind task.run) (funext fun outcome => ?_)
  cases outcome with
  | ok a => rfl
  | error e => rfl

/-- The outcome of a task on a budget, and what its run has done. -/
def meterOn (task : Task ε α) (budget : ℕ) : Except ε α × Meter :=
  Prog.meterRun task.run (.new budget)

/-- Every moment of a run on a budget. -/
def momentsOn (task : Task ε α) (budget : ℕ) : List Meter := Prog.moments task.run (.new budget)

theorem runOn_eq_meterOn (task : Task ε α) (budget : ℕ) :
    task.runOn budget = ((task.meterOn budget).1, (task.meterOn budget).2.left) :=
  Prog.run_eq_meterRun task.run (.new budget)

/-! ### Charges of tasks -/

/-- From a surplus of what is charged over what is read, the task reads no more than it is
charged, and a result comes with a surplus that satisfies `Q`. -/
def Pays (surplus : ℕ) (Q : α → ℕ → Prop) (task : Task ε α) : Prop :=
  Prog.Pays (fun outcome surplus => ∀ a, outcome = .ok a → Q a surplus) surplus task.run

/-- The task pays for what it reads. -/
def Covered (task : Task ε α) : Prop := task.Pays 0 fun _ _ => True

variable {surplus : ℕ} {Q Q' : α → ℕ → Prop} {task : Task ε α}

theorem Pays.mono (h : task.Pays surplus Q) (hQ : ∀ a surplus, Q a surplus → Q' a surplus) :
    task.Pays surplus Q' :=
  Prog.Pays.mono h fun _ _ hx => fun a ha => hQ a _ (hx a ha)

theorem pays_pure {a : α} (h : Q a surplus) : (pure a : Task ε α).Pays surplus Q :=
  fun _ ha => Except.ok.inj ha ▸ h

theorem pays_ofExcept {x : Except ε α} (h : ∀ a, x = .ok a → Q a surplus) :
    (liftM x : Task ε α).Pays surplus Q := by
  cases x with
  | ok a => exact h
  | error e => exact fun a ha => nomatch ha

theorem pays_bind {f : α → Task ε β} {Q : β → ℕ → Prop}
    (h : task.Pays surplus fun a surplus => (f a).Pays surplus Q) :
    (task >>= f).Pays surplus Q := by
  refine Prog.pays_bind.mpr (Prog.Pays.mono h fun outcome surplus houtcome => ?_)
  cases outcome with
  | ok a => exact houtcome a rfl
  | error e => exact fun a ha => by cases ha

theorem pays_consume {cost : ℕ} {Q : Bool → ℕ → Prop} (htrue : Q true (surplus + cost))
    (hfalse : Q false surplus) : (consume cost : Task ε Bool).Pays surplus Q :=
  ⟨pays_pure htrue, pays_pure hfalse⟩

theorem pays_consumeUpTo {maxItems cost : ℕ} {Q : ℕ × Bool → ℕ → Prop}
    (h : ∀ items ≤ maxItems, Q (items, decide (items < maxItems)) (surplus + items * cost)) :
    (consumeUpTo maxItems cost : Task ε (ℕ × Bool)).Pays surplus Q := by
  unfold consumeUpTo
  split_ifs with hzero
  · refine pays_pure ?_
    have hnone := h 0 (Nat.zero_le _)
    rw [hzero, Nat.zero_mul] at hnone
    exact hnone
  · exact fun items hitems => pays_pure (h items hitems)

theorem pays_reclaim {count : ℕ} {Q : Unit → ℕ → Prop} (hpaid : count ≤ surplus)
    (h : Q () (surplus - count)) : (reclaim count : Task ε Unit).Pays surplus Q := by
  unfold reclaim
  split_ifs with hpos
  · exact ⟨hpaid, pays_pure h⟩
  · obtain rfl := Nat.eq_zero_of_not_pos hpos
    exact pays_pure h

theorem pays_read {count : ℕ} {Q : Unit → ℕ → Prop} (hpaid : count ≤ surplus)
    (h : Q () (surplus - count)) : (read count : Task ε Unit).Pays surplus Q :=
  ⟨hpaid, pays_pure h⟩

/-- A task that pays for its reads leaves the surplus from before. -/
theorem Covered.pays (h : task.Covered) : task.Pays surplus fun _ left => surplus ≤ left := by
  have hframe := Prog.Pays.frame h surplus
  rw [Nat.zero_add] at hframe
  refine Prog.Pays.mono hframe ?_
  rintro outcome _ ⟨left, -, rfl⟩ a -
  exact Nat.le_add_left _ _

theorem covered_pure {a : α} : (pure a : Task ε α).Covered := pays_pure trivial

theorem covered_ofExcept {x : Except ε α} : (liftM x : Task ε α).Covered :=
  pays_ofExcept fun _ _ => trivial

/-- A surplus is not lost. -/
theorem Covered.of_surplus (h : task.Covered) : task.Pays surplus fun _ _ => True :=
  h.pays.mono fun _ _ _ => trivial

theorem Covered.bind {f : α → Task ε β} (h : task.Covered) (hf : ∀ a, (f a).Covered) :
    (task >>= f).Covered :=
  pays_bind (h.mono fun a _ _ => (hf a).of_surplus)

/-- Tasks that pay for their reads pay for them side by side. -/
theorem covered_parallel {turns : List ℕ} {tasks : List (Task ε α)}
    (h : ∀ task ∈ tasks, task.Covered) : (parallel turns tasks).Covered := by
  have hall : List.Forall₂ (Prog.Pays fun _ _ => True)
      (tasks.map fun _ => 0) (tasks.map ExceptT.run) := by
    rw [List.forall₂_map_left_iff, List.forall₂_map_right_iff]
    exact List.forall₂_same.mpr fun task htask =>
      Prog.Pays.mono (h task htask) fun _ _ _ => trivial
  have hzero : (tasks.map fun _ => 0).sum = 0 := by simp
  have hparallel : Prog.Pays (Prog.All fun _ _ => True) _
      (interleave turns (tasks.map ExceptT.run)) := Prog.pays_interleave hall
  rw [hzero] at hparallel
  exact Prog.pays_bind.mpr (Prog.Pays.mono hparallel fun _ _ _ _ _ => trivial)

/-! ### Runs of tasks -/

/-- Every moment of a run of a task that pays for its reads is paid, and so is its end. -/
theorem Covered.meterOn (h : task.Covered) (budget : ℕ) :
    (task.meterOn budget).2.Solvent budget ∧
      ∀ moment ∈ task.momentsOn budget, moment.Solvent budget := by
  obtain ⟨surplus, -, hpaid⟩ := Prog.Pays.meterRun h (Meter.paid_new budget)
  refine ⟨hpaid.solvent, fun moment hmoment => ?_⟩
  obtain ⟨surplus, hpaid⟩ := Prog.Pays.moments h (Meter.paid_new budget) moment hmoment
  exact hpaid.solvent

/-- What holds of a run of a task that pays for its reads and of what follows it. -/
theorem Covered.meterOn_bind (h : task.Covered) {f : α → Task ε β} {budget : ℕ}
    {P : Except ε β × Meter → List Meter → Prop}
    (hP : ∀ outcome meter surplus, meter.Paid budget surplus →
      P (Prog.meterRun (ExceptT.bindCont f outcome) meter)
        (task.momentsOn budget ++ Prog.moments (ExceptT.bindCont f outcome) meter)) :
    P ((task >>= f).meterOn budget) ((task >>= f).momentsOn budget) := by
  obtain ⟨surplus, -, hpaid⟩ := Prog.Pays.meterRun h (Meter.paid_new budget)
  have hrun : (task >>= f).meterOn budget = _ := Prog.meterRun_bind (Meter.new budget)
  have hmoments : (task >>= f).momentsOn budget = _ := Prog.moments_bind (Meter.new budget)
  rw [hrun, hmoments]
  exact hP _ _ surplus hpaid

end Task

end Budget
