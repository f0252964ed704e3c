import Mathlib.Data.List.Forall2
import Mathlib.Order.Lattice

/-!
# Programs that share a budget

A program draws from a counter that it shares with other programs, and otherwise
computes on its own: it draws a fixed cost or nothing, as many items as the rest of
the counter pays for, or puts some of it back. Slots that it reads are told as well; they
leave the counter as it is. Programs that run side by side take turns in any order, one
operation at a time; the order is a list of turns.

What holds for every answer to its draws holds for a program however it is
interleaved and whatever the budget is. What the first draw of a fresh budget
achieves is achieved by one of the programs, whichever takes the first turn.

## Main definitions

* `Prog`, `Prog.run` — programs, and their runs on a budget
* `interleave` — programs side by side, by a list of turns
* `Prog.Always` — a postcondition for every answer to the draws
* `Prog.Leads` — a postcondition once the first draw is answered from a full budget

## Main results

* `Prog.Always.run` — what always holds holds of every run
* `Prog.Always.run_of_le` — and what holds when all is granted, on a large budget
* `Prog.always_interleave` — programs side by side keep their postconditions
* `Prog.leads_interleave` — one of several programs gets the first draw
-/

namespace Budget

universe u v

variable {α : Type u} {β : Type v}

/-- A program over a shared counter. -/
inductive Prog (α : Type u) : Type u
  | done (a : α)
  /-- Take `cost`, or nothing when less is left. -/
  | consume (cost : ℕ) (next : Bool → Prog α)
  /-- Take as many items of the given cost as are paid for, at most `maxItems`. -/
  | consumeUpTo (maxItems cost : ℕ) (next : ℕ → Prog α)
  /-- Put `count` back. -/
  | reclaim (count : ℕ) (next : Prog α)
  /-- Read `count` slots. -/
  | read (count : ℕ) (next : Prog α)

namespace Prog

/-- Run a program, and go on with its result. -/
def bind (p : Prog α) (f : α → Prog β) : Prog β :=
  match p with
  | done a => f a
  | consume cost next => consume cost fun ok => (next ok).bind f
  | consumeUpTo maxItems cost next => consumeUpTo maxItems cost fun got => (next got).bind f
  | reclaim count next => reclaim count (next.bind f)
  | .read count next => .read count (next.bind f)

instance : Monad Prog.{u} where
  pure := done
  bind := bind

/-- Run a program on a budget: its result, and what is left. -/
def run : Prog α → ℕ → α × ℕ
  | done a, budget => (a, budget)
  | consume cost next, budget =>
    if cost ≤ budget then (next true).run (budget - cost) else (next false).run budget
  | consumeUpTo maxItems cost next, budget =>
    let got := min (budget / cost) maxItems
    (next got).run (budget - got * cost)
  | reclaim count next, budget => next.run (budget + count)
  | read _ next, budget => next.run budget

theorem run_bind {p : Prog α} {f : α → Prog β} (budget : ℕ) :
    (p.bind f).run budget = (f (p.run budget).1).run (p.run budget).2 := by
  induction p generalizing budget with
  | done a => rfl
  | consume cost next ih =>
    simp only [bind, run]
    split_ifs
    · exact ih true _
    · exact ih false _
  | consumeUpTo maxItems cost next ih => exact ih _ _
  | reclaim count next ih | read count next ih => exact ih _

/-- The operations as programs. -/
def draw (cost : ℕ) : Prog Bool := consume cost done

/-- Take as many items as the budget allows. -/
def drawUpTo (maxItems cost : ℕ) : Prog ℕ := consumeUpTo maxItems cost done

/-- Give back what was taken for nothing. -/
def putBack (count : ℕ) : Prog Unit := reclaim count (done ())

/-- Read storage slots. -/
def readSlots (count : ℕ) : Prog Unit := .read count (done ())

end Prog

open Prog

/-- Run programs one after the other. -/
def collect : List (Prog α) → Prog (List α)
  | [] => done []
  | p :: ps => p.bind fun a => (collect ps).bind fun as => done (a :: as)

/-- Run programs side by side: each turn names the program that does its next
operation. When the turns are used up, the programs finish one after the other. -/
def interleave : List ℕ → List (Prog α) → Prog (List α)
  | [], ps => collect ps
  | turn :: turns, ps =>
    match ps[turn]? with
    | some (consume cost next) => consume cost fun ok => interleave turns (ps.set turn (next ok))
    | some (consumeUpTo maxItems cost next) =>
      consumeUpTo maxItems cost fun got => interleave turns (ps.set turn (next got))
    | some (reclaim count next) => reclaim count (interleave turns (ps.set turn next))
    | some (.read count next) => .read count (interleave turns (ps.set turn next))
    | some (done _) | none => interleave turns ps

/-! ### Every answer -/

namespace Prog

/-- The postcondition holds for every answer to the draws; and when the budget is
said to be full, for the answers that grant everything. -/
def Always (full : Prop) (Q : α → Prop) : Prog α → Prop
  | done a => Q a
  | consume _ next => ∀ ok, (full → ok = true) → (next ok).Always full Q
  | consumeUpTo maxItems cost next =>
    ∀ got ≤ maxItems, (full → 0 < cost → got = maxItems) → (next got).Always full Q
  | reclaim _ next => next.Always full Q
  | read _ next => next.Always full Q

variable {full : Prop} {p : Prog α} {Q Q' : α → Prop}

theorem Always.mono (h : p.Always full Q) (hQ : ∀ a, Q a → Q' a) : p.Always full Q' := by
  induction p with
  | done a => exact hQ a h
  | consume cost next ih => exact fun ok hok => ih ok (h ok hok)
  | consumeUpTo maxItems cost next ih => exact fun got hgot hall => ih got (h got hgot hall)
  | reclaim count next ih | read count next ih => exact ih h

@[simp] theorem always_bind' {f : α → Prog β} {Q : β → Prop} :
    (p.bind f).Always full Q ↔ p.Always full fun a => (f a).Always full Q := by
  induction p with
  | done a => exact Iff.rfl
  | consume cost next ih => exact forall_congr' fun ok => forall_congr' fun _ => ih ok
  | consumeUpTo maxItems cost next ih =>
    exact forall_congr' fun got => forall_congr' fun _ => forall_congr' fun _ => ih got
  | reclaim count next ih | read count next ih => exact ih

@[simp] theorem always_bind {α β : Type u} {p : Prog α} {f : α → Prog β} {Q : β → Prop} :
    (p >>= f).Always full Q ↔ p.Always full fun a => (f a).Always full Q := always_bind'

/-- What always holds holds of every run. -/
theorem Always.run (h : p.Always False Q) (budget : ℕ) : Q (p.run budget).1 := by
  induction p generalizing budget with
  | done a => exact h
  | consume cost next ih =>
    unfold Prog.run
    split_ifs
    · exact ih true (h true False.elim) _
    · exact ih false (h false False.elim) _
  | consumeUpTo maxItems cost next ih => exact ih _ (h _ (min_le_right _ _) False.elim) _
  | reclaim count next ih | read count next ih => exact ih h _

/-- What holds when everything is granted holds of every run on a large budget. -/
theorem Always.run_of_le (h : p.Always True Q) :
    ∃ enough, ∀ budget, enough ≤ budget → Q (p.run budget).1 := by
  induction p with
  | done a => exact ⟨0, fun _ _ => h⟩
  | consume cost next ih =>
    obtain ⟨enough, hrest⟩ := ih true (h true fun _ => rfl)
    refine ⟨cost + enough, fun budget hbudget => ?_⟩
    unfold Prog.run
    rw [if_pos (by omega)]
    exact hrest _ (by omega)
  | consumeUpTo maxItems cost next ih =>
    rcases Nat.eq_zero_or_pos cost with rfl | hcost
    · -- Items without a cost are never handed out.
      obtain ⟨enough, hrest⟩ := ih 0 (h 0 (Nat.zero_le _) fun _ hcost => absurd hcost (by decide))
      refine ⟨enough, fun budget hbudget => ?_⟩
      unfold Prog.run
      simpa using hrest _ hbudget
    · obtain ⟨enough, hrest⟩ := ih maxItems (h maxItems le_rfl fun _ _ => rfl)
      refine ⟨maxItems * cost + enough, fun budget hbudget => ?_⟩
      have hall : min (budget / cost) maxItems = maxItems :=
        min_eq_right ((Nat.le_div_iff_mul_le hcost).mpr (by omega))
      unfold Prog.run
      dsimp only
      rw [hall]
      exact hrest _ (by omega)
  | reclaim count next ih =>
    obtain ⟨enough, hrest⟩ := ih h
    exact ⟨enough, fun budget hbudget => hrest _ (by omega)⟩
  | read count next ih => exact ih h

/-- Programs one after the other keep their postconditions. -/
theorem always_collect {ps : List (Prog α)} {Qs : List (α → Prop)}
    (h : List.Forall₂ (fun p Q => Always full Q p) ps Qs) :
    (collect ps).Always full fun as => List.Forall₂ (fun a Q => Q a) as Qs := by
  induction h with
  | nil => exact .nil
  | cons hp _ ih =>
    unfold collect
    rw [always_bind']
    refine hp.mono fun a ha => ?_
    rw [always_bind']
    exact ih.mono fun as has => .cons ha has

theorem forall₂_set {γ δ : Type*} {R : γ → δ → Prop} {l : List γ} {l' : List δ} {i : ℕ} {c : γ}
    {d : δ} (h : List.Forall₂ R l l') (hd : l'[i]? = some d) (hc : R c d) :
    List.Forall₂ R (l.set i c) l' := by
  induction h generalizing i with
  | nil => simp at hd
  | cons hhead htail ih =>
    cases i with
    | zero => exact .cons (Option.some.inj hd ▸ hc) htail
    | succ i => exact .cons hhead (ih hd)

theorem forall₂_set_set {γ δ : Type*} {R : γ → δ → Prop} {l : List γ} {l' : List δ} {i : ℕ} {c : γ}
    {d : δ} (h : List.Forall₂ R l l') (hc : R c d) : List.Forall₂ R (l.set i c) (l'.set i d) := by
  induction h generalizing i with
  | nil => exact .nil
  | cons hhead htail ih =>
    cases i with
    | zero => exact .cons hc htail
    | succ i => exact .cons hhead ih

theorem forall₂_getElem? {γ δ : Type*} {R : γ → δ → Prop} {l : List γ} {l' : List δ} {i : ℕ} {c : γ}
    (h : List.Forall₂ R l l') (hc : l[i]? = some c) : ∃ d, l'[i]? = some d ∧ R c d := by
  induction h generalizing i with
  | nil => simp at hc
  | cons hhead htail ih =>
    cases i with
    | zero => exact ⟨_, rfl, Option.some.inj hc ▸ hhead⟩
    | succ i => exact ih hc

/-- Programs side by side keep their postconditions. -/
theorem always_interleave {turns : List ℕ} {ps : List (Prog α)} {Qs : List (α → Prop)}
    (h : List.Forall₂ (fun p Q => Always full Q p) ps Qs) :
    (interleave turns ps).Always full fun as => List.Forall₂ (fun a Q => Q a) as Qs := by
  induction turns generalizing ps with
  | nil => exact always_collect h
  | cons turn turns ih =>
    unfold interleave
    split
    · rename_i cost next hturn
      obtain ⟨Q, hQ, hnext⟩ := forall₂_getElem? h hturn
      exact fun ok hok => ih (forall₂_set h hQ (hnext ok hok))
    · rename_i maxItems cost next hturn
      obtain ⟨Q, hQ, hnext⟩ := forall₂_getElem? h hturn
      exact fun got hgot hall => ih (forall₂_set h hQ (hnext got hgot hall))
    · rename_i count next hturn
      obtain ⟨Q, hQ, hnext⟩ := forall₂_getElem? h hturn
      exact ih (forall₂_set h hQ hnext)
    · rename_i count next hturn
      obtain ⟨Q, hQ, hnext⟩ := forall₂_getElem? h hturn
      exact ih (forall₂_set h hQ hnext)
    · exact ih h
    · exact ih h

/-- Tasks side by side each relate to their result. -/
theorem always_interleave_map {τ : Type*} {turns : List ℕ} {ts : List τ} {f : τ → Prog α}
    {R : τ → α → Prop} (h : ∀ t ∈ ts, (f t).Always full (R t)) :
    (interleave turns (ts.map f)).Always full (List.Forall₂ R ts) := by
  have hall : List.Forall₂ (fun p Q => Always full Q p) (ts.map f) (ts.map R) := by
    rw [List.forall₂_map_left_iff, List.forall₂_map_right_iff]
    exact List.forall₂_same.mpr h
  refine (always_interleave hall).mono fun as has => ?_
  rw [List.forall₂_map_right_iff] at has
  exact has.flip

theorem always_true (p : Prog α) : p.Always full fun _ => True := by
  induction p with
  | done a => trivial
  | consume cost next ih => exact fun ok _ => ih ok
  | consumeUpTo maxItems cost next ih => exact fun got _ _ => ih got
  | reclaim count next ih | read count next ih => exact ih

theorem Always.and (h : p.Always full Q) (h' : p.Always full Q') :
    p.Always full fun a => Q a ∧ Q' a := by
  induction p with
  | done a => exact ⟨h, h'⟩
  | consume cost next ih => exact fun ok hok => ih ok (h ok hok) (h' ok hok)
  | consumeUpTo maxItems cost next ih =>
    exact fun got hgot hall => ih got (h got hgot hall) (h' got hgot hall)
  | reclaim count next ih | read count next ih => exact ih h h'

/-! ### The first draw -/

/-- The postcondition holds once the first draw is answered from the given budget,
whatever the answers to the others are. -/
def Leads (budget : ℕ) (Q : α → Prop) : Prog α → Prop
  | done a => Q a
  | consume cost next => (next (decide (cost ≤ budget))).Always False Q
  | consumeUpTo maxItems cost next => (next (min (budget / cost) maxItems)).Always False Q
  | reclaim _ next => next.Always False Q
  | read _ next => next.Leads budget Q

variable {budget : ℕ}

theorem Leads.mono (h : p.Leads budget Q) (hQ : ∀ a, Q a → Q' a) : p.Leads budget Q' := by
  induction p with
  | done a => exact hQ a h
  | consume | consumeUpTo | reclaim => exact Always.mono h hQ
  | read count next ih => exact ih h

theorem Leads.run (h : p.Leads budget Q) : Q (p.run budget).1 := by
  induction p with
  | done a => exact h
  | consume cost next =>
    unfold Prog.run
    split_ifs with hcost
    · exact Always.run (by simpa [Leads, hcost] using h) _
    · exact Always.run (by simpa [Leads, hcost] using h) _
  | consumeUpTo | reclaim => exact Always.run h _
  | read count next ih => exact ih h

theorem Always.leads (h : p.Always False Q) : p.Leads budget Q := by
  induction p with
  | done a => exact h
  | consume cost next => exact h _ False.elim
  | consumeUpTo maxItems cost next => exact h _ (min_le_right _ _) False.elim
  | reclaim count next => exact h
  | read count next ih => exact ih h

theorem Leads.and (h : p.Leads budget Q) (h' : p.Always False Q') :
    p.Leads budget fun a => Q a ∧ Q' a := by
  induction p with
  | done a => exact ⟨h, h'⟩
  | consume cost next => exact Always.and h (h' _ False.elim)
  | consumeUpTo maxItems cost next => exact Always.and h (h' _ (min_le_right _ _) False.elim)
  | reclaim count next => exact Always.and h h'
  | read count next ih => exact ih h h'

theorem Leads.bind' {f : α → Prog β} {Q : β → Prop}
    (h : p.Leads budget fun a => (f a).Always False Q) : (p.bind f).Leads budget Q := by
  induction p with
  | done a => exact h.leads
  | consume | consumeUpTo | reclaim => exact always_bind'.mpr h
  | read count next ih => exact ih h

theorem Leads.bind {α β : Type u} {p : Prog α} {f : α → Prog β} {Q : β → Prop}
    (h : p.Leads budget fun a => (f a).Always False Q) : (p >>= f).Leads budget Q := h.bind'

/-- Of several programs, one gets the first draw, or none draws. -/
theorem leads_collect {ps : List (Prog α)} {P : ℕ → α → Prop}
    (hlead : ∀ (i : ℕ) (p : Prog α), ps[i]? = some p → p.Leads budget (P i)) (hone : ps ≠ []) :
    (collect ps).Leads budget fun as => ∃ i a, as[i]? = some a ∧ P i a := by
  cases ps with
  | nil => exact absurd rfl hone
  | cons p ps =>
    refine Leads.bind' ((hlead 0 p rfl).mono fun a ha => ?_)
    rw [always_bind']
    exact (always_true _).mono fun as _ => ⟨0, a, rfl, ha⟩

/-- Once one of several programs is on its way to its goal, it gets there. -/
theorem always_interleave_set {turns : List ℕ} {ps : List (Prog α)} {P : ℕ → α → Prop} {i : ℕ}
    {next : Prog α} (hi : i < ps.length) (hnext : next.Always False (P i)) :
    (interleave turns (ps.set i next)).Always False fun as => ∃ i a, as[i]? = some a ∧ P i a := by
  have hnone : List.Forall₂ (fun p Q => Always False Q p) ps (ps.map fun _ _ => True) := by
    rw [List.forall₂_map_right_iff]
    exact List.forall₂_same.mpr fun p _ => always_true p
  have hi' : i < (ps.map fun _ => (fun _ => True : α → Prop)).length := by simpa using hi
  refine (always_interleave (forall₂_set_set (i := i) hnone hnext)).mono fun as has => ?_
  obtain ⟨a, ha, hP⟩ := forall₂_getElem? has.flip (List.getElem?_set_self hi')
  exact ⟨i, a, ha, hP⟩

/-- Of several programs, one gets the first draw, whatever the turns. -/
theorem leads_interleave {turns : List ℕ} {ps : List (Prog α)} {P : ℕ → α → Prop}
    (hlead : ∀ (i : ℕ) (p : Prog α), ps[i]? = some p → p.Leads budget (P i)) (hone : ps ≠ []) :
    (interleave turns ps).Leads budget fun as => ∃ i a, as[i]? = some a ∧ P i a := by
  induction turns generalizing ps with
  | nil => exact leads_collect hlead hone
  | cons turn turns ih =>
    unfold interleave
    split
    · rename_i cost next hturn
      exact always_interleave_set (List.getElem?_eq_some_iff.mp hturn).1 (hlead _ _ hturn)
    · rename_i maxItems cost next hturn
      exact always_interleave_set (List.getElem?_eq_some_iff.mp hturn).1 (hlead _ _ hturn)
    · rename_i count next hturn
      exact always_interleave_set (List.getElem?_eq_some_iff.mp hturn).1 (hlead _ _ hturn)
    · -- No draw yet: after the read all programs still lead.
      rename_i count next hturn
      refine ih (fun i p hp => ?_) (by simpa using hone)
      rw [List.getElem?_set] at hp
      split_ifs at hp with heq hlt
      · obtain rfl := Option.some.inj hp
        have hnext : (Prog.read count next).Leads budget (P turn) := hlead _ _ hturn
        exact heq ▸ hnext
      · exact hlead i p hp
    · exact ih hlead hone
    · exact ih hlead hone

end Prog

end Budget
