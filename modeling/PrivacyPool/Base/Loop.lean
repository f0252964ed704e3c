import Mathlib.Tactic.Common

/-!
# Loops that may fail and may not end

A `do … while` loop whose body may throw. The body knows the number of the round, and
says when the loop is over. The loop runs on fuel: without an outcome on any fuel, it
does not end.

## Main results

* `ends_of_measure` — a loop with a decreasing measure ends
* `exists_ends_iff` — a loop ends just from the states in which it makes progress
* `Ends.last` — what the rounds keep holds before the last round
-/

namespace Loop

variable {ε σ : Type}

/-- The outcome of a loop from a round on, or nothing when the fuel is used up. -/
def loop (body : ℕ → σ → Except ε (σ × Bool)) : ℕ → ℕ → σ → Option (Except ε σ)
  | 0, _, _ => none
  | fuel + 1, round, state =>
    match body round state with
    | .error e => some (.error e)
    | .ok (state', true) => some (.ok state')
    | .ok (state', false) => loop body fuel (round + 1) state'

/-- The loop ends in a state after finitely many rounds. -/
def Ends (body : ℕ → σ → Except ε (σ × Bool)) (round : ℕ) (state final : σ) : Prop :=
  ∃ fuel, loop body fuel round state = some (.ok final)

variable {body : ℕ → σ → Except ε (σ × Bool)} {round : ℕ} {state final : σ}

/-- The first round is the last one, or the loop goes on from the state after it. -/
theorem ends_iff : Ends body round state final ↔
    body round state = .ok (final, true) ∨
      ∃ next, body round state = .ok (next, false) ∧ Ends body (round + 1) next final := by
  constructor
  · rintro ⟨fuel, hfuel⟩
    cases fuel with
    | zero => cases hfuel
    | succ fuel =>
      unfold loop at hfuel
      match hbody : body round state with
      | .error e =>
        rw [hbody] at hfuel
        cases hfuel
      | .ok (next, true) =>
        rw [hbody] at hfuel
        obtain rfl : next = final := Except.ok.inj (Option.some.inj hfuel)
        exact .inl rfl
      | .ok (next, false) =>
        rw [hbody] at hfuel
        exact .inr ⟨next, rfl, fuel, hfuel⟩
  · rintro (hlast | ⟨next, hnext, fuel, hfuel⟩)
    · exact ⟨1, by unfold loop; rw [hlast]⟩
    · exact ⟨fuel + 1, by unfold loop; rw [hnext]; exact hfuel⟩

/-- A loop whose rounds succeed, keep an invariant and decrease a measure until it is over
ends. -/
theorem ends_of_measure (Inv : σ → Prop) (measure : σ → ℕ)
    (hbody : ∀ round state, Inv state → ∃ next ended, body round state = .ok (next, ended) ∧
      (ended = false → Inv next ∧ measure next < measure state))
    (hstate : Inv state) : ∃ final, Ends body round state final := by
  induction hmeasure : measure state using Nat.strongRecOn generalizing round state with
  | _ bound ih =>
    obtain ⟨next, ended, hnext, hless⟩ := hbody round state hstate
    cases ended with
    | true => exact ⟨next, ends_iff.mpr (.inl hnext)⟩
    | false =>
      obtain ⟨hinv, hless⟩ := hless rfl
      obtain ⟨final, hfinal⟩ := ih (measure next) (hmeasure ▸ hless) hinv rfl
      exact ⟨final, ends_iff.mpr (.inr ⟨next, hnext, hfinal⟩)⟩

/-- What holds at the start and is kept by the rounds holds before the last round. -/
theorem Ends.last (Inv : σ → Prop) (h : Ends body round state final) (hstate : Inv state)
    (hnext : ∀ round state next, Inv state → body round state = .ok (next, false) → Inv next) :
    ∃ round last, Inv last ∧ body round last = .ok (final, true) := by
  obtain ⟨fuel, hfuel⟩ := h
  induction fuel generalizing round state with
  | zero => cases hfuel
  | succ fuel ih =>
    unfold loop at hfuel
    match hbody : body round state with
    | .error e =>
      rw [hbody] at hfuel
      cases hfuel
    | .ok (next, true) =>
      rw [hbody] at hfuel
      obtain rfl : next = final := Except.ok.inj (Option.some.inj hfuel)
      exact ⟨round, state, hstate, hbody⟩
    | .ok (next, false) =>
      rw [hbody] at hfuel
      exact ih (hnext _ _ _ hstate hbody) hfuel

/-- A loop ends just from the good states, when a round neither makes a bad state good nor
is the last one on a bad state, and makes progress on a good one. -/
theorem exists_ends_iff (Inv Good : σ → Prop) (measure : σ → ℕ)
    (hlast : ∀ round state next, Inv state → body round state = .ok (next, true) → Good state)
    (hnext : ∀ round state next, Inv state → body round state = .ok (next, false) →
      Inv next ∧ (Good next ↔ Good state))
    (hbody : ∀ round state, Inv state → Good state → ∃ next ended,
      body round state = .ok (next, ended) ∧ (ended = false → measure next < measure state))
    (hstate : Inv state) : (∃ final, Ends body round state final) ↔ Good state := by
  constructor
  · rintro ⟨final, hends⟩
    obtain ⟨round', last, ⟨hinv, hgood⟩, hbody'⟩ := hends.last
      (fun state' => Inv state' ∧ (Good state' ↔ Good state)) ⟨hstate, Iff.rfl⟩
      fun round' state' next ⟨hinv, hgood⟩ hok =>
        ⟨(hnext round' state' next hinv hok).1, (hnext round' state' next hinv hok).2.trans hgood⟩
    exact hgood.mp (hlast round' last final hinv hbody')
  · intro hgood
    refine ends_of_measure (fun state => Inv state ∧ Good state) measure
      (fun round state ⟨hinv, hgood⟩ => ?_) ⟨hstate, hgood⟩
    obtain ⟨next, ended, hok, hless⟩ := hbody round state hinv hgood
    refine ⟨next, ended, hok, fun hover => ?_⟩
    subst hover
    obtain ⟨hinv', hgood'⟩ := hnext round state next hinv hok
    exact ⟨⟨hinv', hgood'.mpr hgood⟩, hless rfl⟩

/-- The final state is the only one. -/
theorem Ends.eq {final' : σ} (h : Ends body round state final)
    (h' : Ends body round state final') : final' = final := by
  obtain ⟨fuel, hfuel⟩ := h
  induction fuel generalizing round state with
  | zero => cases hfuel
  | succ fuel ih =>
    unfold loop at hfuel
    rw [ends_iff] at h'
    rcases h' with hlast | ⟨next, hnext, hends⟩
    · rw [hlast] at hfuel
      exact Except.ok.inj (Option.some.inj hfuel)
    · rw [hnext] at hfuel
      exact ih hends hfuel

end Loop
