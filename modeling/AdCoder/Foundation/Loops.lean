import Mathlib.Tactic.TypeStar

/-!
# Loops that may not return

A loop is given by what one iteration does to the loop's state. It returns if
some number of iterations does. A measure that every iteration raises below a
bound makes it return; a state that an iteration leaves as it is does not.
-/

namespace AdCoder.Foundation

variable {σ α : Type*}

/-- One iteration returns from the loop or continues with another state. -/
inductive Iteration (σ α : Type*) where
  | returns (result : α)
  | continues (state : σ)
  deriving DecidableEq, Repr

namespace Loop

variable (body : σ → Iteration σ α)

/-- At most `fuel` iterations. -/
def run : Nat → σ → Option α
  | 0, _ => none
  | fuel + 1, s =>
      match body s with
      | .returns result => some result
      | .continues next => run fuel next

/-- The loop returns after finitely many iterations. -/
def Returns (s : σ) : Prop := ∃ fuel result, run body fuel s = some result

/-- The states in which an iteration begins. -/
inductive Reaches (s : σ) : σ → Prop where
  | start : Reaches s s
  | next {m n : σ} : Reaches s m → body m = .continues n → Reaches s n

variable {body} {s m n : σ} {fuel : Nat} {result : α}

theorem run_of_continues (h : body s = .continues n) : run body (fuel + 1) s = run body fuel n := by
  simp [run, h]

theorem returns_of_continues (h : body s = .continues n) : Returns body s ↔ Returns body n := by
  constructor
  · rintro ⟨fuel, result, ran⟩
    cases fuel with
    | zero => cases ran
    | succ fuel => exact ⟨fuel, result, by rwa [run_of_continues h] at ran⟩
  · rintro ⟨fuel, result, ran⟩
    exact ⟨fuel + 1, result, by rwa [run_of_continues h]⟩

theorem Reaches.returns_iff (h : Reaches body s m) : Returns body s ↔ Returns body m := by
  induction h with
  | start => rfl
  | next _ step ih => exact ih.trans (returns_of_continues step)

/-- Iterations that do not change the state go on forever. -/
theorem not_returns_of_fixed (h : body s = .continues s) : ¬ Returns body s := by
  rintro ⟨fuel, result, ran⟩
  induction fuel with
  | zero => cases ran
  | succ fuel ih => exact ih (by rwa [run_of_continues h] at ran)

/-- More fuel changes no result. -/
theorem run_mono {fuel' : Nat} (le : fuel ≤ fuel') (h : run body fuel s = some result) :
    run body fuel' s = some result := by
  induction fuel generalizing fuel' s with
  | zero => cases h
  | succ fuel ih =>
      obtain ⟨fuel', rfl⟩ : ∃ n, fuel' = n + 1 := ⟨fuel' - 1, by omega⟩
      cases step : body s with
      | returns r => simpa [run, step] using h
      | continues next =>
          rw [run_of_continues step] at h ⊢
          exact ih (by omega) h

/-- A measure that each iteration raises below a bound. -/
theorem returns_of_advances (position : σ → Nat) (bound : Nat)
    (below : ∀ m n, body m = .continues n → position m < bound)
    (advances : ∀ m n, Reaches body s m → body m = .continues n → position m < position n) :
    Returns body s := by
  suffices ∀ gap m, Reaches body s m → bound - position m ≤ gap → Returns body m from
    this _ s .start (Nat.le_refl _)
  intro gap
  induction gap with
  | zero =>
      intro m reached short
      cases step : body m with
      | returns result => exact ⟨1, result, by simp [run, step]⟩
      | continues n => exact absurd (below m n step) (by omega)
  | succ gap ih =>
      intro m reached short
      cases step : body m with
      | returns result => exact ⟨1, result, by simp [run, step]⟩
      | continues n =>
          have further := advances m n reached step
          have inside := below m n step
          exact (returns_of_continues step).mpr (ih n (reached.next step) (by omega))

end Loop

end AdCoder.Foundation
