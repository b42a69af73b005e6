import Mathlib.Tactic.SplitIfs

/-!
# Effects that may throw

A computation changes a state and returns or throws; what it did to the state
before it threw stays. An invariant of its parts is one of the whole, whatever
the parts return.
-/

namespace AdCoder.Foundation

/-- A computation over a state that may throw. -/
abbrev Effect (σ ε α : Type) := ExceptT ε (StateM σ) α

namespace Effect

variable {σ ε α β : Type}

/-- The result of a computation and the state after it. -/
def runOn (x : Effect σ ε α) (s : σ) : Except ε α × σ := x s

/-- Change the state by a function and return the value it gives. -/
def act (f : σ → Except ε α × σ) : Effect σ ε α := f

@[simp] theorem runOn_pure (a : α) (s : σ) : (pure a : Effect σ ε α).runOn s = (.ok a, s) := rfl

@[simp] theorem runOn_throw (error : ε) (s : σ) :
    (throw error : Effect σ ε α).runOn s = (.error error, s) := rfl

theorem runOn_bind (x : Effect σ ε α) (f : α → Effect σ ε β) (s : σ) :
    (x >>= f).runOn s = match (x.runOn s).1 with
      | .ok a => (f a).runOn (x.runOn s).2
      | .error e => (.error e, (x.runOn s).2) := by
  change ExceptT.bindCont f (x s).1 (x s).2 = _
  rw [runOn]
  cases (x s).1 <;> rfl

theorem runOn_tryCatch (x : Effect σ ε α) (handle : ε → Effect σ ε α) (s : σ) :
    (tryCatch x handle).runOn s = match (x.runOn s).1 with
      | .ok a => (.ok a, (x.runOn s).2)
      | .error e => (handle e).runOn (x.runOn s).2 := by
  change (match (x s).1 with | .ok a => _ | .error e => _ : StateM σ (Except ε α)) (x s).2 = _
  rw [runOn]
  cases (x s).1 <;> rfl

/-- The computation leaves states that satisfy `I` if it starts in one. -/
def Preserves (I : σ → Prop) (x : Effect σ ε α) : Prop := ∀ s, I s → I (x.runOn s).2

namespace Preserves

variable {I : σ → Prop}

theorem returns (a : α) : Preserves I (pure a : Effect σ ε α) := fun _ holds => holds

theorem throws (error : ε) : Preserves I (throw error : Effect σ ε α) := fun _ holds => holds

/-- The second part runs on what the first one returned. -/
theorem bind {x : Effect σ ε α} {f : α → Effect σ ε β} (first : Preserves I x)
    (next : ∀ a s, I s → (x.runOn s).1 = .ok a → I ((f a).runOn (x.runOn s).2).2) :
    Preserves I (x >>= f) := by
  intro s holds
  rw [runOn_bind]
  cases result : (x.runOn s).1 with
  | ok a => exact next a s holds result
  | error e => exact first s holds

theorem andThen {x : Effect σ ε α} {f : α → Effect σ ε β} (first : Preserves I x)
    (next : ∀ a, Preserves I (f a)) : Preserves I (x >>= f) :=
  first.bind fun a s holds _ => next a _ (first s holds)

theorem catches {x : Effect σ ε α} {handle : ε → Effect σ ε α} (tried : Preserves I x)
    (handled : ∀ e, Preserves I (handle e)) : Preserves I (tryCatch x handle) := by
  intro s holds
  rw [runOn_tryCatch]
  cases result : (x.runOn s).1 with
  | ok a => exact tried s holds
  | error e => exact handled e _ (tried s holds)

theorem branch {c : Prop} [Decidable c] {x y : Effect σ ε α} (yes : c → Preserves I x)
    (no : ¬ c → Preserves I y) : Preserves I (if c then x else y) := by
  split_ifs with h
  · exact yes h
  · exact no h

end Preserves

end Effect

end AdCoder.Foundation
